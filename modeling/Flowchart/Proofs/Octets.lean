import Flowchart.Text.Percent

/-!
# Texts as octets and back

Characters are written as one to four octets, and octets as a percent sign and two
digits.  Reading takes the octets of a character back one after the other: the first
one tells how many follow, and narrows the range of the next one where other
octets would write a character too long or none at all.

* `Utf8.decode_encode`: the octets of a text are read as the text.
* `Percent.decode_encode`: so is its percent encoding.
-/

namespace Flowchart

namespace Utf8

/-- The code points that characters have. -/
theorem toNat_bounds
    (c : Char) :
    c.toNat < 0xD800 ∨ 0xDFFF < c.toNat ∧ c.toNat < 0x110000 :=
  c.valid

section Octet

theorem decodeFrom_whole
    {b : Nat}
    (h : b < 0x80)
    (bs : List Nat) :
    decodeFrom none (b :: bs) = Char.ofNat b :: decodeFrom none bs := by
  simp [decodeFrom, decodeFrom.fresh, lead, h]

/-- The first octet of a character of several tells how many are owed. -/
theorem decodeFrom_part
    {b : Nat} {p : Partial}
    (h : lead b = .part p)
    (bs : List Nat) :
    decodeFrom none (b :: bs) = decodeFrom (some p) bs := by
  simp [decodeFrom, decodeFrom.fresh, h]

/-- An octet in the range that is expected, before the last one. -/
theorem decodeFrom_next
    {p : Partial} {b : Nat}
    (hlow : p.low ≤ b)
    (hhigh : b ≤ p.high)
    (howed : 1 < p.owed)
    (bs : List Nat) :
    decodeFrom (some p) (b :: bs) =
      decodeFrom (some ⟨p.owed - 1, 0x80, 0xBF, p.value * 0x40 + b % 0x40⟩) bs := by
  simp [decodeFrom, hlow, hhigh, Nat.not_le.mpr howed]

/-- The last octet of a character. -/
theorem decodeFrom_last
    {p : Partial} {b : Nat}
    (hlow : p.low ≤ b)
    (hhigh : b ≤ p.high)
    (howed : p.owed = 1)
    (bs : List Nat) :
    decodeFrom (some p) (b :: bs) =
      Char.ofNat (p.value * 0x40 + b % 0x40) :: decodeFrom none bs := by
  simp [decodeFrom, hlow, hhigh, howed]

end Octet

section Character

/-- The first of three octets admits the second one. -/
theorem exists_lead_of_three
    {n : Nat}
    (hlow : 0x800 ≤ n)
    (hhigh : n < 0x10000)
    (hchar : n < 0xD800 ∨ 0xDFFF < n) :
    ∃ low high, lead (0xE0 + n / 0x1000) = .part ⟨2, low, high, n / 0x1000⟩ ∧
      low ≤ 0x80 + n / 0x40 % 0x40 ∧ 0x80 + n / 0x40 % 0x40 ≤ high := by
  unfold lead
  rw [if_neg (by omega), if_neg (by omega), if_neg (by omega), if_pos (by omega),
    Nat.add_sub_cancel_left]
  refine ⟨_, _, rfl, ?_, ?_⟩
  · split <;> omega
  · split <;> omega

/-- The first of four octets admits the second one. -/
theorem exists_lead_of_four
    {n : Nat}
    (hlow : 0x10000 ≤ n)
    (hhigh : n < 0x110000) :
    ∃ low high, lead (0xF0 + n / 0x40000) = .part ⟨3, low, high, n / 0x40000⟩ ∧
      low ≤ 0x80 + n / 0x1000 % 0x40 ∧ 0x80 + n / 0x1000 % 0x40 ≤ high := by
  unfold lead
  rw [if_neg (by omega), if_neg (by omega), if_neg (by omega), if_neg (by omega),
    if_pos (by omega), Nat.add_sub_cancel_left]
  refine ⟨_, _, rfl, ?_, ?_⟩
  · split <;> omega
  · split <;> omega

/--
The octets of a character, of which there are one to four, are read as it, whatever
follows.
-/
theorem decodeFrom_encode
    (c : Char) (bs : List Nat) :
    decodeFrom none (encode c ++ bs) = c :: decodeFrom none bs := by
  have hbounds := toNat_bounds c
  have hchar : ∀ n, n = c.toNat → Char.ofNat n = c := by
    rintro n rfl
    exact Char.ofNat_toNat c
  unfold encode
  dsimp only
  split
  · rename_i hone
    rw [List.singleton_append, decodeFrom_whole hone, hchar _ rfl]
  split
  · rename_i hone htwo
    have hlead : lead (0xC0 + c.toNat / 0x40) = .part ⟨1, 0x80, 0xBF, c.toNat / 0x40⟩ := by
      unfold lead
      rw [if_neg (by omega), if_neg (by omega), if_pos (by omega), Nat.add_sub_cancel_left]
    simp only [List.cons_append, List.nil_append]
    rw [decodeFrom_part hlead, decodeFrom_last (by dsimp only; omega) (by dsimp only; omega) rfl]
    rw [hchar]
    dsimp only
    omega
  split
  · rename_i hone htwo hthree
    obtain ⟨low, high, hlead, hlow, hhigh⟩ :=
      exists_lead_of_three (n := c.toNat) (by omega) hthree (by omega)
    simp only [List.cons_append, List.nil_append]
    rw [decodeFrom_part hlead, decodeFrom_next hlow hhigh (by decide : 1 < 2),
      decodeFrom_last (by dsimp only; omega) (by dsimp only; omega) rfl, hchar]
    dsimp only
    omega
  · rename_i hone htwo hthree
    obtain ⟨low, high, hlead, hlow, hhigh⟩ :=
      exists_lead_of_four (n := c.toNat) (by omega) (by omega)
    simp only [List.cons_append, List.nil_append]
    rw [decodeFrom_part hlead, decodeFrom_next hlow hhigh (by decide : 1 < 3),
      decodeFrom_next (by dsimp only; omega) (by dsimp only; omega) (by decide : 1 < 2),
      decodeFrom_last (by dsimp only; omega) (by dsimp only; omega) rfl, hchar]
    dsimp only
    omega

/-- The octets of a text are read as the text. -/
theorem decode_encode
    (cs : List Char) :
    decode (cs.flatMap encode) = cs := by
  unfold decode
  induction cs with
  | nil =>
      simp [decodeFrom]
  | cons c cs ih =>
      rw [List.flatMap_cons, decodeFrom_encode, ih]

/-- Octets are eight bits. -/
theorem lt_of_mem_encode
    {c : Char} {b : Nat}
    (h : b ∈ encode c) :
    b < 0x100 := by
  have hbounds := toNat_bounds c
  unfold encode at h
  dsimp only at h
  split at h
  · rw [List.mem_singleton] at h
    omega
  split at h
  · simp only [List.mem_cons, List.not_mem_nil, or_false] at h
    omega
  split at h
  · simp only [List.mem_cons, List.not_mem_nil, or_false] at h
    omega
  · simp only [List.mem_cons, List.not_mem_nil, or_false] at h
    omega

theorem encode_of_ascii
    {c : Char}
    (h : c.toNat < 0x80) :
    encode c = [c.toNat] :=
  if_pos h

end Character

end Utf8

namespace Percent

/-- The digits of an octet, by their values. -/
theorem hexValue?_hexDigit
    {n : Nat}
    (h : n < 16) :
    hexValue? (hexDigit n) = some n := by
  have hall : (List.range 16).all (fun n => hexValue? (hexDigit n) == some n) = true := by
    decide
  exact beq_iff_eq.mp (List.all_eq_true.mp hall n (List.mem_range.mpr h))

/-- An encoded octet is read as it. -/
theorem piecesFrom_encodeOctet
    {b : Nat}
    (h : b < 0x100)
    (rest : List Char) :
    piecesFrom 0 (encodeOctet b ++ rest) = .octet b :: piecesFrom 0 rest := by
  have hoctet : octet? (hexDigit (b / 16) :: hexDigit (b % 16) :: rest) = some b := by
    simp only [octet?, hexValue?_hexDigit (show b / 16 < 16 by omega),
      hexValue?_hexDigit (Nat.mod_lt b (by decide)), Option.bind_eq_bind, Option.bind_some,
      Option.pure_def, Option.some.injEq]
    omega
  simp [encodeOctet, piecesFrom, hoctet]

/-- Letters and digits of ASCII are visible. -/
theorem visible_of_isAlphanum
    {c : Char}
    (h : c.isAlphanum = true) :
    0x20 < c.toNat ∧ c.toNat < 0x80 := by
  have hrange : ∀ low high : UInt32, 0x20 < low.toNat → high.toNat < 0x80 →
      low ≤ c.val → c.val ≤ high → 0x20 < c.toNat ∧ c.toNat < 0x80 :=
    fun _ _ hlow hhigh hge hle =>
      ⟨Nat.lt_of_lt_of_le hlow (UInt32.le_iff_toNat_le.mp hge),
        Nat.lt_of_le_of_lt (UInt32.le_iff_toNat_le.mp hle) hhigh⟩
  rcases Bool.or_eq_true_iff.mp h with hletter | hdigit
  · rcases Bool.or_eq_true_iff.mp hletter with hupper | hlower
    · obtain ⟨hge, hle⟩ := of_decide_eq_true hupper
      exact hrange _ _ (by decide) (by decide) hge hle
    · obtain ⟨hge, hle⟩ := Bool.and_eq_true_iff.mp hlower
      exact hrange _ _ (by decide) (by decide) (of_decide_eq_true hge) (of_decide_eq_true hle)
  · obtain ⟨hge, hle⟩ := Bool.and_eq_true_iff.mp hdigit
    exact hrange _ _ (by decide) (by decide) (of_decide_eq_true hge) (of_decide_eq_true hle)

/-- Characters that stand for themselves are visible ASCII, and neither percent nor plus signs. -/
theorem of_isUnreserved
    {c : Char}
    (h : isUnreserved c = true) :
    (0x20 < c.toNat ∧ c.toNat < 0x80) ∧ c ≠ '%' ∧ c ≠ '+' := by
  refine ⟨?_, ?_, ?_⟩
  · simp only [isUnreserved, Bool.or_eq_true, beq_iff_eq] at h
    rcases h with (((h | rfl) | rfl) | rfl) | rfl
    · exact visible_of_isAlphanum h
    all_goals decide
  · rintro rfl
    exact absurd h (by decide)
  · rintro rfl
    exact absurd h (by decide)

theorem piecesFrom_of_isUnreserved
    {c : Char}
    (h : isUnreserved c = true)
    (rest : List Char) :
    piecesFrom 0 (c :: rest) = .octet c.toNat :: piecesFrom 0 rest := by
  obtain ⟨⟨_, hascii⟩, hpercent, _⟩ := of_isUnreserved h
  simp [piecesFrom, hpercent, hascii]

/-- The pieces of an encoded text are the octets of the text. -/
theorem pieces_encode
    (cs : List Char) :
    pieces (encode cs) = (cs.flatMap Utf8.encode).map .octet := by
  have hoctets :
      ∀ (bs : List Nat) (rest : List Char), (∀ b ∈ bs, b < 0x100) →
        piecesFrom 0 (bs.flatMap encodeOctet ++ rest) = bs.map .octet ++ piecesFrom 0 rest := by
    intro bs rest hbs
    induction bs with
    | nil =>
        rfl
    | cons b bs ih =>
        rw [List.flatMap_cons, List.append_assoc,
          piecesFrom_encodeOctet (hbs b List.mem_cons_self),
          ih fun b' hb' => hbs b' (List.mem_cons_of_mem b hb')]
        rfl
  unfold pieces encode
  induction cs with
  | nil =>
      rfl
  | cons c cs ih =>
      rw [List.flatMap_cons, List.flatMap_cons, List.map_append]
      split
      · rename_i hc
        rw [List.singleton_append, piecesFrom_of_isUnreserved hc, ih,
          Utf8.encode_of_ascii (of_isUnreserved hc).1.2]
        rfl
      · rw [hoctets _ _ fun b hb => Utf8.lt_of_mem_encode hb, ih]

/-- Octets are joined to the characters that they are read as together. -/
theorem join_octets
    (run bs : List Nat) :
    join run (bs.map .octet) = Utf8.decode (run.reverse ++ bs) := by
  induction bs generalizing run with
  | nil =>
      rw [List.append_nil]
      rfl
  | cons b bs ih =>
      rw [List.map_cons, join, ih, List.reverse_cons, List.append_assoc, List.singleton_append]

/-- A text whose pieces are the octets of another one is read as that one. -/
theorem decode_of_pieces
    {cs plain : List Char}
    (h : pieces cs = (plain.flatMap Utf8.encode).map .octet) :
    decode cs = plain := by
  unfold decode
  rw [h, join_octets, List.reverse_nil, List.nil_append, Utf8.decode_encode]

/-- An encoded text is read as the text. -/
theorem decode_encode
    (cs : List Char) :
    decode (encode cs) = cs :=
  decode_of_pieces (pieces_encode cs)

/-- What stands in an encoded text: signs that stand for themselves, percent signs, and digits. -/
theorem isUnreserved_of_mem_encode
    {cs : List Char} {c : Char}
    (h : c ∈ encode cs) :
    isUnreserved c = true ∨ c = '%' := by
  have hdigit : ∀ n < 16, isUnreserved (hexDigit n) = true := by
    intro n hn
    have hall : (List.range 16).all (fun n => isUnreserved (hexDigit n)) = true := by
      decide
    exact List.all_eq_true.mp hall n (List.mem_range.mpr hn)
  obtain ⟨c', _, hc⟩ := List.mem_flatMap.mp h
  split at hc
  · rename_i hc'
    rw [List.mem_singleton] at hc
    exact .inl (hc ▸ hc')
  · obtain ⟨b, hb, hc⟩ := List.mem_flatMap.mp hc
    have hlt := Utf8.lt_of_mem_encode hb
    simp only [encodeOctet, List.mem_cons, List.not_mem_nil, or_false] at hc
    rcases hc with rfl | rfl | rfl
    · exact .inr rfl
    · exact .inl (hdigit _ (by omega))
    · exact .inl (hdigit _ (by omega))

end Percent

end Flowchart
