import Flowchart.Link
import Flowchart.Proofs.Octets
import Flowchart.Proofs.Texts

/-!
# Shared links carry their text

A link is shared by a query part behind its base: a separator, the name of the
parameter, and the encoded text.  Whatever the base is made of, reading the link
reads the base in the same way and the new part behind it: the part holds no sign
that an address is cut at, and nothing that is ignored in one.

* `Address.query_append`: the query of a longer address.
* `Link.read_share`: what a shared link is read as.
* `share_reads_back`: it is the text, unless the base carries a text already.
-/

namespace Flowchart

open Text

namespace Address

section LongerAddresses

/--
A part of an address that is put behind all others: a question mark or an ampersand,
and then signs at which no address is cut.
-/
structure IsTail (sep : Char) (tail : List Char) : Prop where
  sep : sep = '?' ∨ sep = '&'
  visible : ∀ c ∈ tail, 0x20 < c.toNat
  plain : ∀ c ∈ tail, c ≠ ':' ∧ c ≠ '#' ∧ c ≠ '?'

variable {sep : Char} {tail : List Char}

theorem IsTail.cons_visible
    (h : IsTail sep tail) :
    ∀ c ∈ sep :: tail, 0x20 < c.toNat := by
  rintro c (_ | ⟨_, hc⟩)
  · rcases h.sep with rfl | rfl <;> decide
  · exact h.visible c hc

theorem IsTail.not_mem_cons
    (h : IsTail sep tail) :
    ':' ∉ sep :: tail ∧ '#' ∉ sep :: tail := by
  constructor
  · rintro (_ | ⟨_, hc⟩)
    · rcases h.sep with hsep | hsep <;> cases hsep
    · exact (h.plain _ hc).1 rfl
  · rintro (_ | ⟨_, hc⟩)
    · rcases h.sep with hsep | hsep <;> cases hsep
    · exact (h.plain _ hc).2.1 rfl

/-- Nothing of the tail is ignored. -/
theorem clean_append
    (h : IsTail sep tail)
    (cs : List Char) :
    clean (cs ++ sep :: tail) = clean cs ++ sep :: tail := by
  have hvisible := h.cons_visible
  have hdrop : (sep :: tail).dropWhile (·.toNat ≤ 0x20) = sep :: tail := by
    have hsep := hvisible sep List.mem_cons_self
    simp [Nat.not_le.mpr hsep]
  have hkeep :
      (sep :: tail).filter (fun c => !(c == '\t' || c == '\r' || c == '\n')) = sep :: tail := by
    rw [List.filter_eq_self]
    intro c hc
    have hlt := hvisible c hc
    simp only [Bool.not_eq_true', Bool.or_eq_false_iff, beq_eq_false_iff_ne]
    refine ⟨⟨?_, ?_⟩, ?_⟩ <;> rintro rfl <;> exact absurd hlt (by decide)
  unfold clean
  rw [List.dropWhile_append, hdrop]
  split
  · rename_i hempty
    rw [List.isEmpty_iff] at hempty
    rw [hempty, hkeep]
    rfl
  · rw [List.filter_append, hkeep]

/-- What is visible is not ignored. -/
theorem mem_clean_iff
    {cs : List Char} {c : Char}
    (h : 0x20 < c.toNat) :
    c ∈ clean cs ↔ c ∈ cs := by
  have hkept : (!(c == '\t' || c == '\r' || c == '\n')) = true := by
    simp only [Bool.not_eq_true', Bool.or_eq_false_iff, beq_eq_false_iff_ne]
    refine ⟨⟨?_, ?_⟩, ?_⟩ <;> rintro rfl <;> exact absurd h (by decide)
  unfold clean
  rw [List.mem_filter]
  constructor
  · exact fun hc => List.dropWhile_subset _ hc.1
  · intro hc
    refine ⟨?_, hkept⟩
    rw [← List.takeWhile_append_dropWhile (p := (·.toNat ≤ 0x20)) (l := cs)] at hc
    rcases List.mem_append.mp hc with hc | hc
    · have hle : c.toNat ≤ 0x20 := by simpa using of_mem_takeWhile hc
      omega
    · exact hc

/-- What follows the scheme, by what is known of the first colon. -/
theorem afterScheme_append
    (h : IsTail sep tail)
    (cs : List Char) :
    afterScheme (cs ++ sep :: tail) = afterScheme cs ++ sep :: tail := by
  have hcolon := h.not_mem_cons.1
  unfold afterScheme
  cases hcut : cut ':' cs with
  | mk front back =>
      cases back with
      | none =>
          obtain ⟨_, hmem⟩ := cut_eq_none_iff.mp hcut
          have hcut' : cut ':' (cs ++ sep :: tail) = (cs ++ sep :: tail, none) :=
            cut_eq_none_iff.mpr ⟨rfl, by simpa [hmem] using hcolon⟩
          rw [hcut']
      | some back =>
          obtain ⟨rfl, hmem⟩ := cut_eq_some_iff.mp hcut
          have hcut' :
              cut ':' (front ++ ':' :: back ++ sep :: tail) =
                (front, some (back ++ sep :: tail)) :=
            cut_eq_some_iff.mpr ⟨by simp, hmem⟩
          rw [hcut']
          dsimp only
          split
          · rfl
          · rfl

/-- No scheme holds a question mark. -/
theorem mem_afterScheme
    {cs : List Char}
    (h : '?' ∈ cs) :
    '?' ∈ afterScheme cs := by
  unfold afterScheme
  split
  · rename_i front back hcut
    obtain ⟨rfl, _⟩ := cut_eq_some_iff.mp hcut
    split
    · rename_i hscheme
      have hfront : '?' ∉ front := by
        intro hmem
        unfold isScheme at hscheme
        split at hscheme
        · cases hscheme
        · rw [Bool.and_eq_true, List.all_eq_true] at hscheme
          rcases List.mem_cons.mp hmem with rfl | hmem
          · exact absurd hscheme.1 (by decide)
          · exact absurd (hscheme.2 '?' hmem) (by decide)
      simpa [hfront] using h
    · exact h
  · exact h

theorem afterScheme_subset
    (cs : List Char) :
    afterScheme cs ⊆ cs := by
  unfold afterScheme
  split
  · rename_i front back hcut
    obtain ⟨rfl, _⟩ := cut_eq_some_iff.mp hcut
    split
    · exact fun c hc => List.mem_append_right _ (List.mem_cons_of_mem _ hc)
    · exact List.Subset.refl _
  · exact List.Subset.refl _

/-- A run that ends within a text, or where the text ends, is not changed by what follows. -/
theorem span_append
    {p : Char → Bool} {front back : List Char}
    (h : (∃ c ∈ front, p c = false) ∨ ∀ c ∈ back.head?, p c = false) :
    (front ++ back).takeWhile p = front.takeWhile p ∧
      (front ++ back).dropWhile p = front.dropWhile p ++ back := by
  induction front with
  | nil =>
      have hback : ∀ c ∈ back.head?, p c = false := h.resolve_left (by simp)
      exact ⟨takeWhile_append_of_stop nofun hback, dropWhile_append_of_stop nofun hback⟩
  | cons c front ih =>
      by_cases hc : p c = true
      · have h' : (∃ c ∈ front, p c = false) ∨ ∀ c ∈ back.head?, p c = false := by
          rcases h with ⟨d, _ | ⟨_, hd⟩, hp⟩ | hback
          · exact absurd (hc.symm.trans hp) (by decide)
          · exact .inl ⟨d, hd, hp⟩
          · exact .inr hback
        obtain ⟨htake, hdrop⟩ := ih h'
        simp [hc, htake, hdrop]
      · simp [hc]

/-- A host ends where it did: at the tail, or before it. -/
theorem splitHost_append
    (h : IsTail sep tail)
    {cs : List Char}
    (hsep : sep = '?' ∨ '?' ∈ cs) :
    splitHost (cs ++ sep :: tail) = ((splitHost cs).1, (splitHost cs).2 ++ sep :: tail) := by
  have hslash : sep ≠ '/' := by
    rcases h.sep with rfl | rfl <;> decide
  match cs with
  | [] =>
      simp [splitHost, hslash]
  | [c] =>
      simp [splitHost, hslash]
  | c :: d :: rest =>
      by_cases hslashes : c = '/' ∧ d = '/'
      · obtain ⟨rfl, rfl⟩ := hslashes
        have hends :
            (∃ c ∈ rest, (!endsHost c) = false) ∨
              ∀ c ∈ (sep :: tail).head?, (!endsHost c) = false := by
          rcases hsep with rfl | hmem
          · right
            rintro c ⟨⟩
            decide
          · left
            refine ⟨'?', ?_, by decide⟩
            simpa using hmem
        obtain ⟨htake, hdrop⟩ := span_append hends
        simp only [List.cons_append, splitHost, htake, hdrop]
      · have hplain : ∀ more, splitHost (c :: d :: more) = ([], c :: d :: more) := by
          intro more
          unfold splitHost
          split
          · rename_i heq
            cases heq
            exact absurd ⟨rfl, rfl⟩ hslashes
          · rfl
        rw [List.cons_append, List.cons_append, hplain, hplain]
        rfl

/-- What follows a host stands in the address, and all question marks stand there. -/
theorem mem_splitHost
    {cs : List Char} :
    (splitHost cs).2 ⊆ cs ∧ ('?' ∈ cs → '?' ∈ (splitHost cs).2) := by
  unfold splitHost
  split
  · rename_i rest
    refine ⟨fun c hc => ?_, fun hmem => ?_⟩
    · exact List.mem_cons_of_mem _ (List.mem_cons_of_mem _ (List.dropWhile_subset _ hc))
    · have hrest : '?' ∈ rest := by simpa using hmem
      rw [← List.takeWhile_append_dropWhile (p := (!endsHost ·)) (l := rest)] at hrest
      rcases List.mem_append.mp hrest with hhost | hafter
      · exact absurd (of_mem_takeWhile hhost) (by decide)
      · exact hafter
  · exact ⟨List.Subset.refl _, id⟩

/-- What follows the first question mark grows by the tail, or is the tail without its sign. -/
theorem cut_append
    {rest : List Char} {marked : Prop} [Decidable marked]
    (hmark : '?' ∈ rest ↔ marked)
    (hsep : sep = if marked then '&' else '?') :
    (cut '?' (rest ++ sep :: tail)).2.getD [] =
      if marked then (cut '?' rest).2.getD [] ++ sep :: tail else tail := by
  by_cases hmarked : marked
  · rw [if_pos hmarked]
    cases hcut : cut '?' rest with
    | mk front back =>
        cases back with
        | none =>
            exact absurd (hmark.mpr hmarked) (cut_eq_none_iff.mp hcut).2
        | some back =>
            obtain ⟨rfl, hfront⟩ := cut_eq_some_iff.mp hcut
            have hcut' :
                cut '?' (front ++ '?' :: back ++ sep :: tail) =
                  (front, some (back ++ sep :: tail)) :=
              cut_eq_some_iff.mpr ⟨by simp, hfront⟩
            rw [hcut']
            rfl
  · rw [if_neg hmarked] at hsep
    have hcut : cut '?' (rest ++ sep :: tail) = (rest, some tail) :=
      cut_eq_some_iff.mpr ⟨by rw [hsep], fun hmem => hmarked (hmark.mp hmem)⟩
    rw [if_neg hmarked, hcut]
    rfl

/--
The query of a longer address: it grows by the tail, or it is the tail without its sign.
The host of the longer address ends where it did, at a mark that was there or at the tail.
-/
theorem query_append
    (h : IsTail sep tail)
    {cs : List Char}
    (hfragment : '#' ∉ cs)
    (hsep : sep = if '?' ∈ cs then '&' else '?') :
    query (cs ++ sep :: tail) =
      (query cs).map fun existing => if '?' ∈ cs then existing ++ sep :: tail else tail := by
  have hmark : '?' ∈ clean cs ↔ '?' ∈ cs := mem_clean_iff (by decide)
  have hhash : '#' ∉ afterScheme (clean cs) := fun hmem =>
    hfragment ((mem_clean_iff (by decide)).mp (afterScheme_subset _ hmem))
  have hquestion : sep = '?' ∨ '?' ∈ afterScheme (clean cs) := by
    by_cases hmem : '?' ∈ cs
    · exact .inr (mem_afterScheme (hmark.mpr hmem))
    · exact .inl (hsep.trans (if_neg hmem))
  have hmark' : '?' ∈ (splitHost (afterScheme (clean cs))).2 ↔ '?' ∈ cs := by
    refine ⟨fun hmem => ?_, fun hmem => mem_splitHost.2 (mem_afterScheme (hmark.mpr hmem))⟩
    exact hmark.mp (afterScheme_subset _ (mem_splitHost.1 hmem))
  have hrest : '#' ∉ (splitHost (afterScheme (clean cs))).2 := fun hmem =>
    hhash (mem_splitHost.1 hmem)
  have hrest' : '#' ∉ (splitHost (afterScheme (clean cs))).2 ++ sep :: tail := by
    rw [List.mem_append, not_or]
    exact ⟨hrest, h.not_mem_cons.2⟩
  unfold query
  rw [clean_append h, afterScheme_append h, splitHost_append h hquestion]
  dsimp only
  cases checkBrackets (splitHost (afterScheme (clean cs))).1 with
  | error fault =>
      rfl
  | ok _ =>
      cases checkCharacters (splitHost (afterScheme (clean cs))).1 with
      | error fault =>
          rfl
      | ok _ =>
          rw [cut_eq_none_iff.mpr ⟨rfl, hrest⟩, cut_eq_none_iff.mpr ⟨rfl, hrest'⟩]
          refine congrArg Except.ok ?_
          exact cut_append hmark' hsep

end LongerAddresses

end Address

namespace Link

section Parameters

/-- What was encoded is read in plain: it holds no plus sign. -/
theorem plain_encode
    (cs : List Char) :
    plain (Percent.encode cs) = cs := by
  have hplus :
      (Percent.encode cs).map (fun c => if c = '+' then ' ' else c) = Percent.encode cs := by
    refine (List.map_congr_left ?_).trans (List.map_id _)
    intro c hc
    refine if_neg ?_
    rintro rfl
    rcases Percent.isUnreserved_of_mem_encode hc with hplus | hpercent
    · exact absurd hplus (by decide)
    · exact absurd hpercent (by decide)
  unfold plain
  rw [hplus, Percent.decode_encode]

/-- A parameter is read at its first sign of equality, unless it has no value. -/
theorem readParameter?_append
    {name value : List Char}
    (hname : '=' ∉ name)
    (hvalue : value ≠ []) :
    readParameter? (name ++ '=' :: value) = some (plain name, plain value) := by
  obtain ⟨c, value, rfl⟩ := List.exists_cons_of_ne_nil hvalue
  unfold readParameter?
  rw [cut_eq_some_iff.mpr ⟨rfl, hname⟩]

/-- A name and a value that were encoded are read as they were. -/
theorem readParameter?_encode
    (name : List Char) {value : List Char}
    (hvalue : value ≠ []) :
    readParameter? (Percent.encode name ++ '=' :: Percent.encode value) = some (name, value) := by
  have hname : '=' ∉ Percent.encode name := by
    intro hmem
    rcases Percent.isUnreserved_of_mem_encode hmem with hsign | hpercent
    · exact absurd hsign (by decide)
    · exact absurd hpercent (by decide)
  have hvalue' : Percent.encode value ≠ [] := by
    intro hnil
    have hempty := plain_encode value
    rw [hnil] at hempty
    exact hvalue (hempty.symm.trans (plain_encode []))
  rw [readParameter?_append hname hvalue', plain_encode, plain_encode]

theorem parameters_append
    (query query' : List Char) :
    parameters (query ++ '&' :: query') = parameters query ++ parameters query' := by
  unfold parameters
  rw [splitOn_append, List.filterMap_append]

end Parameters

section SharedLinks

/-- The last part of a shared link: the name of the parameter, and the encoded text. -/
def written (text : String) : List Char :=
  parameter ++ '=' :: Percent.encode text.toList

/-- What separates that part from the base. -/
def separator (base : String) : Char :=
  if '?' ∈ base.toList then '&' else '?'

theorem toList_share
    (base text : String) :
    (share base text).toList = base.toList ++ separator base :: written text := by
  unfold share separator written parameter
  by_cases hmem : '?' ∈ base.toList
  · simp [hmem, String.toList_append]
  · simp [hmem, String.toList_append]

/-- The signs of that part: those of the encoding, and the one between name and text. -/
theorem of_mem_written
    {text : String} {c : Char}
    (h : c ∈ written text) :
    c = '=' ∨ Percent.isUnreserved c = true ∨ c = '%' := by
  have hname : parameter.all Percent.isUnreserved = true := by
    decide
  rcases List.mem_append.mp h with h | h
  · exact .inr (.inl (List.all_eq_true.mp hname c h))
  · rcases List.mem_cons.mp h with rfl | h
    · exact .inl rfl
    · exact .inr (Percent.isUnreserved_of_mem_encode h)

theorem not_mem_written
    (text : String) :
    ':' ∉ written text ∧ '#' ∉ written text ∧ '?' ∉ written text ∧ '&' ∉ written text := by
  refine ⟨?_, ?_, ?_, ?_⟩ <;> exact fun hmem => absurd (of_mem_written hmem) (by decide)

theorem isTail_written
    (base text : String) :
    Address.IsTail (separator base) (written text) where
  sep := by
    unfold separator
    split
    · exact .inr rfl
    · exact .inl rfl
  visible := by
    intro c hc
    rcases of_mem_written hc with rfl | hsign | rfl
    · decide
    · exact (Percent.of_isUnreserved hsign).1.1
    · decide
  plain := by
    obtain ⟨hcolon, hhash, hmark, _⟩ := not_mem_written text
    rintro c hc
    exact ⟨fun h => hcolon (h ▸ hc), fun h => hhash (h ▸ hc), fun h => hmark (h ▸ hc)⟩

/-- That part is one parameter with the text as its value. -/
theorem parameters_written
    {text : String}
    (htext : text ≠ "") :
    parameters (written text) = [(parameter, text.toList)] := by
  have hvalue : text.toList ≠ [] := by
    simpa using htext
  have hread : readParameter? (written text) = some (parameter, text.toList) := by
    have hname : Percent.encode parameter = parameter := by
      decide
    have hencoded := readParameter?_encode parameter hvalue
    rwa [hname] at hencoded
  unfold parameters
  rw [splitOn_eq_singleton (not_mem_written text).2.2.2, List.filterMap_cons_some hread,
    List.filterMap_nil]

/-- Question marks in front of a query do not count, and that part starts with none. -/
theorem dropWhile_written
    (existing : List Char) (text : String) :
    (existing ++ '&' :: written text).dropWhile (· == '?') =
        existing.dropWhile (· == '?') ++ '&' :: written text ∧
      (written text).dropWhile (· == '?') = written text := by
  refine ⟨?_, rfl⟩
  rw [List.dropWhile_append]
  split
  · rename_i hempty
    rw [List.isEmpty_iff] at hempty
    rw [hempty]
    rfl
  · rfl

/-- The text that a query carries, if it carries one. -/
def carried? (query : List Char) : Option String :=
  ((parameters (query.dropWhile (· == '?'))).find? (·.1 == parameter)).map (String.ofList ·.2)

/-- A query carries the text of its last part unless it carries one before. -/
theorem carried?_append
    {text : String}
    (htext : text ≠ "")
    (existing : List Char) :
    carried? (existing ++ '&' :: written text) = some ((carried? existing).getD text) := by
  unfold carried?
  rw [(dropWhile_written existing text).1, parameters_append, parameters_written htext,
    List.find?_append]
  cases (parameters (existing.dropWhile (· == '?'))).find? (·.1 == parameter) with
  | none =>
      simp
  | some found =>
      rfl

theorem carried?_written
    {text : String}
    (htext : text ≠ "") :
    carried? (written text) = some text := by
  unfold carried?
  rw [(dropWhile_written [] text).2, parameters_written htext]
  simp

/-- A link is read as the text that its query carries. -/
theorem read_eq
    {link text : String} {query : List Char}
    (hquery :
      (if isAddress link.toList then Address.query link.toList else .ok link.toList) = .ok query)
    (hcarried : carried? query = some text)
    (type : String) :
    read link type = .ok text := by
  obtain ⟨⟨name, value⟩, hfound, rfl⟩ := Option.map_eq_some_iff.mp hcarried
  unfold read
  dsimp only
  by_cases haddress : isAddress link.toList = true
  · rw [if_pos haddress] at hquery ⊢
    simp only [hquery, bind, Except.bind, hfound]
    rfl
  · rw [if_neg haddress] at hquery ⊢
    cases hquery
    simp only [bind, Except.bind, hfound]
    rfl

/-- What a shared link is read as: the text of its base, or else the one that it was made with. -/
theorem read_share
    {base text : String} {existing : List Char}
    (htext : text ≠ "")
    (hbase : isAddress base.toList = true)
    (hfragment : '#' ∉ base.toList)
    (hexisting : Address.query base.toList = .ok existing)
    (type : String) :
    read (share base text) type =
      .ok (if '?' ∈ base.toList then (carried? existing).getD text else text) := by
  have haddress : isAddress (share base text).toList = true := by
    unfold isAddress at hbase ⊢
    rw [toList_share]
    simp only [Bool.or_eq_true, holds_eq_true_iff, beq_iff_eq] at hbase ⊢
    rcases hbase with hscheme | hslash
    · exact .inl (hscheme.trans (List.infix_append' [] _ _))
    · exact .inr (by rw [List.head?_append, hslash]; rfl)
  have hquery := Address.query_append (isTail_written base text) hfragment rfl
  rw [← toList_share, hexisting] at hquery
  refine read_eq (by rw [if_pos haddress]; exact hquery) ?_ type
  unfold separator
  split
  · exact carried?_append htext existing
  · exact carried?_written htext

/-- Without a base there is only the query, behind its question mark. -/
theorem read_share_of_empty
    {text : String}
    (htext : text ≠ "")
    (type : String) :
    read (share "" text) type = .ok text := by
  have hlist : (share "" text).toList = '?' :: written text := toList_share "" text
  have haddress : isAddress (share "" text).toList = false := by
    have hcolon : ':' ∉ '?' :: written text := by
      simpa using (not_mem_written text).1
    have hscheme : ¬ "://".toList <:+: '?' :: written text := fun h =>
      hcolon (h.subset (by decide))
    rw [hlist, isAddress, Bool.or_eq_false_iff]
    refine ⟨?_, rfl⟩
    rw [← Bool.not_eq_true, holds_eq_true_iff]
    exact hscheme
  refine read_eq (by rw [haddress, if_neg (by decide)]) ?_ type
  rw [hlist]
  exact carried?_written htext

end SharedLinks

end Link

/--
A shared link carries the text.  Any text but the empty one is read from the link that
was made of it, if the base is empty or an address without a fragment, the link is
accepted as an address, and no parameter of the base already has the name of the one
for texts; question marks in front of the query of the base do not count.
-/
theorem share_reads_back
    {base text : String}
    (htext : text ≠ "")
    (hbase :
      base = "" ∨ base.toList.head? = some '/' ∨ "://".toList <:+: base.toList)
    (hfragment : '#' ∉ base.toList)
    (haccepted : ∃ query, Address.query (Link.share base text).toList = .ok query)
    (hfree :
      ∀ existing, Address.query base.toList = .ok existing →
        ∀ p ∈ Link.parameters (existing.dropWhile (· == '?')), p.1 ≠ Link.parameter)
    (type : String) :
    Link.read (Link.share base text) type = .ok text := by
  rcases hbase with rfl | haddress
  · exact Link.read_share_of_empty htext type
  · have hbase : Link.isAddress base.toList = true := by
      unfold Link.isAddress
      simp only [Bool.or_eq_true, holds_eq_true_iff, beq_iff_eq]
      exact haddress.symm
    obtain ⟨existing, hexisting⟩ : ∃ existing, Address.query base.toList = .ok existing := by
      obtain ⟨query, hquery⟩ := haccepted
      rw [Link.toList_share,
        Address.query_append (Link.isTail_written base text) hfragment rfl] at hquery
      cases hexisting : Address.query base.toList with
      | error fault =>
          rw [hexisting] at hquery
          cases hquery
      | ok existing =>
          exact ⟨existing, rfl⟩
    have hnone : Link.carried? existing = none := by
      unfold Link.carried?
      rw [Option.map_eq_none_iff, List.find?_eq_none]
      intro p hp
      simpa using hfree existing hexisting p hp
    rw [Link.read_share htext hbase hfragment hexisting type, hnone, Option.getD_none, ite_self]

/-- A base with a parameter for texts that is empty, and with another one. -/
theorem share_reads_back_of_blank_parameter :
    Link.share "https://h/?code=&x=1" "A & B\n50% é+" =
        "https://h/?code=&x=1&code=A%20%26%20B%0A50%25%20%C3%A9%2B" ∧
      "A & B\n50% é+" ≠ "" ∧
      "://".toList <:+: "https://h/?code=&x=1".toList ∧
      '#' ∉ "https://h/?code=&x=1".toList ∧
      Address.query "https://h/?code=&x=1".toList = .ok "code=&x=1".toList ∧
      Link.parameters ("code=&x=1".toList.dropWhile (· == '?')) = [(['x'], ['1'])] ∧
      Link.read (Link.share "https://h/?code=&x=1" "A & B\n50% é+") "Flowchart" =
        .ok "A & B\n50% é+" := by
  have hquery : Address.query "https://h/?code=&x=1".toList = .ok "code=&x=1".toList := by
    rfl
  have hparameters :
      Link.parameters ("code=&x=1".toList.dropWhile (· == '?')) = [(['x'], ['1'])] := by
    have hsplit : ("code=&x=1".toList.dropWhile (· == '?')).splitOn '&' =
        ["code=".toList, "x=1".toList] := by
      decide
    have hblank : Link.readParameter? "code=".toList = none := by
      rfl
    have hread : Link.readParameter? "x=1".toList = some (['x'], ['1']) :=
      Link.readParameter?_encode ['x'] (List.cons_ne_nil '1' [])
    unfold Link.parameters
    rw [hsplit, List.filterMap_cons_none hblank, List.filterMap_cons_some hread,
      List.filterMap_nil]
  have hpart : "://".toList <:+: "https://h/?code=&x=1".toList :=
    ⟨"https".toList, "h/?code=&x=1".toList, rfl⟩
  refine ⟨by decide +kernel, by decide, hpart, by decide, hquery, hparameters, ?_⟩
  refine share_reads_back (by decide) (.inr (.inr hpart)) (by decide) ?_ ?_ "Flowchart"
  · rw [Link.toList_share, Address.query_append (Link.isTail_written _ _) (by decide) rfl,
      hquery]
    exact ⟨_, rfl⟩
  · intro existing hexisting
    cases hquery.symm.trans hexisting
    rw [hparameters]
    decide

/--
Question marks in front of a query do not count: the base has no parameter of the name
of the one for texts, but the link made of it is read as the value of `?code`.
-/
theorem share_misreads :
    "/??code=5".toList.head? = some '/' ∧
      '#' ∉ "/??code=5".toList ∧
      (∃ query, Address.query (Link.share "/??code=5" "x").toList = .ok query) ∧
      Address.query "/??code=5".toList = .ok "?code=5".toList ∧
      (∀ p ∈ Link.parameters "?code=5".toList, p.1 ≠ Link.parameter) ∧
      Link.read (Link.share "/??code=5" "x") "Flowchart" = .ok "5" ∧
      Link.read (Link.share "/??code=5" "x") "Flowchart" ≠ .ok "x" := by
  have hquery : Address.query "/??code=5".toList = .ok "?code=5".toList := by
    rfl
  have hshared :
      Address.query (Link.share "/??code=5" "x").toList =
        .ok ("?code=5".toList ++ '&' :: Link.written "x") := by
    rw [Link.toList_share, Address.query_append (Link.isTail_written _ "x") (by decide) rfl,
      hquery]
    rfl
  have hcarried : Link.carried? "?code=5".toList = some "5" := by
    have hstart : "?code=5".toList.dropWhile (· == '?') = Link.written "5" := by
      decide
    unfold Link.carried?
    rw [hstart, Link.parameters_written (by decide)]
    rfl
  have hread : Link.read (Link.share "/??code=5" "x") "Flowchart" = .ok "5" := by
    rw [Link.read_share (by decide) (by decide) (by decide) hquery, hcarried, if_pos (by decide)]
    rfl
  have hparameters : Link.parameters "?code=5".toList = [("?code".toList, Link.plain ['5'])] := by
    have hname : Link.plain "?code".toList = "?code".toList :=
      Percent.decode_of_pieces (by decide)
    have hparameter :
        Link.readParameter? ("?code".toList ++ '=' :: ['5']) =
          some (Link.plain "?code".toList, Link.plain ['5']) :=
      Link.readParameter?_append (by decide) (by decide)
    unfold Link.parameters
    rw [splitOn_eq_singleton (by decide), ← hname]
    exact List.filterMap_cons_some hparameter
  refine ⟨by decide, by decide, ⟨_, hshared⟩, hquery, ?_, hread, ?_⟩
  · rw [hparameters]
    intro p hp
    rw [List.mem_singleton.mp hp]
    decide
  · rw [hread]
    simp

end Flowchart
