import Flowchart.Number.Decimal
import Flowchart.Proofs.Rounding
import Flowchart.Proofs.Texts
import Mathlib.Tactic.Ring

/-!
# Decimals and their places

The rank of a decimal depends on its value alone, so it does not matter how its
digits are spread over whole part, fraction and exponent.  The shortest decimal of
a finite value is read as that value, and a fraction is missing only if the value
is a whole number.

* `rank_lt_infinity_iff`: the values that are not rounded beyond all finite ones.
* `rank_shortest`: the shortest decimal is read as the value it stands for.
* `rank_parts`: whole part and fraction together are read as the decimal.
-/

namespace Flowchart
namespace Decimal

open Binary64 Text

section ValueRank

/-- The rank, reckoned with any number of places that makes the exponent whole. -/
theorem rank_eq
    {d : Decimal} {places : Nat}
    (h : 0 ≤ d.exponent + places) :
    d.rank =
      nearest (d.digits * 10 ^ (d.exponent + places).toNat * 2 ^ 1074) (10 ^ places) := by
  obtain ⟨digits, exponent⟩ := d
  have hpos : ∀ n : Nat, 0 < 10 ^ n := fun n => Nat.pow_pos (by decide)
  unfold rank
  generalize (1074 : Nat) = size
  cases exponent with
  | ofNat e =>
      have hexponent : ((Int.ofNat e : Int) + places).toNat = e + places := by
        rw [Int.ofNat_eq_natCast]
        omega
      have hexpand := nearest_mul_right (hpos places) (digits * 10 ^ e * 2 ^ size) 1
      rw [Nat.one_mul] at hexpand
      change nearest (digits * 10 ^ e * 2 ^ size) 1 = _
      rw [hexponent, ← hexpand, Nat.pow_add]
      congr 1
      ring
  | negSucc e =>
      have hplaces : places = (e + 1) + ((Int.negSucc e : Int) + places).toNat := by
        dsimp only at h
        omega
      change nearest (digits * 2 ^ size) (10 ^ (e + 1)) = _
      generalize ((Int.negSucc e : Int) + places).toNat = extra at hplaces
      have hexpand := nearest_mul_right (hpos extra) (digits * 2 ^ size) (10 ^ (e + 1))
      rw [hplaces, Nat.pow_add 10 (e + 1) extra, ← hexpand]
      congr 1
      ring

theorem rank_congr
    {d d' : Decimal} {places : Nat}
    (h : 0 ≤ d.exponent + places)
    (h' : 0 ≤ d'.exponent + places)
    (hvalue :
      d.digits * 10 ^ (d.exponent + places).toNat =
        d'.digits * 10 ^ (d'.exponent + places).toNat) :
    d.rank = d'.rank := by
  rw [rank_eq h, rank_eq h', hvalue]

/--
Whether a decimal lies below the half above the largest finite value, for decimals
without a positive exponent.
-/
def IsFinite (d : Decimal) : Prop :=
  d.digits < (2 ^ 54 - 1) * 2 ^ 970 * 10 ^ (-d.exponent).toNat

theorem rank_lt_infinity_iff
    {d : Decimal}
    (h : d.exponent ≤ 0) :
    d.rank < infinity ↔ d.IsFinite := by
  have hplaces : 0 ≤ d.exponent + (-d.exponent).toNat := by omega
  have hwhole : (d.exponent + (-d.exponent).toNat).toNat = 0 := by omega
  rw [rank_eq hplaces, nearest_lt_infinity_iff (Nat.pow_pos (by decide)), hwhole, Nat.pow_zero,
    Nat.mul_one]
  unfold IsFinite
  generalize (-d.exponent).toNat = places
  have hsplit : (2044 : Nat) = 970 + 1074 := by
    rfl
  rw [hsplit]
  have hpos : ∀ n : Nat, 0 < 2 ^ n := fun n => Nat.pow_pos (by decide)
  clear hsplit
  generalize (1074 : Nat) = size
  generalize (970 : Nat) = n
  rw [Nat.pow_add, ← Nat.mul_assoc, ← Nat.mul_assoc, Nat.mul_lt_mul_right (hpos size),
    Nat.mul_assoc _ (2 ^ n), Nat.mul_comm (2 ^ n), ← Nat.mul_assoc]

/-- The exact expansion of a finite value is read as it. -/
theorem rank_exact
    {rank : Nat}
    (h : rank < infinity) :
    (exact rank).rank = rank := by
  have hwhole : (exact rank).exponent + (1074 : Nat) = 0 := by
    rfl
  have hplaces : (0 : Int) ≤ (exact rank).exponent + (1074 : Nat) := by
    omega
  have hexponent : ((exact rank).exponent + (1074 : Nat)).toNat = 0 := by
    omega
  have hpow : ∀ n : Nat, 5 ^ n * 2 ^ n = 10 ^ n := by
    intro n
    rw [← Nat.mul_pow]
  rw [rank_eq hplaces, hexponent, Nat.pow_zero, Nat.mul_one]
  have hpos : ∀ n : Nat, 0 < 10 ^ n := fun n => Nat.pow_pos (by decide)
  clear hexponent hplaces hwhole
  unfold Decimal.exact
  generalize (1074 : Nat) = size
  change nearest (units rank * 5 ^ size * 2 ^ size) (10 ^ size) = rank
  rw [Nat.mul_assoc, hpow]
  have hexpand := nearest_mul_right (hpos size) (units rank) 1
  rw [Nat.one_mul] at hexpand
  rw [hexpand, nearest_units h]

theorem rank_neighbour?
    {target dropped : Nat} {d d' : Decimal}
    (h : neighbour? target d dropped = some d') :
    d'.rank = target := by
  unfold neighbour? at h
  have hfound := List.find?_some h
  exact beq_iff_eq.mp hfound

/-- The shortest decimal is read as the value it stands for. -/
theorem rank_shortest
    {rank : Nat}
    (h : rank < infinity) :
    (shortest rank).rank = rank := by
  unfold shortest
  dsimp only
  generalize hfound :
    (List.range' 1 17).findSome? (fun kept =>
      neighbour? rank (exact rank) (digitCount (exact rank).digits - kept)) = found
  cases found with
  | none =>
      exact rank_exact h
  | some d =>
      obtain ⟨kept, _, hkept⟩ := List.exists_of_findSome?_eq_some hfound
      exact rank_neighbour? hkept

end ValueRank

section DigitPlaces

theorem number_zeros
    (n : Nat) :
    number (List.replicate n '0') = 0 := by
  induction n with
  | zero =>
      rfl
  | succ n ih =>
      have hcons := number_append ['0'] (List.replicate n '0')
      rw [List.singleton_append] at hcons
      rw [List.replicate_succ, hcons, ih, Nat.add_zero]
      have hzero : number ['0'] = 0 := by
        decide
      rw [hzero, Nat.zero_mul]

theorem isDigit_of_mem_zeros
    {n : Nat} {c : Char}
    (h : c ∈ List.replicate n '0') :
    isDigit c = true := by
  rw [(List.mem_replicate.mp h).2]
  decide

/-- The digits without the zeros at their end, and how many zeros these are. -/
theorem significant_spec
    (d : Decimal) :
    ∃ digits zeros,
      d.significant = (digits, digits.length + (zeros : Nat) + d.exponent) ∧
      number digits * 10 ^ zeros = d.digits ∧
      ∀ c ∈ digits, isDigit c = true := by
  have hsplit :
      (Nat.toDigits 10 d.digits).reverse.takeWhile (· == '0') ++
          (Nat.toDigits 10 d.digits).reverse.dropWhile (· == '0') =
        (Nat.toDigits 10 d.digits).reverse :=
    List.takeWhile_append_dropWhile
  have hzeros :
      (Nat.toDigits 10 d.digits).reverse.takeWhile (· == '0') =
        List.replicate
          ((Nat.toDigits 10 d.digits).reverse.takeWhile (· == '0')).length '0' := by
    rw [List.eq_replicate_iff]
    refine ⟨rfl, ?_⟩
    intro c hc
    have hzero := of_mem_takeWhile hc
    exact beq_iff_eq.mp hzero
  unfold significant
  dsimp only
  generalize (Nat.toDigits 10 d.digits).reverse.dropWhile (· == '0') = front at hsplit
  generalize (Nat.toDigits 10 d.digits).reverse.takeWhile (· == '0') = back at hsplit hzeros
  generalize back.length = zeros at hzeros
  have hall : Nat.toDigits 10 d.digits = front.reverse ++ List.replicate zeros '0' := by
    have hreverse := congrArg List.reverse hsplit
    rw [List.reverse_append, List.reverse_reverse, hzeros, List.reverse_replicate] at hreverse
    exact hreverse.symm
  refine ⟨front.reverse, zeros, ?_, ?_, ?_⟩
  · rw [hall, List.length_append, List.length_replicate]
    push_cast
    rfl
  · have hnumber := number_toDigits d.digits
    rw [hall, number_append, number_zeros, List.length_replicate, Nat.add_zero] at hnumber
    exact hnumber
  · intro c hc
    apply isDigit_of_mem_toDigits (n := d.digits)
    rw [hall]
    exact List.mem_append_left _ hc

/-- What is written around the point: as many places behind it as the digits need. -/
theorem positional_spec
    {digits : List Char}
    (hdigits : ∀ c ∈ digits, isDigit c = true)
    (point : Int) :
    ((positional digits point).1 ≠ [] ∧
      ∀ c ∈ (positional digits point).1, isDigit c = true) ∧
    (∀ c ∈ (positional digits point).2, isDigit c = true) ∧
    (positional digits point).2.length = (digits.length - point).toNat ∧
    number ((positional digits point).1 ++ (positional digits point).2) =
      number digits * 10 ^ (point - digits.length).toNat := by
  unfold positional
  split
  · rename_i hpoint
    have hnone : (point - digits.length).toNat = 0 := by omega
    refine ⟨⟨by simp, ?_⟩, ?_, ?_, ?_⟩
    · intro c hc
      rw [List.mem_singleton.mp hc]
      decide
    · intro c hc
      rcases List.mem_append.mp hc with hc | hc
      · exact isDigit_of_mem_zeros hc
      · exact hdigits c hc
    · rw [List.length_append, List.length_replicate]
      omega
    · have hzero : number ['0'] = 0 := by
        decide
      rw [number_append, number_append, number_zeros, hzero, hnone]
      simp
  · rename_i hpoint
    dsimp only
    refine ⟨⟨?_, ?_⟩, ?_, ?_, ?_⟩
    · intro hnil
      have hlength := congrArg List.length hnil
      rw [List.length_append, List.length_take, List.length_replicate, List.length_nil]
        at hlength
      omega
    · intro c hc
      rcases List.mem_append.mp hc with hc | hc
      · exact hdigits c (List.mem_of_mem_take hc)
      · exact isDigit_of_mem_zeros hc
    · exact fun c hc => hdigits c (List.mem_of_mem_drop hc)
    · rw [List.length_drop]
      omega
    · by_cases hlong : digits.length ≤ point.toNat
      · have hplaces : point.toNat - digits.length = (point - digits.length).toNat := by omega
        rw [List.take_of_length_le hlong, List.drop_of_length_le hlong, List.append_nil,
          number_append, number_zeros, List.length_replicate, hplaces, Nat.add_zero]
      · have hplaces : (point - digits.length).toNat = 0 := by omega
        have hfill : point.toNat - digits.length = 0 := by omega
        rw [hplaces, hfill, List.replicate_zero, List.append_nil, List.take_append_drop]
        simp

/-- Whole part and fraction are digits, and together they are read as the decimal. -/
theorem rank_parts
    (d : Decimal) :
    (d.parts.1 ≠ [] ∧ ∀ c ∈ d.parts.1, isDigit c = true) ∧
    (∀ c ∈ d.parts.2, isDigit c = true) ∧
    (Decimal.mk (number (d.parts.1 ++ d.parts.2)) (-(d.parts.2.length : Int))).rank =
      d.rank := by
  obtain ⟨digits, zeros, hsignificant, hnumber, hdigits⟩ := significant_spec d
  have hparts :
      d.parts = positional digits (digits.length + (zeros : Nat) + d.exponent) := by
    unfold parts
    rw [hsignificant]
  rw [hparts]
  obtain ⟨hwhole, hfraction, hlength, hvalue⟩ :=
    positional_spec hdigits (digits.length + (zeros : Nat) + d.exponent)
  refine ⟨hwhole, hfraction, ?_⟩
  rw [hlength, hvalue]
  have hplaces :
      ((digits.length : Int) - (digits.length + (zeros : Nat) + d.exponent)).toNat =
        (-(zeros + d.exponent)).toNat := by
    omega
  have hfill :
      ((digits.length + (zeros : Nat) + d.exponent : Int) - digits.length).toNat =
        (zeros + d.exponent).toNat := by
    omega
  rw [hplaces, hfill]
  refine @rank_congr _ _ d.exponent.natAbs ?_ ?_ ?_
  · dsimp only
    omega
  · omega
  · dsimp only
    rw [← hnumber, Nat.mul_assoc, Nat.mul_assoc, ← Nat.pow_add, ← Nat.pow_add]
    congr 2
    omega

end DigitPlaces

end Decimal

end Flowchart
