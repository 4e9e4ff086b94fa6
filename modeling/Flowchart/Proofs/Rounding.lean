import Flowchart.Number.Binary64
import Mathlib.Algebra.Group.Nat.Defs
import Mathlib.Data.Nat.Log

/-!
# Rounding to binary64 values

Rounding depends on the ratio alone, leaves every value that is one, and keeps
multiples of a large power of two multiples of it, since the values far from zero
are such multiples anyway and those near to it are rounded to themselves.

* `nearest_mul_right`: a ratio may be expanded.
* `nearest_units`: a finite value is the nearest one to itself.
* `dvd_units_nearest`: a whole number is rounded to a whole number.
* `nearest_lt_infinity_iff`: which ratios are rounded to a finite value.
-/

namespace Flowchart
namespace Binary64

section Powers

theorem units_eq
    (rank : Nat) :
    units rank =
      if rank < 2 ^ 53 then rank
      else (2 ^ 52 + rank % 2 ^ 52) * 2 ^ (rank / 2 ^ 52 - 1) := by
  rfl

theorem nearest_eq
    (a b : Nat) :
    nearest a b =
      if a / b < 2 ^ 53 then roundDiv a b
      else
        min infinity
          (((a / b).log2 - 52) * 2 ^ 52 + roundDiv a (b * 2 ^ ((a / b).log2 - 52))) := by
  rfl

end Powers

section Quotients

theorem roundDiv_mul_right
    {c : Nat}
    (hc : 0 < c)
    (a b : Nat) :
    roundDiv (a * c) (b * c) = roundDiv a b := by
  have hmod : a * c % (b * c) = a % b * c := Nat.mul_mod_mul_right c a b
  have hdiv : a * c / (b * c) = a / b := Nat.mul_div_mul_right a b hc
  have hless : 2 * (a % b * c) < b * c ↔ 2 * (a % b) < b := by
    rw [← Nat.mul_assoc, Nat.mul_lt_mul_right hc]
  have hmore : b * c < 2 * (a % b * c) ↔ b < 2 * (a % b) := by
    rw [← Nat.mul_assoc, Nat.mul_lt_mul_right hc]
  unfold roundDiv
  simp only [hmod, hdiv, hless, hmore]

/-- A whole quotient is not rounded. -/
theorem roundDiv_mul_self
    {b : Nat}
    (hb : 0 < b)
    (q : Nat) :
    roundDiv (q * b) b = q := by
  have hmod : q * b % b = 0 := Nat.mul_mod_left q b
  have hdiv : q * b / b = q := Nat.mul_div_cancel q hb
  unfold roundDiv
  simp [hmod, hdiv, hb]

theorem roundDiv_bounds
    (a b : Nat) :
    a / b ≤ roundDiv a b ∧ roundDiv a b ≤ a / b + 1 := by
  unfold roundDiv
  dsimp only
  split
  · omega
  · split
    · omega
    · omega

/-- A quotient is rounded to an odd number or below it if it lies below the half above it. -/
theorem roundDiv_le_iff
    {q b : Nat}
    (hq : q % 2 = 1)
    (hb : 0 < b)
    (a : Nat) :
    roundDiv a b ≤ q ↔ 2 * a < (2 * q + 1) * b := by
  have hsplit : b * (a / b) + a % b = a := Nat.div_add_mod a b
  have hrest : a % b < b := Nat.mod_lt a hb
  have hcomm : (2 * q + 1) * b = 2 * (b * q) + b := by
    rw [Nat.add_mul, Nat.one_mul, Nat.mul_assoc, Nat.mul_comm q b]
  obtain ⟨hlow, hhigh⟩ := roundDiv_bounds a b
  rw [hcomm]
  rcases Nat.lt_trichotomy (a / b) q with hless | heq | hmore
  · have hmul : b * (a / b + 1) ≤ b * q := Nat.mul_le_mul_left b hless
    rw [Nat.mul_add, Nat.mul_one] at hmul
    omega
  · unfold roundDiv
    rw [heq] at hsplit ⊢
    dsimp only
    split
    · omega
    · split
      · omega
      · omega
  · have hmul : b * (q + 1) ≤ b * (a / b) := Nat.mul_le_mul_left b hmore
    rw [Nat.mul_add, Nat.mul_one] at hmul
    omega

/-- A ratio may be expanded. -/
theorem nearest_mul_right
    {c : Nat}
    (hc : 0 < c)
    (a b : Nat) :
    nearest (a * c) (b * c) = nearest a b := by
  have hdiv : a * c / (b * c) = a / b := Nat.mul_div_mul_right a b hc
  have hround :
      ∀ shift, roundDiv (a * c) (b * c * 2 ^ shift) = roundDiv a (b * 2 ^ shift) := by
    intro shift
    rw [Nat.mul_right_comm, roundDiv_mul_right hc]
  rw [nearest_eq, nearest_eq]
  simp only [hdiv, roundDiv_mul_right hc, hround]

end Quotients

section Values

theorem units_of_small
    {rank : Nat}
    (h : rank < 2 ^ 53) :
    units rank = rank := by
  rw [units_eq, if_pos h]

theorem units_of_large
    {shift mantissa : Nat}
    (hlow : 2 ^ 52 ≤ mantissa)
    (hhigh : mantissa < 2 ^ 53) :
    units (shift * 2 ^ 52 + mantissa) = mantissa * 2 ^ shift := by
  rw [units_eq]
  split
  · rename_i hsmall
    have hshift : shift = 0 := by omega
    rw [hshift]
    omega
  · have hexponent : (shift * 2 ^ 52 + mantissa) / 2 ^ 52 - 1 = shift := by omega
    have hmantissa : 2 ^ 52 + (shift * 2 ^ 52 + mantissa) % 2 ^ 52 = mantissa := by omega
    rw [hexponent, hmantissa]

/-- A mantissa that is rounded up to the next power of two belongs to the next exponent. -/
theorem units_of_rounded
    {shift mantissa : Nat}
    (hlow : 2 ^ 52 ≤ mantissa)
    (hhigh : mantissa ≤ 2 ^ 53) :
    units (shift * 2 ^ 52 + mantissa) = mantissa * 2 ^ shift := by
  rcases Nat.lt_or_eq_of_le hhigh with hlt | heq
  · exact units_of_large hlow hlt
  · have hrank : shift * 2 ^ 52 + mantissa = (shift + 1) * 2 ^ 52 + 2 ^ 52 := by omega
    rw [hrank, units_of_large (Nat.le_refl _) (by decide), heq, Nat.pow_succ]
    omega

theorem log2_mul_two_pow
    {mantissa : Nat}
    (hlow : 2 ^ 52 ≤ mantissa)
    (hhigh : mantissa < 2 ^ 53)
    (shift : Nat) :
    (mantissa * 2 ^ shift).log2 = 52 + shift := by
  have hne : mantissa * 2 ^ shift ≠ 0 :=
    Nat.mul_ne_zero (by omega) (Nat.pow_pos (by decide)).ne'
  rw [Nat.log2_eq_iff hne, Nat.pow_add, Nat.add_right_comm, Nat.pow_add]
  exact ⟨Nat.mul_le_mul_right _ hlow,
    Nat.mul_lt_mul_of_pos_right hhigh (Nat.pow_pos (by decide))⟩

/-- A finite value is the nearest one to itself. -/
theorem nearest_units
    {rank : Nat}
    (h : rank < infinity) :
    nearest (units rank) 1 = rank := by
  have hone : ∀ a, roundDiv a 1 = a := by
    intro a
    have := roundDiv_mul_self Nat.one_pos a
    rwa [Nat.mul_one] at this
  by_cases hsmall : rank < 2 ^ 53
  · rw [units_of_small hsmall]
    rw [nearest_eq, Nat.div_one, if_pos hsmall, hone]
  · obtain ⟨shift, mantissa, hrank, hlow, hhigh⟩ :
        ∃ shift mantissa, rank = shift * 2 ^ 52 + mantissa ∧
          2 ^ 52 ≤ mantissa ∧ mantissa < 2 ^ 53 :=
      ⟨rank / 2 ^ 52 - 1, 2 ^ 52 + rank % 2 ^ 52, by omega, by omega, by omega⟩
    have hpos : 0 < 2 ^ shift := Nat.pow_pos (by decide)
    have hshift : 1 ≤ shift := by omega
    have hlarge : ¬mantissa * 2 ^ shift < 2 ^ 53 := by
      have htwo : 2 ^ 1 ≤ 2 ^ shift := Nat.pow_le_pow_right (by decide) hshift
      have hmul := Nat.mul_le_mul hlow htwo
      omega
    rw [hrank, units_of_large hlow hhigh]
    rw [nearest_eq, Nat.div_one, if_neg hlarge, log2_mul_two_pow hlow hhigh,
      Nat.add_sub_cancel_left, Nat.one_mul,
      roundDiv_mul_self hpos, ← hrank]
    exact Nat.min_eq_right (Nat.le_of_lt h)

/-- A multiple of a large power of two is rounded to a multiple of it. -/
theorem dvd_units_nearest
    {a n : Nat}
    (hn : 53 ≤ n)
    (hdvd : 2 ^ n ∣ a)
    (h : nearest a 1 < infinity) :
    2 ^ n ∣ units (nearest a 1) := by
  by_cases hzero : a = 0
  · rw [hzero]
    exact Nat.dvd_zero _
  · have hlarge : ¬a < 2 ^ 53 := by
      have hle := Nat.le_of_dvd (Nat.pos_of_ne_zero hzero) hdvd
      have hpow : 2 ^ 53 ≤ 2 ^ n := Nat.pow_le_pow_right (by decide) hn
      omega
    have hrank :
        nearest a 1 = (a.log2 - 52) * 2 ^ 52 + roundDiv a (2 ^ (a.log2 - 52)) := by
      rw [nearest_eq, Nat.div_one, if_neg hlarge, Nat.one_mul] at h ⊢
      omega
    rw [hrank]
    have hlog : a.log2 = 52 + (a.log2 - 52) := by
      have hle : 53 ≤ a.log2 := (Nat.le_log2 hzero).mpr (Nat.le_of_not_lt hlarge)
      omega
    have hlower : 2 ^ 52 * 2 ^ (a.log2 - 52) ≤ a := by
      rw [← Nat.pow_add, ← hlog]
      exact Nat.log2_self_le hzero
    have hupper : a < 2 ^ 53 * 2 ^ (a.log2 - 52) := by
      have hlt : a < 2 ^ (a.log2 + 1) := Nat.lt_log2_self
      rw [← Nat.pow_add, show 53 + (a.log2 - 52) = a.log2 + 1 by omega]
      exact hlt
    generalize a.log2 - 52 = shift at hlower hupper
    have hpos : 0 < 2 ^ shift := Nat.pow_pos (by decide)
    obtain ⟨hround, hround'⟩ := roundDiv_bounds a (2 ^ shift)
    have hlow : 2 ^ 52 ≤ a / 2 ^ shift := (Nat.le_div_iff_mul_le hpos).mpr hlower
    have hhigh : a / 2 ^ shift < 2 ^ 53 := (Nat.div_lt_iff_lt_mul hpos).mpr hupper
    rw [units_of_rounded (by omega) (by omega)]
    by_cases hshift : n ≤ shift
    · exact Nat.dvd_mul_left_of_dvd (Nat.pow_dvd_pow 2 hshift) _
    · have hexact : 2 ^ shift ∣ a :=
        Nat.dvd_trans (Nat.pow_dvd_pow 2 (by omega)) hdvd
      obtain ⟨m, hm⟩ := hexact
      rw [Nat.mul_comm] at hm
      rw [hm, roundDiv_mul_self hpos, ← hm]
      exact hdvd

end Values

section BeyondFinite

theorem nearest_le_infinity
    (a b : Nat) :
    nearest a b ≤ infinity := by
  rw [nearest_eq]
  split
  · rename_i hsmall
    have hround := (roundDiv_bounds a b).2
    have hinfinity : 2 ^ 53 ≤ infinity := by decide
    omega
  · exact Nat.min_le_left _ _

/-- Of the ranks below a whole exponent, all lie below the half above the last value. -/
theorem rounded_lt_iff
    {a b n shift : Nat}
    (hb : 0 < b)
    (hlow : 2 ^ 52 * (b * 2 ^ shift) ≤ a)
    (hhigh : a < 2 ^ 53 * (b * 2 ^ shift)) :
    shift * 2 ^ 52 + roundDiv a (b * 2 ^ shift) < (n + 3) * 2 ^ 52 ↔
      a < (2 ^ 54 - 1) * (b * 2 ^ n) := by
  have hpos : 0 < b * 2 ^ shift := Nat.mul_pos hb (Nat.pow_pos (by decide))
  have hquotient : 2 ^ 52 ≤ a / (b * 2 ^ shift) := (Nat.le_div_iff_mul_le hpos).mpr hlow
  have hquotient' : a / (b * 2 ^ shift) < 2 ^ 53 := (Nat.div_lt_iff_lt_mul hpos).mpr hhigh
  obtain ⟨hround, hround'⟩ := roundDiv_bounds a (b * 2 ^ shift)
  have hscale : ∀ k, b * 2 ^ (n + k) = b * 2 ^ n * 2 ^ k := by
    intro k
    rw [Nat.pow_add, Nat.mul_assoc]
  have hmono : ∀ {k l : Nat}, k ≤ l → b * 2 ^ k ≤ b * 2 ^ l :=
    fun h => Nat.mul_le_mul_left b (Nat.pow_le_pow_right (by decide) h)
  rcases Nat.lt_trichotomy shift (n + 1) with hless | rfl | hmore
  · have hle : b * 2 ^ shift ≤ b * 2 ^ n := hmono (by omega)
    omega
  · have hiff := roundDiv_le_iff (q := 2 ^ 53 - 1) (by decide) hpos a
    rw [hscale 1] at hiff ⊢
    omega
  · have hle : b * 2 ^ (n + 2) ≤ b * 2 ^ shift := hmono (by omega)
    rw [hscale 2] at hle
    omega

/-- A ratio is rounded to a finite value if it lies below the half above the largest one. -/
theorem nearest_lt_infinity_iff
    {b : Nat}
    (hb : 0 < b)
    (a : Nat) :
    nearest a b < infinity ↔ a < (2 ^ 54 - 1) * (b * 2 ^ 2044) := by
  have hinfinity : infinity = (2044 + 3) * 2 ^ 52 := by
    rfl
  rw [nearest_eq, hinfinity]
  clear hinfinity
  generalize (2044 : Nat) = n
  have hsplit := Nat.div_add_mod a b
  have hrest := Nat.mod_lt a hb
  split
  · rename_i hsmall
    have hround := (roundDiv_bounds a b).2
    have hle : b * 1 ≤ b * 2 ^ n := Nat.mul_le_mul_left b (Nat.pow_pos (by decide))
    have hmul : b * (a / b + 1) ≤ b * 2 ^ 53 := Nat.mul_le_mul_left b hsmall
    rw [Nat.mul_add, Nat.mul_one] at hmul
    omega
  · rename_i hlarge
    have hne : a / b ≠ 0 := by omega
    have hlog : 53 ≤ (a / b).log2 := (Nat.le_log2 hne).mpr (Nat.le_of_not_lt hlarge)
    have hlower : 2 ^ (52 + ((a / b).log2 - 52)) ≤ a / b := by
      rw [show 52 + ((a / b).log2 - 52) = (a / b).log2 by omega]
      exact Nat.log2_self_le hne
    have hupper : a / b < 2 ^ (53 + ((a / b).log2 - 52)) := by
      rw [show 53 + ((a / b).log2 - 52) = (a / b).log2 + 1 by omega]
      exact Nat.lt_log2_self
    generalize (a / b).log2 - 52 = shift at hlower hupper ⊢
    rw [Nat.pow_add, Nat.le_div_iff_mul_le hb, Nat.mul_assoc, Nat.mul_comm _ b] at hlower
    rw [Nat.pow_add, Nat.div_lt_iff_lt_mul hb, Nat.mul_assoc, Nat.mul_comm _ b] at hupper
    rw [← rounded_lt_iff hb hlower hupper]
    omega

end BeyondFinite

end Binary64

end Flowchart
