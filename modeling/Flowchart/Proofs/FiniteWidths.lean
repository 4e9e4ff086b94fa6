import Flowchart.Line
import Flowchart.Proofs.Answers
import Flowchart.Proofs.Decimals

/-!
# Finite widths

Of all that a style line may say, only a width can be refused: one that would be
rounded to infinity.  So a style can be overwritten by some property lists exactly
if all widths in them are finite, whatever the style is, and otherwise the fault
names the infinite width.

* `NodeStyle.overwriteAll_of_finite` and `NodeStyle.overwriteAll_of_infinite`
* `Line.styleOf_of_finite` and `Line.styleOf_of_infinite`
-/

namespace Flowchart

namespace Properties

/-- The width that some properties give, if they give one. -/
def width? (ps : Properties) : Option Decimal :=
  (Record.last? "stroke-width" ps).bind (Width.read? ·.toList)

/-- Whether a width, if there is one, is rounded to a finite value. -/
def HasFiniteWidth (ps : Properties) : Prop :=
  ∀ d ∈ ps.width?, d.IsFinite

end Properties

/-- The fault of a width beyond all finite values. -/
def Fault.infiniteWidth : Fault := .widthOutOfRange (.signed false Binary64.infinity)

namespace Width

theorem exponent_nonpos
    {cs : List Char} {d : Decimal}
    (h : read? cs = some d) :
    d.exponent ≤ 0 := by
  unfold read? at h
  simp only [Option.ite_none_right_eq_some, Option.some.injEq] at h
  obtain ⟨_, rfl⟩ := h
  exact Int.neg_nonpos_of_nonneg (Int.natCast_nonneg _)

theorem check_of_finite
    {rank : Nat}
    (h : rank < Binary64.infinity) :
    ∃ w, check (.signed false rank) = .ok w := by
  refine ⟨⟨rank, false, h, nofun⟩, ?_⟩
  simp [check, ofDouble?, h]

theorem check_of_infinite
    {rank : Nat}
    (h : ¬rank < Binary64.infinity) :
    check (.signed false rank) = .error (.widthOutOfRange (.signed false rank)) := by
  simp [check, ofDouble?, h]

end Width

/-- No rank that is read lies beyond infinity. -/
theorem Decimal.rank_eq_infinity
    {d : Decimal}
    (h : ¬d.rank < Binary64.infinity) :
    d.rank = Binary64.infinity := by
  obtain ⟨places, hplaces⟩ : ∃ places : Nat, 0 ≤ d.exponent + places :=
    ⟨(-d.exponent).toNat, by omega⟩
  rw [rank_eq hplaces] at h ⊢
  exact Nat.le_antisymm (Binary64.nearest_le_infinity _ _) (Nat.le_of_not_lt h)

namespace NodeStyle

/-- A property list overwrites a style if its width is finite. -/
theorem overwrite_of_finite
    {ps : Properties}
    (h : ps.HasFiniteWidth)
    (s : NodeStyle) :
    ∃ s', s.overwrite ps = .ok s' := by
  unfold overwrite
  cases hwidth : ps.width? with
  | none =>
      unfold Properties.width? at hwidth
      rw [hwidth]
      exact ⟨_, rfl⟩
  | some d =>
      have hfinite := h d hwidth
      unfold Properties.width? at hwidth
      obtain ⟨text, _, hread⟩ := Option.bind_eq_some_iff.mp hwidth
      rw [← Decimal.rank_lt_infinity_iff (Width.exponent_nonpos hread)] at hfinite
      obtain ⟨w, hw⟩ := Width.check_of_finite hfinite
      rw [hwidth]
      exact ⟨_, bind_eq_ok_iff.mpr ⟨w, hw, rfl⟩⟩

/-- A property list with an infinite width overwrites no style. -/
theorem overwrite_of_infinite
    {ps : Properties}
    (h : ¬ps.HasFiniteWidth)
    (s : NodeStyle) :
    s.overwrite ps = .error .infiniteWidth := by
  unfold Properties.HasFiniteWidth at h
  push Not at h
  obtain ⟨d, hwidth, hinfinite⟩ := h
  unfold Properties.width? at hwidth
  obtain ⟨text, _, hread⟩ := Option.bind_eq_some_iff.mp hwidth
  rw [← Decimal.rank_lt_infinity_iff (Width.exponent_nonpos hread)] at hinfinite
  have hcheck := Width.check_of_infinite hinfinite
  rw [Decimal.rank_eq_infinity hinfinite] at hcheck
  have hnumber : Double.ofDecimal false d = .signed false Binary64.infinity :=
    congrArg (Double.signed false) (Decimal.rank_eq_infinity hinfinite)
  unfold overwrite
  rw [hwidth]
  dsimp only
  rw [hnumber, hcheck]
  rfl

/-- The property lists of several lines overwrite a style if all their widths are finite. -/
theorem overwriteAll_of_finite
    {lines : List Properties}
    (h : ∀ ps ∈ lines, ps.HasFiniteWidth)
    (s : NodeStyle) :
    ∃ s', s.overwriteAll lines = .ok s' := by
  induction lines generalizing s with
  | nil =>
      exact ⟨s, rfl⟩
  | cons ps lines ih =>
      rw [List.forall_mem_cons] at h
      obtain ⟨first, hfirst⟩ := overwrite_of_finite h.1 s
      obtain ⟨last, hlast⟩ := ih h.2 first
      exact ⟨last, bind_eq_ok_iff.mpr ⟨first, hfirst, hlast⟩⟩

/-- The first infinite width among several lines is the fault. -/
theorem overwriteAll_of_infinite
    {lines : List Properties}
    (h : ¬∀ ps ∈ lines, ps.HasFiniteWidth)
    (s : NodeStyle) :
    s.overwriteAll lines = .error .infiniteWidth := by
  induction lines generalizing s with
  | nil =>
      exact absurd (fun _ hps => absurd hps List.not_mem_nil) h
  | cons ps lines ih =>
      rw [List.forall_mem_cons] at h
      unfold overwriteAll
      rw [List.foldlM_cons]
      by_cases hfirst : ps.HasFiniteWidth
      · obtain ⟨first, hok⟩ := overwrite_of_finite hfirst s
        rw [hok]
        exact ih (fun hall => h ⟨hfirst, hall⟩) first
      · rw [overwrite_of_infinite hfirst s]
        rfl

end NodeStyle

/-- The style that the style lines of a node give to it. -/
def Line.styleOf (lines : List Line) (id : String) : Except Fault NodeStyle :=
  NodeStyle.overwriteAll {} (nodeProperties id lines)

theorem Line.styleOf_congr
    {lines lines' : List Line} {id : String}
    (h : nodeProperties id lines' = nodeProperties id lines) :
    styleOf lines' id = styleOf lines id := by
  unfold styleOf
  rw [h]

theorem Line.styleOf_of_nodeProperties
    {lines : List Line} {id : String}
    (h : nodeProperties id lines = []) :
    styleOf lines id = .ok {} := by
  unfold styleOf
  rw [h]
  rfl

namespace Line

/-- Whether the style lines of a node give finite widths only. -/
def HasFiniteWidths (id : String) (lines : List Line) : Prop :=
  ∀ properties, style id properties ∈ lines → properties.HasFiniteWidth

theorem hasFiniteWidths_iff
    {id : String} {lines : List Line} :
    HasFiniteWidths id lines ↔ ∀ ps ∈ nodeProperties id lines, ps.HasFiniteWidth := by
  unfold HasFiniteWidths nodeProperties
  constructor
  · intro h ps hps
    obtain ⟨line, hline, hgives⟩ := List.mem_filterMap.mp hps
    cases line with
    | style owner properties =>
        dsimp only at hgives
        split at hgives
        · rename_i howner
          rw [beq_iff_eq.mp howner] at hline
          cases hgives
          exact h ps hline
        · cases hgives
    | _ =>
        cases hgives
  · intro h properties hline
    exact h properties (List.mem_filterMap.mpr ⟨_, hline, by simp⟩)

/-- The style lines of a node give it a style if all their widths are finite. -/
theorem styleOf_of_finite
    {id : String} {lines : List Line}
    (h : HasFiniteWidths id lines) :
    ∃ s, styleOf lines id = .ok s :=
  NodeStyle.overwriteAll_of_finite (hasFiniteWidths_iff.mp h) {}

theorem styleOf_of_infinite
    {id : String} {lines : List Line}
    (h : ¬HasFiniteWidths id lines) :
    styleOf lines id = .error .infiniteWidth :=
  NodeStyle.overwriteAll_of_infinite (fun hall => h (hasFiniteWidths_iff.mpr hall)) {}

theorem hasFiniteWidths_of_styleOf
    {id : String} {lines : List Line} {s : NodeStyle}
    (h : styleOf lines id = .ok s) :
    HasFiniteWidths id lines := by
  by_contra hinfinite
  rw [styleOf_of_infinite hinfinite] at h
  cases h

end Line

end Flowchart
