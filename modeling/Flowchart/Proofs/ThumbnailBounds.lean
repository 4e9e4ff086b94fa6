import Flowchart.Proofs.ModelReading
import Flowchart.Thumbnail

/-!
# Thumbnails in their boxes

A shape is drawn into a box, whose upper left corner is given first and its lower right
one last.  Slants, caps and insets are parts of the width or the height of that box, so
they never reach beyond it.  The gap between the two circles of a double circle is none:
it grows with the scale alone, and in a small box it is too wide.

* `holds_of_corners`: slanted edges leave a polygon inside its box.
* `exists_draw`: all strokes of a shape fit into a box, unless it is a double circle.
* `strokes_stay_in_box_iff`: how much room a thumbnail has to leave for a double circle.
-/

namespace Flowchart

/-- A part of a length is not longer than the length. -/
theorem fdiv_bounds
    {length parts : Int}
    (hlength : 0 ≤ length)
    (hparts : 0 < parts) :
    0 ≤ length.fdiv parts ∧ parts * length.fdiv parts ≤ length := by
  rw [Int.fdiv_eq_ediv_of_nonneg length (Int.le_of_lt hparts)]
  exact ⟨Int.ediv_nonneg hlength (Int.le_of_lt hparts),
    Int.mul_ediv_self_le (Int.ne_of_gt hparts)⟩

/-- The middle of two ordered coordinates lies between them. -/
theorem fdiv_two_between
    {x y : Int}
    (h : x ≤ y) :
    x ≤ (x + y).fdiv 2 ∧ (x + y).fdiv 2 ≤ y := by
  rw [Int.fdiv_eq_ediv_of_nonneg (x + y) (by decide)]
  omega

namespace Frame

/-- The left edge is not to the right of the right one, nor the upper below the lower one. -/
def IsUpright (b : Frame) : Prop := b.x0 ≤ b.x1 ∧ b.y0 ≤ b.y1

/-- A point lies in a box or on its border. -/
def Holds (b : Frame) (p : Point) : Prop :=
  b.x0 ≤ p.x ∧ p.x ≤ b.x1 ∧ b.y0 ≤ p.y ∧ p.y ≤ b.y1

/-- The points by which a box is given. -/
def ends (b : Frame) : List Point := [⟨b.x0, b.y0⟩, ⟨b.x1, b.y1⟩]

/-- A box that is smaller by a gap on every side. -/
def shrink (b : Frame) (gap : Int) : Frame :=
  ⟨b.x0 + gap, b.y0 + gap, b.x1 - gap, b.y1 - gap⟩

instance (b : Frame) : Decidable b.IsUpright :=
  inferInstanceAs (Decidable (_ ∧ _))

instance (b : Frame) (p : Point) : Decidable (b.Holds p) :=
  inferInstanceAs (Decidable (_ ∧ _ ∧ _ ∧ _))

theorem isUpright_shrink_iff
    (b : Frame) (gap : Int) :
    (b.shrink gap).IsUpright ↔ 2 * gap ≤ b.width ∧ 2 * gap ≤ b.height := by
  simp only [IsUpright, shrink, width, height]
  omega

/-- A smaller box stays inside as long as the gap is not wider than the box itself. -/
theorem holds_shrink_iff
    {b : Frame} {gap : Int}
    (hgap : 0 ≤ gap) :
    (∀ p ∈ (b.shrink gap).ends, b.Holds p) ↔ gap ≤ b.width ∧ gap ≤ b.height := by
  simp only [ends, shrink, Holds, width, height, List.forall_mem_cons, List.not_mem_nil,
    false_imp_iff, implies_true, and_true]
  omega

end Frame

namespace Stroke

/-- The points by which a stroke is given; a text is placed by its ink instead. -/
def points? : Stroke → Option (List Point)
  | rectangle b _ => some b.ends
  | roundedRectangle b _ _ => some b.ends
  | ellipse b _ => some b.ends
  | polygon corners _ => some corners
  | line start stop _ _ => some [start, stop]
  | text _ _ _ _ => none

/-- The box of a stroke that is given by one. -/
def frame? : Stroke → Option Frame
  | rectangle b _ => some b
  | roundedRectangle b _ _ => some b
  | ellipse b _ => some b
  | _ => none

/-- All points of a stroke lie in a box. -/
def StaysIn (b : Frame) (s : Stroke) : Prop :=
  ∃ points, s.points? = some points ∧ ∀ p ∈ points, b.Holds p

/-- If a stroke is given by a box, that box is upright. -/
def IsUpright (s : Stroke) : Prop :=
  ∀ b ∈ s.frame?, b.IsUpright

/-- A stroke stays in a box, and has an upright box of its own if it has one. -/
def Fits (b : Frame) (s : Stroke) : Prop := s.StaysIn b ∧ s.IsUpright

variable {b : Frame} {s : Stroke}

theorem staysIn_iff
    {points : List Point}
    (h : s.points? = some points) :
    s.StaysIn b ↔ ∀ p ∈ points, b.Holds p := by
  simp [StaysIn, h]

theorem isUpright_iff
    {c : Frame}
    (h : s.frame? = some c) :
    s.IsUpright ↔ c.IsUpright := by
  simp [IsUpright, h]

theorem fits_of_frame
    {c : Frame}
    (hpoints : s.points? = some c.ends)
    (hframe : s.frame? = some c)
    (hx : b.x0 ≤ c.x0 ∧ c.x0 ≤ c.x1 ∧ c.x1 ≤ b.x1)
    (hy : b.y0 ≤ c.y0 ∧ c.y0 ≤ c.y1 ∧ c.y1 ≤ b.y1) :
    s.Fits b := by
  refine ⟨(staysIn_iff hpoints).mpr ?_, (isUpright_iff hframe).mpr ⟨hx.2.1, hy.2.1⟩⟩
  simp only [Frame.ends, Frame.Holds, List.forall_mem_cons, List.not_mem_nil, false_imp_iff,
    implies_true, and_true]
  omega

/-- A stroke that is not given by a box only has to stay inside. -/
theorem fits_of_points
    {points : List Point}
    (hpoints : s.points? = some points)
    (hframe : s.frame? = none)
    (h : ∀ p ∈ points, b.Holds p) :
    s.Fits b := by
  refine ⟨(staysIn_iff hpoints).mpr h, ?_⟩
  rw [IsUpright, hframe]
  exact nofun

/-- An upright line in a box. -/
theorem fits_upright
    {x y0 y1 : Int} {color : Rgb} {width : Int}
    (hx : b.x0 ≤ x ∧ x ≤ b.x1)
    (hy : b.y0 ≤ y0 ∧ y0 ≤ y1 ∧ y1 ≤ b.y1) :
    (line ⟨x, y0⟩ ⟨x, y1⟩ color width).Fits b := by
  refine fits_of_points rfl rfl ?_
  simp only [Frame.Holds, List.forall_mem_cons, List.not_mem_nil, false_imp_iff, implies_true,
    and_true]
  omega

end Stroke

namespace Thumbnail

variable {t : Thumbnail} {shape : Shape} {b : Frame}

/-- Slanted edges that take off no more than the width leave a polygon inside its box. -/
theorem holds_of_corners
    {slant : Int} {points : List Point}
    (hb : b.IsUpright)
    (hslant : 0 ≤ slant ∧ slant ≤ b.width)
    (h : corners shape b slant = .ok points) :
    ∀ p ∈ points, b.Holds p := by
  obtain ⟨hx, hy⟩ := hb
  have hmidX := fdiv_two_between hx
  have hmidY := fdiv_two_between hy
  simp only [Frame.width] at hslant
  cases shape <;> cases h <;>
  · simp only [Frame.Holds, List.forall_mem_cons, List.not_mem_nil, false_imp_iff, implies_true,
      and_true]
    omega

/-- All strokes of a shape fit into an upright box, unless the shape is a double circle. -/
theorem exists_draw
    (t : Thumbnail)
    (hshape : shape ≠ .doubleCircle)
    (hb : b.IsUpright) :
    ∃ strokes, t.draw shape b = .ok strokes ∧ ∀ s ∈ strokes, s.Fits b := by
  have hwidth : 0 ≤ b.width := Int.sub_nonneg_of_le hb.1
  have hheight : 0 ≤ b.height := Int.sub_nonneg_of_le hb.2
  have hx : b.x0 ≤ b.x0 ∧ b.x0 ≤ b.x1 ∧ b.x1 ≤ b.x1 := ⟨Int.le_refl _, hb.1, Int.le_refl _⟩
  have hy : b.y0 ≤ b.y0 ∧ b.y0 ≤ b.y1 ∧ b.y1 ≤ b.y1 := ⟨Int.le_refl _, hb.2, Int.le_refl _⟩
  have hwhole :
      ∀ s : Stroke,
        t.draw shape b = .ok [s] →
        s.points? = some b.ends →
        s.frame? = some b →
        ∃ strokes, t.draw shape b = .ok strokes ∧ ∀ s ∈ strokes, s.Fits b := by
    intro s hdraw hpoints hframe
    exact ⟨_, hdraw, List.forall_mem_singleton.mpr (Stroke.fits_of_frame hpoints hframe hx hy)⟩
  have hpolygon :
      ∀ points,
        corners shape b (b.width.fdiv 5) = .ok points →
        t.draw shape b = .ok [.polygon points t.paint] →
        ∃ strokes, t.draw shape b = .ok strokes ∧ ∀ s ∈ strokes, s.Fits b := by
    intro points hpoints hdraw
    have hslant := @fdiv_bounds _ 5 hwidth (by decide)
    refine ⟨_, hdraw, List.forall_mem_singleton.mpr (Stroke.fits_of_points rfl rfl ?_)⟩
    exact holds_of_corners hb ⟨hslant.1, by omega⟩ hpoints
  cases shape with
  | rectangle =>
      exact hwhole _ rfl rfl rfl
  | rounded =>
      exact hwhole _ rfl rfl rfl
  | stadium =>
      exact hwhole _ rfl rfl rfl
  | circle =>
      exact hwhole _ rfl rfl rfl
  | subroutine =>
      have hinset := @fdiv_bounds _ 10 hwidth (by decide)
      refine ⟨_, rfl, ?_⟩
      simp only [List.forall_mem_cons, List.not_mem_nil, false_imp_iff, implies_true, and_true]
      refine ⟨Stroke.fits_of_frame rfl rfl hx hy, Stroke.fits_upright ?_ hy,
        Stroke.fits_upright ?_ hy⟩
      all_goals
        simp only [Frame.width] at hinset hwidth ⊢
        omega
  | cylinder =>
      have hcap := @fdiv_bounds _ 4 hheight (by decide)
      have hhalf := @fdiv_bounds _ 2 hcap.1 (by decide)
      refine ⟨_, rfl, ?_⟩
      simp only [List.forall_mem_cons, List.not_mem_nil, false_imp_iff, implies_true, and_true]
      refine ⟨Stroke.fits_of_frame rfl rfl hx ?_, Stroke.fits_upright ⟨hx.1, hx.2.1⟩ ?_,
        Stroke.fits_upright hx.2 ?_, Stroke.fits_of_frame rfl rfl hx ?_,
        Stroke.fits_of_frame rfl rfl hx ?_⟩
      all_goals
        simp only [Frame.height] at hcap hhalf ⊢
        omega
  | doubleCircle =>
      exact absurd rfl hshape
  | _ =>
      exact hpolygon _ rfl rfl

/-- A double circle is two ellipses, the inner one smaller by three times the scale. -/
theorem draw_doubleCircle
    (t : Thumbnail) (b : Frame) :
    t.draw .doubleCircle b =
      .ok [.ellipse b t.paint, .ellipse (b.shrink (3 * t.scale)) t.paint] := by
  rfl

/-- The inner ellipse stays in the box, or is upright, exactly if the gap leaves room for that. -/
theorem innerEllipse_iff
    (hscale : 0 ≤ t.scale)
    (b : Frame) :
    ((Stroke.ellipse (b.shrink (3 * t.scale)) t.paint).StaysIn b ↔
        3 * t.scale ≤ b.width ∧ 3 * t.scale ≤ b.height) ∧
      ((Stroke.ellipse (b.shrink (3 * t.scale)) t.paint).IsUpright ↔
        6 * t.scale ≤ b.width ∧ 6 * t.scale ≤ b.height) := by
  constructor
  · rw [Stroke.staysIn_iff rfl]
    exact Frame.holds_shrink_iff (by omega)
  · rw [Stroke.isUpright_iff rfl, Frame.isUpright_shrink_iff, ← Int.mul_assoc]
    exact Iff.rfl

/-- A double circle fills the square inside the padding. -/
theorem size_box_doubleCircle
    (t : Thumbnail) :
    (t.box .doubleCircle).width = t.scale * (t.size - 2 * t.padding) ∧
      (t.box .doubleCircle).height = t.scale * (t.size - 2 * t.padding) := by
  have hside :
      t.edge - t.padding * t.scale - t.padding * t.scale = t.scale * (t.size - 2 * t.padding) := by
    unfold edge
    rw [Int.mul_sub, Int.mul_comm t.size, Int.mul_comm t.padding, Int.mul_left_comm]
    omega
  have hbox :
      t.box .doubleCircle =
        ⟨t.padding * t.scale, t.padding * t.scale, t.edge - t.padding * t.scale,
          t.edge - t.padding * t.scale⟩ := by
    simp [box]
  rw [hbox, ← hside]
  exact ⟨rfl, rfl⟩

/-- A thumbnail shows the strokes of its shape and then the label. -/
theorem strokes_of_render
    {ink : Ink} {picture : Picture}
    (h : t.render ink shape = .ok picture) :
    ∃ strokes x y,
      t.draw shape (t.box shape) = .ok strokes ∧
      picture.strokes = strokes ++ [.text x y t.label textColor] := by
  obtain ⟨strokes, hdraw, h⟩ := bind_eq_ok_iff.mp h
  obtain ⟨_, _, h⟩ := bind_eq_ok_iff.mp h
  obtain ⟨_, _, h⟩ := bind_eq_ok_iff.mp h
  obtain ⟨x, _, h⟩ := bind_eq_ok_iff.mp h
  obtain ⟨y, _, h⟩ := bind_eq_ok_iff.mp h
  cases h
  exact ⟨strokes, x, y, hdraw, rfl⟩

/--
Thumbnails stay inside their boxes.  Whenever the box of a shape is upright, all its
strokes are drawn, and they are what the thumbnail shows below the label.  They stay in
the box and are upright themselves, with one exception: the inner ellipse of a double
circle stays in the box only if the size exceeds twice the padding by three, and is
upright only if it exceeds it by six.
-/
theorem strokes_stay_in_box_iff
    {t : Thumbnail} {shape : Shape}
    (hscale : 1 ≤ t.scale)
    (hbox : (t.box shape).IsUpright) :
    ∃ strokes,
      t.draw shape (t.box shape) = .ok strokes ∧
      ((∀ s ∈ strokes, s.StaysIn (t.box shape)) ↔
        (shape = .doubleCircle → 2 * t.padding + 3 ≤ t.size)) ∧
      ((∀ s ∈ strokes, s.IsUpright) ↔
        (shape = .doubleCircle → 2 * t.padding + 6 ≤ t.size)) ∧
      ∀ ink picture, t.render ink shape = .ok picture →
        ∃ x y, picture.strokes = strokes ++ [.text x y t.label textColor] := by
  have hshown :
      ∀ strokes, t.draw shape (t.box shape) = .ok strokes →
        ∀ ink picture, t.render ink shape = .ok picture →
          ∃ x y, picture.strokes = strokes ++ [.text x y t.label textColor] := by
    intro strokes hdraw ink picture hrender
    obtain ⟨drawn, x, y, hdrawn, hpicture⟩ := strokes_of_render hrender
    cases hdraw.symm.trans hdrawn
    exact ⟨x, y, hpicture⟩
  by_cases hshape : shape = .doubleCircle
  · subst hshape
    have houter : (Stroke.ellipse (t.box .doubleCircle) t.paint).Fits (t.box .doubleCircle) :=
      Stroke.fits_of_frame rfl rfl ⟨Int.le_refl _, hbox.1, Int.le_refl _⟩
        ⟨Int.le_refl _, hbox.2, Int.le_refl _⟩
    obtain ⟨hwidth, hheight⟩ := t.size_box_doubleCircle
    obtain ⟨hstays, hupright⟩ := @innerEllipse_iff t (by omega) (t.box .doubleCircle)
    have hroom :
        ∀ k : Int, k * t.scale ≤ t.scale * (t.size - 2 * t.padding) ↔
          2 * t.padding + k ≤ t.size := by
      intro k
      rw [Int.mul_comm, Int.mul_le_mul_left (by omega)]
      omega
    refine ⟨_, t.draw_doubleCircle _, ?_, ?_, hshown _ (t.draw_doubleCircle _)⟩
    · rw [List.forall_mem_cons, List.forall_mem_singleton, and_iff_right houter.1, hstays, hwidth,
        hheight, hroom, and_self]
      exact ⟨fun h _ => h, fun h => h rfl⟩
    · rw [List.forall_mem_cons, List.forall_mem_singleton, and_iff_right houter.2, hupright,
        hwidth, hheight, hroom, and_self]
      exact ⟨fun h _ => h, fun h => h rfl⟩
  · obtain ⟨strokes, hdraw, hfits⟩ := t.exists_draw hshape hbox
    refine ⟨strokes, hdraw, ?_, ?_, hshown _ hdraw⟩
    · exact ⟨fun _ h => absurd h hshape, fun _ s hs => (hfits s hs).1⟩
    · exact ⟨fun _ h => absurd h hshape, fun _ s hs => (hfits s hs).2⟩

/-- A double circle with just enough room: its inner ellipse is a single point. -/
theorem strokes_stay_in_box_of_just_enough_room :
    let t : Thumbnail := { size := 16, scale := 2, padding := 5 }
    1 ≤ t.scale ∧
    t.box .doubleCircle = ⟨10, 10, 22, 22⟩ ∧
    (t.box .doubleCircle).IsUpright ∧
    ∃ strokes,
      t.draw .doubleCircle (t.box .doubleCircle) = .ok strokes ∧
      strokes.filterMap (·.frame?) = [⟨10, 10, 22, 22⟩, ⟨16, 16, 16, 16⟩] ∧
      (∀ s ∈ strokes, s.StaysIn (t.box .doubleCircle)) ∧
      ∀ s ∈ strokes, s.IsUpright := by
  have hbox : (box { size := 16, scale := 2, padding := 5 } .doubleCircle).IsUpright := by
    decide
  obtain ⟨strokes, hdraw, hstays, hupright, _⟩ :=
    @strokes_stay_in_box_iff { size := 16, scale := 2, padding := 5 } .doubleCircle (by decide) hbox
  refine ⟨by decide, rfl, hbox, strokes, hdraw, ?_, hstays.mpr (by decide),
    hupright.mpr (by decide)⟩
  cases hdraw
  rfl

/-- In a small box the gap turns the inner ellipse around, and takes it beyond the box. -/
theorem small_double_circle_leaves_box :
    let t : Thumbnail := { size := 14, scale := 1, padding := 6 }
    1 ≤ t.scale ∧
    0 ≤ t.padding ∧
    t.box .doubleCircle = ⟨6, 6, 8, 8⟩ ∧
    t.draw .doubleCircle (t.box .doubleCircle) =
      .ok [.ellipse ⟨6, 6, 8, 8⟩ t.paint, .ellipse ⟨9, 9, 5, 5⟩ t.paint] ∧
    ¬ (Stroke.ellipse ⟨9, 9, 5, 5⟩ t.paint).StaysIn (t.box .doubleCircle) ∧
    ¬ (Stroke.ellipse ⟨9, 9, 5, 5⟩ t.paint).IsUpright := by
  refine ⟨by decide, by decide, rfl, rfl, ?_, ?_⟩
  · rw [Stroke.staysIn_iff rfl]
    decide
  · rw [Stroke.isUpright_iff rfl]
    decide

end Thumbnail

end Flowchart
