import Flowchart.Diagram

/-!
# Thumbnails

A picker shows a small drawing of every shape.  A thumbnail is a list of strokes on
a square canvas: the shape inside a box, and a sample label in the middle.  All
lengths are whole numbers, and divisions round down.  The palette lays out the
thumbnails of all shapes on a grid.

A measure of a label comes from outside and is a whole number of any size or a
binary64 number.  Whole numbers are reckoned with exactly for as long as they stay
among themselves; beside a binary64 number, or when it is halved, a whole number
becomes the nearest binary64 number, and it is a fault if that would lie beyond all
finite ones.
-/

namespace Flowchart

/-- A whole number or a binary64 number. -/
inductive Measure
  | whole (n : Int)
  | real (x : Double)
deriving DecidableEq, Repr

namespace Measure

/-- The measure as a binary64 number. -/
def toDouble : Measure → Except Fault Double
  | whole n =>
      let x := Double.ofInt n
      if x.isFinite then .ok x else .error .integerBeyondDoubles
  | real x => .ok x

/-- The difference, which is exact for two whole numbers. -/
def sub : Measure → Measure → Except Fault Measure
  | whole m, whole n => .ok (whole (m - n))
  | x, y => do return real ((← x.toDouble).sub (← y.toDouble))

/-- Half of a measure, rounded once. -/
def half : Measure → Except Fault Double
  | whole n =>
      let x := Double.quotient n 2
      if x.isFinite then .ok x else .error .quotientBeyondDoubles
  | real x => .ok x.half

end Measure

/-- A colour by its red, green and blue part. -/
structure Rgb where
  red : Int
  green : Int
  blue : Int
deriving DecidableEq, Repr

/-- A point, from left to right and from top to bottom. -/
structure Point where
  x : Int
  y : Int
deriving DecidableEq, Repr

/-- A box by its left, upper, right and lower edge. -/
structure Frame where
  x0 : Int
  y0 : Int
  x1 : Int
  y1 : Int
deriving DecidableEq, Repr

namespace Frame

/-- The width of a box. -/
def width (b : Frame) : Int := b.x1 - b.x0

/-- The height of a box. -/
def height (b : Frame) : Int := b.y1 - b.y0

end Frame

/-- How an area is painted: its filling, and the colour and thickness of its outline. -/
structure Paint where
  fill : Rgb
  outline : Option (Rgb × Int)
deriving DecidableEq, Repr

/-- A drawing instruction. -/
inductive Stroke
  | rectangle (box : Frame) (paint : Paint)
  | roundedRectangle (box : Frame) (radius : Int) (paint : Paint)
  | ellipse (box : Frame) (paint : Paint)
  | polygon (corners : List Point) (paint : Paint)
  | line (start stop : Point) (color : Rgb) (width : Int)
  | text (x y : Double) (label : String) (color : Rgb)
deriving Repr

/-- A canvas with its strokes, first to last. -/
structure Picture where
  width : Int
  height : Int
  background : Rgb
  strokes : List Stroke
deriving Repr

/-- Sizes and colours of thumbnails; `scale` multiplies all lengths. -/
structure Thumbnail where
  size : Int := 64
  scale : Int := 2
  padding : Int := 6
  label : String := "Node"
  fill : Rgb := ⟨237, 233, 254⟩
  outline : Rgb := ⟨107, 114, 128⟩
deriving Repr

/-- Where a renderer of text would put a label: the edges of its ink. -/
structure Ink where
  x0 : Measure := .whole 0
  y0 : Measure := .whole 0
  x1 : Measure := .whole 0
  y1 : Measure := .whole 0

namespace Thumbnail

/-- The colour of the canvas. -/
def background : Rgb := ⟨255, 255, 255⟩

/-- The colour of labels. -/
def textColor : Rgb := ⟨31, 41, 55⟩

/-- The edge of a thumbnail. -/
def edge (t : Thumbnail) : Int := t.size * t.scale

/-- The box of a shape; circles fill the square, other shapes are flatter by a third. -/
def box (t : Thumbnail) (shape : Shape) : Frame :=
  let pad := t.padding * t.scale
  let inset :=
    match shape with
    | .circle => 0
    | .doubleCircle => 0
    | _ => t.edge.fdiv 6
  ⟨pad, pad + inset, t.edge - pad, t.edge - pad - inset⟩

/-- The thickness of outlines. -/
def lineWidth (t : Thumbnail) : Int := max 1 t.scale

/-- Filled and outlined. -/
def paint (t : Thumbnail) : Paint := ⟨t.fill, some (t.outline, t.lineWidth)⟩

/-- The corners of a shape in a box, of which slanted edges take `slant` off; others have none. -/
def corners (shape : Shape) (b : Frame) (slant : Int) : Except Fault (List Point) :=
  let midX := (b.x0 + b.x1).fdiv 2
  let midY := (b.y0 + b.y1).fdiv 2
  match shape with
  | .asymmetric =>
      .ok [⟨b.x0, b.y0⟩, ⟨b.x1, b.y0⟩, ⟨b.x1, b.y1⟩, ⟨b.x0, b.y1⟩, ⟨b.x0 + slant, midY⟩]
  | .rhombus =>
      .ok [⟨midX, b.y0⟩, ⟨b.x1, midY⟩, ⟨midX, b.y1⟩, ⟨b.x0, midY⟩]
  | .hexagon =>
      .ok [
        ⟨b.x0 + slant, b.y0⟩, ⟨b.x1 - slant, b.y0⟩, ⟨b.x1, midY⟩,
        ⟨b.x1 - slant, b.y1⟩, ⟨b.x0 + slant, b.y1⟩, ⟨b.x0, midY⟩]
  | .parallelogram =>
      .ok [⟨b.x0 + slant, b.y0⟩, ⟨b.x1, b.y0⟩, ⟨b.x1 - slant, b.y1⟩, ⟨b.x0, b.y1⟩]
  | .parallelogramAlt =>
      .ok [⟨b.x0, b.y0⟩, ⟨b.x1 - slant, b.y0⟩, ⟨b.x1, b.y1⟩, ⟨b.x0 + slant, b.y1⟩]
  | .trapezoid =>
      .ok [⟨b.x0 + slant, b.y0⟩, ⟨b.x1 - slant, b.y0⟩, ⟨b.x1, b.y1⟩, ⟨b.x0, b.y1⟩]
  | .trapezoidAlt =>
      .ok [⟨b.x0, b.y0⟩, ⟨b.x1, b.y0⟩, ⟨b.x1 - slant, b.y1⟩, ⟨b.x0 + slant, b.y1⟩]
  | other => .error (.notAPolygon other)

/-- The strokes of a shape in a box. -/
def draw (t : Thumbnail) (shape : Shape) (b : Frame) : Except Fault (List Stroke) :=
  let upright (x y0 y1 : Int) : Stroke := .line ⟨x, y0⟩ ⟨x, y1⟩ t.outline t.lineWidth
  match shape with
  | .rectangle => .ok [.rectangle b t.paint]
  | .rounded => .ok [.roundedRectangle b (b.height.fdiv 4) t.paint]
  | .stadium => .ok [.roundedRectangle b (b.height.fdiv 2) t.paint]
  | .subroutine =>
      let inset := b.width.fdiv 10
      .ok [
        .rectangle b t.paint,
        upright (b.x0 + inset) b.y0 b.y1,
        upright (b.x1 - inset) b.y0 b.y1]
  | .cylinder =>
      let cap := b.height.fdiv 4
      let half := cap.fdiv 2
      .ok [
        .rectangle ⟨b.x0, b.y0 + half, b.x1, b.y1 - half⟩ ⟨t.fill, none⟩,
        upright b.x0 (b.y0 + half) (b.y1 - half),
        upright b.x1 (b.y0 + half) (b.y1 - half),
        .ellipse ⟨b.x0, b.y1 - cap, b.x1, b.y1⟩ t.paint,
        .ellipse ⟨b.x0, b.y0, b.x1, b.y0 + cap⟩ t.paint]
  | .circle => .ok [.ellipse b t.paint]
  | .doubleCircle =>
      let gap := 3 * t.scale
      .ok [
        .ellipse b t.paint,
        .ellipse ⟨b.x0 + gap, b.y0 + gap, b.x1 - gap, b.y1 - gap⟩ t.paint]
  | other => do
      return [.polygon (← corners other b (b.width.fdiv 5)) t.paint]

/-- Where text starts so that ink of a size from `start` on is centred between 0 and `edge`. -/
def centred (edge : Int) (size start : Measure) : Except Fault Double := do
  let free ← (Measure.whole edge).sub size
  return (← free.half).sub (← start.toDouble)

/-- The thumbnail of a shape. -/
def render (t : Thumbnail) (ink : Ink) (shape : Shape) : Except Fault Picture := do
  let strokes ← t.draw shape (t.box shape)
  let width ← ink.x1.sub ink.x0
  let height ← ink.y1.sub ink.y0
  let x ← centred t.edge width ink.x0
  let y ← centred t.edge height ink.y0
  return ⟨t.edge, t.edge, background, strokes ++ [.text x y t.label textColor]⟩

/-- A sheet of pictures, each with the point where its upper left corner lies. -/
structure Palette where
  width : Int
  height : Int
  background : Rgb
  pictures : List (Point × Picture)

/--
The rows that all shapes fill on a grid of some columns: the binary64 quotient,
rounded up.  A quotient too small to be told from zero gives no row.
-/
def rows (columns : Int) : Int := (Double.quotient Shape.all.length columns).ceil

/-- All shapes in picker order on a grid of some columns. -/
def palette (t : Thumbnail) (ink : Ink) (columns : Int) : Except Fault Palette := do
  if columns = 0 then throw .noColumns
  let pictures ← Shape.all.zipIdx.mapM fun (shape, index) => do
    let picture ← t.render ink shape
    let place : Point :=
      ⟨(index : Int).fmod columns * t.edge, (index : Int).fdiv columns * t.edge⟩
    return (place, picture)
  return ⟨t.edge * columns, t.edge * rows columns, background, pictures⟩

end Thumbnail

end Flowchart
