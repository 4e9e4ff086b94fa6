import Flowchart.Number.Binary64
import Flowchart.Datum

/-!
# Rendering and overlays

Rendering is done by someone else, now or later.  Every revision of a text is
requested once; an answer is accepted only if it is for the revision requested
last, and stale answers are discarded.

An overlay maps points of the rendered diagram to nodes and edges.  It takes the
boxes of every accepted rendering and has none after a failed one.  A click on a
node selects it, a click on the selected node deselects it, and a click on another
node asks for an edge from the selected node to that one.
-/

namespace Flowchart

/-- The place of a rendered element on the screen. -/
structure Box where
  x : Double
  y : Double
  width : Double
  height : Double
deriving DecidableEq, Repr

/-- Whether a point lies in a box or on its border. -/
def Box.contains (b : Box) (x y : Double) : Bool :=
  b.x.le x && x.le (b.x.add b.width) && b.y.le y && y.le (b.y.add b.height)

/-- Boxes of nodes and edges by id. -/
structure Layout where
  nodes : List (String × Box) := []
  edges : List (String × Box) := []
deriving Repr

/-- A text to be rendered. -/
structure RenderOrder where
  revision : Int
  text : String
deriving DecidableEq, Repr

/-- What a renderer answers for a revision: a layout, or why there is none. -/
structure Rendering where
  revision : Int
  result : Except String Layout

/-- The reason why a rendering failed. -/
def Rendering.failure? (r : Rendering) : Option String :=
  match r.result with
  | .error reason => some reason
  | .ok _ => none

/-- A renderer: the answers that it gives while it accepts a request; others come later. -/
structure Renderer where
  answers : RenderOrder → List Rendering

/-- The state of rendering: what was requested, and what was accepted last. -/
structure Renders where
  renderer : Option Renderer := none
  orders : List RenderOrder := []
  latest : Int := -1
  current : Option (Int × Layout) := none
  lastError : Option (Int × String) := none

namespace Renders

/-- Requests a rendering; the answers that come at once are still to be accepted. -/
def request (s : Renders) (revision : Int) (text : String) : Renders × List Rendering :=
  match s.renderer with
  | none => ({ s with latest := revision }, [])
  | some renderer =>
      let order : RenderOrder := ⟨revision, text⟩
      ({ s with latest := revision, orders := s.orders ++ [order] }, renderer.answers order)

/-- A request is one order for the renderer, if there is one. -/
theorem request_eq
    (s : Renders) (revision : Int) (text : String) :
    (s.request revision text).1 =
      { s with
        latest := revision
        orders := s.orders ++ if s.renderer.isSome then [⟨revision, text⟩] else [] } := by
  unfold request
  cases hrenderer : s.renderer with
  | none =>
      simp
  | some renderer =>
      simp

/-- Whether an answer is for the revision requested last. -/
def accepts (s : Renders) (r : Rendering) : Bool := r.revision == s.latest

/-- Takes an accepted answer over. -/
def publish (s : Renders) (r : Rendering) : Renders :=
  match r.result with
  | .ok layout => { s with current := some (r.revision, layout), lastError := none }
  | .error reason => { s with lastError := some (r.revision, reason) }

/-- The wording of the failure that was accepted last. -/
def lastErrorMessage (s : Renders) : Option String :=
  s.lastError.map fun (revision, reason) =>
    "Render of revision " ++ toString revision ++ " failed: " ++ reason

end Renders

/-- What an overlay knows of the screen, the node selected on it, and how often it read boxes. -/
structure Overlay where
  selected : Option String := none
  nodes : List (String × Box) := []
  edges : List (String × Box) := []
  readings : Nat := 0
deriving Repr

namespace Overlay

/-- The first element of a list of boxes that holds a point. -/
def at? (boxes : List (String × Box)) (x y : Double) : Option String :=
  (boxes.find? (·.2.contains x y)).map (·.1)

/-- The node at a point. -/
def nodeAt? (o : Overlay) (x y : Double) : Option String := at? o.nodes x y

/-- The edge at a point. -/
def edgeAt? (o : Overlay) (x y : Double) : Option String := at? o.edges x y

/-- Takes the boxes of a layout; a selected node that has none is deselected. -/
def readBoxes (o : Overlay) (layout : Layout) : Overlay :=
  let nodes := Record.ofPairs layout.nodes
  { selected := o.selected.filter fun id => nodes.any (·.1 == id)
    nodes
    edges := Record.ofPairs layout.edges
    readings := o.readings + 1 }

/-- Follows a rendering. -/
def follow (o : Overlay) (r : Rendering) : Overlay :=
  match r.result with
  | .ok layout => o.readBoxes layout
  | .error _ => { o with nodes := [], edges := [] }

/-- A click at a point: the overlay after it, and the ends of the edge that it asks for. -/
def click (o : Overlay) (x y : Double) : Overlay × Option (String × String) :=
  match o.nodeAt? x y, o.selected with
  | none, _ => (o, none)
  | some id, none => ({ o with selected := some id }, none)
  | some id, some selected =>
      let o := { o with selected := none }
      (o, if selected == id then none else some (selected, id))

end Overlay
end Flowchart
