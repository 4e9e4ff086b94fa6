import Flowchart.Diagram
import Flowchart.Line

/-!
# Edge lines and link-style indices

A link-style line names an edge by its rank among the edge lines, so every edit
that removes edge lines has to renumber the link-style lines that stay.  Here are
the places of edge lines, and the two edits of lines that keep indices and edges
together: removing edges, and replacing the link-style lines of one edge.
-/

namespace Flowchart

/-- Where an edge is written: its line, its rank among the edge lines, and its id. -/
structure EdgePlace where
  lineNumber : Nat
  position : Nat
  line : EdgeLine
  id : String
deriving DecidableEq, Repr

namespace EdgePlace

/-- Whether a location is that of an edge between two given ends. -/
def joins (l : EdgePlace) (source target : String) : Bool :=
  l.line.source == source && l.line.target == target

/-- The locations of the edge lines from a line number on, after those before it. -/
def listFrom (before : List EdgePlace) : Nat → List String → List EdgePlace
  | _, [] => before
  | number, line :: lines =>
      match Line.classify line with
      | .edge e =>
          let earlier := before.countP (·.joins e.source e.target)
          let here : EdgePlace :=
            ⟨number, before.length, e, Edge.idFor e.source e.target earlier⟩
          listFrom (before ++ [here]) (number + 1) lines
      | _ => listFrom before (number + 1) lines

/-- The locations of all edge lines, in order. -/
def all (lines : List String) : List EdgePlace := listFrom [] 0 lines

/--
The first location of an edge between two ends; a label and an id have to match
too if they are given, where a missing label is the empty one.
-/
def find? (lines : List String) (source target : String) (label id : Option String) :
    Option EdgePlace :=
  (all lines).find? fun l =>
    l.joins source target
      && (label.all (· == l.line.label.getD ""))
      && (id.all (· == l.id))

end EdgePlace

namespace LinkStyle

open Text

/-- The index of a link-style line. -/
def index? (line : String) : Option Nat :=
  match Line.classify line with
  | .linkStyle index _ => some index
  | _ => none

/-- The numbers of the link-style lines of an index. -/
def lineNumbers (lines : List String) (index : Int) : List Nat :=
  lines.zipIdx.filterMap fun (line, number) =>
    match index? line with
    | some i => if (i : Int) = index then some number else none
    | none => none

/-- A link-style line with another index and everything else as it is. -/
def renumber (line : String) (index : Int) : String :=
  let cs := line.toList
  let indent := cs.takeWhile isBlank
  match after? "linkStyle".toList (trimStart cs) with
  | none => line
  | some afterKeyword =>
      let gap := afterKeyword.takeWhile isBlank
      let digits := (trimStart afterKeyword).takeWhile isDigit
      if gap.isEmpty || digits.isEmpty then line
      else
        String.ofList (indent ++ "linkStyle".toList ++ gap) ++ toString index
          ++ String.ofList ((trimStart afterKeyword).dropWhile isDigit)

/-- How many of some positions lie below an index, each counted once. -/
def countBelow (positions : List Int) (index : Nat) : Nat :=
  positions.eraseDups.countP (· < (index : Int))

/--
Removes the edge lines at some positions and their link-style lines, and lowers
every other link-style index by the number of removed positions below it.  `rank`
edge lines stand before the given lines.
-/
def dropFrom (positions : List Int) : Nat → List String → List String
  | _, [] => []
  | rank, line :: lines =>
      match Line.classify line with
      | .edge _ =>
          if positions.contains (rank : Int) then dropFrom positions (rank + 1) lines
          else line :: dropFrom positions (rank + 1) lines
      | .linkStyle index _ =>
          if positions.contains (index : Int) then dropFrom positions rank lines
          else
            let below := countBelow positions index
            let kept := if below = 0 then line else renumber line ((index : Int) - below)
            kept :: dropFrom positions rank lines
      | _ => line :: dropFrom positions rank lines

/-- Removes the edges at some positions and keeps the other link styles at their edges. -/
def dropEdges (lines : List String) (positions : List Int) : List String :=
  dropFrom positions 0 lines

/--
Removes the link-style lines of a position and writes a new one below the edge line
there.  A negative position counts the edge lines from the last one.
-/
def replace (lines : List String) (position : Int) (styleLine : String) :
    Except Fault (List String) := do
  checkReadable lines
  let kept := lines.filter fun line =>
    match index? line with
    | some index => (index : Int) ≠ position
    | none => true
  let locations := EdgePlace.all kept
  if (locations.length : Int) ≤ position then throw (.noEdgeAt position)
  let l ← member locations position
  return kept.take (l.lineNumber + 1) ++ styleLine :: kept.drop (l.lineNumber + 1)

end LinkStyle

end Flowchart
