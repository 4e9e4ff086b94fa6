import Flowchart.Line

/-!
# Allocation of node ids

A new node gets a prefix and the smallest positive number that makes an id which
no node line declares and no edge line mentions.  Nothing is remembered between
calls, so the id of a removed node is given out again.
-/

namespace Flowchart
namespace NodeId

/-- The ids that a classified line declares or mentions. -/
def mentioned : Line → List String
  | .node id _ => [id]
  | .edge e => [e.source, e.target]
  | _ => []

/-- The ids that some lines declare or mention, each once, in order of first mention. -/
def used (lines : List String) : List String :=
  (lines.flatMap fun line => mentioned (Line.classify line)).eraseDups

/-- The first number from `n` on, among `fuel` of them, that makes an id which is not taken. -/
def firstFree (taken : List String) (stem : String) : (fuel n : Nat) → Nat
  | 0, n => n
  | fuel + 1, n =>
      if taken.contains (stem ++ toString n) then firstFree taken stem fuel (n + 1)
      else n

/-- The next free id; one more number than there are ids in use has to hold a free one. -/
def next (lines : List String) (stem : String) : String :=
  let taken := used lines
  stem ++ toString (firstFree taken stem taken.length 1)

end NodeId
end Flowchart
