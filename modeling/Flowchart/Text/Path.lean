/-!
# Pieces of a text and paths

A text is cut at the first occurrence of a separator or at all of them; lines are
the pieces between line feeds, except that an empty text has no line at all.
`joinLines` and `splitLines` undo each other on lines without line feeds.

A file path in normal form has no empty and no single-dot parts and no slash at its
end.  It starts with as many slashes as it was given with if these are at most two,
and with one otherwise.  The path of nothing is a single dot.
-/

namespace Flowchart

namespace Text

/-- The text before the first `sep`, and the text after it if there is one. -/
def cut (sep : Char) (cs : List Char) : List Char × Option (List Char) :=
  (cs.takeWhile (· != sep), (cs.dropWhile (· != sep)).tail?)

/-- What follows `lead`, if the text starts with it. -/
def after? : (lead cs : List Char) → Option (List Char)
  | [], cs => some cs
  | _ :: _, [] => none
  | l :: lead, c :: cs => if l = c then after? lead cs else none

/-- Recognising a lead means that the text is the lead and the rest. -/
theorem after?_eq_some_iff
    {lead cs rest : List Char} :
    after? lead cs = some rest ↔ cs = lead ++ rest := by
  induction lead generalizing cs with
  | nil =>
      simp [after?]
  | cons l lead ih =>
      cases cs with
      | nil =>
          simp [after?]
      | cons c cs =>
          by_cases h : l = c
          · simp [after?, h, ih]
          · simp [after?, h, Ne.symm h]

end Text

/-- The lines of a text; an empty text has none. -/
def splitLines (text : String) : List String :=
  if text.isEmpty then []
  else (text.toList.splitOn '\n').map String.ofList

/-- The text made of some lines. -/
def joinLines (lines : List String) : String :=
  "\n".intercalate lines

/-- Every text is the text of its lines. -/
theorem joinLines_splitLines
    (text : String) :
    joinLines (splitLines text) = text := by
  unfold joinLines splitLines
  split
  · rename_i h
    rw [String.isEmpty_iff] at h
    rw [h]
    rfl
  · rw [← String.toList_inj, String.toList_intercalate, List.map_map]
    have h : String.toList ∘ String.ofList = id := by
      funext cs
      simp
    rw [h, List.map_id]
    exact List.intercalate_splitOn '\n'

namespace Path

open Text

/-- The slashes that a path in normal form starts with, for the slashes it was given with. -/
def root (slashes : List Char) : List Char :=
  if slashes.length ≤ 2 then slashes else ['/']

/-- The normal form of a path. -/
def normalize (path : String) : String :=
  let cs := path.toList
  let start := root (cs.takeWhile (· == '/'))
  let parts := (cs.splitOn '/').filter fun part => !part.isEmpty && part != ['.']
  let body := ['/'].intercalate parts
  if start.isEmpty && body.isEmpty then "." else String.ofList (start ++ body)

end Path

end Flowchart
