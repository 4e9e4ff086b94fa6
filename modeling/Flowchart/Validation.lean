import Flowchart.Template
import Flowchart.Text.Character
import Flowchart.Text.Path

/-!
# Checks before rendering

A text must not be blank, and flowcharts and sequence diagrams must start with the
keyword of their type.  Case does not count, neither in the keyword nor in the name
of the type.
-/

namespace Flowchart

open Text

/-- Why a text should not be rendered. -/
inductive Objection
  | blank
  | missingKeyword (type keyword : String)
deriving DecidableEq, Repr

/-- The wording of an objection. -/
def Objection.message : Objection → String
  | .blank => "Diagram text cannot be empty"
  | .missingKeyword type keyword =>
      type ++ " must start with a \"" ++ keyword ++ "\" declaration"

/-- The keywords with which a text of a type may start; types with none are not checked. -/
def openingKeywords (type : String) : List String :=
  let name := type.toList.map lower
  if name == "flowchart".toList then ["flowchart", "graph"]
  else if name == "sequence".toList then ["sequenceDiagram"]
  else []

/-- The first line that is not blank, without the blanks around it. -/
def firstLine (cs : List Char) : List Char :=
  trim ((trim cs).takeWhile (· != '\n'))

/-- The objection to a text of a type, if there is one. -/
def objection? (text type : String) : Option Objection :=
  if isBlankLine text then some .blank
  else
    match openingKeywords type with
    | [] => none
    | keyword :: others =>
        let start := (firstLine text.toList).map lower
        if (keyword :: others).any fun k => (k.toList.map lower).isPrefixOf start then none
        else some (.missingKeyword type keyword)

end Flowchart
