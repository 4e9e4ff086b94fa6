import Flowchart.Fault

/-!
# Templates

Every type of diagram has a text to start from.
-/

namespace Flowchart

/-- The types of diagrams with their starting texts, in the order in which they are offered. -/
def templates : List (String × String) :=
  [
    ("Flowchart", "flowchart LR"),
    ("Sequence",
      "sequenceDiagram\n"
        ++ "    Alice->>John: Hello John, how are you?\n"
        ++ "    John-->>Alice: Great!\n"
        ++ "    Alice->>John: See you later!"),
    ("Class",
      "classDiagram\n"
        ++ "    class Animal \x7b\n"
        ++ "        +name: string\n"
        ++ "        +makeSound(): void\n"
        ++ "    \x7d"),
    ("State",
      "stateDiagram-v2\n"
        ++ "    [*] --> Still\n"
        ++ "    Still --> Moving\n"
        ++ "    Moving --> Still\n"
        ++ "    Moving --> Crash\n"
        ++ "    Crash --> [*]"),
    ("Git Graph",
      "gitGraph\n"
        ++ "    commit\n"
        ++ "    commit\n"
        ++ "    branch develop\n"
        ++ "    commit\n"
        ++ "    commit\n"
        ++ "    checkout main\n"
        ++ "    commit"),
    ("Entity Relationship",
      "erDiagram\n"
        ++ "    CUSTOMER ||--o\x7b ORDER : places\n"
        ++ "    ORDER ||--|\x7b LINE-ITEM : contains"),
    ("User Journey",
      "journey\n"
        ++ "    title My working day\n"
        ++ "    section Go to work\n"
        ++ "        Make tea: 5: Me\n"
        ++ "        Go upstairs: 3: Me\n"
        ++ "        Do work: 1: Me, Cat"),
    ("Gantt Chart",
      "gantt\n"
        ++ "    title A Gantt Diagram\n"
        ++ "    section Section\n"
        ++ "    A task           :a1, 2014-01-01, 30d\n"
        ++ "    Another task     :after a1, 20d") ]

/-- The names of the types of diagrams. -/
def diagramTypes : List String := templates.map (·.1)

/-- The type of diagrams that is meant when none is named. -/
def defaultType : String := "Flowchart"

/-- The text to start a diagram of a type from. -/
def template (type : String) : Except Fault String :=
  match templates.find? (·.1 == type) with
  | some (_, text) => .ok text
  | none => .error (.unknownTemplate type)

end Flowchart
