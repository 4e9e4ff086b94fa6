import Flowchart.Diagram.Reading
import Flowchart.Diagram.Writing
import Flowchart.Graph
import Flowchart.LinkStyle
import Flowchart.NodeId

/-!
# Edits

An edit changes the text and the model of a diagram together: it writes, replaces
or removes only the lines it is about, and gives the model that reading the new
text would give.  An edit that finds nothing to change, or that could not be read
back, is refused with a problem and changes nothing.
-/

namespace Flowchart

/-- The edits of a diagram. -/
inductive Edit
  | createNode (shape : ShapeRef) (label : Option String)
  | createEdge (source target : Option String)
  | updateNode (id label : String) (shape : ShapeRef) (style : NodeStyle)
  | updateEdge (id label : String) (style : EdgeStyle)
  | deleteNode (id : String)
  | deleteEdge (id : String) (source target label : Option String)
deriving Repr

/-- What comes of an edit: a new diagram, and the id of what was created, or a problem. -/
inductive Outcome
  | changed (diagram : Diagram) (created : Option String)
  | refused (problem : Problem)
deriving Repr

/-- The diagram after an edit of `d`. -/
def Outcome.after (d : Diagram) : Outcome → Diagram
  | .changed diagram _ => diagram
  | .refused _ => d

/-- How an editor writes: the indentation, and what new diagrams and nodes start with. -/
structure Editor where
  indent : String := defaultIndent
  header : String := defaultHeader
  label : String := "New Node"
  stem : String := "node"
deriving Repr

namespace Edit

section TextPlaces

/-- Inserts a line after the last line that is not blank; at the end if all are. -/
def append (lines : List String) (line : String) : List String :=
  if lines.all isBlankLine then lines ++ [line]
  else
    let blanks := (lines.reverse.takeWhile isBlankLine).reverse
    lines.take (lines.length - blanks.length) ++ line :: blanks

/-- The blanks at the start of a line. -/
def indentOf (line : String) : String :=
  String.ofList (line.toList.takeWhile Text.isBlank)

/-- Whether a text would break a line in two. -/
def breaksLine (text : String) : Bool :=
  text.toList.contains '\n' || text.toList.contains '\r'

/-- Whether a line declares a node. -/
def declaresNode (id line : String) : Bool :=
  match Line.classify line with
  | .node other _ => other == id
  | _ => false

/-- Whether a line gives properties to a node. -/
def stylesNode (id line : String) : Bool :=
  match Line.classify line with
  | .style other _ => other == id
  | _ => false

/-- Whether a line declares a node with a shape and a label. -/
def declaresAs (shape : Shape) (label line : String) : Bool :=
  match Line.classify line with
  | .node _ body =>
      let decoded := Shape.decode body
      decoded.shape == shape && decoded.label == label
  | _ => false

end TextPlaces

section ReadBack

/--
Whether the node line of an id, a shape and a label is read back as that node.  An
id may make the line one that cannot be read at all, which is a fault.
-/
def nodeReadsBack (id : String) (shape : Shape) (label : String) : Except Fault Bool :=
  if breaksLine label then .ok false
  else do
    let line := Node.lineOf defaultIndent id shape label
    checkReadable [line]
    return declaresNode id line && declaresAs shape label line

/-- Whether an edge line is read back with given ends and a label. -/
def edgeReadsBack (line source target label : String) : Bool :=
  !breaksLine label
    && match Line.classify line with
      | .edge e => e.source == source && e.target == target && e.label.getD "" == label
      | _ => false

end ReadBack

section WaitingStyles

/-- The default style overwritten by all style lines of a node. -/
def nodeStyle (lines : List String) (id : String) : Except Fault NodeStyle :=
  NodeStyle.overwriteAll {} (Line.nodeProperties id (lines.map Line.classify))

/-- The default style overwritten by all link-style lines of an index. -/
def edgeStyle (lines : List String) (index : Nat) : EdgeStyle :=
  EdgeStyle.overwriteAll {} (Line.edgeProperties index (lines.map Line.classify))

/-- A node of a new id, with the style that the text already gives to that id. -/
def styled (lines : List String) (n : Node) : Except Fault Node := do
  checkReadable lines
  if lines.any (stylesNode n.id) then return { n with style := ← nodeStyle lines n.id }
  else return n

/-- The model after an edit: placeholders are added, and nodes of new ids take their style. -/
def rebuild (declared : List Node) (edges : List Edge) (previous : List Node)
    (lines : List String) : Except Fault Model := do
  let nodes ← (completeNodes declared edges previous).mapM fun n =>
    if previous.any (·.id == n.id) then .ok n else styled lines n
  return { nodes, edges }

end WaitingStyles

end Edit

namespace Editor

open Edit

section Creation

/-- The lines to which something is added; a blank text starts with the header. -/
def startLines (e : Editor) (d : Diagram) : List String :=
  if d.isEmpty then [e.header] else d.lines

/-- Adds a node of a new id. -/
def createNode (e : Editor) (d : Diagram) (ref : ShapeRef) (given : Option String) :
    Except Fault Outcome := do
  let shape ← ref.resolve
  let label := given.getD e.label
  let start := startLines e d
  checkReadable start
  let id := NodeId.next start e.stem
  if ← nodeReadsBack id shape label then do
    let lines := append start (Node.lineOf e.indent id shape label)
    let node : Node := { id, label, shape }
    let model ← rebuild (d.model.declared ++ [node]) d.model.edges d.model.nodes lines
    return .changed { lines, model } (some id)
  else return .refused (.unwritableNodeLabel label shape)

/-- An end of a new edge, if it is an identifier. -/
def checkEnd (id : Option String) : Except Problem String :=
  match id with
  | some text => if Text.isIdentifier text.toList then .ok text else .error (.notAnId id)
  | none => .error (.notAnId id)

/-- Adds an edge between two identifiers. -/
def createEdge (e : Editor) (d : Diagram) (source target : Option String) :
    Except Fault Outcome :=
  match checkEnd source, checkEnd target with
  | .error problem, _ => .ok (.refused problem)
  | _, .error problem => .ok (.refused problem)
  | .ok source, .ok target => do
      let start := startLines e d
      checkReadable start
      let edge : Edge := {
        id := Edge.nextId d.model.edges source target
        source, target
        style := edgeStyle start d.model.edges.length }
      let lines := append start (edge.write e.indent)
      let model ← rebuild d.model.declared (d.model.edges ++ [edge]) d.model.nodes lines
      return .changed { lines, model } (some edge.id)

end Creation

section Updates

/-- Makes the style lines of a node say a style: the first one is replaced, the others go. -/
def writeNodeStyle (e : Editor) (lines : List String) (id : String) (style : NodeStyle) :
    Except Fault (List String) := do
  checkReadable lines
  if lines.any (stylesNode id) then do
    if (← nodeStyle lines id).agrees style then return lines
    else
      let before := lines.takeWhile (!stylesNode id ·)
      match lines.dropWhile (!stylesNode id ·) with
      | [] => return lines
      | first :: rest =>
          return before ++ style.write id (indentOf first)
            :: rest.filter (!stylesNode id ·)
  else if style.isDefault then return lines
  else return append lines (style.write id e.indent)

/-- Gives a node a label, a shape and a style; a node that only edges mention is declared. -/
def updateNode (e : Editor) (d : Diagram) (id label : String) (ref : ShapeRef)
    (style : NodeStyle) : Except Fault Outcome := do
  let shape ← ref.resolve
  checkReadable d.lines
  let isDeclared := d.lines.any (declaresNode id)
  let isStale := fun line => declaresNode id line && !declaresAs shape label line
  let isWritten := d.lines.any isStale || !isDeclared
  if (d.model.node? id).isNone && !isDeclared then return .refused (.noNodeLine id)
  else do
    let isReadBack ← if isWritten then nodeReadsBack id shape label else .ok true
    if !isReadBack then return .refused (.unwritableNodeLabel label shape)
    else do
      let node : Node := { id, label, shape, style }
      let replaced := d.lines.map fun line =>
        if isStale line then Node.lineOf (indentOf line) id shape label else line
      let written :=
        if isDeclared then replaced
        else append replaced (Node.lineOf e.indent id shape label)
      let declared :=
        if isDeclared then d.model.declared.map fun n => if n.id == id then node else n
        else d.model.declared ++ [node]
      let lines ← writeNodeStyle e written id style
      let model ← rebuild declared d.model.edges d.model.nodes lines
      return .changed { lines, model } none

/-- Gives an edge a label and a style; the brackets at its ends are kept as they are. -/
def updateEdge (e : Editor) (d : Diagram) (id label : String) (style : EdgeStyle) :
    Except Fault Outcome :=
  match d.model.edge? id with
  | none => .ok (.refused (.noEdge id))
  | some edge => do
      checkReadable d.lines
      match EdgePlace.find? d.lines edge.source edge.target none (some edge.id) with
      | none => return .refused (.noEdgeLine id)
      | some l =>
          let old := d.lines.getD l.lineNumber ""
          let sameLabel := l.line.label.getD "" == label
          let new :=
            if sameLabel then old
            else Edge.lineOf (indentOf old) l.line.sourceText l.line.targetText label
          if !sameLabel && !edgeReadsBack new edge.source edge.target label then
            return .refused (.unwritableEdgeLabel label)
          else do
            let lines ← LinkStyle.replace (d.lines.set l.lineNumber new) l.position
              (style.write l.position e.indent)
            let edges := d.model.edges.map fun other =>
              if other.id == edge.id then { edge with label, style } else other
            return .changed { lines, model := { d.model with edges } } none

end Updates

section Deletion

/-- Removes a node with its declarations, its style lines and its edges. -/
def deleteNode (d : Diagram) (id : String) : Except Fault Outcome := do
  checkReadable d.lines
  let owned := fun line => declaresNode id line || stylesNode id line
  let incident := (EdgePlace.all d.lines).filter fun l =>
    l.line.source == id || l.line.target == id
  if !d.lines.any owned && incident.isEmpty then return .refused (.noLinesOfNode id)
  else do
    let lines :=
      (LinkStyle.dropEdges d.lines (incident.map fun l => (l.position : Int))).filter
        (!owned ·)
    let removed := (Graph.ofModel d.model).edgesAt d.model id
    let edges := renumberEdges (d.model.edges.filter fun e => !removed.contains e.id)
    let declared := d.model.declared.filter (·.id != id)
    let model ← rebuild declared edges (d.model.nodes.filter (·.id != id)) lines
    return .changed { lines, model } none

/-- Removes one edge line; the ends that are not given are those of the edge of the id. -/
def deleteEdge (d : Diagram) (id : String) (source target label : Option String) :
    Except Fault Outcome :=
  let edge := d.model.edge? id
  match source <|> edge.map (·.source), target <|> edge.map (·.target) with
  | some source, some target => do
      checkReadable d.lines
      match EdgePlace.find? d.lines source target label (edge.map (·.id)) with
      | none => return .refused (.noEdgeBetween source target)
      | some l =>
          let lines := LinkStyle.dropEdges d.lines [(l.position : Int)]
          let edges := renumberEdges (d.model.edges.eraseIdx l.position)
          let model ← rebuild d.model.declared edges d.model.nodes lines
          return .changed { lines, model } none
  | _, _ => .ok (.refused (.noEdge id))

/-- Carries out an edit. -/
def apply (e : Editor) (d : Diagram) : Edit → Except Fault Outcome
  | .createNode shape label => e.createNode d shape label
  | .createEdge source target => e.createEdge d source target
  | .updateNode id label shape style => e.updateNode d id label shape style
  | .updateEdge id label style => e.updateEdge d id label style
  | .deleteNode id => deleteNode d id
  | .deleteEdge id source target label => deleteEdge d id source target label

end Deletion

end Editor

end Flowchart
