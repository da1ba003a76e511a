import CrateAtlas.Diagram.Members

/-!
Diagrams of relationship graphs: class, state, connections and entity diagrams.
-/

namespace CrateAtlas.Diagram

inductive Mode where
  | classes
  | state
  | connections
  | entity
  deriving DecidableEq, Repr

def Mode.label : Mode → String
  | .classes => "class"
  | .state => "state"
  | .connections => "connections"
  | .entity => "entity"

def Mode.all : List Mode := [.classes, .state, .connections, .entity]

def classArrow : EdgeKind → String
  | .implements => "..|>"
  | .contains => "*--"
  | .calls => "-->"
  | .stateTransition => "..>"

def escapeText (text : String) : String :=
  String.ofList (escapeMember text.toList)

/-- Payloads of variants would read as parameters, so variants show their names alone. -/
def fieldLine (id : String) (kind : TypeKind) (field : Field) : String :=
  match kind with
  | .enum => "  " ++ id ++ " : " ++ escapeText field.name
  | _ => "  " ++ id ++ " : +" ++ escapeText field.name ++ " " ++ escapeText field.typeText

def annotation (id : String) : TypeKind → List String
  | .trait => ["  <<interface>> " ++ id]
  | .enum => ["  <<enumeration>> " ++ id]
  | .struct => []

def memberLines (id : String) (member : ClassMember) : List String :=
  annotation id member.definition.kind ++
    member.definition.fields.map (fieldLine id member.definition.kind) ++
    member.methods.map fun method => "  " ++ id ++ " : " ++ formatMethod method

def classLine (id node : String) : String :=
  "  class " ++ id ++ "[" ++ quotedName node ++ "]"

def classNodeLines (ids : List (String × String)) (members : List (String × ClassMember))
    (node : String) : Except Failure (List String) := do
  let id ← idOf ids node
  let shown :=
    match OrderedMap.get? node members with
    | some member => memberLines id member
    | none => []
  return classLine id node :: shown

def isMany (edge : Edge) : Bool :=
  edge.cardinality = some .many

def classEdgeLine (ids : List (String × String)) (edge : Edge) : Except Failure String := do
  let source ← idOf ids edge.source
  let target ← idOf ids edge.target
  let label := escapeLabel edge.caption
  match edge.kind with
  | .contains =>
      let many := if isMany edge then "\"*\"" else "\"1\""
      return "  " ++ source ++ " \"1\" " ++ classArrow .contains ++ " " ++ many ++ " " ++
        target ++ " : " ++ label
  | kind =>
      return "  " ++ source ++ " " ++ classArrow kind ++ " " ++ target ++ " : " ++ label

def renderClasses (graph : Graph) (members : List (String × ClassMember)) :
    Except Failure String := do
  let ids ← assignIds graph
  let nodes ← graph.nodes.mapM (classNodeLines ids members)
  let edges ← graph.edges.mapM (classEdgeLine ids)
  return Text.joinLines ("classDiagram" :: nodes.flatten ++ edges)

def stateNodeLine (ids : List (String × String)) (node : String) : Except Failure String := do
  let id ← idOf ids node
  return "  state " ++ quotedName node ++ " as " ++ id

def stateEdgeLine (ids : List (String × String)) (edge : Edge) : Except Failure String := do
  let source ← idOf ids edge.source
  let target ← idOf ids edge.target
  return "  " ++ source ++ " --> " ++ target ++ " : " ++ escapeLabel edge.caption

def renderState (graph : Graph) : Except Failure String := do
  let ids ← assignIds graph
  let nodes ← graph.nodes.mapM (stateNodeLine ids)
  let edges ← graph.edges.mapM (stateEdgeLine ids)
  return Text.joinLines ("stateDiagram-v2" :: nodes ++ edges)

def connectionNodeLine (ids : List (String × String)) (node : String) :
    Except Failure String := do
  let id ← idOf ids node
  return "  " ++ id ++ "[" ++ quotedName node ++ "]"

def connectionEdgeLine (ids : List (String × String)) (edge : Edge) :
    Except Failure String := do
  let source ← idOf ids edge.source
  let target ← idOf ids edge.target
  return "  " ++ source ++ " --> " ++ target

def renderConnections (graph : Graph) : Except Failure String := do
  let view := graph.abbreviate
  let ids ← assignIds view
  let nodes ← view.nodes.mapM (connectionNodeLine ids)
  let edges ← view.edges.mapM (connectionEdgeLine ids)
  return Text.joinLines ("graph LR" :: nodes ++ edges)

def entityEdgeLine (ids : List (String × String)) (edge : Edge) : Except Failure String := do
  let source ← idOf ids edge.source
  let target ← idOf ids edge.target
  let relation := if isMany edge then "||--o\x7b" else "||--||"
  return "  " ++ source ++ " " ++ relation ++ " " ++ target ++ " : \"" ++
    escapeLabel edge.caption ++ "\""

def renderEntity (graph : Graph) : Except Failure String := do
  let ids ← assignIds graph
  let contained := graph.edges.filter fun edge => edge.kind = .contains
  let edges ← contained.mapM (entityEdgeLine ids)
  return Text.joinLines ("erDiagram" :: edges)

def render (graph : Graph) (mode : Mode) (snapshot : Option Snapshot) :
    Except Failure String :=
  match mode with
  | .classes => renderClasses graph ((snapshot.map collectMembers).getD [])
  | .state => renderState graph
  | .connections => renderConnections graph
  | .entity => renderEntity graph

end CrateAtlas.Diagram
