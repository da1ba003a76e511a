import CrateAtlas.Failure
import CrateAtlas.Graph
import CrateAtlas.Json
import CrateAtlas.ModulePath

/-!
Diagram ids and labels. An id is a word made from a qualified name, and a graph is drawn
only when its nodes have ids of their own and its edges join nodes.
-/

namespace CrateAtlas.Diagram

open CrateAtlas.Text

def stripUnderscores (text : List Char) : List Char :=
  ((text.dropWhile (· = '_')).reverse.dropWhile (· = '_')).reverse

def sanitizeId (name : String) : String :=
  String.ofList (stripUnderscores (ModulePath.sanitizeComponent name.toList))

def escapeLabel (text : String) : String :=
  String.ofList (normalize (replaceChars (fun character =>
    if character = '"' then some "#quot;"
    else if character = ':' then some "#58;"
    else none) text.toList))

/-- Drops the segments in front of the last one of every path of words; `word` is the
reversed word being read, `closing` is set on the second colon of a separator. -/
def dropPathSegments (word : List Char) (closing : Bool) : List Char → List Char
  | [] => word.reverse
  | character :: rest =>
      if closing then dropPathSegments [] false rest
      else if isWordChar character then dropPathSegments (character :: word) false rest
      else if character = ':' && !word.isEmpty && rest.head? = some ':' then
        dropPathSegments [] true rest
      else word.reverse ++ character :: dropPathSegments [] false rest

/-- Text of a class member: paths are shortened to their last segment, and brackets and
quotes that the markup reads are replaced. -/
def escapeMember (text : List Char) : List Char :=
  normalize (replaceChars (fun character =>
    if character = '<' || character = '>' then some "~"
    else if character = '"' then some "'"
    else none) (dropPathSegments [] false text))

def nodeIds (ids : List (String × String)) : List String → Except Failure (List (String × String))
  | [] => .ok ids
  | node :: nodes =>
      let id := sanitizeId node
      if id = "" then
        .error (.markup ("Type name " ++ Json.quote node ++ " has no usable diagram id"))
      else
        match ids.find? fun entry => entry.2 = id && entry.1 ≠ node with
        | some (owner, _) =>
            .error (.markup
              ("Types " ++ owner ++ " and " ++ node ++ " both map to diagram id " ++ id))
        | none => nodeIds (OrderedMap.put node id ids) nodes

def checkEndpoint (ids : List (String × String)) (edge : Edge) (endpoint : String) :
    Except Failure Unit :=
  if OrderedMap.has endpoint ids then .ok ()
  else
    .error (.markup
      ("Edge " ++ edge.source ++ " -" ++ edge.kind.label ++ "-> " ++ edge.target ++
        " refers to unknown node " ++ endpoint))

def checkEdges (ids : List (String × String)) : List Edge → Except Failure Unit
  | [] => .ok ()
  | edge :: edges => do
      checkEndpoint ids edge edge.source
      checkEndpoint ids edge edge.target
      checkEdges ids edges

def assignIds (graph : Graph) : Except Failure (List (String × String)) := do
  let ids ← nodeIds [] graph.nodes
  checkEdges ids graph.edges
  return ids

def idOf (ids : List (String × String)) (node : String) : Except Failure String :=
  match OrderedMap.get? node ids with
  | some id => .ok id
  | none => .error (.markup ("Unknown node " ++ node))

def quotedName (node : String) : String :=
  "\"" ++ escapeLabel (ModulePath.lastSegment node) ++ "\""

end CrateAtlas.Diagram
