import CrateAtlas.Yaml.Scalar

/-!
Nodes of a YAML document as written, with anchors, references and tags, and the document that
they stand for.
-/

namespace CrateAtlas.Yaml

inductive Node where
  | scalar (tag : Option String) (isPlain : Bool) (text : String)
  | reference (name : String)
  | list (items : List Node)
  | record (members : List (Node × Node))
  | anchored (name : String) (node : Node)

inductive Fault where
  | malformed
  | unresolved (name : String)
  deriving DecidableEq, Repr

def Fault.message : Fault → String
  | .malformed => "<yaml error>"
  | .unresolved name =>
      "Unresolved alias (the anchor must be set before the alias): " ++ name

namespace Node

def empty : Node := .scalar none true ""

def coreTag (name : String) : String := "tag:yaml.org,2002:" ++ name

def isIntegerText (text : String) : Bool :=
  let digits := (takeSign text.toList).2
  (!digits.isEmpty && digits.all Text.isAsciiDigit) || (basedInteger? text.toList).isSome

/-- The value of a scalar. A tag of the core schema decides where it fits the text, and bytes
are a record of which no member is known; with any other tag the text is meant. -/
def scalarValue (tag : Option String) (isPlain : Bool) (text : String) : Json :=
  match tag with
  | none => if isPlain then plainValue text else .string text
  | some tag =>
      let fits : Bool :=
        match plainValue text with
        | .null => tag = coreTag "null"
        | .bool _ => tag = coreTag "bool"
        | .number _ => tag = (if isIntegerText text then coreTag "int" else coreTag "float")
        | _ => false
      if fits then plainValue text
      else if tag = coreTag "binary" then .record []
      else .string text

def scalar? : Node → Option Json
  | .scalar tag isPlain text => some (scalarValue tag isPlain text)
  | .anchored _ node => scalar? node
  | _ => none

def sameScalar : Json → Json → Bool
  | .null, .null => true
  | .bool left, .bool right => left = right
  | .number .undefined, .number .undefined => false
  | .number left, .number right => left = right
  | .string left, .string right => left = right
  | _, _ => false

def sameKey (left right : Node) : Bool :=
  match left.scalar?, right.scalar? with
  | some left, some right => sameScalar left right
  | _, _ => false

def memberName : Json → String
  | .null => ""
  | .bool value => if value then "true" else "false"
  | .number value => value.render
  | .string value => value
  | other => other.compact

mutual

def value (anchors : List (String × Json)) :
    Node → Except Fault (Json × List (String × Json))
  | .scalar tag isPlain text => .ok (scalarValue tag isPlain text, anchors)
  | .reference name =>
      match OrderedMap.get? name anchors with
      | some value => .ok (value, anchors)
      | none => .error (.unresolved name)
  | .anchored name node =>
      match value anchors node with
      | .ok (found, anchors) => .ok (found, OrderedMap.put name found anchors)
      | .error fault => .error fault
  | .list items =>
      match itemValues anchors items with
      | .ok (found, anchors) => .ok (.list found, anchors)
      | .error fault => .error fault
  | .record members =>
      match memberValues anchors [] members with
      | .ok (found, anchors) => .ok (.record found, anchors)
      | .error fault => .error fault

def itemValues (anchors : List (String × Json)) :
    List Node → Except Fault (List Json × List (String × Json))
  | [] => .ok ([], anchors)
  | item :: items =>
      match value anchors item with
      | .error fault => .error fault
      | .ok (first, anchors) =>
          match itemValues anchors items with
          | .ok (rest, anchors) => .ok (first :: rest, anchors)
          | .error fault => .error fault

def memberValues (anchors : List (String × Json)) (read : List (String × Json)) :
    List (Node × Node) → Except Fault (List (String × Json) × List (String × Json))
  | [] => .ok (read, anchors)
  | (key, node) :: members =>
      match value anchors key with
      | .error fault => .error fault
      | .ok (name, anchors) =>
          match value anchors node with
          | .error fault => .error fault
          | .ok (found, anchors) =>
              memberValues anchors (OrderedMap.put (memberName name) found read) members

end

def document (node : Node) : Except Fault Json :=
  (value [] node).map Prod.fst

end Node

end CrateAtlas.Yaml
