import CrateAtlas.Rust.Grammar.Expression

/-!
What the heads of declarations are made of, and the nodes of use trees.
-/

namespace CrateAtlas.Rust

open CrateAtlas.Text CrateAtlas.Rust.Tree

/-- How the trees of a part are read. Among types nothing is called, except in the lengths of arrays
and in blocks. -/
inductive Reading where
  | types
  | value
  | positions
  | uses
  | tokens
  deriving DecidableEq

/-- A part of the head of an item, with the field that it fills. -/
structure Part where
  field : Option String
  kind : String
  reading : Reading
  trees : List Tree

namespace Item

def part (field : Option String) (kind : String) (reading : Reading) (trees : List Tree) :
    List Part :=
  if trees.isEmpty then [] else [⟨field, kind, reading, trees⟩]

def nameParts (item : Item) : List Part × List Tree :=
  match item.name? with
  | some token => ([⟨some "name", "identifier", .tokens, [.leaf token]⟩], item.head.tail)
  | none => ([], item.head)

def parameterParts (trees : List Tree) : List Part × List Tree :=
  match angleList? trees with
  | some (list, rest) => (part (some "type_parameters") "type_parameters" .types list, rest)
  | none => ([], trees)

def boundParts (trees : List Tree) : List Part :=
  part none "where_clause" .types trees

def functionParts (trees : List Tree) : List Part :=
  part (some "parameters") "parameters" .types (trees.take 1) ++
    match trees.tail with
    | dash :: bracket :: rest =>
        if dash.isMark '-' && bracket.isJoinedMark '>' then
          let (result, bounds) := cutBefore (·.isWord "where") rest
          part none "arrow" .tokens [dash, bracket] ++
            part (some "return_type") "type" .types result ++ boundParts bounds
        else boundParts trees.tail
    | _ => boundParts trees.tail

def structParts (isBlock : Bool) (trees : List Tree) : List Part :=
  match trees with
  | fields :: rest =>
      if fields.isGroup "(" && !isBlock then
        part (some "body") "ordered_field_declaration_list" .positions [fields] ++ boundParts rest
      else boundParts trees
  | [] => []

def valueParts (trees : List Tree) : List Part :=
  let (type, value) := Grammar.cutLet 0 none trees
  part none "type" .types type ++ part none "equals" .tokens (value.take 1) ++
    part (some "value") "value" .value value.tail

def isTraitMarker (tree : Tree) : Bool :=
  tree.isMark '!' || tree.isMark '?' || tree.isMark '~' || tree.isWord "const"

def targetParts (trees : List Tree) : List Part :=
  let (first, rest) := cutBefore (·.isWord "for") trees
  match rest with
  | [] => part (some "type") "type" .types first
  | word :: target =>
      let name := first.dropWhile isTraitMarker
      part none "markers" .tokens (readOff first name) ++
        part (some "trait") "type" .types name ++ part none "for" .tokens [word] ++
        part (some "type") "type" .types target

/-- The header of an impl. Brackets with `as` in them are no parameters; they open a qualified
type. -/
def implParts (trees : List Tree) : List Part :=
  let (parameters, rest) :=
    match angleList? trees with
    | some (list, rest) =>
        if list.any (·.isWord "as") then ([], trees)
        else (part (some "type_parameters") "type_parameters" .types list, rest)
    | none => ([], trees)
  let (target, bounds) := cutBefore (·.isWord "where") rest
  parameters ++ targetParts target ++ boundParts bounds

def parts (item : Item) : List Part :=
  let (name, rest) := item.nameParts
  match item.keyword with
  | "use" => part (some "argument") "argument" .uses item.head
  | "macro_rules" => part none "token_tree" .tokens item.head
  | "impl" => implParts item.head
  | "const" | "static" => name ++ valueParts rest
  | "fn" =>
      let (parameters, rest) := parameterParts rest
      name ++ parameters ++ functionParts rest
  | "struct" =>
      let (parameters, rest) := parameterParts rest
      name ++ parameters ++ structParts (item.finish.any isBraces) rest
  | _ => name ++ boundParts rest

def kind (item : Item) : String :=
  match item.keyword with
  | "struct" => "struct_item"
  | "union" => "union_item"
  | "enum" => "enum_item"
  | "trait" => "trait_item"
  | "impl" => "impl_item"
  | "use" => "use_declaration"
  | "mod" => "mod_item"
  | "fn" => if item.finish.any isBraces then "function_item" else "function_signature_item"
  | "macro_rules" => "macro_definition"
  | _ => "item"

end Item

namespace Grammar

def dropLastSeparator (trees : List Tree) : List Tree :=
  match trees.reverse with
  | first :: second :: rest =>
      if first.isMark ':' && second.isMark ':' then rest.reverse else trees
  | _ => trees

def pathKind (trees : List Tree) : String :=
  if trees.length = 1 then "identifier" else "scoped_identifier"

def pathNode (trees : List Tree) : SyntaxNode :=
  phraseNode (pathKind trees) trees (nodes trees)

def useNode : Nat → List Tree → SyntaxNode
  | 0, trees => pathNode trees
  | fuel + 1, trees =>
      match trees.getLast?.bind fun list => list.braces?.map fun inside => (list, inside) with
      | some (list, inside) =>
          let members := (splitCommas inside).flatMap fun (piece, comma) =>
            (if piece.isEmpty then [] else [useNode fuel piece]) ++ nodes comma
          let listNode := groupNode "use_list" members list
          let path := dropLastSeparator trees.dropLast
          if trees.dropLast.isEmpty then listNode
          else
            branchNode "scoped_use_list" trees <|
              (if path.isEmpty then [] else [(pathNode path).asField "path"]) ++
                nodes (trees.dropLast.drop path.length) ++ [listNode.asField "list"]
      | none =>
          let (written, tail) := trees.span fun tree => !tree.isWord "as"
          match tail with
          | word :: localName =>
              branchNode "use_as_clause" trees
                [(pathNode written).asField "path", node word,
                  (phraseNode "identifier" localName (nodes localName)).asField "alias"]
          | [] => pathNode trees

end Grammar

end CrateAtlas.Rust
