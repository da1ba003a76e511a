import CrateAtlas.Rust.Calls
import CrateAtlas.Rust.Delimiter
import CrateAtlas.Rust.Use

/-!
The architecture that the syntax tree of a source file shows: its types, impl blocks and imports,
those of its inline modules included. A tree whose delimiters do not balance is refused.
-/

namespace CrateAtlas.Rust

open CrateAtlas.Text

structure Scope where
  filePath : String
  modulePath : String

structure Contents where
  types : List TypeDefinition
  impls : List ImplBlock
  imports : List Import

def Contents.empty : Contents := { types := [], impls := [], imports := [] }

def Contents.append (left right : Contents) : Contents :=
  { types := left.types ++ right.types
    impls := left.impls ++ right.impls
    imports := left.imports ++ right.imports }

namespace SyntaxNode

def normalizedText (node : SyntaxNode) : String :=
  String.ofList (normalize node.text.toList)

def visibility (node : SyntaxNode) : Visibility :=
  match node.namedChildren.find? fun child => child.kind = "visibility_modifier" with
  | none => .hidden
  | some modifier =>
      match String.ofList (dropBlanks modifier.text.toList) with
      | "pub" => .everywhere
      | "pub(crate)" | "crate" => .crateWide
      | _ => .restricted

def location (scope : Scope) (node : SyntaxNode) : Location :=
  { filePath := scope.filePath, startLine := node.row + 1, endLine := node.endRow + 1 }

def bodyNodes (node : SyntaxNode) : List SyntaxNode :=
  ((node.child? "body").map namedChildren).getD []

def namedField? (node : SyntaxNode) : Option Field :=
  if node.kind = "field_declaration" then
    match node.child? "name", node.child? "type" with
    | some name, some type => some { name := name.text, typeText := type.normalizedText }
    | _, _ => none
  else none

def isUntyped (node : SyntaxNode) : Bool :=
  ["attribute_item", "visibility_modifier", "line_comment", "block_comment"].contains node.kind

def numberedFields (position : Nat) : List SyntaxNode → List Field
  | [] => []
  | type :: others =>
      { name := toString position, typeText := type.normalizedText } ::
        numberedFields (position + 1) others

def fields (item : SyntaxNode) : List Field :=
  match item.child? "body" with
  | none => []
  | some body =>
      match body.kind with
      | "field_declaration_list" => body.namedChildren.filterMap namedField?
      | "ordered_field_declaration_list" =>
          numberedFields 0 (body.namedChildren.filter fun node => !node.isUntyped)
      | _ => []

def variant? (node : SyntaxNode) : Option Field :=
  if node.kind = "enum_variant" then
    (node.child? "name").map fun name =>
      { name := name.text, typeText := ((node.child? "body").map normalizedText).getD "" }
  else none

def typeDefinition (scope : Scope) (item : SyntaxNode) (kind : TypeKind) (fields : List Field) :
    List TypeDefinition :=
  (item.child? "name").toList.map fun name =>
    { name := name.text
      qualifiedName := ModulePath.join [scope.modulePath, name.text]
      kind := kind
      visibility := item.visibility
      fields := fields
      location := item.location scope }

def withoutSemicolon (text : List Char) : List Char :=
  let kept := trimEnd text
  if kept.getLast? = some ';' then kept.dropLast else text

/-- What stands in front of the body of a function, or of the semicolon it has instead. -/
def signature (function : SyntaxNode) : List Char :=
  let text := function.text.toList
  match function.child? "body" with
  | some body => text.take (text.length - body.text.toList.length)
  | none => withoutSemicolon text

def method (scope : Scope) (implied : Option Visibility) (function : SyntaxNode) : Method :=
  { name := ((function.child? "name").map fun name => name.text).getD ""
    signature := String.ofList (normalize function.signature)
    returnType := (function.child? "return_type").map normalizedText
    visibility := implied.getD function.visibility
    calls := ((function.child? "body").map calls).getD []
    location := function.location scope }

/-- The functions that a trait declares belong to a block of their own, and all of them are
as visible as the trait can be. -/
def traitBlocks (scope : Scope) (item : SyntaxNode) : List ImplBlock :=
  let functions := item.bodyNodes.filter fun node =>
    node.kind = "function_item" || node.kind = "function_signature_item"
  match item.child? "name", functions with
  | some name, first :: others =>
      [{ target := name.text
         traitName := none
         methods := (first :: others).map (method scope (some .everywhere))
         location := item.location scope }]
  | _, _ => []

def implBlocks (scope : Scope) (item : SyntaxNode) : List ImplBlock :=
  let traitName := (item.child? "trait").map fun node => TypeText.traitRefOf node.text
  let implied : Option Visibility := (traitName.filter (· ≠ "")).map fun _ => .everywhere
  let functions := item.bodyNodes.filter fun node => node.kind = "function_item"
  (item.child? "type").toList.map fun type =>
    { target := TypeText.typePathOf type.text
      traitName := traitName
      methods := functions.map (method scope implied)
      location := item.location scope }

def declared (scope : Scope) (item : SyntaxNode) : Contents :=
  match item.kind with
  | "struct_item" | "union_item" =>
      { Contents.empty with types := item.typeDefinition scope .struct item.fields }
  | "enum_item" =>
      { Contents.empty with
        types := item.typeDefinition scope .enum (item.bodyNodes.filterMap variant?) }
  | "trait_item" =>
      { Contents.empty with
        types := item.typeDefinition scope .trait []
        impls := item.traitBlocks scope }
  | "impl_item" => { Contents.empty with impls := item.implBlocks scope }
  | "use_declaration" =>
      { Contents.empty with imports := ((item.child? "argument").map (imports "")).getD [] }
  | _ => .empty

mutual

def contents (scope : Scope) : SyntaxNode → Contents
  | ⟨_, children⟩ => contentsIn scope children

def contentsIn (scope : Scope) : List SyntaxNode → Contents
  | [] => .empty
  | node :: others =>
      (if node.isNamed then itemContents scope node else .empty).append (contentsIn scope others)

def itemContents (scope : Scope) : SyntaxNode → Contents
  | ⟨head, children⟩ =>
      match head.kind, withField? "name" children with
      | "mod_item", some name =>
          bodyContents { scope with modulePath := ModulePath.join [scope.modulePath, name.text] }
            children
      | _, _ => declared scope ⟨head, children⟩

def bodyContents (scope : Scope) : List SyntaxNode → Contents
  | [] => .empty
  | node :: others =>
      if node.field = some "body" then contents scope node else bodyContents scope others

end

end SyntaxNode

def sourceUnitOf (filePath modulePath : String) (root : SyntaxNode) : Except Failure SourceUnit :=
  match root.checkDelimiters with
  | .error error => .error (error.failure filePath)
  | .ok () =>
      let contents := root.contents { filePath := filePath, modulePath := modulePath }
      .ok
        { filePath := filePath
          modulePath := modulePath
          types := contents.types
          impls := contents.impls
          imports := distinctImports contents.imports }

end CrateAtlas.Rust
