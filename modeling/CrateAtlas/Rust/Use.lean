import CrateAtlas.Architecture
import CrateAtlas.ModulePath
import CrateAtlas.Rust.Node

/-!
The imports of use declarations.
-/

namespace CrateAtlas.Rust

open CrateAtlas.Text

/-- A written path below a base. `self` stands for the base, and a leading `::` for nothing. -/
def importPath (base written : String) : String :=
  let joined := (ModulePath.join [base, String.ofList (dropBlanks written.toList)]).toList
  let unrooted := (afterLead? "::" joined).getD joined
  let unselfed :=
    if endsWith "::self" unrooted then unrooted.take (unrooted.length - 6) else unrooted
  if unselfed = "self".toList then "" else String.ofList unselfed

def distinctImports (found : List Import) : List Import :=
  OrderedMap.values
    ((found.filter fun entry => entry.path ≠ "").foldl
      (fun kept entry => OrderedMap.putNew (entry.path, entry.localName.getD "") entry kept) [])

namespace SyntaxNode

mutual

def imports (base : String) : SyntaxNode → List Import
  | ⟨head, children⟩ =>
      match head.kind with
      | "use_as_clause" =>
          (withField? "path" children).toList.map fun path =>
            { path := importPath base path.text
              localName := (withField? "alias" children).map fun name => name.text }
      | "scoped_use_list" =>
          match withField? "path" children with
          | some path => listImports (importPath base path.text) children
          | none => listImports base children
      | "use_list" => memberImports base children
      | "line_comment" | "block_comment" => []
      | _ => [{ path := importPath base head.text, localName := none }]

def listImports (base : String) : List SyntaxNode → List Import
  | [] => []
  | node :: others =>
      if node.field = some "list" then imports base node else listImports base others

def memberImports (base : String) : List SyntaxNode → List Import
  | [] => []
  | node :: others => (if node.isNamed then imports base node else []) ++ memberImports base others

end

end SyntaxNode

end CrateAtlas.Rust
