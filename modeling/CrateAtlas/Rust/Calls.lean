import CrateAtlas.Architecture
import CrateAtlas.ModulePath
import CrateAtlas.Rust.Node
import CrateAtlas.TypeText.Paths

/-!
The calls in the body of a function. A call is known by its callee: the plain path in front of the
arguments, or a field of a receiver.
-/

namespace CrateAtlas.Rust

open CrateAtlas.Text

namespace Callee

def isPathTail (isIndex started : Bool) : List Char → Bool
  | [] => started
  | character :: rest =>
      if !started then
        if isWordStart character then isPathTail false true rest
        else isAsciiDigit character && isPathTail true true rest
      else if isAsciiDigit character || (!isIndex && isWordChar character) then
        isPathTail isIndex true rest
      else if character = '.' then isPathTail false false rest
      else
        match character, rest with
        | ':', ':' :: rest => isPathTail false false rest
        | _, _ => false

/-- Names and indexes joined by `::` and points; the first is a name. -/
def isPlainPath : List Char → Bool
  | [] => false
  | first :: rest => isWordStart first && isPathTail false true rest

def plainPath? (text : String) : Option String :=
  let path := TypeText.stripGenericsChars text.toList
  if isPlainPath path then some (String.ofList path) else none

def anyReceiver : String := "<expr>"

def lastName (callee : String) : String :=
  let text := callee.toList
  let behindPoint := match cutAtLast? '.' text with
    | some (_, name) => name
    | none => text
  ModulePath.lastSegment (String.ofList behindPoint)

end Callee

namespace SyntaxNode

mutual

def callee? : SyntaxNode → Option String
  | ⟨head, children⟩ =>
      match head.kind with
      | "generic_function" => functionCallee? children
      | "field_expression" =>
          match withField? "value" children, withField? "field" children with
          | some value, some name =>
              some ((Callee.plainPath? value.text).getD Callee.anyReceiver ++ "." ++ name.text)
          | _, _ => none
      | _ => Callee.plainPath? head.text

def functionCallee? : List SyntaxNode → Option String
  | [] => none
  | node :: others =>
      if node.field = some "function" then callee? node else functionCallee? others

end

def ownCall (node : SyntaxNode) : List CallSite :=
  if node.kind = "call_expression" then
    ((node.child? "function").bind callee?).toList.map fun callee =>
      { callee := callee, method := Callee.lastName callee, target := none, line := node.row + 1 }
  else []

mutual

-- A call stands in front of the calls in its function and in its arguments.
def calls : SyntaxNode → List CallSite
  | ⟨head, children⟩ => ownCall ⟨head, children⟩ ++ callsIn children

def callsIn : List SyntaxNode → List CallSite
  | [] => []
  | node :: others => (if node.isNamed then calls node else []) ++ callsIn others

end

end SyntaxNode

end CrateAtlas.Rust
