import CrateAtlas.Rust.Grammar.Token
import CrateAtlas.Rust.Node

/-!
Tokens grouped by their brackets, and the nodes of tokens, groups and phrases. A node keeps all of
its tokens.
-/

namespace CrateAtlas.Rust

inductive Tree where
  | leaf (token : Token)
  | group (opener : Token) (inside : List Tree) (closer : Token)

namespace Tree

mutual

def tokens : Tree → List Token
  | .leaf token => [token]
  | .group opener inside closer => opener :: tokensOf inside ++ [closer]

def tokensOf : List Tree → List Token
  | [] => []
  | tree :: trees => tokens tree ++ tokensOf trees

end

def partner? (closer : String) : Option String :=
  match closer with
  | ")" => some "("
  | "]" => some "["
  | "\x7d" => some "\x7b"
  | _ => none

def isOpening (text : String) : Bool :=
  text = "(" || text = "[" || text = "\x7b"

/-- Groups tokens by their brackets, if these balance. Open brackets are kept innermost first, each
with the trees in front of it; `read` holds the trees of the innermost group, in reverse. -/
def groupTokens (opened : List (Token × List Tree)) (read : List Tree) :
    List Token → Option (List Tree)
  | [] => if opened.isEmpty then some read.reverse else none
  | token :: tokens =>
      if isOpening token.text then groupTokens ((token, read) :: opened) [] tokens
      else
        match partner? token.text, opened with
        | none, _ => groupTokens opened (.leaf token :: read) tokens
        | some _, [] => none
        | some opening, (opener, before) :: outer =>
            if opener.text = opening then
              groupTokens outer (.group opener read.reverse token :: before) tokens
            else none

def firstToken : Tree → Token
  | .leaf token => token
  | .group opener _ _ => opener

def gap (tree : Tree) : List Char :=
  tree.firstToken.gap

def spell (tokens : List Token) : List Char :=
  tokens.flatMap fun token => token.gap ++ token.text.toList

def textOf (trees : List Tree) : List Char :=
  match tokensOf trees with
  | [] => []
  | first :: rest => first.text.toList ++ spell rest

def isMark (mark : Char) : Tree → Bool
  | .leaf token => token.isMark mark
  | .group .. => false

def isWord (word : String) : Tree → Bool
  | .leaf token => token.isWord word
  | .group .. => false

def word? : Tree → Option String
  | .leaf token => if token.kind = .word then some token.text else none
  | .group .. => none

def isJoinedMark (mark : Char) (tree : Tree) : Bool :=
  tree.isMark mark && tree.gap.isEmpty

def inside? (opening : String) : Tree → Option (List Tree)
  | .group opener inside _ => if opener.text = opening then some inside else none
  | .leaf _ => none

def isGroup (opening : String) (tree : Tree) : Bool :=
  (tree.inside? opening).isSome

def braces? : Tree → Option (List Tree) := inside? "\x7b"

def isBraces : Tree → Bool := isGroup "\x7b"

def isAnyGroup : Tree → Bool
  | .group .. => true
  | .leaf _ => false

def readOff (trees rest : List Tree) : List Tree :=
  trees.take (trees.length - rest.length)

def kindOf (token : Token) : String :=
  match token.kind with
  | .word => "identifier"
  | .lifetime => "lifetime"
  | .number => "number_literal"
  | .quoted => "string_literal"
  | .mark => token.text

def leafNode (token : Token) : SyntaxNode :=
  { kind := kindOf token
    text := token.text
    row := token.row
    endRow := token.endRow
    field := none
    isNamed := token.kind ≠ .mark
    children := [] }

def branchNode (kind : String) (trees : List Tree) (children : List SyntaxNode) : SyntaxNode :=
  let tokens := tokensOf trees
  { kind := kind
    text := String.ofList (textOf trees)
    row := (tokens.head?.map Token.row).getD 0
    endRow := (tokens.getLast?.map Token.endRow).getD 0
    field := none
    isNamed := true
    children := children }

def phraseNode (kind : String) (trees : List Tree) (children : List SyntaxNode) : SyntaxNode :=
  match trees with
  | [.leaf token] => { leafNode token with kind := kind, isNamed := true }
  | _ => branchNode kind trees children

def groupNode (kind : String) (inside : List SyntaxNode) : Tree → SyntaxNode
  | .leaf token => leafNode token
  | .group opener trees closer =>
      branchNode kind [.group opener trees closer]
        (leafNode opener :: inside ++ [leafNode closer])

mutual

def node : Tree → SyntaxNode
  | .leaf token => leafNode token
  | .group opener inside closer =>
      groupNode "token_tree" (nodes inside) (.group opener inside closer)

def nodes : List Tree → List SyntaxNode
  | [] => []
  | tree :: trees => node tree :: nodes trees

end

end Tree

def SyntaxNode.asField (field : String) (node : SyntaxNode) : SyntaxNode :=
  { node with field := some field }

end CrateAtlas.Rust
