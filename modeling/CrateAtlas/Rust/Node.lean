/-!
Nodes of syntax trees, as a reader of Rust source text hands them over.
-/

namespace CrateAtlas.Rust

/-- What a node says of itself: its type, its text, the rows it starts and ends on, counted from zero,
the field that it fills in the node it is part of, and whether the grammar has a name for it. -/
structure NodeHead where
  kind : String
  text : String
  row : Nat
  endRow : Nat
  field : Option String
  isNamed : Bool
  deriving DecidableEq, Repr

/-- A node and the nodes that it is made of; a token is made of none. A token without text is no part
of the source. Reading put it in where the source had an error. -/
structure SyntaxNode extends NodeHead where
  children : List SyntaxNode

namespace SyntaxNode

def namedChildren (node : SyntaxNode) : List SyntaxNode :=
  node.children.filter fun child => child.isNamed

def withField? (field : String) (nodes : List SyntaxNode) : Option SyntaxNode :=
  nodes.find? fun node => node.field = some field

def child? (field : String) (node : SyntaxNode) : Option SyntaxNode :=
  withField? field node.children

end SyntaxNode

end CrateAtlas.Rust
