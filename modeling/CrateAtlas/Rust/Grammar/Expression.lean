import CrateAtlas.Rust.Grammar.Path

/-!
Where the parts of expressions end: patterns, closures, ranges, and the words that stand in front of
an operand.
-/

namespace CrateAtlas.Rust

open CrateAtlas.Rust.Tree

namespace Grammar

def jumpWords : List String := ["return", "break", "yield"]

def isPrefixMark (tree : Tree) : Bool :=
  tree.isMark '&' || tree.isMark '*' || tree.isMark '!' || tree.isMark '-'

def leadWords : List String :=
  ["continue", "move", "async", "static", "unsafe", "const",
    "try", "mut", "raw", "loop", "in", "else", "box", "ref", "dyn", "as", "where", "do"]

def blockWords : List String :=
  ["unsafe", "async", "move", "loop", "const", "try"]

/-- What ends an expression: its trees, the body of a control expression, the arrow of a
match arm, or the end of the value of an arm. -/
inductive Ending where
  | trees
  | body
  | arrow
  | armValue
  deriving DecidableEq

inductive Place where
  | statement
  | operand
  | operator
  deriving DecidableEq

def isArrow : List Tree → Bool
  | first :: second :: _ => first.isMark '=' && second.isJoinedMark '>'
  | _ => false

def cutLet (depth : Nat) (previous : Option Tree) : List Tree → List Tree × List Tree
  | [] => ([], [])
  | tree :: trees =>
      let isRangeMark := tree.gap.isEmpty && previous.any (·.isMark '.')
      let isValueMark := tree.isMark '=' && !isRangeMark &&
        !(trees.head?.any fun next => next.isJoinedMark '=' || next.isJoinedMark '>')
      if tree.isMark ';' || (depth = 0 && isValueMark) then ([], tree :: trees)
      else
        let (read, rest) := cutLet (angleDepth depth previous tree) (some tree) trees
        (tree :: read, rest)

def cutPattern : List Tree → List Tree
  | [] => []
  | tree :: trees =>
      if tree.isWord "if" || isArrow (tree :: trees) then tree :: trees else cutPattern trees

def afterClosureHead (trees : List Tree) : List Tree :=
  let behind := (trees.dropWhile fun tree => !tree.isMark '|').tail
  match behind with
  | dash :: bracket :: result =>
      if dash.isMark '-' && bracket.isJoinedMark '>' then (takeType result.length result).2
      else behind
  | _ => behind

def goesOn (trees : List Tree) : Bool :=
  match trees with
  | first :: _ =>
      ['=', '+', '*', '/', '%', '^', '>', '!'].any (fun mark => first.isMark mark) ||
        first.isWord "as"
  | [] => false

def dropRange (trees : List Tree) : List Tree :=
  let rest := trees.dropWhile fun tree => tree.isMark '.'
  match rest with
  | first :: rest => if first.isJoinedMark '=' then rest else first :: rest
  | [] => []

end Grammar

end CrateAtlas.Rust
