import CrateAtlas.Rust.Grammar.Tree

/-!
Items: declarations with their visibility, their keyword, what they declare, and the body or
the semicolon that ends them.
-/

namespace CrateAtlas.Rust

/-- A declaration. Its keyword is the last of the modifiers, and the head stands behind it. -/
structure Item where
  visibility : List Tree
  modifiers : List Tree
  keyword : String
  head : List Tree
  finish : Option Tree

namespace Tree

/-- The angle bracket depth behind a tree; the bracket of an arrow closes nothing. -/
def angleDepth (depth : Nat) (previous : Option Tree) (tree : Tree) : Nat :=
  if tree.isMark '<' then depth + 1
  else if tree.isMark '>' then
    let isArrow := tree.gap.isEmpty && (previous.any fun tree =>
      tree.isMark '-' || tree.isMark '=')
    if isArrow then depth else depth - 1
  else depth

def cutOutside (test : Tree → Bool) (depth : Nat) (previous : Option Tree) :
    List Tree → List Tree × List Tree
  | [] => ([], [])
  | tree :: trees =>
      if depth = 0 && test tree then ([], tree :: trees)
      else
        let (before, rest) := cutOutside test (angleDepth depth previous tree) (some tree) trees
        (tree :: before, rest)

def cutBefore (test : Tree → Bool) (trees : List Tree) : List Tree × List Tree :=
  cutOutside test 0 none trees

/-- The angle bracket depth behind a tree of an enum's body, where only discriminants hold angle
brackets: the first compares or shifts, unless it stands behind a colon. -/
def angleDepthOfValue (depth : Nat) (previous : Option Tree) (tree : Tree) : Nat :=
  if depth = 0 && tree.isMark '<' && !previous.any (·.isMark ':') then 0
  else angleDepth depth previous tree

def piecesOutside (depthBehind : Nat → Option Tree → Tree → Nat) (depth : Nat)
    (previous : Option Tree) : List Tree → List (List Tree × List Tree)
  | [] => [([], [])]
  | tree :: trees =>
      if depth = 0 && tree.isMark ',' then
        ([], [tree]) :: piecesOutside depthBehind depth (some tree) trees
      else
        match piecesOutside depthBehind (depthBehind depth previous tree) (some tree) trees with
        | [] => [([tree], [])]
        | (piece, comma) :: pieces => (tree :: piece, comma) :: pieces

def splitCommas (trees : List Tree) : List (List Tree × List Tree) :=
  piecesOutside angleDepth 0 none trees

def splitVariants (trees : List Tree) : List (List Tree × List Tree) :=
  piecesOutside angleDepthOfValue 0 none trees

/-- Cuts behind the angle bracket that brings the depth back to zero. No semicolon stands among
arguments, and no equals sign right behind the bracket that opens them. -/
def cutAngles (depth : Nat) (previous : Option Tree) : List Tree → Option (List Tree × List Tree)
  | [] => none
  | tree :: trees =>
      let isComparison := depth = 1 && previous.any (·.isMark '<') && tree.isJoinedMark '='
      if tree.isMark ';' || isComparison then none
      else
        let next := angleDepth depth previous tree
        if next = 0 then some ([tree], trees)
        else (cutAngles next (some tree) trees).map fun (read, rest) => (tree :: read, rest)

def angleList? (trees : List Tree) : Option (List Tree × List Tree) :=
  match trees with
  | tree :: _ => if tree.isMark '<' then cutAngles 0 none trees else none
  | [] => none

def dropAttributes : List Tree → List Tree
  | first :: second :: third :: rest =>
      if first.isMark '#' && second.isGroup "[" then dropAttributes (third :: rest)
      else if first.isMark '#' && second.isMark '!' && third.isGroup "[" then
        dropAttributes rest
      else first :: second :: third :: rest
  | [first, second] => if first.isMark '#' && second.isGroup "[" then [] else [first, second]
  | trees => trees

def startsWithWord (words : List String) : List Tree → Bool
  | tree :: _ => tree.word?.any words.contains
  | [] => false

def startsWithAnyWord : List Tree → Bool
  | tree :: _ => tree.word?.isSome
  | [] => false

def isQuoted : Tree → Bool
  | .leaf token => token.kind = .quoted
  | .group .. => false

end Tree

namespace Item

open CrateAtlas.Rust.Tree

def isRestriction (inside : List Tree) : Bool :=
  match inside with
  | [tree] => startsWithWord ["self", "super", "crate"] [tree]
  | trees => startsWithWord ["in"] trees

def takeVisibility : List Tree → List Tree × List Tree
  | [] => ([], [])
  | first :: rest =>
      if first.isWord "pub" then
        match rest with
        | second :: tail =>
            if (second.inside? "(").any isRestriction then ([first, second], tail)
            else ([first], rest)
        | [] => ([first], [])
      else if first.isWord "crate" && startsWithAnyWord rest then ([first], rest)
      else ([], first :: rest)

def modifiable : List String :=
  ["fn", "impl", "trait", "extern", "unsafe", "async", "const", "type"]

def takeModifiers : List Tree → List Tree × List Tree
  | [] => ([], [])
  | [first] => ([], [first])
  | first :: second :: rest =>
      if first.isWord "extern" && second.isQuoted && startsWithWord ["fn"] rest then
        ([first, second], rest)
      else if startsWithWord ["const", "async", "unsafe", "default", "extern"] [first] &&
          startsWithWord modifiable [second] then
        let (modifiers, rest) := takeModifiers (second :: rest)
        (first :: modifiers, rest)
      else ([], first :: second :: rest)

def opensItem (word : String) (rest : List Tree) : Bool :=
  match word with
  | "fn" | "struct" | "enum" | "trait" | "mod" | "type" => startsWithAnyWord rest
  | "impl" | "use" => true
  | "const" => startsWithAnyWord rest && !startsWithWord ["move", "async"] rest
  | "static" => startsWithAnyWord rest && !startsWithWord ["move", "async"] rest
  | "union" =>
      match rest with
      | name :: next :: _ =>
          name.word?.isSome && (next.isBraces || next.isMark '<' || next.isWord "where")
      | _ => false
  | "extern" =>
      match rest with
      | first :: second :: _ =>
          first.isWord "crate" || first.isBraces || (first.isQuoted && second.isBraces)
      | [first] => first.isBraces
      | [] => false
  | "macro_rules" =>
      match rest with
      | first :: _ => first.isMark '!'
      | [] => false
  | _ => false

def cutHead (keyword : String) (trees : List Tree) : List Tree × List Tree :=
  match keyword with
  | "use" | "const" | "static" | "type" => trees.span fun tree => !tree.isMark ';'
  | "macro_rules" => trees.span fun tree => !tree.isAnyGroup
  | _ => cutBefore (fun tree => tree.isBraces || tree.isMark ';') trees

def take? (trees : List Tree) : Option (Item × List Tree) :=
  let (visibility, afterVisibility) := takeVisibility trees
  let (modifiers, afterModifiers) := takeModifiers afterVisibility
  match afterModifiers with
  | [] => none
  | keyword :: rest =>
      match keyword.word? with
      | none => none
      | some word =>
          if opensItem word rest then
            let (head, tail) := cutHead word rest
            some
              ({ visibility := visibility, modifiers := modifiers ++ [keyword], keyword := word,
                 head := head, finish := tail.head? }, tail.tail)
          else none

def trees (item : Item) : List Tree :=
  item.visibility ++ item.modifiers ++ item.head ++ item.finish.toList

def name? (item : Item) : Option Token :=
  match item.head with
  | .leaf token :: _ => if token.kind = .word then some token else none
  | _ => none

end Item

inductive Piece where
  | loose (trees : List Tree)
  | item (item : Item)

namespace Piece

open CrateAtlas.Rust.Tree

def listFrom : Nat → List Tree → List Piece
  | 0, trees => [.loose trees]
  | fuel + 1, trees =>
      let rest := dropAttributes trees
      .loose (readOff trees rest) ::
        match rest with
        | [] => []
        | first :: behind =>
            match Item.take? rest with
            | some (found, behind) => .item found :: listFrom fuel behind
            | none => .loose [first] :: listFrom fuel behind

def list (trees : List Tree) : List Piece :=
  listFrom trees.length trees

end Piece

end CrateAtlas.Rust
