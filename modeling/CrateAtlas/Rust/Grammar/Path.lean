import CrateAtlas.Rust.Grammar.Item

/-!
Paths and types, read off the start of some trees.
-/

namespace CrateAtlas.Rust

open CrateAtlas.Rust.Tree

namespace Grammar

def startsWithPathSeparator : List Tree → Bool
  | first :: second :: _ => first.isMark ':' && second.isJoinedMark ':'
  | _ => false

def startsWithMark (mark : Char) : List Tree → Bool
  | first :: _ => first.isMark mark
  | [] => false

def pathTail : Nat → List Tree → List Tree × List Tree
  | 0, trees => ([], trees)
  | fuel + 1, trees =>
      match trees with
      | first :: second :: third :: rest =>
          if !startsWithPathSeparator trees then ([], trees)
          else
            match angleList? (third :: rest) with
            | some (list, rest) =>
                let (tail, rest) := pathTail fuel rest
                (first :: second :: list ++ tail, rest)
            | none =>
                if third.word?.isSome then
                  let (tail, rest) := pathTail fuel rest
                  (first :: second :: third :: tail, rest)
                else ([], trees)
      | _ => ([], trees)

def takePathTail (trees : List Tree) : List Tree × List Tree :=
  pathTail trees.length trees

def takePath (trees : List Tree) : List Tree × List Tree :=
  match angleList? trees with
  | some (list, rest) =>
      let (tail, rest) := takePathTail rest
      (list ++ tail, rest)
  | none =>
      match trees with
      | first :: rest =>
          if first.word?.isSome then
            let (tail, rest) := takePathTail rest
            (first :: tail, rest)
          else takePathTail trees
      | [] => ([], [])

def isLifetime : Tree → Bool
  | .leaf token => token.kind = .lifetime
  | .group .. => false

/-- Types that take no arguments, so that an angle bracket behind them is an operator. -/
def plainTypes : List String :=
  ["u8", "u16", "u32", "u64", "u128", "usize", "i8", "i16", "i32", "i64", "i128", "isize",
    "f32", "f64", "bool", "str", "char"]

def takeType : Nat → List Tree → List Tree × List Tree
  | 0, trees => ([], trees)
  | fuel + 1, trees =>
      match trees with
      | [] => ([], [])
      | first :: rest =>
          let go (first : List Tree) (rest : List Tree) : List Tree × List Tree :=
            let (tail, rest) := takeType fuel rest
            (first ++ tail, rest)
          let arrow (read rest : List Tree) : List Tree × List Tree :=
            match rest with
            | dash :: bracket :: rest =>
                if dash.isMark '-' && bracket.isJoinedMark '>' then
                  go (read ++ [dash, bracket]) rest
                else (read, dash :: bracket :: rest)
            | _ => (read, rest)
          let isLead := ['&', '*', '!', '?'].any fun mark => first.isMark mark
          if isLead || isLifetime first || startsWithWord
              ["const", "mut", "dyn", "impl", "unsafe", "extern"] [first] || first.isQuoted then
            go [first] rest
          else if first.isWord "for" then
            match angleList? rest with
            | some (list, rest) => go (first :: list) rest
            | none => ([first], rest)
          else if first.isWord "fn" then
            match rest with
            | parameters :: rest => arrow [first, parameters] rest
            | [] => ([first], [])
          else if first.isAnyGroup then ([first], rest)
          else if startsWithWord plainTypes [first] && !startsWithPathSeparator rest then
            ([first], rest)
          else
            let (path, rest) := takePath trees
            match angleList? rest with
            | some (list, rest) =>
                let (tail, rest) := takePathTail rest
                (path ++ list ++ tail, rest)
            | none =>
                match rest with
                | parameters :: tail =>
                    if parameters.isGroup "(" && !path.isEmpty &&
                        (startsWithMark '-' tail) then
                      arrow (path ++ [parameters]) tail
                    else (path, rest)
                | [] => (path, [])

end Grammar

end CrateAtlas.Rust
