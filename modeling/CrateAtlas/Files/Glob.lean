import CrateAtlas.Text.Order
import CrateAtlas.Text.Scan

/-!
Glob patterns over path texts. `?` and `*` stand for parts of one name, `**` for whole
folders, brackets for one character of a set, and a marked group such as `@(a|b)` for one of
its alternatives. Patterns see 16-bit units. A name with a leading dot is only met by a
pattern that spells out the dot, unless dots are asked for.
-/

namespace CrateAtlas

inductive Repetition where
  | once
  | optional
  | any
  | some
  deriving DecidableEq, Repr

/-- A piece of a pattern. A guarded piece stands at the start of a name and meets no dot
there. -/
inductive GlobPart where
  | unit (code : Nat)
  | one (guarded : Bool)
  | run (guarded : Bool)
  | deep (guarded : Bool)
  | folders
  | between
  | beneath
  | oneOf (negated : Bool) (ranges : List (Nat × Nat))
  | group (repetition : Repetition) (alternatives : List (List GlobPart))
  /-- Any part of a name, except where an alternative and the tail stand; `whole` asks that
  they stand to the end. -/
  | except (alternatives : List (List GlobPart)) (tail : List GlobPart) (whole : Bool)
  deriving Repr

namespace Glob

def slash : Nat := 47

def dot : Nat := 46

def startsWithDot (text : List Nat) : Bool :=
  text.head? = some dot

def afterRun : List Nat → List (List Nat)
  | [] => [[]]
  | unit :: rest =>
      if unit = slash then [unit :: rest] else (unit :: rest) :: afterRun rest

/-- What is left after a part of a path; names with a leading dot are not entered. -/
def afterDeep (dots : Bool) : List Nat → List (List Nat)
  | [] => [[]]
  | unit :: rest =>
      if unit = slash && startsWithDot rest && !dots then [unit :: rest]
      else (unit :: rest) :: afterDeep dots rest

def afterFolders (dots : Bool) (text : List Nat) : List (List Nat) :=
  if startsWithDot text && !dots then [text]
  else
    text :: (afterDeep dots text).filterMap fun rest =>
      match rest with
      | unit :: rest => if unit = slash then some rest else none
      | [] => none

def inRanges (unit : Nat) (ranges : List (Nat × Nat)) : Bool :=
  ranges.any fun range => range.1 ≤ unit && unit ≤ range.2

def repeated (step : List Nat → List (List Nat)) : Nat → List Nat → List (List Nat)
  | 0, text => [text]
  | fuel + 1, text =>
      text :: ((step text).filter fun rest => rest.length < text.length).flatMap
        (repeated step fuel)

def repeatedAs (repetition : Repetition) (step : List Nat → List (List Nat))
    (text : List Nat) : List (List Nat) :=
  match repetition with
  | .once => step text
  | .optional => text :: step text
  | .any => repeated step text.length text
  | .some => (step text).flatMap (repeated step text.length)

mutual

def afterPart (dots : Bool) : GlobPart → List Nat → List (List Nat)
  | .unit code, text =>
      match text with
      | unit :: rest => if unit = code then [rest] else []
      | [] => []
  | .one guarded, text =>
      match text with
      | unit :: rest => if unit = slash || (guarded && !dots && unit = dot) then [] else [rest]
      | [] => []
  | .run guarded, text =>
      if guarded && ((!dots && startsWithDot text) || text.isEmpty) then [] else afterRun text
  | .deep guarded, text =>
      if guarded && !dots && startsWithDot text then [] else afterDeep dots text
  | .folders, text => afterFolders dots text
  | .between, text =>
      match text with
      | unit :: rest => if unit = slash then afterFolders dots rest else []
      | [] => []
  | .beneath, text =>
      match text with
      | unit :: rest =>
          if unit = slash && !(startsWithDot rest && !dots) then afterDeep dots rest else []
      | [] => [[]]
  | .oneOf negated ranges, text =>
      match text with
      | unit :: rest =>
          if (inRanges unit ranges != negated) && !(negated && unit = slash) then [rest] else []
      | [] => []
  | .group repetition alternatives, text =>
      repeatedAs repetition (fun text => afterAny dots alternatives text) text
  | .except alternatives tail whole, text =>
      let met := (afterAny dots alternatives text).flatMap fun rest => afterParts dots tail rest
      if met.any fun rest => !whole || rest.isEmpty then [] else afterRun text

def afterParts (dots : Bool) : List GlobPart → List Nat → List (List Nat)
  | [], text => [text]
  | part :: parts, text => (afterPart dots part text).flatMap fun rest => afterParts dots parts rest

def afterAny (dots : Bool) : List (List GlobPart) → List Nat → List (List Nat)
  | [], _ => []
  | parts :: others, text => afterParts dots parts text ++ afterAny dots others text

end

def isRegular (character : Char) : Bool :=
  "-*+?.^$\x7b\x7d(|)[]".toList.contains character

def rangesOf : List Char → List (Nat × Nat)
  | first :: '-' :: last :: rest => (first.toNat, last.toNat) :: rangesOf rest
  | character :: rest => (character.toNat, character.toNat) :: rangesOf rest
  | [] => []

def textParts (text : List Char) : List GlobPart :=
  (Text.units text).map .unit

def bracket (inside : List Char) : GlobPart :=
  match inside with
  | '!' :: rest | '^' :: rest => .oneOf true (rangesOf rest)
  | _ =>
      let set := GlobPart.oneOf false (rangesOf inside)
      if inside.any isRegular then set
      else .group .once [textParts ('[' :: inside ++ [']']), [set]]

def bracket? (text : List Char) : Option (List Char × List Char) :=
  match text with
  | first :: rest =>
      (Text.cutAt? ']' rest).map fun (inside, rest) => (first :: inside, rest)
  | [] => none

structure GroupMarks where
  opener : Char
  closer : Char
  bar : Char

def parentheses : GroupMarks := ⟨'(', ')', '|'⟩

def braces : GroupMarks := ⟨'\x7b', '\x7d', ','⟩

def closing? (marks : GroupMarks) (depth : Nat) : List Char → Option (List Char × List Char)
  | [] => none
  | character :: rest =>
      if character = marks.closer ∧ depth = 0 then some ([], rest)
      else
        let inner := if character = marks.opener then depth + 1
          else if character = marks.closer then depth - 1 else depth
        (closing? marks inner rest).map fun (inside, rest) => (character :: inside, rest)

def alternativesOf (marks : GroupMarks) (depth : Nat) : List Char → List (List Char)
  | [] => [[]]
  | character :: rest =>
      if character = marks.bar ∧ depth = 0 then [] :: alternativesOf marks depth rest
      else
        let inner := if character = marks.opener then depth + 1
          else if character = marks.closer then depth - 1 else depth
        match alternativesOf marks inner rest with
        | first :: others => (character :: first) :: others
        | [] => [[character]]

def repetition? (character : Char) : Option Repetition :=
  match character with
  | '@' => some .once
  | '?' => some .optional
  | '*' => some .any
  | '+' => some .some
  | _ => none

def dropFolders : List Char → List Char
  | '/' :: '*' :: '*' :: '/' :: rest => dropFolders ('/' :: rest)
  | '/' :: '*' :: '*' :: [] => []
  | text => text

def isPlainExtension (text : List Char) : Bool :=
  match text with
  | '.' :: rest =>
      !rest.isEmpty && rest.all fun character =>
        character ≠ '\\' && character ≠ '/' && character ≠ '.'
  | _ => false

/-- The pieces of a pattern. `first` holds at its very start, `fresh` at the start of every
name; the fuel bounds the length. -/
def parse : Nat → Bool → Bool → List Char → List GlobPart
  | 0, _, _, _ => []
  | fuel + 1, first, fresh, text =>
      let next := parse fuel false false
      match text with
      | [] => []
      | '\\' :: character :: rest => textParts [character] ++ next rest
      | '/' :: '*' :: '*' :: rest =>
          if (rest.isEmpty || rest.head? = some '/') && !first then
            match dropFolders rest with
            | [] => [.beneath]
            | rest => .between :: parse fuel false true (rest.drop 1)
          else .unit slash :: parse fuel false true ('*' :: '*' :: rest)
      | '!' :: '(' :: rest =>
          match closing? parentheses 0 rest with
          | none => .unit '!'.toNat :: next ('(' :: rest)
          | some (inside, rest) =>
              let alternatives := (alternativesOf parentheses 0 inside).map (parse fuel false false)
              let whole := rest.all (· = ')')
              let tail :=
                if !whole && inside.contains '*' && isPlainExtension rest then
                  parse fuel false false rest
                else []
              .except alternatives tail whole :: next rest
      | '[' :: rest =>
          match bracket? rest with
          | some (inside, rest) => bracket inside :: next rest
          | none => .unit '['.toNat :: next rest
      | mark :: '(' :: rest =>
          match repetition? mark, closing? parentheses 0 rest with
          | some repetition, some (inside, rest) =>
              .group repetition ((alternativesOf parentheses 0 inside).map (parse fuel false false)) ::
                next rest
          | _, _ =>
              if mark = '*' then .run fresh :: next ('(' :: rest)
              else if mark = '?' then .one fresh :: next ('(' :: rest)
              else textParts [mark] ++ parse fuel false (mark = '/') ('(' :: rest)
      | '*' :: '*' :: rest =>
          if first && (rest.isEmpty || rest.head? = some '/') then
            match dropFolders rest with
            | [] => [.deep true]
            | rest => .folders :: parse fuel false true (rest.drop 1)
          else if fresh then .deep true :: next (rest.dropWhile (· = '*'))
          else next ('*' :: rest)
      | '*' :: rest => .run fresh :: next rest
      | '?' :: rest => .one fresh :: next rest
      | character :: rest => textParts [character] ++ parse fuel false (character = '/') rest

def withoutLead (text : String) : String :=
  match text.toList with
  | '.' :: '/' :: rest => String.ofList rest
  | _ => text

def ofText (pattern : String) : List GlobPart :=
  let text := (withoutLead pattern).toList
  parse (text.length + 1) true true text

def fits (dots : Bool) (pattern : List GlobPart) (text : String) : Bool :=
  (afterParts dots pattern (Text.units (withoutLead text).toList)).any List.isEmpty

end Glob

end CrateAtlas
