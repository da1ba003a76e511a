import CrateAtlas.Files.Finder
import CrateAtlas.Files.Glob

/-!
Searches for files by patterns. Braces are expanded first. A pattern with nothing to expand
names one file; any other is looked for below the folders that it starts with. Patterns that
are left out hold for files and, where they end in a plain name or in whole folders, for
everything below the folders they fit.
-/

namespace CrateAtlas

namespace Glob

def digits? (text : List Char) : Option Int :=
  if text.all Text.isAsciiDigit then (String.ofList text).toNat?.map Int.ofNat else none

def integer? (text : List Char) : Option Int :=
  match text with
  | '-' :: digits => (digits? digits).map fun value => -value
  | '+' :: digits => digits? digits
  | digits => digits? digits

def isZeroPadded (text : List Char) : Bool :=
  let digits := if text.head? = some '-' then text.drop 1 else text
  digits ≠ ['0'] && digits.head? = some '0'

def padded (width : Nat) (value : Int) : List Char :=
  let sign := if value < 0 then ['-'] else []
  let digits := (toString value.natAbs).toList
  sign ++ List.replicate (width - sign.length - digits.length) '0' ++ digits

def letterCode? (text : List Char) : Option Nat :=
  match text with
  | [] => none
  | letter :: rest =>
      if letter.toNat < 0x10000 && (rest.isEmpty || (integer? text).isSome) then some letter.toNat
      else none

def span (first last : Int) (stride : Nat) : List Int :=
  (List.range ((last - first).natAbs / stride + 1)).map fun (count : Nat) =>
    if first ≤ last then first + (count * stride : Nat) else first - (count * stride : Nat)

def rangeEnds? (inside : List Char) : Option (List Char × List Char × List Char) :=
  let (texts, step) :=
    match Text.splitOn '.' inside with
    | [first, [], last] => ([first, last], ['1'])
    | [first, [], last, [], step] | [first, last, [], step] | [first, [], last, step] =>
        ([first, last], step)
    | _ => ([], [])
  match texts with
  | [first, last] =>
      if first.isEmpty || last.isEmpty || step.isEmpty then none else some (first, last, step)
  | _ => none

/-- The texts of a range. Its numbers are as wide as the longest text of its ends and its step if one
of these opens with zeros. -/
def rangeTexts? (inside : List Char) : Option (List (List Char)) := do
  let (first, last, step) ← rangeEnds? inside
  let stride := max (← integer? step).natAbs 1
  match integer? first, integer? last with
  | some low, some high =>
      let texts := [first, last, step]
      let width := if texts.any isZeroPadded then (texts.map List.length).foldl max 0 else 0
      return (span low high stride).map (padded width)
  | _, _ =>
      let codes := span (← letterCode? first) (← letterCode? last) stride
      return (codes.filter fun code => code.toNat.isValidChar).map fun code =>
        [Char.ofNat code.toNat]

/-- Every text that the braces of a pattern stand for; the fuel bounds the length. -/
def expand : Nat → List Char → List (List Char)
  | 0, text => [text]
  | fuel + 1, text =>
      match text with
      | [] => [[]]
      | '\\' :: character :: rest => (expand fuel rest).map (['\\', character] ++ ·)
      | '\x7b' :: rest =>
          match closing? braces 0 rest with
          | none => (expand fuel rest).map ('\x7b' :: ·)
          | some (inside, rest) =>
              let heads :=
                match alternativesOf braces 0 inside with
                | [_] =>
                    match rangeTexts? inside with
                    | some texts => texts
                    | none => (expand fuel inside).map fun text => '\x7b' :: text ++ ['\x7d']
                | alternatives => alternatives.flatMap (expand fuel)
              heads.flatMap fun head => (expand fuel rest).map (head ++ ·)
      | character :: rest => (expand fuel rest).map (character :: ·)

def singleSlashes : List Char → List Char
  | '/' :: '/' :: rest => singleSlashes ('/' :: rest)
  | character :: rest => character :: singleSlashes rest
  | [] => []

def expansions (pattern : String) : List String :=
  let text := pattern.toList
  ((expand (text.length + 1) text).filter fun text => !text.isEmpty).map fun text =>
    String.ofList (singleSlashes text)

def isNegated (pattern : String) : Bool :=
  match pattern.toList with
  | '!' :: '(' :: _ => false
  | '!' :: _ => true
  | _ => false

def withoutNegation (pattern : String) : String :=
  if isNegated pattern then String.ofList (pattern.toList.drop 1) else pattern

def hasGroup (marks : List Char) : List Char → Bool
  | mark :: '(' :: rest =>
      (marks.contains mark && rest.contains ')') || hasGroup marks ('(' :: rest)
  | _ :: rest => hasGroup marks rest
  | [] => false

def hasPair (opener closer : Char) (test : List Char → Bool) : List Char → Bool
  | [] => false
  | character :: rest =>
      (character = opener &&
        (match Text.cutAt? closer rest with
          | some (inside, _) => test inside
          | none => false)) ||
        hasPair opener closer test rest

def isDynamic (pattern : List Char) : Bool :=
  pattern.any (fun character => character = '*' || character = '?' || character = '\\') ||
    pattern.head? = some '!' ||
    hasPair '[' ']' (fun inside => !inside.contains '[') pattern ||
    hasPair '(' ')' (fun inside => inside.contains '|') pattern ||
    hasPair '\x7b' '\x7d'
      (fun inside => inside.contains ',' || Text.hasPart ".." inside) pattern ||
    hasGroup ['!', '*', '+', '?', '@'] pattern

/-- Whether the folders that a pattern starts with still have something to expand. A question
mark counts only behind a closing mark. -/
def isWild (text : List Char) : Bool :=
  text.head? = some '!' ||
    text.any (fun character => character = '*' || character = '[' || character = '\x7b') ||
    hasPair '(' ')' (fun inside => inside.contains '|') text ||
    hasGroup ['!', '*', '+', '?', '@'] text ||
    ["]?", ".?", "+?", ")?"].any fun part => Text.hasPart part text

def plainFolders : List (List Char) → List (List Char)
  | [] => []
  | segment :: above =>
      let text := (Text.joinWith "/" ((segment :: above).reverse.map String.ofList)).toList
      if isWild text then plainFolders above else segment :: above

def baseOf (pattern : String) : String :=
  match plainFolders ((Text.splitOn '/' pattern.toList).reverse.drop 1) with
  | [] => "."
  | [[]] => "/"
  | segments => Text.joinWith "/" (segments.reverse.map String.ofList)

def leadOf (base : String) : String :=
  if base = "." then "" else if base = "/" then "/" else base ++ "/"

def lastSegment (pattern : String) : List Char :=
  let trimmed := (pattern.toList.reverse.dropWhile (· = '/')).reverse
  match Text.cutAtLast? '/' trimmed with
  | some (_, segment) => segment
  | none => trimmed

def coversFolders (pattern : String) : Bool :=
  Text.endsWith "/**" pattern.toList || !isDynamic (lastSegment pattern)

def leavesPlace (pattern : String) : Bool :=
  Text.startsWith ".." pattern.toList || Text.startsWith "./.." pattern.toList

end Glob

namespace FileSearch

open Glob

def wanted (search : FileSearch) : List String :=
  (search.patterns.flatMap expansions).filter fun pattern => !isNegated pattern

def unwanted (search : FileSearch) : List String :=
  ((search.patterns.flatMap expansions).filter isNegated ++
    search.ignored.flatMap expansions).map withoutNegation

def leavesOut (search : FileSearch) (text : String) : Bool :=
  search.unwanted.any fun pattern => fits true (ofText pattern) text

def closes (search : FileSearch) (text : String) : Bool :=
  (search.unwanted.filter coversFolders).any fun pattern =>
    fits search.dots (ofText pattern) text

def lookUp (search : FileSearch) (tree : FileTree) (place : Path) (pattern : String) :
    Except FileFault (List String) :=
  match tree.reach .inspectLink (place.resolve pattern) with
  | .ok (.file _) => .ok (if search.leavesOut pattern then [] else [pattern])
  | .ok .folder => .ok []
  | .error (.missing _ _) => .ok []
  | .error fault => .error fault

def foldersTo (lead : String) (names : List String) : List String :=
  (List.range (names.length - 1)).map fun count =>
    lead ++ Text.joinWith "/" (names.take (count + 1))

def walk (search : FileSearch) (tree : FileTree) (place : Path) (base : String)
    (patterns : List String) : Except FileFault (List String) :=
  let folder := place.resolve base
  match tree.reach .list folder with
  | .error (.missing _ _) => .ok []
  | .error fault => .error fault
  | .ok (.file _) => .error (.notFolder .list folder)
  | .ok .folder =>
      let lead := leadOf base
      let parsed := patterns.map ofText
      .ok ((tree.filesBelow folder).filterMap fun (names, _) =>
        let text := lead ++ Text.joinWith "/" names
        if parsed.any (fun pattern => fits search.dots pattern text) &&
            !search.leavesOut text && !(foldersTo lead names).any search.closes then
          some text
        else none)

/-- Patterns by the folder that they start with. Where one starts at the place itself, all
that do not leave it are looked for from there. -/
def groups (patterns : List String) : List (String × List String) :=
  let byBase (patterns : List String) : List (String × List String) :=
    patterns.foldl (fun groups pattern =>
      OrderedMap.update (baseOf pattern) [] (· ++ [pattern]) groups) []
  let inner := byBase (patterns.filter fun pattern => !leavesPlace pattern)
  byBase (patterns.filter leavesPlace) ++
    (if OrderedMap.has "." inner then
      [(".", patterns.filter fun pattern => !leavesPlace pattern)]
    else inner)

def distinctFiles : List String → List String
  | [] => []
  | first :: rest =>
      first :: (distinctFiles rest).filter fun text => withoutLead text ≠ withoutLead first

def findAll (search : FileSearch) (tree : FileTree) (place : Path) :
    Except FileFault (List String) := do
  let (dynamic, plain) := search.wanted.partition fun pattern => isDynamic pattern.toList
  let named ← plain.mapM (search.lookUp tree place)
  let found ← (groups dynamic).mapM fun (base, patterns) => search.walk tree place base patterns
  return distinctFiles (named.flatten ++ found.flatten)

def find : Finder := fun search tree place =>
  if search.patterns.contains "" then
    .error (.plain "Patterns must be a string (non empty) or an array of strings")
  else (findAll search tree place).mapError .file

end FileSearch

end CrateAtlas
