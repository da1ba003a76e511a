import CrateAtlas.Yaml.Scalar

/-!
Texts inside a YAML document: quoted texts with their escapes, plain texts over several
lines, and block texts.
-/

namespace CrateAtlas.Yaml

open CrateAtlas.Text

def isSpaceOrTab (character : Char) : Bool :=
  character = ' ' || character = '\t'

def foldRest (separator : Char) : List (List Char) → List Char
  | [] => []
  | [last] => separator :: last
  | line :: lines =>
      if line.isEmpty then
        if separator = '\n' then '\n' :: foldRest '\n' lines else foldRest '\n' lines
      else separator :: line ++ foldRest ' ' lines

def foldLines : List (List Char) → List Char
  | [] => []
  | first :: rest => first ++ foldRest ' ' rest

def dropBlanksAtEnd (text : List Char) : List Char :=
  (text.reverse.dropWhile isSpaceOrTab).reverse

def trimLines (isFirst : Bool) : List (List Char) → List (List Char)
  | [] => []
  | [last] => [if isFirst then last else last.dropWhile isSpaceOrTab]
  | line :: lines =>
      dropBlanksAtEnd (if isFirst then line else line.dropWhile isSpaceOrTab) ::
        trimLines false lines

def undoubleQuotes : List Char → List Char
  | '\'' :: '\'' :: rest => '\'' :: undoubleQuotes rest
  | character :: rest => character :: undoubleQuotes rest
  | [] => []

def decodeSingle (raw : List Char) : List Char :=
  undoubleQuotes (foldLines (trimLines true (splitOn '\n' raw)))

def escapeValue? (mark : Char) : Option Char :=
  match mark with
  | '0' => some (Char.ofNat 0)
  | 'a' => some (Char.ofNat 7)
  | 'b' => some (Char.ofNat 8)
  | 'e' => some (Char.ofNat 0x1B)
  | 'f' => some (Char.ofNat 0x0C)
  | 'n' => some '\n'
  | 'r' => some '\r'
  | 't' => some '\t'
  | 'v' => some (Char.ofNat 0x0B)
  | 'N' => some (Char.ofNat 0x85)
  | '_' => some (Char.ofNat 0xA0)
  | 'L' => some (Char.ofNat 0x2028)
  | 'P' => some (Char.ofNat 0x2029)
  | ' ' => some ' '
  | '"' => some '"'
  | '/' => some '/'
  | '\\' => some '\\'
  | '\t' => some '\t'
  | _ => none

def codeLength? (mark : Char) : Option Nat :=
  match mark with
  | 'x' => some 2
  | 'u' => some 4
  | 'U' => some 8
  | _ => none

def lowHalf? (rest : List Char) : Option (Nat × List Char) :=
  match rest with
  | '\\' :: 'u' :: first :: second :: third :: fourth :: rest =>
      match Json.hexNumber? [first, second, third, fourth] with
      | some unit => if Json.isLowSurrogate unit then some (unit, rest) else none
      | none => none
  | _ => none

def codeValue? (code : Nat) (rest : List Char) : Option (Char × List Char) :=
  if Json.isHighSurrogate code then
    match lowHalf? rest with
    | some (low, rest) =>
        some (Char.ofNat (0x10000 + (code - 0xD800) * 0x400 + (low - 0xDC00)), rest)
    | none => some (Json.characterOf code, rest)
  else if code < 0x110000 then some (Json.characterOf code, rest)
  else none

def decodeDouble : Nat → List Char → Option (List Char)
  | 0, _ => none
  | _ + 1, [] => some []
  | fuel + 1, '\n' :: rest =>
      let blanks := rest.takeWhile fun character => isSpaceOrTab character || character = '\n'
      let feeds := blanks.filter (· = '\n')
      (decodeDouble fuel (rest.drop blanks.length)).map fun text =>
        (if feeds.isEmpty then [' '] else feeds) ++ text
  | fuel + 1, '\\' :: '\n' :: rest => decodeDouble fuel (rest.dropWhile isSpaceOrTab)
  | fuel + 1, '\\' :: mark :: rest =>
      match escapeValue? mark, codeLength? mark with
      | some character, _ => (decodeDouble fuel rest).map (character :: ·)
      | none, some length =>
          let digits := rest.take length
          if digits.length < length then none
          else
            match Json.hexNumber? digits with
            | none => none
            | some code =>
                match codeValue? code (rest.drop length) with
                | none => none
                | some (character, rest) => (decodeDouble fuel rest).map (character :: ·)
      | none, none => none
  | fuel + 1, character :: rest =>
      if isSpaceOrTab character then
        let blanks := character :: rest.takeWhile isSpaceOrTab
        let after := rest.dropWhile isSpaceOrTab
        let kept := if after.head? = some '\n' then [] else blanks
        (decodeDouble fuel after).map (kept ++ ·)
      else (decodeDouble fuel rest).map (character :: ·)

inductive Chomp where
  | strip
  | keep
  deriving DecidableEq

/-- The header of a block text: folded or literal, an indentation if one is given, and what
becomes of the end, which is clipped to one line feed otherwise. -/
structure BlockHeader where
  isFolded : Bool
  indent : Option Nat
  chomp : Option Chomp

def readBlockHeader (header : BlockHeader) : List Char → Option (BlockHeader × List Char)
  | [] => some (header, [])
  | character :: rest =>
      if isSpaceOrTab character || character = '\n' || character = '#' then
        some (header, character :: rest)
      else if (character = '-' || character = '+') && header.chomp.isNone then
        let chomp := if character = '-' then Chomp.strip else .keep
        readBlockHeader { header with chomp := some chomp } rest
      else if '1' ≤ character && character ≤ '9' && header.indent.isNone then
        readBlockHeader { header with indent := some (character.toNat - 48) } rest
      else none

structure BlockLine where
  indent : Nat
  content : List Char

def BlockLine.ofText (line : List Char) : BlockLine :=
  { indent := (line.takeWhile (· = ' ')).length, content := line.dropWhile (· = ' ') }

def spaces (count : Nat) : List Char := List.replicate count ' '

def literalLines (trim : Nat) (separator : List Char) : List BlockLine → List Char
  | [] => []
  | line :: lines =>
      separator ++ spaces (line.indent - trim) ++ line.content ++ literalLines trim ['\n'] lines

/-- Folded lines: lines of equal indentation are joined by a space, while more indented and
empty ones keep their line feeds. -/
def foldedLines (trim : Nat) (separator : List Char) (afterIndented : Bool) :
    List BlockLine → List Char
  | [] => []
  | line :: lines =>
      if line.indent > trim || line.content.head? = some '\t' then
        let separator :=
          if separator = [' '] then ['\n']
          else if !afterIndented && separator = ['\n'] then ['\n', '\n']
          else separator
        separator ++ spaces (line.indent - trim) ++ line.content ++
          foldedLines trim ['\n'] true lines
      else if line.content.isEmpty then
        if separator = ['\n'] then '\n' :: foldedLines trim ['\n'] afterIndented lines
        else foldedLines trim ['\n'] afterIndented lines
      else separator ++ line.content ++ foldedLines trim [' '] false lines

/-- The number of lines in front of the empty ones at the end; an empty line that is indented
further than the text belongs to it. -/
def contentLength (trim : Nat) (lines : List BlockLine) : Nat :=
  (lines.reverse.dropWhile fun line => line.content.isEmpty && line.indent ≤ trim).length

def blockValue (header : BlockHeader) (parent : Nat) (lines : List BlockLine) :
    Option (List Char) :=
  let lead := lines.takeWhile fun line => line.content.isEmpty
  match lines.drop lead.length with
  | [] =>
      let feeds := if header.chomp = some .keep then max 1 (lines.length - 1) else 0
      some (List.replicate feeds '\n')
  | first :: _ =>
      let least := parent + header.indent.getD 0
      let widest := lead.foldl (fun width line => max width line.indent) least
      let trim := if header.indent.isNone then first.indent else least
      let limit := if header.indent.isNone then widest else least
      if first.indent < limit then none
      else
        let count := contentLength trim lines
        let body := (lines.take count).drop lead.length
        let ending := lines.drop count
        let opening := lead.flatMap fun line => spaces (line.indent - trim) ++ ['\n']
        let text :=
          if header.isFolded then foldedLines trim [] false body else literalLines trim [] body
        let tail :=
          match header.chomp with
          | some .strip => []
          | none => ['\n']
          | some .keep =>
              let feeds := ending.flatMap fun line => '\n' :: spaces (line.indent - trim)
              if (text ++ feeds).getLast? = some '\n' then feeds else feeds ++ ['\n']
        some (opening ++ text ++ tail)

end CrateAtlas.Yaml
