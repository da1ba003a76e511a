import CrateAtlas.Yaml.Text

/-!
Documents as YAML text in block style. Texts are written plain where that is possible, in
quotes or as a literal block otherwise, and lines are never folded for their length.
-/

namespace CrateAtlas.Yaml

open CrateAtlas.Text

def anyPair (test : Char → Char → Bool) : List Char → Bool
  | first :: second :: rest => test first second || anyPair test (second :: rest)
  | _ => false

def isIndicator (character : Char) : Bool :=
  "\n\t ,[]\x7b\x7d#&*!|>'\"%@`".toList.contains character

def breaksPlain (text : List Char) : Bool :=
  text.head?.any isIndicator ||
    text = ['?'] || text = ['-'] ||
    (match text with
      | first :: second :: _ => (first = '?' || first = '-') && isSpaceOrTab second
      | _ => false) ||
    anyPair (fun first second =>
      ((first = '\n' || first = ':') && isSpaceOrTab second) ||
        (isSpaceOrTab first && second = '\n') ||
        ((first = '\n' || isSpaceOrTab first) && second = '#')) text ||
    text.getLast?.any (fun last =>
      last = '\n' || last = '\t' || last = ' ' || last = ':')

def isControl (character : Char) : Bool :=
  let code := character.toNat
  code ≤ 0x08 || (0x0B ≤ code && code ≤ 0x1F) || (0x7F ≤ code && code ≤ 0x9F)

def indentRuns (indent : List Char) (inRun : Bool) : List Char → List Char
  | [] => if inRun then indent else []
  | '\n' :: rest => '\n' :: indentRuns indent true rest
  | character :: rest =>
      (if inRun then indent else []) ++ character :: indentRuns indent false rest

def singleQuotedBody (indent : List Char) (inRun : Bool) : List Char → List Char
  | [] => if inRun then '\n' :: indent else []
  | '\n' :: rest => '\n' :: singleQuotedBody indent true rest
  | character :: rest =>
      (if inRun then '\n' :: indent else []) ++
        (if character = '\'' then ['\'', '\''] else [character]) ++
        singleQuotedBody indent false rest

def shortEscape? (code : Nat) : Option Char :=
  match code with
  | 0x00 => some '0'
  | 0x07 => some 'a'
  | 0x08 => some 'b'
  | 0x09 => some 't'
  | 0x0B => some 'v'
  | 0x0C => some 'f'
  | 0x0D => some 'r'
  | 0x1B => some 'e'
  | _ => none

def doubleQuotedChar (character : Char) : List Char :=
  let code := character.toNat
  if character = '"' || character = '\\' then ['\\', character]
  else
    match shortEscape? code with
    | some mark => ['\\', mark]
    | none =>
        if code < 0x20 then
          ['\\', 'x', Nat.digitChar (code / 16), Nat.digitChar (code % 16)]
        else [character]

/-- Texts whose quoted form has at least this many units are broken at their line feeds. -/
def minBrokenLength : Nat := 40

/-- The inside of a text in double quotes. Where lines are broken, a run of line feeds is
written as one more line feed with the indentation behind it, a space on either side of it is
escaped (on both sides twice), and the last line feed of the text stays an escape. -/
def doubleQuotedBody (breaks : Bool) (indent : List Char) (inRun : Bool) :
    List Char → List Char
  | [] => []
  | '\n' :: rest =>
      if !breaks || rest.isEmpty then
        (if inRun then indent else []) ++ '\\' :: 'n' :: doubleQuotedBody breaks indent false rest
      else if inRun then '\n' :: doubleQuotedBody breaks indent true rest
      else '\n' :: '\n' :: doubleQuotedBody breaks indent true rest
  | ' ' :: rest =>
      (if inRun then indent ++ ['\\'] else []) ++
        (if rest.head? = some '\n' then ['\\', ' '] else [' ']) ++
        doubleQuotedBody breaks indent false rest
  | character :: rest =>
      (if inRun then indent else []) ++ doubleQuotedChar character ++
        doubleQuotedBody breaks indent false rest

def doubleQuoted (indent : List Char) (text : List Char) : List Char :=
  let breaks := minBrokenLength ≤ unitCount (Json.quote (String.ofList text)).toList
  '"' :: doubleQuotedBody breaks indent false text ++ ['"']

def quoted (indent : List Char) (text : List Char) : List Char :=
  let blanksAtBreak := anyPair (fun first second =>
    (isSpaceOrTab first && second = '\n') || (first = '\n' && isSpaceOrTab second)) text
  if contains '"' text && !contains '\'' text && !blanksAtBreak then
    '\'' :: singleQuotedBody indent false text ++ ['\'']
  else doubleQuoted indent text

def isBlockBlank (character : Char) : Bool :=
  character = '\n' || isSpaceOrTab character

def blockLead (text : List Char) : List Char :=
  let blanks := text.takeWhile fun character => character = ' ' || character = '\n'
  (blanks.reverse.dropWhile (· ≠ '\n')).reverse

def indentMark (text : List Char) : List Char :=
  if (text.takeWhile fun character => character = ' ' || character = '\n').contains ' ' then
    ['2']
  else []

/-- What becomes of the line feeds at the end: stripped, kept, or clipped to one. Where
nothing stands in front of them they are kept. -/
def chompMark (body tail : List Char) : List Char :=
  match tail.span (· ≠ '\n') with
  | (_, []) => ['-']
  | (_, [_]) => if body.isEmpty then ['+'] else []
  | _ => ['+']

def blockTail (indent : List Char) (tail : List Char) : List Char :=
  let kept := if tail.getLast? = some '\n' then tail.dropLast else tail
  let lines := (kept.reverse.dropWhile (· = '\n')).reverse
  let feeds := kept.drop lines.length
  indentRuns indent false lines ++ feeds

def literalBlock (indent : List Char) (text : List Char) : List Char :=
  let body := (text.reverse.dropWhile isBlockBlank).reverse
  let tail := text.drop body.length
  let lead := blockLead body
  '|' :: indentMark body ++ chompMark body tail ++ '\n' :: indent ++ indentRuns indent false lead ++
    indentRuns indent false (body.drop lead.length) ++ blockTail indent tail

-- Only blanks behind the last line feed forbid a block. A text that is nothing but line feeds is
-- written as an empty block that keeps them, not in quotes.
def fitsBlock (text : List Char) : Bool :=
  let tail := text.reverse.takeWhile isSpaceOrTab
  !(!tail.isEmpty && (text.reverse.drop tail.length).head? = some '\n')

def textValue (indent : String) (value : String) : String :=
  let text := value.toList
  let inner := indent.toList
  String.ofList <|
    if text.any isControl then doubleQuoted inner text
    else if contains '\n' text then
      if fitsBlock text then literalBlock inner text else quoted inner text
    else if breaksPlain text || readsOtherwise value then quoted inner text
    else text

def keyText (key : String) : String :=
  let text := key.toList
  String.ofList <|
    if text.any isControl || contains '\n' text then
      '"' :: doubleQuotedBody false [] false text ++ ['"']
    else if breaksPlain text || readsOtherwise key then quoted [] text
    else text

mutual

def body (indent : String) : Json → String
  | .null => "null"
  | .bool value => if value then "true" else "false"
  | .number value => value.render
  | .string value => textValue indent value
  | .list [] => "[]"
  | .list (item :: items) => joinWith ("\n" ++ indent) (itemTexts indent (item :: items))
  | .record [] => "\x7b\x7d"
  | .record (member :: members) =>
      joinWith ("\n" ++ indent) (memberTexts indent (member :: members))

def itemTexts (indent : String) : List Json → List String
  | [] => []
  | item :: items => ("- " ++ body (indent ++ "  ") item) :: itemTexts indent items

def memberTexts (indent : String) : List (String × Json) → List String
  | [] => []
  | (key, value) :: members =>
      let inner := indent ++ "  "
      let gap :=
        match value with
        | .list (_ :: _) => "\n" ++ inner
        | .record (_ :: _) => "\n" ++ inner
        | _ => " "
      (keyText key ++ ":" ++ gap ++ body inner value) :: memberTexts indent members

end

def print (document : Json) : String :=
  body "" document ++ "\n"

end CrateAtlas.Yaml
