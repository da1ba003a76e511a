import CrateAtlas.Number
import CrateAtlas.OrderedMap
import CrateAtlas.Text.Order
import CrateAtlas.Text.Scan

/-!
JSON documents: values, a reader that says where trailing text starts, and a printer.
-/

namespace CrateAtlas

inductive Json where
  | null
  | bool (value : Bool)
  | number (value : Number)
  | string (value : String)
  | list (items : List Json)
  | record (members : List (String × Json))
  deriving Repr, Inhabited

inductive JsonFailure where
  | malformed
  | trailing (position line column : Nat)
  deriving DecidableEq, Repr

def JsonFailure.message : JsonFailure → String
  | .malformed => "<json error>"
  | .trailing position line column =>
      "Unexpected non-whitespace character after JSON at position " ++ toString position ++
        " (line " ++ toString line ++ " column " ++ toString column ++ ")"

/-- A text format for documents. What it cannot read is refused with a message. -/
structure Json.Format where
  print : Json → String
  parse : String → Except String Json

namespace Json

def isSpace (character : Char) : Bool :=
  character = ' ' || character = '\t' || character = '\n' || character = '\r'

def skipSpace (text : List Char) : List Char :=
  text.dropWhile isSpace

def hexValue? (character : Char) : Option Nat :=
  if Text.isAsciiDigit character then some (character.toNat - 48)
  else if 'a' ≤ character && character ≤ 'f' then some (character.toNat - 87)
  else if 'A' ≤ character && character ≤ 'F' then some (character.toNat - 55)
  else none

def hexNumber? (digits : List Char) : Option Nat :=
  digits.foldl (fun value digit =>
    match value, hexValue? digit with
    | some value, some digit => some (16 * value + digit)
    | _, _ => none) (some 0)

def isHighSurrogate (unit : Nat) : Bool := 0xD800 ≤ unit && unit < 0xDC00

def isLowSurrogate (unit : Nat) : Bool := 0xDC00 ≤ unit && unit < 0xE000

/-- A surrogate that has no partner is read as the replacement character. -/
def characterOf (unit : Nat) : Char :=
  if 0xD800 ≤ unit && unit < 0xE000 then Char.ofNat 0xFFFD else Char.ofNat unit

def settle (high : Option Nat) (read : List Char) : List Char :=
  if high.isSome then characterOf 0xD800 :: read else read

def simpleEscape? (character : Char) : Option Char :=
  match character with
  | '"' => some '"'
  | '\\' => some '\\'
  | '/' => some '/'
  | 'b' => some (Char.ofNat 8)
  | 'f' => some (Char.ofNat 12)
  | 'n' => some '\n'
  | 'r' => some '\r'
  | 't' => some '\t'
  | _ => none

/-- Reads the rest of a quoted text; `high` is a surrogate that waits for its partner. -/
def readText (high : Option Nat) (read : List Char) : List Char → Option (String × List Char)
  | [] => none
  | '"' :: rest => some (String.ofList (settle high read).reverse, rest)
  | '\\' :: 'u' :: first :: second :: third :: fourth :: rest =>
      match hexNumber? [first, second, third, fourth] with
      | none => none
      | some unit =>
          match high with
          | some first =>
              if isLowSurrogate unit then
                let joined := 0x10000 + (first - 0xD800) * 0x400 + (unit - 0xDC00)
                readText none (Char.ofNat joined :: read) rest
              else if isHighSurrogate unit then readText (some unit) (settle high read) rest
              else readText none (characterOf unit :: settle high read) rest
          | none =>
              if isHighSurrogate unit then readText (some unit) read rest
              else readText none (characterOf unit :: read) rest
  | '\\' :: mark :: rest =>
      match simpleEscape? mark with
      | none => none
      | some character => readText none (character :: settle high read) rest
  | character :: rest =>
      if character.toNat < 0x20 || character = '\\' then none
      else readText none (character :: settle high read) rest

def readDigits? (text : List Char) : Option (List Char × List Char) :=
  let digits := text.takeWhile Text.isAsciiDigit
  if digits.isEmpty then none else some (digits, text.dropWhile Text.isAsciiDigit)

def decimalValue (digits : List Char) : Nat :=
  digits.foldl (fun value digit => 10 * value + (digit.toNat - 48)) 0

def readExponent? (text : List Char) : Option (Int × List Char) :=
  match text with
  | 'e' :: rest | 'E' :: rest =>
      let (negative, digits) :=
        match rest with
        | '-' :: digits => (true, digits)
        | '+' :: digits => (false, digits)
        | digits => (false, digits)
      (readDigits? digits).map fun (digits, rest) =>
        let value : Int := decimalValue digits
        (if negative then -value else value, rest)
  | _ => some (0, text)

def readFraction? (text : List Char) : Option (List Char × List Char) :=
  match text with
  | '.' :: rest => readDigits? rest
  | _ => some ([], text)

def readNumber? (text : List Char) : Option (Number × List Char) := do
  let (negative, unsigned) :=
    match text with
    | '-' :: rest => (true, rest)
    | _ => (false, text)
  let (digits, rest) ←
    match unsigned with
    | '0' :: rest => some (['0'], rest)
    | _ => readDigits? unsigned
  let (fraction, rest) ← readFraction? rest
  let (exponent, rest) ← readExponent? rest
  let value := Number.ofDecimal negative (decimalValue (digits ++ fraction))
    (exponent - fraction.length)
  return (value, rest)

mutual

def readValue : Nat → List Char → Option (Json × List Char)
  | 0, _ => none
  | fuel + 1, text =>
      match skipSpace text with
      | '"' :: rest =>
          (readText none [] rest).map fun (value, rest) => (.string value, rest)
      | '[' :: rest =>
          match skipSpace rest with
          | ']' :: rest => some (.list [], rest)
          | _ => (readItems fuel rest).map fun (items, rest) => (.list items, rest)
      | '\x7b' :: rest =>
          match skipSpace rest with
          | '\x7d' :: rest => some (.record [], rest)
          | _ => (readMembers fuel [] rest).map fun (members, rest) => (.record members, rest)
      | 'n' :: 'u' :: 'l' :: 'l' :: rest => some (.null, rest)
      | 't' :: 'r' :: 'u' :: 'e' :: rest => some (.bool true, rest)
      | 'f' :: 'a' :: 'l' :: 's' :: 'e' :: rest => some (.bool false, rest)
      | text => (readNumber? text).map fun (value, rest) => (.number value, rest)

def readItems : Nat → List Char → Option (List Json × List Char)
  | 0, _ => none
  | fuel + 1, text =>
      match readValue fuel text with
      | none => none
      | some (item, rest) =>
          match skipSpace rest with
          | ',' :: rest => (readItems fuel rest).map fun (items, rest) => (item :: items, rest)
          | ']' :: rest => some ([item], rest)
          | _ => none

def readMembers : Nat → List (String × Json) → List Char →
    Option (List (String × Json) × List Char)
  | 0, _, _ => none
  | fuel + 1, members, text =>
      match skipSpace text with
      | '"' :: rest =>
          match readText none [] rest with
          | none => none
          | some (name, rest) =>
              match skipSpace rest with
              | ':' :: rest =>
                  match readValue fuel rest with
                  | none => none
                  | some (value, rest) =>
                      let members := OrderedMap.put name value members
                      match skipSpace rest with
                      | ',' :: rest => readMembers fuel members rest
                      | '\x7d' :: rest => some (members, rest)
                      | _ => none
              | _ => none
      | _ => none

end

def lineColumn (line column : Nat) : List Char → Nat × Nat
  | [] => (line, column)
  | '\r' :: '\n' :: rest => lineColumn (line + 1) 1 rest
  | character :: rest =>
      if character = '\n' || character = '\r' then lineColumn (line + 1) 1 rest
      else lineColumn line (column + if character.toNat < 0x10000 then 1 else 2) rest

def parse (source : String) : Except JsonFailure Json :=
  let text := source.toList
  match readValue (text.length + 1) text with
  | none => .error .malformed
  | some (value, rest) =>
      match skipSpace rest with
      | [] => .ok value
      | tail =>
          let before := text.take (text.length - tail.length)
          let (line, column) := lineColumn 1 1 before
          .error (.trailing (Text.unitCount before) line column)

def hexDigit (value : Nat) : Char :=
  Nat.digitChar value

def escapeChar (character : Char) : List Char :=
  match character with
  | '"' => ['\\', '"']
  | '\\' => ['\\', '\\']
  | '\n' => ['\\', 'n']
  | '\r' => ['\\', 'r']
  | '\t' => ['\\', 't']
  | _ =>
      let code := character.toNat
      if code = 8 then ['\\', 'b']
      else if code = 12 then ['\\', 'f']
      else if code < 0x20 then ['\\', 'u', '0', '0', hexDigit (code / 16), hexDigit (code % 16)]
      else [character]

def quote (text : String) : String :=
  String.ofList ('"' :: text.toList.flatMap escapeChar ++ ['"'])

def renderNumber : Number → String
  | .finite numerator halvings => (Number.finite numerator halvings).render
  | _ => "null"

mutual

def compact : Json → String
  | .null => "null"
  | .bool value => if value then "true" else "false"
  | .number value => renderNumber value
  | .string value => quote value
  | .list items => "[" ++ Text.joinWith "," (compactItems items) ++ "]"
  | .record members => "\x7b" ++ Text.joinWith "," (compactMembers members) ++ "\x7d"

def compactItems : List Json → List String
  | [] => []
  | item :: items => compact item :: compactItems items

def compactMembers : List (String × Json) → List String
  | [] => []
  | (name, value) :: members =>
      (quote name ++ ":" ++ compact value) :: compactMembers members

end

mutual

def pretty (indent : String) : Json → String
  | .list (item :: items) =>
      let inner := indent ++ "  "
      "[\n" ++ Text.joinWith ",\n" (prettyItems inner (item :: items)) ++ "\n" ++ indent ++ "]"
  | .record (member :: members) =>
      let inner := indent ++ "  "
      "\x7b\n" ++ Text.joinWith ",\n" (prettyMembers inner (member :: members)) ++ "\n" ++
        indent ++ "\x7d"
  | .null => "null"
  | .bool value => if value then "true" else "false"
  | .number value => renderNumber value
  | .string value => quote value
  | .list [] => "[]"
  | .record [] => "\x7b\x7d"

def prettyItems (indent : String) : List Json → List String
  | [] => []
  | item :: items => (indent ++ pretty indent item) :: prettyItems indent items

def prettyMembers (indent : String) : List (String × Json) → List String
  | [] => []
  | (name, value) :: members =>
      (indent ++ quote name ++ ": " ++ pretty indent value) :: prettyMembers indent members

end

def member? (name : String) : Json → Option Json
  | .record members => OrderedMap.get? name members
  | _ => none

def ofTexts (texts : List String) : Json := .list (texts.map .string)

def ofNat (value : Nat) : Json := .number (.ofInt value)

def ofInt (value : Int) : Json := .number (.ofInt value)

def ofOptionalText : Option String → Json
  | some value => .string value
  | none => .null

end CrateAtlas.Json
