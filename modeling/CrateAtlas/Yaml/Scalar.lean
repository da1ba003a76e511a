import CrateAtlas.Json

/-!
Unquoted scalars of YAML 1.2 in its core schema: which of them stand for null, a truth value
or a number, and which are texts.
-/

namespace CrateAtlas.Yaml

open CrateAtlas.Text

def isNullText (text : String) : Bool :=
  ["", "~", "null", "Null", "NULL"].contains text

def truthValue? (text : String) : Option Bool :=
  if ["true", "True", "TRUE"].contains text then some true
  else if ["false", "False", "FALSE"].contains text then some false
  else none

def takeSign (text : List Char) : Bool × List Char :=
  match text with
  | '-' :: rest => (true, rest)
  | '+' :: rest => (false, rest)
  | _ => (false, text)

def baseNumber (base : Nat) (digits : List Char) : Nat :=
  digits.foldl (fun value digit => base * value + ((Json.hexValue? digit).getD 0)) 0

def isOctalDigit (character : Char) : Bool :=
  '0' ≤ character && character ≤ '7'

def basedInteger? (text : List Char) : Option Number :=
  match text with
  | '0' :: 'x' :: digits =>
      if !digits.isEmpty && digits.all (fun digit => (Json.hexValue? digit).isSome) then
        some (Number.nearest false (baseNumber 16 digits) 1)
      else none
  | '0' :: 'o' :: digits =>
      if !digits.isEmpty && digits.all isOctalDigit then
        some (Number.nearest false (baseNumber 8 digits) 1)
      else none
  | _ => none

def special? (text : String) : Option Number :=
  if [".nan", ".NaN", ".NAN"].contains text then some .undefined
  else
    let (negative, rest) := takeSign text.toList
    if [".inf", ".Inf", ".INF"].contains (String.ofList rest) then some (.infinite negative)
    else none

def exponent? (text : List Char) : Option Int :=
  match text with
  | [] => some 0
  | mark :: rest =>
      if mark = 'e' || mark = 'E' then
        let (negative, digits) := takeSign rest
        if !digits.isEmpty && digits.all isAsciiDigit then
          let value : Int := Json.decimalValue digits
          some (if negative then -value else value)
        else none
      else none

def decimal? (text : List Char) : Option Number :=
  let (negative, unsigned) := takeSign text
  let whole := unsigned.takeWhile isAsciiDigit
  let rest := unsigned.dropWhile isAsciiDigit
  let (fraction, tail) :=
    match rest with
    | '.' :: rest => (rest.takeWhile isAsciiDigit, rest.dropWhile isAsciiDigit)
    | _ => ([], rest)
  if whole.isEmpty && fraction.isEmpty then none
  else
    (exponent? tail).map fun exponent =>
      Number.ofDecimal negative (Json.decimalValue (whole ++ fraction))
        (exponent - fraction.length)

def number? (text : String) : Option Number :=
  (basedInteger? text.toList).or ((special? text).or (decimal? text.toList))

def plainValue (text : String) : Json :=
  if isNullText text then .null
  else
    match truthValue? text, number? text with
    | some value, _ => .bool value
    | none, some value => .number value
    | none, none => .string text

def readsOtherwise (text : String) : Bool :=
  match plainValue text with
  | .string _ => false
  | _ => true

end CrateAtlas.Yaml
