import CrateAtlas.Text.Scan

/-!
The path that a written type or trait names: qualifiers such as `&mut` and `dyn` are taken
off the front, generic argument lists are dropped or kept, and spacing is normalized.
-/

namespace CrateAtlas.TypeText

open CrateAtlas.Text

def dropWord (word : String) (text : List Char) : List Char :=
  match afterLead? word text with
  | some (next :: rest) => if isBlank next then trimStart (next :: rest) else text
  | _ => text

def dropFirstWord (words : List String) (text : List Char) : List Char :=
  match words.find? fun word => dropWord word text ≠ text with
  | some word => dropWord word text
  | none => text

def dropReference : List Char → List Char
  | '&' :: rest => rest
  | text => text

def dropLifetime : List Char → List Char
  | '\'' :: first :: rest =>
      if isWordChar first then trimStart (rest.dropWhile isWordChar)
      else '\'' :: first :: rest
  | text => text

def dropQualifiersOnce (text : List Char) : List Char :=
  trim (dropFirstWord ["*const", "*mut"]
    (dropFirstWord ["mut", "dyn", "impl", "const"] (dropLifetime (dropReference text))))

def settle (step : List Char → List Char) : Nat → List Char → List Char
  | 0, text => text
  | fuel + 1, text =>
      let next := step text
      if next = text then text else settle step fuel next

/-- Every round that changes a trimmed text makes it shorter, so its length is fuel enough. -/
def dropQualifiers (text : List Char) : List Char :=
  let trimmed := trim text
  settle dropQualifiersOnce trimmed.length trimmed

def afterTraitClause? (text : List Char) : Option (List Char) :=
  match afterLead? " as " text with
  | some rest =>
      if (rest.takeWhile (· ≠ '>')).isEmpty then none
      else
        match rest.dropWhile (· ≠ '>') with
        | [] => none
        | _ :: after => some after
  | none => none

def readSelfType (read : List Char) : List Char → Option (List Char × List Char)
  | [] => none
  | character :: rest =>
      match (if read.isEmpty then none else afterTraitClause? (character :: rest)) with
      | some after => some (read.reverse, after)
      | none =>
          if character = '<' || character = '>' then none
          else readSelfType (character :: read) rest

/-- `<Self as Trait>::item` reads as `Self::item`. -/
def dropTraitClause (text : List Char) : List Char :=
  match text with
  | '<' :: rest =>
      let inner := match rest with
        | ' ' :: inner => inner
        | inner => inner
      match readSelfType [] inner with
      | some (selfType, after) => selfType ++ after
      | none => text
  | _ => text

/-- Drops everything between angle brackets; the bracket of an arrow closes nothing. -/
def dropAngles (depth : Nat) (previous : Char) : List Char → List Char
  | [] => []
  | character :: rest =>
      if character = '<' then dropAngles (depth + 1) character rest
      else if character = '>' && previous ≠ '-' then dropAngles (depth - 1) character rest
      else if depth = 0 then character :: dropAngles depth character rest
      else dropAngles depth character rest

/-- Takes the blanks off both sides of `::` and `.`; `pending` holds blanks not yet written,
`closing` is set on the second colon of a separator, `skipping` right behind a separator. -/
def tightenSeparators (pending : List Char) (closing skipping : Bool) : List Char → List Char
  | [] => pending.reverse
  | character :: rest =>
      if closing then character :: tightenSeparators [] false true rest
      else if character = ':' && rest.head? = some ':' then
        character :: tightenSeparators [] true false rest
      else if character = '.' then character :: tightenSeparators [] false true rest
      else if isBlank character then
        if skipping then tightenSeparators [] false true rest
        else tightenSeparators (character :: pending) false false rest
      else pending.reverse ++ character :: tightenSeparators [] false false rest

def dropHangingSeparators (closing : Bool) : List Char → List Char
  | [] => []
  | character :: rest =>
      if closing then dropHangingSeparators false rest
      else
        match character, rest with
        | ':', ':' :: after =>
            if after.isEmpty || startsWith "::" after then dropHangingSeparators true rest
            else character :: dropHangingSeparators false rest
        | _, _ => character :: dropHangingSeparators false rest

def stripGenericsChars (text : List Char) : List Char :=
  let plain := dropAngles 0 ' ' (dropTraitClause (normalize text))
  trim (dropHangingSeparators false (tightenSeparators [] false false plain))

def typePathChars (text : List Char) : List Char :=
  stripGenericsChars (dropQualifiers (normalize text))

/-- Rewrites the blanks around a mark: those before it are dropped, and those behind it too
when `after` is set. -/
def respace (mark : Char) (replacement : List Char) (after : Bool) (pending : List Char)
    (skipping : Bool) : List Char → List Char
  | [] => pending.reverse
  | character :: rest =>
      if character = mark then replacement ++ respace mark replacement after [] after rest
      else if isBlank character then
        if skipping then respace mark replacement after [] true rest
        else respace mark replacement after (character :: pending) false rest
      else pending.reverse ++ character :: respace mark replacement after [] false rest

def genericArgsChars (text : List Char) : List Char :=
  let bare := dropQualifiers (normalize text)
  let path := bare.takeWhile (· ≠ '<')
  let arguments := bare.dropWhile (· ≠ '<')
  if arguments.isEmpty || path.isEmpty || !endsWith ">" bare || contains '(' path then []
  else
    respace ',' [',', ' '] true [] false
      (respace '>' ['>'] false [] false (respace '<' ['<'] true [] false arguments))

def normalizeWhitespace (text : String) : String :=
  String.ofList (normalize text.toList)

def stripGenerics (text : String) : String :=
  String.ofList (stripGenericsChars text.toList)

def typePathOf (text : String) : String :=
  String.ofList (typePathChars text.toList)

/-- The generic argument list of a path, spacing normalized; empty when there is none or
when the arguments are parenthesized. -/
def genericArgsOf (text : String) : String :=
  String.ofList (genericArgsChars text.toList)

def traitRefOf (text : String) : String :=
  typePathOf text ++ genericArgsOf text

end CrateAtlas.TypeText
