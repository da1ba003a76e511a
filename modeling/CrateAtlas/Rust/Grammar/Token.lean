import CrateAtlas.Text.Identifier
import CrateAtlas.Text.Scan

/-!
Tokens of Rust source text. Every token keeps the blanks and comments in front of it, so
the tokens of a text spell the text out again.
-/

namespace CrateAtlas.Rust

open CrateAtlas.Text

inductive TokenKind where
  | word
  | lifetime
  | number
  | quoted
  | mark
  deriving DecidableEq, Repr

/-- A token with the gap in front of it and the rows, counted from zero, that it starts and
ends on. Marks are single characters: two of them read as one operator when the gap between
them is empty. -/
structure Token where
  kind : TokenKind
  text : String
  gap : List Char
  row : Nat
  endRow : Nat
  deriving DecidableEq, Repr

namespace Token

def isWordHead (character : Char) : Bool :=
  isWordStart character || (128 ≤ character.toNat && isIdentifierStart character)

def isWordTail (character : Char) : Bool :=
  isWordChar character || (128 ≤ character.toNat && isIdentifierTail character)

def countRows (text : List Char) : Nat :=
  (text.filter (· = '\n')).length

def readComment (depth : Nat) : List Char → List Char × List Char
  | [] => ([], [])
  | '/' :: '*' :: rest =>
      let (read, rest) := readComment (depth + 1) rest
      ('/' :: '*' :: read, rest)
  | '*' :: '/' :: rest =>
      match depth with
      | 0 => (['*', '/'], rest)
      | depth + 1 =>
          let (read, rest) := readComment depth rest
          ('*' :: '/' :: read, rest)
  | character :: rest =>
      let (read, rest) := readComment depth rest
      (character :: read, rest)

def readGap : Nat → List Char → List Char × List Char
  | 0, text => ([], text)
  | fuel + 1, text =>
      match text with
      | '/' :: '/' :: rest =>
          let line := rest.takeWhile (· ≠ '\n')
          let (read, rest) := readGap fuel (rest.dropWhile (· ≠ '\n'))
          ('/' :: '/' :: line ++ read, rest)
      | '/' :: '*' :: rest =>
          let (comment, rest) := readComment 0 rest
          let (read, rest) := readGap fuel rest
          ('/' :: '*' :: comment ++ read, rest)
      | character :: rest =>
          if isBlank character then
            let (read, rest) := readGap fuel rest
            (character :: read, rest)
          else ([], text)
      | [] => ([], [])

def readQuoted (closer : Char) : List Char → List Char × List Char
  | [] => ([], [])
  | '\\' :: character :: rest =>
      let (read, rest) := readQuoted closer rest
      ('\\' :: character :: read, rest)
  | character :: rest =>
      if character = closer then ([character], rest)
      else
        let (read, rest) := readQuoted closer rest
        (character :: read, rest)

def readRaw (closer : List Char) : List Char → List Char × List Char
  | [] => ([], [])
  | character :: rest =>
      if closer.isPrefixOf (character :: rest) then
        (closer, (character :: rest).drop closer.length)
      else
        let (read, rest) := readRaw closer rest
        (character :: read, rest)

def readTick (text : List Char) : TokenKind × List Char × List Char :=
  match text with
  | '\\' :: _ => (.quoted, readQuoted '\'' text)
  | character :: '\'' :: rest => (.quoted, [character, '\''], rest)
  | _ => (.lifetime, text.takeWhile isWordTail, text.dropWhile isWordTail)

def readWord (text : List Char) : TokenKind × List Char × List Char :=
  let word := text.takeWhile isWordTail
  let rest := text.dropWhile isWordTail
  let hashes := rest.takeWhile (· = '#')
  let opened := rest.dropWhile (· = '#')
  match String.ofList word, rest, opened with
  | "b", '"' :: body, _ | "c", '"' :: body, _ =>
      let (read, rest) := readQuoted '"' body
      (.quoted, word ++ '"' :: read, rest)
  | "b", '\'' :: body, _ =>
      let (_, read, rest) := readTick body
      (.quoted, word ++ '\'' :: read, rest)
  | "r", _, '"' :: body | "br", _, '"' :: body | "cr", _, '"' :: body =>
      let (read, rest) := readRaw ('"' :: hashes) body
      (.quoted, word ++ hashes ++ '"' :: read, rest)
  | "r", '#' :: character :: body, _ =>
      if isWordHead character then
        (.word, word ++ '#' :: (character :: body).takeWhile isWordTail,
          (character :: body).dropWhile isWordTail)
      else (.word, word, rest)
  | _, _, _ => (.word, word, rest)

def readExponent (digits rest : List Char) : List Char × List Char :=
  let marked := (digits.getLast? = some 'e' || digits.getLast? = some 'E') &&
    !startsWith "0x" digits
  match rest with
  | sign :: digit :: _ =>
      if marked && (sign = '+' || sign = '-') && isAsciiDigit digit then
        (sign :: rest.tail.takeWhile isWordTail, rest.tail.dropWhile isWordTail)
      else ([], rest)
  | _ => ([], rest)

def readFraction (rest : List Char) : List Char × List Char :=
  match rest with
  | ['.'] => (['.'], [])
  | '.' :: next :: _ =>
      if next = '.' || isWordHead next then ([], rest)
      else
        let digits := rest.tail.takeWhile isWordTail
        let (exponent, rest) := readExponent digits (rest.tail.dropWhile isWordTail)
        ('.' :: digits ++ exponent, rest)
  | _ => ([], rest)

def readNumber (isIndex : Bool) (text : List Char) : List Char × List Char :=
  if isIndex then (text.takeWhile isAsciiDigit, text.dropWhile isAsciiDigit)
  else
    let digits := text.takeWhile isWordTail
    let (exponent, rest) := readExponent digits (text.dropWhile isWordTail)
    if exponent.isEmpty then
      let (fraction, rest) := readFraction rest
      (digits ++ fraction, rest)
    else (digits ++ exponent, rest)

def readToken (isIndex : Bool) (first : Char) (rest : List Char) :
    TokenKind × List Char × List Char :=
  if isWordHead first then readWord (first :: rest)
  else if isAsciiDigit first then (.number, readNumber isIndex (first :: rest))
  else if first = '"' then
    let (read, rest) := readQuoted '"' rest
    (.quoted, '"' :: read, rest)
  else if first = '\'' then
    let (kind, read, rest) := readTick rest
    (kind, '\'' :: read, rest)
  else (.mark, [first], rest)

/-- Reads tokens to the end; `points` counts the points that were read last, and the fuel
bounds what is left of the text. -/
def readAll : Nat → Nat → Nat → List Char → List Token
  | 0, _, _, _ => []
  | fuel + 1, row, points, text =>
      match readGap (fuel + 1) text with
      | (_, []) => []
      | (gap, first :: rest) =>
          let (kind, read, rest) := readToken (points = 1) first rest
          let start := row + countRows gap
          let finish := start + countRows read
          { kind := kind, text := String.ofList read, gap := gap, row := start,
            endRow := finish } ::
            readAll fuel finish (if first = '.' then points + 1 else 0) rest

def dropInterpreterLine (text : List Char) : List Char :=
  if startsWith "#!" text && !startsWith "#![" text then text.dropWhile (· ≠ '\n') else text

def ofSource (source : String) : List Token :=
  let text := dropInterpreterLine source.toList
  readAll (text.length + 1) 0 0 text

def isMark (mark : Char) (token : Token) : Bool :=
  token.kind = .mark && token.text = String.singleton mark

def isWord (word : String) (token : Token) : Bool :=
  token.kind = .word && token.text = word

end Token

end CrateAtlas.Rust
