import CrateAtlas.Text.Scan

/-!
Splitting a text at a separator that is not nested inside any bracket pair. One counter is
shared by all kinds of brackets, and the bracket of an arrow closes nothing.
-/

namespace CrateAtlas.TypeText

open CrateAtlas.Text

def isOpener (character : Char) : Bool :=
  character = '<' || character = '(' || character = '[' || character = '\x7b'

def isCloser (previous : Option Char) (character : Char) : Bool :=
  (character = '>' && previous ≠ some '-') || character = ')' || character = ']' ||
    character = '\x7d'

def splitPieces (separator : Option Char) (depth : Int) (previous : Option Char)
    (piece : List Char) : List Char → List (List Char)
  | [] => [piece.reverse]
  | character :: rest =>
      if isOpener character then
        splitPieces separator (depth + 1) (some character) (character :: piece) rest
      else if isCloser previous character then
        splitPieces separator (depth - 1) (some character) (character :: piece) rest
      else if separator = some character && depth = 0 then
        piece.reverse :: splitPieces separator depth (some character) [] rest
      else splitPieces separator depth (some character) (character :: piece) rest

def splitTopLevelChars (separator : Option Char) (text : List Char) : List (List Char) :=
  ((splitPieces separator 0 none [] text).map trim).filter (· ≠ [])

/-- A separator is one 16-bit unit; anything else separates nothing. -/
def separatorOf (separator : String) : Option Char :=
  match separator.toList with
  | [character] => if character.toNat < 0x10000 then some character else none
  | _ => none

def splitTopLevel (text separator : String) : List String :=
  (splitTopLevelChars (separatorOf separator) text.toList).map String.ofList

end CrateAtlas.TypeText
