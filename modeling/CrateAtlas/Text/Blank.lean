/-!
Blank characters, word characters, and the trimming and collapsing of blank runs.
-/

namespace CrateAtlas.Text

/-- Blank characters: the ASCII controls from tab to carriage return, every Unicode space
separator, the two Unicode line separators and the byte order mark. -/
def isBlank (character : Char) : Bool :=
  let code := character.toNat
  (0x09 ≤ code && code ≤ 0x0D) || code = 0x20 || code = 0xA0 || code = 0x1680 ||
    (0x2000 ≤ code && code ≤ 0x200A) || code = 0x2028 || code = 0x2029 ||
    code = 0x202F || code = 0x205F || code = 0x3000 || code = 0xFEFF

def isAsciiDigit (character : Char) : Bool :=
  '0' ≤ character && character ≤ '9'

def isAsciiLetter (character : Char) : Bool :=
  ('a' ≤ character && character ≤ 'z') || ('A' ≤ character && character ≤ 'Z')

def isWordStart (character : Char) : Bool :=
  isAsciiLetter character || character = '_'

def isWordChar (character : Char) : Bool :=
  isWordStart character || isAsciiDigit character

def isNameChar (character : Char) : Bool :=
  isWordChar character || character = '-'

def isLineBreak (character : Char) : Bool :=
  character = '\n' || character = '\r' || character.toNat = 0x2028 || character.toNat = 0x2029

def trimStart (text : List Char) : List Char :=
  text.dropWhile isBlank

def trimEnd (text : List Char) : List Char :=
  (text.reverse.dropWhile isBlank).reverse

def trim (text : List Char) : List Char :=
  trimEnd (trimStart text)

def collapseRuns (inRun : Bool) : List Char → List Char
  | [] => []
  | character :: rest =>
      if isBlank character then
        if inRun then collapseRuns true rest else ' ' :: collapseRuns true rest
      else character :: collapseRuns false rest

def collapseBlanks (text : List Char) : List Char :=
  collapseRuns false text

def normalize (text : List Char) : List Char :=
  trim (collapseBlanks text)

def dropBlanks (text : List Char) : List Char :=
  text.filter (fun character => !isBlank character)

end CrateAtlas.Text
