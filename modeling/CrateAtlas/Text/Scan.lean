import CrateAtlas.Text.Blank

/-!
Searching, cutting and replacing in texts.
-/

namespace CrateAtlas.Text

def contains (needle : Char) (text : List Char) : Bool :=
  text.any (· == needle)

def startsWith (lead : String) (text : List Char) : Bool :=
  lead.toList.isPrefixOf text

def endsWith (tail : String) (text : List Char) : Bool :=
  tail.toList.isSuffixOf text

def afterLead? (lead : String) (text : List Char) : Option (List Char) :=
  if startsWith lead text then some (text.drop lead.toList.length) else none

def cutAt? (mark : Char) : List Char → Option (List Char × List Char)
  | [] => none
  | character :: rest =>
      if character = mark then some ([], rest)
      else (cutAt? mark rest).map fun parts => (character :: parts.1, parts.2)

def cutAtLast? (mark : Char) (text : List Char) : Option (List Char × List Char) :=
  (cutAt? mark text.reverse).map fun parts => (parts.2.reverse, parts.1.reverse)

def hasPart (part : String) : List Char → Bool
  | [] => part.toList.isEmpty
  | character :: rest => startsWith part (character :: rest) || hasPart part rest

def splitOn (mark : Char) : List Char → List (List Char)
  | [] => [[]]
  | character :: rest =>
      if character = mark then [] :: splitOn mark rest
      else
        match splitOn mark rest with
        | [] => [[character]]
        | piece :: pieces => (character :: piece) :: pieces

/-- Replaces every occurrence, left to right, of a text; `pending` counts the characters of
an occurrence still to be passed over. -/
def replaceFrom (part replacement : List Char) (pending : Nat) : List Char → List Char
  | [] => []
  | character :: rest =>
      match pending with
      | remaining + 1 => replaceFrom part replacement remaining rest
      | 0 =>
          if !part.isEmpty && part.isPrefixOf (character :: rest) then
            replacement ++ replaceFrom part replacement (part.length - 1) rest
          else character :: replaceFrom part replacement 0 rest

def replaceAll (part replacement : String) (text : List Char) : List Char :=
  replaceFrom part.toList replacement.toList 0 text

def replaceChars (replacement : Char → Option String) (text : List Char) : List Char :=
  text.flatMap fun character =>
    match replacement character with
    | some text => text.toList
    | none => [character]

def splitText (mark : Char) (text : String) : List String :=
  (splitOn mark text.toList).map String.ofList

def joinWith (separator : String) : List String → String
  | [] => ""
  | [text] => text
  | text :: texts => text ++ separator ++ joinWith separator texts

def joinLines (lines : List String) : String :=
  String.join (lines.map (· ++ "\n"))

end CrateAtlas.Text
