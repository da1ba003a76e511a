import CrateAtlas.Text.Scan

/-!
Paths of files, absolute and without detours, and the texts that they are read from.
-/

namespace CrateAtlas

structure Path where
  names : List String
  deriving DecidableEq, Repr

namespace Path

def root : Path := ⟨[]⟩

def follow (names : List String) (segment : String) : List String :=
  if segment = "" ∨ segment = "." then names
  else if segment = ".." then names.dropLast
  else names ++ [segment]

def descend (path : Path) (text : String) : Path :=
  ⟨(Text.splitText '/' text).foldl follow path.names⟩

/-- The path that a text stands for at a place; a text with a leading slash starts over at
the root. -/
def resolve (place : Path) (text : String) : Path :=
  if Text.startsWith "/" text.toList then root.descend text else place.descend text

def child (path : Path) (name : String) : Path :=
  ⟨path.names ++ [name]⟩

def parent (path : Path) : Path :=
  ⟨path.names.dropLast⟩

def name (path : Path) : String :=
  path.names.getLast?.getD ""

def ancestors (path : Path) : List Path :=
  (List.range path.names.length).map fun count => ⟨path.names.take count⟩

def upward (path : Path) : List Path :=
  path :: path.ancestors.reverse

def below? (place path : Path) : Option (List String) :=
  if place.names.isPrefixOf path.names then some (path.names.drop place.names.length) else none

def render (path : Path) : String :=
  match path.names with
  | [] => "/"
  | names => String.join (names.map fun name => "/" ++ name)

def sharedCount : List String → List String → Nat
  | first :: rest, other :: others => if first = other then sharedCount rest others + 1 else 0
  | _, _ => 0

def wayTo (place path : Path) : String :=
  let shared := sharedCount place.names path.names
  Text.joinWith "/"
    (List.replicate (place.names.length - shared) ".." ++ path.names.drop shared)

def withoutTail (tail text : String) : String :=
  if Text.endsWith tail text.toList ∧ text ≠ tail then
    String.ofList (text.toList.take (text.toList.length - tail.toList.length))
  else text

/-- The last name without a tail, except where it is nothing but the tail. -/
def stem (tail : String) (path : Path) : String :=
  withoutTail tail path.name

def extension (path : Path) : String :=
  match Text.cutAtLast? '.' path.name.toList with
  | some (_ :: _, rest) => String.ofList ('.' :: rest)
  | _ => ""

def marked (path : Path) (mark : String) : Path :=
  let extension := path.extension
  path.parent.descend (withoutTail extension path.name ++ mark ++ extension)

/-- The last name in a path text without a tail. A text that is nothing but the tail has no
name. A name that is shorter than the tail and ends it keeps the slashes behind it. -/
def nameIn (tail text : String) : String :=
  if text = tail then ""
  else
    let trimmed := (text.toList.reverse.dropWhile (· = '/')).reverse
    let slashes := text.toList.drop trimmed.length
    let name :=
      match Text.cutAtLast? '/' trimmed with
      | some (_, name) => name
      | none => trimmed
    if !name.isEmpty && name.length < tail.length && name.isSuffixOf tail.toList &&
        tail.length ≤ text.length then
      String.ofList (name ++ slashes)
    else withoutTail tail (String.ofList name)

end Path

end CrateAtlas
