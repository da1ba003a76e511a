import CrateAtlas.OrderedMap
import CrateAtlas.Text.Scan

/-!
Module paths: segments joined by `::`, their derivation from file paths, and the absolute
paths that a written path may stand for.
-/

namespace CrateAtlas.ModulePath

open CrateAtlas.Text

def segmentsOf : List Char → List (List Char)
  | [] => [[]]
  | ':' :: ':' :: rest => [] :: segmentsOf rest
  | character :: rest =>
      match segmentsOf rest with
      | [] => [[character]]
      | segment :: segments => (character :: segment) :: segments

def segments (path : String) : List String :=
  (segmentsOf path.toList).map String.ofList

def cutLast? : List Char → Option (List Char × List Char)
  | [] => none
  | character :: rest =>
      match cutLast? rest with
      | some (front, last) => some (character :: front, last)
      | none => (afterLead? "::" (character :: rest)).map fun last => ([], last)

def join (parts : List String) : String :=
  joinWith "::" (parts.filter (· ≠ ""))

def parent (path : String) : String :=
  match cutLast? path.toList with
  | some (front, _) => String.ofList front
  | none => path

def lastSegment (path : String) : String :=
  match cutLast? path.toList with
  | some (_, last) => String.ofList last
  | none => path

/-- A path component as a module name: every unit that is not a word character is replaced
by an underscore, and a character beyond the basic plane is two units. -/
def sanitizeComponent (component : List Char) : List Char :=
  replaceChars (fun character =>
    if isWordChar character then none
    else if character.toNat < 0x10000 then some "_" else some "__") component

def withoutSuffix (suffixText : String) (path : List Char) : List Char :=
  if endsWith suffixText path then path.take (path.length - suffixText.toList.length) else path

def components (path : String) : List String :=
  let slashed := path.toList.map fun character => if character = '\\' then '/' else character
  let pieces := splitOn '/' (withoutSuffix ".rs" slashed)
  (pieces.filter fun piece => piece ≠ [] ∧ piece ≠ ['.']).map
    (String.ofList ∘ sanitizeComponent)

def dropLastIf (unwanted : String) (names : List String) : List String :=
  if names.getLast? = some unwanted then names.dropLast else names

/-- Module path of a component list below the source root. A binary gets a crate root of
its own: `main`, or `bin::name` for the files of the binary `name`. -/
def ofComponents : List String → String
  | ["main"] => "main"
  | "bin" :: name :: rest =>
      let inner := if rest = ["main"] then [] else rest
      join ("bin" :: name :: dropLastIf "mod" inner)
  | ["lib"] => "crate"
  | names => joinWith "::" ("crate" :: dropLastIf "mod" names)

def ofFile (path : String) : String :=
  match components path with
  | "src" :: rest => ofComponents rest
  | names => ofComponents names

def crateRoot (modulePath : String) : String :=
  match segments modulePath with
  | "main" :: _ => "main"
  | "bin" :: name :: _ => "bin::" ++ name
  | _ => "crate"

def climb (base : String) : List String → String
  | "super" :: rest => climb (parent base) rest
  | rest => join (base :: rest)

/-- Every absolute path that a written path may stand for in a module, in the order in
which they are tried. -/
def absoluteCandidates (path modulePath : String) : List String :=
  let named := (segments path).filter (· ≠ "")
  let root := crateRoot modulePath
  match named with
  | [] => []
  | "crate" :: rest => OrderedMap.distinct [join (root :: rest), join ("crate" :: rest)]
  | "self" :: rest => [join (modulePath :: rest)]
  | "super" :: _ => [climb modulePath named]
  | _ =>
      let joined := joinWith "::" named
      OrderedMap.distinct
        [join [modulePath, joined], root ++ "::" ++ joined, "crate::" ++ joined, joined]

end CrateAtlas.ModulePath
