import CrateAtlas.ModulePath
import CrateAtlas.TypeText.Paths
import CrateAtlas.TypeText.Split

/-!
The named types that a declared type mentions. Standard wrappers are looked through, and
what lies in a collection, slice or array is mentioned many times.
-/

namespace CrateAtlas.TypeText

open CrateAtlas.Text

structure TypeRef where
  path : String
  many : Bool
  deriving DecidableEq, Repr

def wrapperNames : List String :=
  ["Option", "Result", "Box", "Arc", "Rc", "Weak", "Cell", "RefCell", "Mutex", "RwLock",
    "Cow", "Pin", "PhantomData", "MaybeUninit", "ManuallyDrop"]

def collectionNames : List String :=
  ["Vec", "VecDeque", "LinkedList", "BinaryHeap", "HashMap", "HashSet", "BTreeMap",
    "BTreeSet", "IndexMap", "IndexSet", "SmallVec"]

def primitiveNames : List String :=
  ["u8", "u16", "u32", "u64", "u128", "usize", "i8", "i16", "i32", "i64", "i128", "isize",
    "f32", "f64", "bool", "char", "str", "String", "Self", "self"]

def isIdentifier : List Char → Bool
  | [] => false
  | first :: rest => isWordStart first && rest.all isWordChar

def dropLastUnit (text : List Char) : List Char :=
  match text.getLast? with
  | some last =>
      if last.toNat < 0x10000 then text.dropLast else text.dropLast ++ [Char.ofNat 0xFFFD]
  | none => []

/-- The text between the first `<` and the last `>`. Without any `>` it is all but the last
unit, and empty when the only `>` stands in front. -/
def argumentText (front afterOpen : List Char) : List Char :=
  match cutAtLast? '>' afterOpen with
  | some (inner, _) => inner
  | none => if contains '>' front then [] else dropLastUnit afterOpen

def associatedValue (argument : List Char) : List Char :=
  ((splitTopLevelChars (some '=') argument).getLast?).getD argument

def unwrapped (text : List Char) : List Char :=
  text.tail.dropLast

def memberType? (member : List Char) : Option (List Char) :=
  match cutAt? ':' member with
  | some (_, type) => if type.head? = some ':' then none else some type
  | none => none

/-- Every mention in document order; each call is on a shorter text, so the length of the
text is fuel enough. -/
def mentions : Nat → Bool → List Char → List (String × Bool)
  | 0, _, _ => []
  | fuel + 1, many, written =>
      let text := dropQualifiers written
      let bounds := splitTopLevelChars (some '+') text
      if text.isEmpty || startsWith "'" text then []
      else if bounds.length > 1 then bounds.flatMap (mentions fuel many)
      else if startsWith "(" text && endsWith ")" text then
        (splitTopLevelChars (some ',') (unwrapped text)).flatMap (mentions fuel many)
      else if startsWith "\x7b" text && endsWith "\x7d" text then
        ((splitTopLevelChars (some ',') (unwrapped text)).filterMap memberType?).flatMap
          (mentions fuel many)
      else if startsWith "[" text && endsWith "]" text then
        ((splitTopLevelChars (some ';') (unwrapped text)).take 1).flatMap (mentions fuel true)
      else
        let base := trim (text.takeWhile (· ≠ '<'))
        let arguments :=
          match cutAt? '<' text with
          | some (front, afterOpen) =>
              splitTopLevelChars (some ',') (argumentText front afterOpen)
          | none => []
        let name := ModulePath.lastSegment (String.ofList base)
        let values := arguments.map associatedValue
        if contains '(' base || base = ['f', 'n'] then []
        else if !arguments.isEmpty &&
            (wrapperNames.contains name || collectionNames.contains name) then
          values.flatMap (mentions fuel (many || collectionNames.contains name))
        else
          let own :=
            if isIdentifier name.toList && !primitiveNames.contains name then
              [(String.ofList base, many)]
            else []
          own ++ values.flatMap (mentions fuel many)

def mergeMentions (found : List (String × Bool)) : List (String × Bool) :=
  found.foldl (fun merged mention =>
    OrderedMap.update mention.1 false (· || mention.2) merged) []

def innerTypeRefs (text : String) : List TypeRef :=
  let written := normalize text.toList
  (mergeMentions (mentions (written.length + 1) false written)).map fun mention =>
    { path := mention.1, many := mention.2 }

end CrateAtlas.TypeText
