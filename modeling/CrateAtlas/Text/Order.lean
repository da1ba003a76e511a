/-!
The order of texts. Texts compare by their 16-bit units, and lists are sorted by a stable
insertion sort, so equal keys keep the order they came in.
-/

namespace CrateAtlas.Text

/-- A character beyond the basic plane opens with a surrogate unit, and surrogates sort
below the block that starts at `U+E000`; everything else sorts by its code point. -/
def unitRank (character : Char) : Nat :=
  if 0xE000 ≤ character.toNat ∧ character.toNat < 0x10000 then
    character.toNat + 0x110000
  else
    character.toNat

def compareUnits : List Char → List Char → Ordering
  | [], [] => .eq
  | [], _ :: _ => .lt
  | _ :: _, [] => .gt
  | a :: as, b :: bs => (compare (unitRank a) (unitRank b)).then (compareUnits as bs)

def compareText (left right : String) : Ordering :=
  compareUnits left.toList right.toList

def compareOptional (left right : Option String) : Ordering :=
  compareText (left.getD "") (right.getD "")

def units (text : List Char) : List Nat :=
  text.flatMap fun character =>
    let code := character.toNat
    if code < 0x10000 then [code]
    else [0xD800 + (code - 0x10000) / 0x400, 0xDC00 + (code - 0x10000) % 0x400]

def unitCount (text : List Char) : Nat :=
  text.foldl (fun total character => total + if character.toNat < 0x10000 then 1 else 2) 0

def insertSorted (order : α → α → Ordering) (value : α) : List α → List α
  | [] => [value]
  | first :: rest =>
      if (order value first).isLE then value :: first :: rest
      else first :: insertSorted order value rest

def sortBy (order : α → α → Ordering) : List α → List α
  | [] => []
  | first :: rest => insertSorted order first (sortBy order rest)

def sortTexts (texts : List String) : List String :=
  sortBy compareText texts

end CrateAtlas.Text
