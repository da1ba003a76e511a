/-!
Association lists that keep the order in which their keys were first stored.
-/

namespace CrateAtlas.OrderedMap

variable {κ : Type u} {α : Type v} [DecidableEq κ]

def get? (key : κ) : List (κ × α) → Option α
  | [] => none
  | (stored, value) :: rest => if stored = key then some value else get? key rest

def has (key : κ) (entries : List (κ × α)) : Bool :=
  (get? key entries).isSome

/-- Replaces the value of a stored key in place; a new key goes to the end. -/
def put (key : κ) (value : α) : List (κ × α) → List (κ × α)
  | [] => [(key, value)]
  | (stored, old) :: rest =>
      if stored = key then (key, value) :: rest else (stored, old) :: put key value rest

def update (key : κ) (empty : α) (change : α → α) (entries : List (κ × α)) : List (κ × α) :=
  put key (change ((get? key entries).getD empty)) entries

def putNew (key : κ) (value : α) (entries : List (κ × α)) : List (κ × α) :=
  if has key entries then entries else entries ++ [(key, value)]

def keys (entries : List (κ × α)) : List κ :=
  entries.map Prod.fst

def values (entries : List (κ × α)) : List α :=
  entries.map Prod.snd

def distinct : List κ → List κ
  | [] => []
  | first :: rest => first :: (distinct rest).filter (· ≠ first)

end CrateAtlas.OrderedMap
