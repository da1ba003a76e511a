import CrateAtlas.Snapshot

/-!
The canonical order of a snapshot's contents. Types go by name, impl blocks by target and
trait, methods by name, imports by path and local name, call sites by line and callee, while
fields keep the order of their declaration.
-/

namespace CrateAtlas

def CallSite.order (left right : CallSite) : Ordering :=
  (compare left.line right.line).then (Text.compareText left.callee right.callee)

def Method.order (left right : Method) : Ordering :=
  Text.compareText left.name right.name

def TypeDefinition.order (left right : TypeDefinition) : Ordering :=
  (Text.compareText left.name right.name).then
    (Text.compareText left.qualifiedName right.qualifiedName)

def ImplBlock.order (left right : ImplBlock) : Ordering :=
  ((Text.compareText left.target right.target).then
    (Text.compareOptional left.traitName right.traitName)).then
    (compare left.location.startLine right.location.startLine)

def Import.order (left right : Import) : Ordering :=
  (Text.compareText left.path right.path).then
    (Text.compareOptional left.localName right.localName)

def Method.canonical (method : Method) : Method :=
  { method with calls := Text.sortBy CallSite.order method.calls }

def ImplBlock.canonical (impl : ImplBlock) : ImplBlock :=
  { impl with methods := Text.sortBy Method.order (impl.methods.map Method.canonical) }

def SourceUnit.canonical (unit : SourceUnit) : SourceUnit :=
  { unit with
    types := Text.sortBy TypeDefinition.order unit.types
    impls := Text.sortBy ImplBlock.order (unit.impls.map ImplBlock.canonical)
    imports := Text.sortBy Import.order unit.imports }

namespace Snapshot

def canonical (snapshot : Snapshot) : Snapshot :=
  create snapshot.root (snapshot.units.map SourceUnit.canonical)

def canonicalUnits (snapshot : Snapshot) : List SourceUnit :=
  Text.sortBy byFilePath (snapshot.units.map SourceUnit.canonical)

/-- Snapshots are equal when their canonical units are; where they came from is no part of
what they say. -/
def equal (left right : Snapshot) : Bool :=
  left.canonicalUnits = right.canonicalUnits

end Snapshot

end CrateAtlas
