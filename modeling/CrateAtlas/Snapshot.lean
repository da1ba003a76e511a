import CrateAtlas.Architecture
import CrateAtlas.OrderedMap
import CrateAtlas.Resolver
import CrateAtlas.Text.Order

/-!
Snapshots: units are merged in the order of their file paths, and a qualified name enters
the registry exactly when it is declared once.
-/

namespace CrateAtlas.Snapshot

def byFilePath (left right : SourceUnit) : Ordering :=
  Text.compareText left.filePath right.filePath

def declarationSites (units : List SourceUnit) : List (String × List DeclarationSite) :=
  units.foldl (fun sites unit =>
    unit.types.foldl (fun sites type =>
      OrderedMap.update type.qualifiedName []
        (· ++ [{ filePath := unit.filePath, line := type.location.startLine }]) sites)
      sites) []

def bySiteName (left right : String × List DeclarationSite) : Ordering :=
  Text.compareText left.1 right.1

def keepLastUnits (units : List SourceUnit) : List SourceUnit :=
  OrderedMap.values
    (units.foldl (fun kept unit => OrderedMap.put unit.filePath unit kept) [])

/-- Merges units into a snapshot; the order in which they come does not matter. -/
def create (root : String) (units : List SourceUnit) : Snapshot :=
  let ordered := Text.sortBy byFilePath units
  let sites := Text.sortBy bySiteName (declarationSites ordered)
  { root := root
    units := keepLastUnits ordered
    registry := sites.filterMap fun entry =>
      match entry.2 with
      | [site] => some (entry.1, site.filePath)
      | _ => none
    duplicates := sites.filterMap fun entry =>
      match entry.2 with
      | _ :: _ :: _ => some { qualifiedName := entry.1, locations := entry.2 }
      | _ => none }

def unit? (snapshot : Snapshot) (filePath : String) : Option SourceUnit :=
  snapshot.units.find? fun unit => unit.filePath = filePath

def resolveImpl (resolver : Resolver) (unit : SourceUnit) (impl : ImplBlock) : ImplBlock :=
  let selfType := resolver.resolveType impl.target unit none
  { impl with
    methods := impl.methods.map fun method =>
      { method with
        calls := method.calls.map fun call =>
          { call with target := resolver.resolveCallee call.callee unit selfType } } }

def resolveCallTargets (snapshot : Snapshot) : Snapshot :=
  let resolver := Resolver.ofSnapshot snapshot
  { snapshot with
    units := snapshot.units.map fun unit =>
      { unit with impls := unit.impls.map (resolveImpl resolver unit) } }

end CrateAtlas.Snapshot
