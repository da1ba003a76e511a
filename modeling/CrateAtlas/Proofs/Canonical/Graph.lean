import CrateAtlas.Proofs.Canonical.Edges
import CrateAtlas.Proofs.Canonical.Order
import CrateAtlas.Proofs.Extracted
import CrateAtlas.Proofs.Rust.ItemNames

/-!
Canonical order and the relationship graph. Main statement: the graph of an extracted snapshot is
the graph of its canonical form when canonical order exchanges no types, imports or globs of a
unit that lead one name to different types.
-/

namespace CrateAtlas.Snapshot

open OrderedMap Resolver

section Graph

variable {resolver : Resolver}

theorem calls_canonical_perm (impl : ImplBlock) :
    (impl.canonical.methods.flatMap Method.calls).Perm (impl.methods.flatMap Method.calls) := by
  have sorted : (impl.canonical.methods.flatMap Method.calls).Perm
      ((impl.methods.map Method.canonical).flatMap Method.calls) :=
    (Text.sortBy_perm Method.order _).flatMap_right _
  refine sorted.trans ?_
  rw [List.flatMap_map]
  exact List.Perm.flatMap_left _ fun method _ => Text.sortBy_perm CallSite.order method.calls

theorem unresolvedCalls_canonical (steady : resolver.Steady) {unit : SourceUnit}
    (member : unit ∈ resolver.units) (impl : ImplBlock) :
    unresolvedCalls resolver.canonical unit.canonical impl.canonical =
      unresolvedCalls resolver unit impl := by
  have target : resolver.canonical.resolveType impl.canonical.target unit.canonical none =
      resolver.resolveType impl.target unit none := steady.resolveType member _ _
  have calls := calls_canonical_perm impl
  simp only [unresolvedCalls, target, callTarget_canonical steady member]
  cases named (resolver.resolveType impl.target unit none) with
  | none => exact calls.length_eq
  | some source => exact (calls.filter _).length_eq

theorem unresolvedOf_canonical (steady : resolver.Steady) :
    unresolvedOf resolver.canonical resolver.canonical.units =
      unresolvedOf resolver resolver.units := by
  refine List.Perm.foldl_eq ?_ 0
  rw [Resolver.canonical, List.flatMap_map]
  refine List.Perm.flatMap_left _ ?_
  intro unit member
  have counted : (unit.impls.map ImplBlock.canonical).map
      (unresolvedCalls resolver.canonical unit.canonical) =
        unit.impls.map (unresolvedCalls resolver unit) := by
    rw [List.map_map]
    refine List.map_congr_left ?_
    intro impl _
    rw [Function.comp_apply]
    exact unresolvedCalls_canonical steady member impl
  rw [← counted]
  exact (Text.sortBy_perm ImplBlock.order _).map _

theorem buildGraph_eq {snapshot : Snapshot} (sorted : Text.Sorted byFilePath snapshot.units)
    (allowDuplicates : Bool) :
    buildGraph snapshot allowDuplicates =
      if Text.sortTexts (duplicateNames snapshot) ≠ [] ∧ !allowDuplicates then
        .error (.ambiguousGraph (Text.sortTexts (duplicateNames snapshot)))
      else
        .ok
          { nodes := Text.sortTexts (keys snapshot.registry)
            edges := Text.sortBy Edge.order
              (Graph.distinctEdges (edgesOf (ofSnapshot snapshot) snapshot.units))
            unresolvedCalls := (unresolvedOf (ofSnapshot snapshot) snapshot.units : Nat)
            duplicates := Text.sortTexts (duplicateNames snapshot) } := by
  have ordered : Text.sortBy byFilePath snapshot.units = snapshot.units :=
    Text.sortBy_of_sorted _ sorted
  simp only [buildGraph, ordered]
  rfl

end Graph

theorem sorted_map (change : SourceUnit → SourceUnit)
    (samePath : ∀ unit, (change unit).filePath = unit.filePath) {units : List SourceUnit}
    (sorted : Text.Sorted byFilePath units) : Text.Sorted byFilePath (units.map change) := by
  refine List.pairwise_map.mpr (sorted.imp ?_)
  intro earlier later below
  simp only [byFilePath, samePath]
  exact below

/-- A snapshot of units with different files in which only impl blocks were rewritten. -/
structure MadeOf (snapshot : Snapshot) (units : List SourceUnit) : Prop where
  distinct : (snapshot.units.map SourceUnit.filePath).Nodup
  sorted : Text.Sorted byFilePath snapshot.units
  sites : ∀ name, (sitesOf name snapshot.units).Perm (sitesOf name units)
  registry : snapshot.registry = (create snapshot.root units).registry
  duplicates : duplicateNames snapshot = duplicateNames (create snapshot.root units)

theorem madeOf_create (root : String) {units : List SourceUnit}
    (distinct : (units.map SourceUnit.filePath).Nodup) : MadeOf (create root units) units := by
  have perm := Text.sortBy_perm byFilePath units
  constructor
  · rw [units_create root distinct]
    exact (perm.map SourceUnit.filePath).nodup_iff.mpr distinct
  · rw [units_create root distinct]
    exact Text.sorted_sortBy _ _
  · intro name
    rw [units_create root distinct]
    exact sitesOf_perm perm name
  · rfl
  · rfl

theorem madeOf_extracted (sizeLimit : Int) (root : String) {files : List (String × String)}
    (distinct : (files.map Prod.fst).Nodup) :
    MadeOf (Extraction.snapshotOf sizeLimit root files)
      (Extraction.unitsOf sizeLimit files) := by
  have paths := Extraction.nodup_filePaths distinct sizeLimit
  have created := units_create root paths
  have sorted : Text.Sorted byFilePath (Text.sortBy byFilePath
      (Extraction.unitsOf sizeLimit files)) := Text.sorted_sortBy _ _
  have perm := Text.sortBy_perm byFilePath (Extraction.unitsOf sizeLimit files)
  constructor
  · simp only [Extraction.snapshotOf, resolveCallTargets, created, List.map_map]
    exact (perm.map SourceUnit.filePath).nodup_iff.mpr paths
  · simp only [Extraction.snapshotOf, resolveCallTargets, created]
    refine sorted_map _ ?_ sorted
    exact fun _ => rfl
  · intro name
    simp only [Extraction.snapshotOf, resolveCallTargets, created]
    refine (sitesOf_map_perm _ ?_ ?_ name _).trans (sitesOf_perm perm name)
    · exact fun _ => rfl
    · exact fun _ => .refl _
  · rfl
  · rfl

section MadeOf

variable {snapshot : Snapshot} {units : List SourceUnit}

theorem canonical_sites (name : String) :
    (sitesOf name (snapshot.units.map SourceUnit.canonical)).Perm (sitesOf name snapshot.units) :=
  sitesOf_map_perm SourceUnit.canonical (fun _ => rfl)
    (fun unit => Text.sortBy_perm _ unit.types) name snapshot.units

theorem MadeOf.keyed (made : MadeOf snapshot units) : snapshot.Keyed :=
  made.distinct

theorem MadeOf.units_canonical (made : MadeOf snapshot units) :
    snapshot.canonical.units = snapshot.units.map SourceUnit.canonical := by
  rw [made.keyed.units_canonical]
  exact Text.sortBy_of_sorted _ (sorted_map SourceUnit.canonical (fun _ => rfl) made.sorted)

theorem MadeOf.declaredOnce (made : MadeOf snapshot units) {unit : SourceUnit}
    (member : unit ∈ snapshot.units) {name : String}
    (registered : (ofSnapshot snapshot).isRegistered name) :
    (unit.types.filter fun type => type.qualifiedName = name).length ≤ 1 := by
  have listed : name ∈ keys (create snapshot.root units).registry := by
    rw [isRegistered, has, ← mem_keys_iff_isSome] at registered
    rw [← made.registry]
    exact registered
  exact declaredOnce_of_registered (made.sites name) listed member

theorem MadeOf.resolver_canonical (made : MadeOf snapshot units) :
    ofSnapshot snapshot.canonical = (ofSnapshot snapshot).canonical := by
  have registry : snapshot.canonical.registry = snapshot.registry := by
    rw [made.registry]
    exact registry_eq_of_sites_perm
      (fun name => (canonical_sites name).trans (made.sites name)) _ _
  simp only [ofSnapshot, made.units_canonical, registry, Resolver.canonical]

theorem MadeOf.resolver_eq_of_equal {other : Snapshot} {otherUnits : List SourceUnit}
    (made : MadeOf snapshot units) (otherMade : MadeOf other otherUnits)
    (equal : snapshot.equal other) :
    ofSnapshot snapshot.canonical = ofSnapshot other.canonical := by
  have sorted : snapshot.canonicalUnits = other.canonicalUnits := of_decide_eq_true equal
  rw [← made.keyed.units_canonical, ← otherMade.keyed.units_canonical] at sorted
  have rearranged : snapshot.units.map SourceUnit.canonical =
      other.units.map SourceUnit.canonical := by
    rw [← made.units_canonical, ← otherMade.units_canonical, sorted]
  have registry : snapshot.canonical.registry = other.canonical.registry := by
    rw [Snapshot.canonical, Snapshot.canonical, rearranged]
    exact registry_eq_of_sites_perm (fun _ => .refl _) _ _
  simp only [ofSnapshot, sorted, registry]

theorem MadeOf.duplicates_canonical (made : MadeOf snapshot units) :
    duplicateNames snapshot.canonical = duplicateNames snapshot := by
  rw [made.duplicates]
  exact duplicateNames_eq_of_sites_perm
    (fun name => (canonical_sites name).trans (made.sites name)) _ _

theorem MadeOf.buildGraph_canonical (made : MadeOf snapshot units)
    (steady : (ofSnapshot snapshot).Steady)
    (proper : ∀ name, (ofSnapshot snapshot).isRegistered name → ProperName name)
    (allowDuplicates : Bool) :
    buildGraph snapshot.canonical allowDuplicates = buildGraph snapshot allowDuplicates := by
  have sorted : Text.Sorted byFilePath snapshot.canonical.units := by
    rw [made.units_canonical]
    exact sorted_map SourceUnit.canonical (fun _ => rfl) made.sorted
  have resolver := made.resolver_canonical
  have registry : snapshot.canonical.registry = snapshot.registry :=
    congrArg Resolver.registry resolver
  have units : snapshot.canonical.units = (ofSnapshot snapshot).canonical.units :=
    congrArg Resolver.units resolver
  have edges := Graph.sortedEdges_eq_of_firsts (firsts_canonical steady proper)
  have unresolved := unresolvedOf_canonical steady
  rw [buildGraph_eq sorted, buildGraph_eq made.sorted, made.duplicates_canonical, registry,
    resolver, units, edges, unresolved]
  rfl

end MadeOf

section Extracted

variable {sizeLimit : Int} {root : String} {files : List (String × String)}

theorem registered_extracted {name : String}
    (registered : (ofSnapshot (Extraction.snapshotOf sizeLimit root files)).isRegistered name) :
    ∃ unit ∈ Extraction.unitsOf sizeLimit files, ∃ type ∈ unit.types,
      type.qualifiedName = name := by
  rw [isRegistered, has] at registered
  obtain ⟨file, entry⟩ := Option.isSome_iff_exists.mp registered
  have listed : get? name (create root (Extraction.unitsOf sizeLimit files)).registry =
      some file := entry
  obtain ⟨unit, member, type, typeMember, named, _⟩ := declared_of_registered listed
  exact ⟨unit, member, type, typeMember, named⟩

theorem proper_extracted {name : String}
    (registered : (ofSnapshot (Extraction.snapshotOf sizeLimit root files)).isRegistered name) :
    ProperName name ∧ name ≠ "" := by
  obtain ⟨unit, member, type, typeMember, rfl⟩ := registered_extracted registered
  obtain ⟨_, _, read, _⟩ := Extraction.mem_unitsOf member
  exact Rust.sourceUnitAt_proper read type typeMember

theorem steady_extracted (distinct : (files.map Prod.fst).Nodup)
    (free : ∀ unit ∈ (Extraction.snapshotOf sizeLimit root files).units,
      (ofSnapshot (Extraction.snapshotOf sizeLimit root files)).OrderFree unit) :
    (ofSnapshot (Extraction.snapshotOf sizeLimit root files)).Steady where
  blank registered := (proper_extracted registered).2 rfl
  declaredOnce _ member _ registered :=
    (madeOf_extracted sizeLimit root distinct).declaredOnce member registered
  free := free

/-- The graph of an extracted snapshot is that of its canonical form, as long as canonical order
exchanges no types, imports or globs of a unit that lead one name to different types. -/
theorem extracted_graph_eq_canonical (sizeLimit : Int) (root : String)
    {files : List (String × String)} (distinct : (files.map Prod.fst).Nodup)
    (free : ∀ unit ∈ (Extraction.snapshotOf sizeLimit root files).units,
      (ofSnapshot (Extraction.snapshotOf sizeLimit root files)).OrderFree unit)
    (allowDuplicates : Bool) :
    buildGraph (Extraction.snapshotOf sizeLimit root files).canonical allowDuplicates =
      buildGraph (Extraction.snapshotOf sizeLimit root files) allowDuplicates :=
  (madeOf_extracted sizeLimit root distinct).buildGraph_canonical (steady_extracted distinct free)
    (fun _ registered => (proper_extracted registered).1) allowDuplicates

end Extracted

theorem orderFree_of_apart {resolver : Resolver} {unit : SourceUnit}
    (types : unit.types.Pairwise fun earlier later =>
      TypeDefinition.order earlier later = .gt → earlier.name ≠ later.name)
    (imports : unit.imports.Pairwise fun earlier later =>
      Import.order earlier later = .gt → earlier.isGlob = later.isGlob →
        earlier.isGlob = false ∧ earlier.visibleName ≠ later.visibleName) :
    resolver.OrderFree unit where
  types := types.imp fun apart exchanged same => absurd same (apart exchanged)
  imports := imports.imp fun apart exchanged earlier later same =>
    absurd same (apart exchanged (earlier.trans later.symm)).2
  globs := imports.imp fun apart exchanged earlier later => by
    simp [(apart exchanged (earlier.trans later.symm)).1] at earlier

def shopFiles : List (String × String) :=
  [("src/lib.rs", "use store::Store; use std::fmt;\n" ++
      "struct Shop \x7b store: Store \x7d struct Cart;\n" ++
      "impl Shop \x7b fn open() \x7b Store::new() \x7d \x7d"),
    ("src/store.rs", "pub struct Store;")]

def edgesOfGraph (snapshot : Snapshot) : Option (List Edge) :=
  (buildGraph snapshot false).toOption.map Graph.edges

theorem shop_graph_eq_canonical :
    let shop := Extraction.snapshotOf 0 "" shopFiles
    (shopFiles.map Prod.fst).Nodup ∧ (∀ unit ∈ shop.units, (ofSnapshot shop).OrderFree unit) ∧
      buildGraph shop.canonical false = buildGraph shop false ∧ shop.canonical ≠ shop ∧
      (edgesOfGraph shop).map List.length = some 3 := by
  intro shop
  have distinct : (shopFiles.map Prod.fst).Nodup := by decide
  have facts : (∀ unit ∈ shop.units,
      (unit.types.Pairwise fun earlier later =>
        TypeDefinition.order earlier later = .gt → earlier.name ≠ later.name) ∧
      (unit.imports.Pairwise fun earlier later =>
        Import.order earlier later = .gt → earlier.isGlob = later.isGlob →
          earlier.isGlob = false ∧ earlier.visibleName ≠ later.visibleName)) ∧
      shop.canonical ≠ shop ∧ (edgesOfGraph shop).map List.length = some 3 := by
    decide +kernel
  obtain ⟨apart, reordered, edges⟩ := facts
  have free : ∀ unit ∈ shop.units, (ofSnapshot shop).OrderFree unit :=
    fun unit member => orderFree_of_apart (apart unit member).1 (apart unit member).2
  exact ⟨distinct, free, extracted_graph_eq_canonical 0 "" distinct free false, reordered, edges⟩

def shadowedFoo : Snapshot :=
  Extraction.snapshotOf 0 ""
    [("src/lib.rs", "mod z \x7b pub struct Foo; \x7d mod b \x7b pub struct Foo; \x7d\n" ++
      "use z::Foo; struct Holder \x7b foo: Foo \x7d")]

/-- Two types of one name in one file: canonical order puts the other one first. -/
theorem shadowedFoo_graph_ne_canonical :
    (edgesOfGraph shadowedFoo).map (List.map Edge.target) = some ["crate::z::Foo"] ∧
      (edgesOfGraph shadowedFoo.canonical).map (List.map Edge.target) =
        some ["crate::b::Foo"] ∧
      buildGraph shadowedFoo.canonical false ≠ buildGraph shadowedFoo false := by
  have facts : (edgesOfGraph shadowedFoo).map (List.map Edge.target) = some ["crate::z::Foo"] ∧
      (edgesOfGraph shadowedFoo.canonical).map (List.map Edge.target) =
        some ["crate::b::Foo"] := by
    decide +kernel
  obtain ⟨direct, canonical⟩ := facts
  refine ⟨direct, canonical, ?_⟩
  intro same
  rw [edgesOfGraph, same, ← edgesOfGraph, direct] at canonical
  exact absurd canonical (by decide)

end CrateAtlas.Snapshot
