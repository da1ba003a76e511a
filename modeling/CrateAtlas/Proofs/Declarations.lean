import CrateAtlas.Proofs.Registry

/-!
Every declaration of a crate is accounted for. Main statement: in whatever order units of different
files come, a name is registered when they declare it once and a duplicate when they declare it
more often, and the resolver of their snapshot finds the one declaration of a registered name.
-/

namespace CrateAtlas.Snapshot

open OrderedMap

/-- The declarations of a name with the units they stand in, in document order. -/
def declarationsOf (name : String) (units : List SourceUnit) :
    List (TypeDefinition × SourceUnit) :=
  units.flatMap fun unit =>
    (unit.types.filter fun type => type.qualifiedName = name).map fun type => (type, unit)

theorem sitesOf_eq_map (name : String) (units : List SourceUnit) :
    sitesOf name units =
      (declarationsOf name units).map fun declaration => siteIn declaration.2 declaration.1 := by
  simp only [sitesOf, declarationsOf, List.map_flatMap, List.map_map, Function.comp_def]

theorem length_sitesOf (name : String) (units : List SourceUnit) :
    (sitesOf name units).length = (declarationsOf name units).length := by
  rw [sitesOf_eq_map, List.length_map]

theorem declarationsOf_perm {left right : List SourceUnit} (perm : left.Perm right)
    (name : String) : (declarationsOf name left).Perm (declarationsOf name right) :=
  perm.flatMap_right _

theorem mem_declarationsOf {name : String} {units : List SourceUnit} {type : TypeDefinition}
    {unit : SourceUnit} :
    (type, unit) ∈ declarationsOf name units ↔
      unit ∈ units ∧ type ∈ unit.types ∧ type.qualifiedName = name := by
  simp only [declarationsOf, List.mem_flatMap, List.mem_map, List.mem_filter, decide_eq_true_eq,
    Prod.mk.injEq]
  constructor
  · rintro ⟨other, member, declared, ⟨typeMember, named⟩, rfl, rfl⟩
    exact ⟨member, typeMember, named⟩
  · rintro ⟨member, typeMember, named⟩
    exact ⟨unit, member, type, ⟨typeMember, named⟩, rfl, rfl⟩

theorem onlyFile?_isSome {sites : List DeclarationSite} :
    (onlyFile? sites).isSome ↔ sites.length = 1 := by
  rcases sites with _ | ⟨site, _ | ⟨other, rest⟩⟩ <;> simp [onlyFile?]

section Created

variable {root name : String} {units : List SourceUnit}

theorem mem_registry :
    name ∈ keys (create root units).registry ↔ (declarationsOf name units).length = 1 := by
  rw [mem_keys_iff_isSome, get?_registry, onlyFile?_isSome, length_sitesOf]

theorem mem_duplicateNames_iff :
    name ∈ duplicateNames (create root units) ↔ 1 < (declarationsOf name units).length := by
  rw [mem_duplicateNames, length_sitesOf]
  rfl

theorem get?_registry_of_only {type : TypeDefinition} {unit : SourceUnit}
    (only : declarationsOf name units = [(type, unit)]) :
    get? name (create root units).registry = some unit.filePath := by
  rw [get?_registry, sitesOf_eq_map, only]
  rfl

theorem mem_duplicates {duplicate : DuplicateType}
    (member : duplicate ∈ (create root units).duplicates) :
    duplicate.locations = sitesOf duplicate.qualifiedName (Text.sortBy byFilePath units) := by
  obtain ⟨⟨name, sites⟩, entry, made⟩ := List.mem_filterMap.mp member
  have stored : get? name (sortedSites units) = some sites :=
    get?_of_mem (ascending_keys_sortedSites units).nodup entry
  rw [get?_sortedSites] at stored
  rcases sites with _ | ⟨first, _ | ⟨second, rest⟩⟩
  · simp at made
  · simp at made
  · obtain rfl := Option.some.inj made
    dsimp only at stored ⊢
    split at stored
    · simp at stored
    · exact (Option.some.inj stored).symm

theorem ascending_units (distinct : (units.map SourceUnit.filePath).Nodup) :
    Text.Ascending ((create root units).units.map SourceUnit.filePath) := by
  have perm := Text.sortBy_perm byFilePath units
  rw [units_create root distinct]
  apply Text.ascending_of_sorted
  · exact List.pairwise_map.mpr (Text.sorted_sortBy byFilePath units)
  · exact (perm.map SourceUnit.filePath).nodup_iff.mpr distinct

end Created

end CrateAtlas.Snapshot

namespace CrateAtlas.Resolver

open OrderedMap Snapshot

theorem filter_declarations (resolver : Resolver) (name : String) :
    (resolver.declarations.filter fun entry => entry.1.qualifiedName = name) =
      (declarationsOf name resolver.units).filter fun entry =>
        get? name resolver.registry = some entry.2.filePath := by
  simp only [declarations, declarationsOf, List.filter_flatMap, List.filter_map,
    List.filter_filter]
  refine List.flatMap_congr fun unit _ => congrArg (List.map _) (List.filter_congr ?_)
  intro type _
  by_cases named : type.qualifiedName = name
  · simp [named]
  · simp [named]

theorem declaration?_of_unregistered {resolver : Resolver} {name : String}
    (missing : name ∉ keys resolver.registry) : resolver.declaration? name = none := by
  have nothing : get? name resolver.registry = none := get?_eq_none_iff.mpr missing
  rw [declaration?, filter_declarations, nothing]
  simp

variable {root name : String} {units : List SourceUnit}

theorem declaration?_create (distinct : (units.map SourceUnit.filePath).Nodup)
    {type : TypeDefinition} {unit : SourceUnit} (only : declarationsOf name units = [(type, unit)]) :
    (ofSnapshot (create root units)).declaration? name = some (type, unit) := by
  have kept : declarationsOf name (create root units).units = [(type, unit)] := by
    have perm := declarationsOf_perm (Text.sortBy_perm byFilePath units) name
    rw [only, List.perm_singleton] at perm
    rw [units_create root distinct, perm]
  have registered : get? name (create root units).registry = some unit.filePath :=
    get?_registry_of_only only
  rw [declaration?, filter_declarations]
  simp [ofSnapshot, kept, registered]

theorem declaration?_isSome_create (distinct : (units.map SourceUnit.filePath).Nodup) :
    ((ofSnapshot (create root units)).declaration? name).isSome ↔
      name ∈ keys (create root units).registry := by
  constructor
  · intro found
    by_contra missing
    have nothing : (ofSnapshot (create root units)).declaration? name = none :=
      declaration?_of_unregistered missing
    simp [nothing] at found
  · intro registered
    obtain ⟨⟨type, unit⟩, only⟩ := List.length_eq_one_iff.mp (mem_registry.mp registered)
    rw [declaration?_create distinct only]
    rfl

end CrateAtlas.Resolver

namespace CrateAtlas.Snapshot

open OrderedMap

/-- Units of different files make one snapshot in any order. A name that they declare is registered
if it is declared once, or else it is a duplicate with all its declarations, file by file; and the
resolver defines exactly the registered names, each by its one declaration. -/
theorem create_accounts (root : String) {units : List SourceUnit}
    (distinct : (units.map SourceUnit.filePath).Nodup) :
    let snapshot := create root units
    let resolver := Resolver.ofSnapshot snapshot
    (∀ others, others.Perm units → create root others = snapshot) ∧
      snapshot.units.Perm units ∧
      Text.Ascending (snapshot.units.map SourceUnit.filePath) ∧
      (∀ name, name ∈ keys snapshot.registry ↔ (declarationsOf name units).length = 1) ∧
      (∀ name, name ∈ duplicateNames snapshot ↔ 1 < (declarationsOf name units).length) ∧
      (∀ unit ∈ units, ∀ type ∈ unit.types, Xor (type.qualifiedName ∈ keys snapshot.registry)
        (type.qualifiedName ∈ duplicateNames snapshot)) ∧
      (keys snapshot.registry).Nodup ∧ (duplicateNames snapshot).Nodup ∧
      (∀ duplicate ∈ snapshot.duplicates, duplicate.locations =
        (declarationsOf duplicate.qualifiedName snapshot.units).map
          fun declaration => siteIn declaration.2 declaration.1) ∧
      (∀ name, (resolver.definition? name).isSome ↔ name ∈ keys snapshot.registry) ∧
      (∀ name, (resolver.declaringUnit? name).isSome ↔ name ∈ keys snapshot.registry) ∧
      ∀ name type unit, declarationsOf name units = [(type, unit)] →
        get? name snapshot.registry = some unit.filePath ∧
          resolver.definition? name = some type ∧ resolver.declaringUnit? name = some unit := by
  intro snapshot resolver
  have created : snapshot.units = Text.sortBy byFilePath units := units_create root distinct
  have declared : ∀ name, (resolver.declaration? name).isSome ↔ name ∈ keys snapshot.registry :=
    fun name => Resolver.declaration?_isSome_create distinct
  refine ⟨fun others perm => (create_of_perm perm.symm distinct root).symm, ?_,
    ascending_units distinct, fun name => mem_registry, fun name => mem_duplicateNames_iff, ?_,
    (ascending_registry root units).nodup, (ascending_duplicateNames root units).nodup,
    ?_, ?_, ?_, ?_⟩
  · rw [created]
    exact Text.sortBy_perm byFilePath units
  · intro unit member type typeMember
    have here : (type, unit) ∈ declarationsOf type.qualifiedName units :=
      mem_declarationsOf.mpr ⟨member, typeMember, rfl⟩
    have positive := List.length_pos_of_mem here
    rw [xor_iff_iff_not, mem_registry, mem_duplicateNames_iff]
    omega
  · intro duplicate member
    rw [mem_duplicates member, ← created, sitesOf_eq_map]
  · intro name
    rw [Resolver.definition?, Option.isSome_map, declared]
  · intro name
    rw [Resolver.declaringUnit?, Option.isSome_map, declared]
  · intro name type unit only
    have found : resolver.declaration? name = some (type, unit) :=
      Resolver.declaration?_create distinct only
    refine ⟨get?_registry_of_only only, ?_, ?_⟩
    · exact congrArg (Option.map Prod.fst) found
    · exact congrArg (Option.map Prod.snd) found

def quayUnit (filePath : String) (declared : List (String × Int)) : SourceUnit :=
  { filePath := filePath, modulePath := "crate", impls := [], imports := []
    types := declared.map fun entry =>
      { name := entry.1, qualifiedName := "crate::" ++ entry.1, kind := .struct
        visibility := .hidden, fields := []
        location := { filePath := filePath, startLine := entry.2, endLine := entry.2 } } }

def quay : List SourceUnit :=
  [quayUnit "quay.rs" [("Rope", 1), ("Crane", 2), ("Rope", 3)],
    quayUnit "dock.rs" [("Bollard", 1), ("Crane", 5)]]

def quayDuplicates : List DuplicateType :=
  [{ qualifiedName := "crate::Crane"
     locations := [{ filePath := "dock.rs", line := 5 }, { filePath := "quay.rs", line := 2 }] },
    { qualifiedName := "crate::Rope"
      locations := [{ filePath := "quay.rs", line := 1 }, { filePath := "quay.rs", line := 3 }] }]

theorem create_accounts_quay :
    (quay.map SourceUnit.filePath).Nodup ∧ create "" quay.reverse = create "" quay ∧
      keys (create "" quay).registry = ["crate::Bollard"] ∧
      (create "" quay).duplicates = quayDuplicates ∧
      ((Resolver.ofSnapshot (create "" quay)).declaringUnit? "crate::Bollard").map
        SourceUnit.filePath = some "dock.rs" := by
  have distinct : (quay.map SourceUnit.filePath).Nodup := by decide
  obtain ⟨anyOrder, -, -, -, -, -, -, -, -, -, -, declared⟩ := create_accounts "" distinct
  have facts : keys (create "" quay).registry = ["crate::Bollard"] ∧
      (create "" quay).duplicates = quayDuplicates := by
    decide +kernel
  obtain ⟨registry, duplicates⟩ := facts
  obtain ⟨-, -, unit⟩ := declared "crate::Bollard" _ _ rfl
  exact ⟨distinct, anyOrder quay.reverse (List.reverse_perm quay), registry, duplicates,
    congrArg (Option.map SourceUnit.filePath) unit⟩

end CrateAtlas.Snapshot
