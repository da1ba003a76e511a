import CrateAtlas.Proofs.Maps
import CrateAtlas.Snapshot
import Mathlib.Data.List.Perm.Basic

/-!
What a snapshot knows about the names its units declare. Main statements: the registry holds a
name exactly when the units declare it once, in alphabetical order, and a registered name has
exactly one declaration in the units of the snapshot.
-/

namespace CrateAtlas.OrderedMap

variable {κ : Type u} {α : Type v} [DecidableEq κ]

def group (pairs : List (κ × α)) (start : List (κ × List α)) : List (κ × List α) :=
  pairs.foldl (fun entries pair => update pair.1 [] (· ++ [pair.2]) entries) start

def valuesOf (key : κ) (pairs : List (κ × α)) : List α :=
  (pairs.filter fun pair => pair.1 = key).map Prod.snd

theorem get?_group (key : κ) (pairs : List (κ × α)) (start : List (κ × List α)) :
    get? key (group pairs start) =
      if valuesOf key pairs = [] then get? key start
      else some ((get? key start).getD [] ++ valuesOf key pairs) := by
  induction pairs generalizing start with
  | nil => simp [group, valuesOf]
  | cons pair rest ih =>
      have step : group (pair :: rest) start =
          group rest (update pair.1 [] (· ++ [pair.2]) start) := rfl
      rw [step, ih, update, get?_put]
      by_cases same : pair.1 = key
      · subst key
        by_cases done : valuesOf pair.1 rest = []
        · have values : valuesOf pair.1 (pair :: rest) = [pair.2] := by
            simpa [valuesOf] using done
          simp [values, done]
        · have values : valuesOf pair.1 (pair :: rest) = pair.2 :: valuesOf pair.1 rest := by
            simp [valuesOf]
          simp [values, done]
      · have values : valuesOf key (pair :: rest) = valuesOf key rest := by
          simp [valuesOf, same]
        simp [values, same]

theorem nodup_keys_group (pairs : List (κ × α)) {start : List (κ × List α)}
    (distinct : (keys start).Nodup) : (keys (group pairs start)).Nodup := by
  induction pairs generalizing start with
  | nil => exact distinct
  | cons pair rest ih => exact ih (nodup_keys_put distinct _ _)

theorem eq_of_ascending_keys {left right : List (String × α)}
    (leftAscending : Text.Ascending (keys left)) (rightAscending : Text.Ascending (keys right))
    (agree : ∀ name, get? name left = get? name right) : left = right := by
  have perm : left.Perm right :=
    perm_of_get?_eq leftAscending.nodup rightAscending.nodup agree
  refine perm.eq_of_pairwise ?_ (List.pairwise_map.mp leftAscending)
    (List.pairwise_map.mp rightAscending)
  intro first second _ _ below above
  have swapped : Text.compareText first.1 second.1 = (Text.compareText second.1 first.1).swap :=
    Std.OrientedCmp.eq_swap
  simp [below, above] at swapped

end CrateAtlas.OrderedMap

namespace CrateAtlas.Snapshot

open OrderedMap

def siteIn (unit : SourceUnit) (type : TypeDefinition) : DeclarationSite :=
  { filePath := unit.filePath, line := type.location.startLine }

/-- The sites at which units declare a name, in document order. -/
def sitesOf (name : String) (units : List SourceUnit) : List DeclarationSite :=
  units.flatMap fun unit =>
    (unit.types.filter fun type => type.qualifiedName = name).map (siteIn unit)

theorem sitesOf_perm {left right : List SourceUnit} (perm : left.Perm right) (name : String) :
    (sitesOf name left).Perm (sitesOf name right) :=
  perm.flatMap_right _

def declaredPairs (units : List SourceUnit) : List (String × DeclarationSite) :=
  units.flatMap fun unit => unit.types.map fun type => (type.qualifiedName, siteIn unit type)

theorem declarationSites_eq_group (units : List SourceUnit) :
    declarationSites units = group (declaredPairs units) [] := by
  simp only [declarationSites, declaredPairs, group, List.foldl_flatMap, List.foldl_map, siteIn]

theorem valuesOf_declaredPairs (name : String) (units : List SourceUnit) :
    valuesOf name (declaredPairs units) = sitesOf name units := by
  induction units with
  | nil => rfl
  | cons unit rest ih =>
      have parts : valuesOf name (declaredPairs (unit :: rest)) =
          valuesOf name (unit.types.map fun type => (type.qualifiedName, siteIn unit type)) ++
            valuesOf name (declaredPairs rest) := by
        simp [valuesOf, declaredPairs]
      have first : valuesOf name
          (unit.types.map fun type => (type.qualifiedName, siteIn unit type)) =
            (unit.types.filter fun type => type.qualifiedName = name).map (siteIn unit) := by
        simp [valuesOf, List.filter_map, Function.comp_def]
      rw [parts, ih, first]
      rfl

theorem get?_declarationSites (name : String) (units : List SourceUnit) :
    get? name (declarationSites units) =
      if sitesOf name units = [] then none else some (sitesOf name units) := by
  rw [declarationSites_eq_group, get?_group, valuesOf_declaredPairs]
  simp

theorem nodup_keys_declarationSites (units : List SourceUnit) :
    (keys (declarationSites units)).Nodup := by
  rw [declarationSites_eq_group]
  exact nodup_keys_group _ .nil

def onlyFile? : List DeclarationSite → Option String
  | [site] => some site.filePath
  | _ => none

theorem onlyFile?_eq_of_perm {left right : List DeclarationSite} (perm : left.Perm right) :
    onlyFile? left = onlyFile? right := by
  match left, right, perm.length_eq with
  | [], [], _ => rfl
  | [site], [other], _ => rw [List.singleton_perm_singleton.mp perm]
  | _ :: _ :: _, _ :: _ :: _, _ => rfl

def sortedSites (units : List SourceUnit) : List (String × List DeclarationSite) :=
  Record.sorted (declarationSites (Text.sortBy byFilePath units))

theorem ascending_keys_sortedSites (units : List SourceUnit) :
    Text.Ascending (keys (sortedSites units)) :=
  Record.ascending_keys_sorted (nodup_keys_declarationSites _)

theorem get?_sortedSites (name : String) (units : List SourceUnit) :
    get? name (sortedSites units) =
      let sites := sitesOf name (Text.sortBy byFilePath units)
      if sites = [] then none else some sites := by
  rw [← get?_declarationSites]
  exact Record.get?_sorted (nodup_keys_declarationSites _) name

theorem registry_create (root : String) (units : List SourceUnit) :
    (create root units).registry = mapValues (fun _ => onlyFile?) (sortedSites units) := by
  refine List.filterMap_congr ?_
  rintro ⟨name, sites⟩ _
  match sites with
  | [] => rfl
  | [_] => rfl
  | _ :: _ :: _ => rfl

theorem ascending_registry (root : String) (units : List SourceUnit) :
    Text.Ascending (keys (create root units).registry) := by
  rw [registry_create]
  exact (ascending_keys_sortedSites units).sublist (keys_mapValues_sublist _ _)

/-- A name is registered for the file of its only declaration. -/
theorem get?_registry (name root : String) (units : List SourceUnit) :
    get? name (create root units).registry = onlyFile? (sitesOf name units) := by
  have perm : (sitesOf name (Text.sortBy byFilePath units)).Perm (sitesOf name units) :=
    sitesOf_perm (Text.sortBy_perm _ _) name
  rw [registry_create, get?_mapValues _ (ascending_keys_sortedSites units).nodup, get?_sortedSites,
    ← onlyFile?_eq_of_perm perm]
  dsimp only
  split
  · rename_i none
    rw [none]
    rfl
  · rfl

theorem registry_eq_of_sites_perm {left right : List SourceUnit}
    (sites : ∀ name, (sitesOf name left).Perm (sitesOf name right)) (root other : String) :
    (create root left).registry = (create other right).registry := by
  refine eq_of_ascending_keys (ascending_registry root left) (ascending_registry other right) ?_
  intro name
  rw [get?_registry, get?_registry, onlyFile?_eq_of_perm (sites name)]

theorem sitesOf_map_perm (change : SourceUnit → SourceUnit)
    (samePath : ∀ unit, (change unit).filePath = unit.filePath)
    (sameTypes : ∀ unit, (change unit).types.Perm unit.types) (name : String)
    (units : List SourceUnit) : (sitesOf name (units.map change)).Perm (sitesOf name units) := by
  rw [sitesOf, sitesOf, List.flatMap_map]
  refine List.Perm.flatMap_left units ?_
  intro unit _
  have site : siteIn (change unit) = siteIn unit := by
    funext type
    simp only [siteIn, samePath]
  rw [site]
  exact ((sameTypes unit).filter _).map _

def duplicateNames (snapshot : Snapshot) : List String :=
  snapshot.duplicates.map DuplicateType.qualifiedName

theorem duplicateNames_create (root : String) (units : List SourceUnit) :
    duplicateNames (create root units) = keys (mapValues (fun _ (sites : List DeclarationSite) =>
      if 2 ≤ sites.length then some () else none) (sortedSites units)) := by
  change (List.filterMap _ (sortedSites units)).map _ = (List.filterMap _ _).map _
  rw [List.map_filterMap, List.map_filterMap]
  refine List.filterMap_congr ?_
  rintro ⟨name, sites⟩ _
  rcases sites with _ | ⟨_, _ | ⟨_, _⟩⟩
  · rfl
  · rfl
  · simp

theorem mem_duplicateNames {root name : String} {units : List SourceUnit} :
    name ∈ duplicateNames (create root units) ↔ 2 ≤ (sitesOf name units).length := by
  have length : (sitesOf name (Text.sortBy byFilePath units)).length =
      (sitesOf name units).length :=
    (sitesOf_perm (Text.sortBy_perm _ _) name).length_eq
  rw [duplicateNames_create, mem_keys_iff_isSome,
    get?_mapValues _ (ascending_keys_sortedSites units).nodup, get?_sortedSites]
  dsimp only
  split
  · rename_i none
    simp [← length, none]
  · by_cases many : 2 ≤ (sitesOf name units).length <;> simp [length, many]

theorem ascending_duplicateNames (root : String) (units : List SourceUnit) :
    Text.Ascending (duplicateNames (create root units)) := by
  rw [duplicateNames_create]
  exact (ascending_keys_sortedSites units).sublist (keys_mapValues_sublist _ _)

theorem duplicateNames_eq_of_sites_perm {left right : List SourceUnit}
    (sites : ∀ name, (sitesOf name left).Perm (sitesOf name right)) (root other : String) :
    duplicateNames (create root left) = duplicateNames (create other right) := by
  refine (ascending_duplicateNames root left).eq_of_mem_iff
    (ascending_duplicateNames other right) ?_
  intro name
  rw [mem_duplicateNames, mem_duplicateNames, (sites name).length_eq]

theorem mem_sitesOf {name : String} {units : List SourceUnit} {site : DeclarationSite} :
    site ∈ sitesOf name units ↔
      ∃ unit ∈ units, ∃ type ∈ unit.types, type.qualifiedName = name ∧ siteIn unit type = site := by
  simp only [sitesOf, List.mem_flatMap, List.mem_map, List.mem_filter, decide_eq_true_eq,
    and_assoc]

instance : Std.TransCmp byFilePath :=
  Text.transCmp_on Text.compareText SourceUnit.filePath

theorem create_of_perm {left right : List SourceUnit} (perm : left.Perm right)
    (distinct : (left.map SourceUnit.filePath).Nodup) (root : String) :
    create root left = create root right := by
  have sorted : Text.sortBy byFilePath left = Text.sortBy byFilePath right := by
    refine Text.sortBy_eq_of_perm _ perm fun first firstMember second secondMember same => ?_
    exact List.inj_on_of_nodup_map distinct firstMember secondMember
      (Std.LawfulEqCmp.eq_of_compare same)
  simp only [create, sorted]

theorem units_create_eq_values (root : String) (units : List SourceUnit) :
    (create root units).units =
      values (fill ((Text.sortBy byFilePath units).map fun unit => (unit.filePath, unit)) []) := by
  simp only [create, keepLastUnits, fill, List.foldl_map]

/-- The units of a snapshot are a map by their file paths. -/
def Keyed (snapshot : Snapshot) : Prop :=
  (snapshot.units.map SourceUnit.filePath).Nodup

theorem keyed_create (root : String) (units : List SourceUnit) : (create root units).Keyed := by
  let entries := (Text.sortBy byFilePath units).map fun unit => (unit.filePath, unit)
  have keyed : ∀ entry ∈ fill entries [], entry.2.filePath = entry.1 := by
    intro entry member
    obtain ⟨unit, _, rfl⟩ := List.mem_map.mp (mem_of_mem_fill member)
    rfl
  have paths : (create root units).units.map SourceUnit.filePath = keys (fill entries []) := by
    rw [units_create_eq_values, values, List.map_map, keys]
    exact List.map_congr_left keyed
  rw [Keyed, paths]
  exact nodup_keys_filled entries

theorem units_create (root : String) {units : List SourceUnit}
    (distinct : (units.map SourceUnit.filePath).Nodup) :
    (create root units).units = Text.sortBy byFilePath units := by
  have sortedDistinct : ((Text.sortBy byFilePath units).map SourceUnit.filePath).Nodup :=
    ((Text.sortBy_perm byFilePath units).map SourceUnit.filePath).nodup_iff.mpr distinct
  rw [units_create_eq_values, fill_of_nodup]
  · simp [values, Function.comp_def]
  · simpa [keys, Function.comp_def] using sortedDistinct

theorem mem_units_create (root : String) {units : List SourceUnit}
    (distinct : (units.map SourceUnit.filePath).Nodup) {unit : SourceUnit} :
    unit ∈ (create root units).units ↔ unit ∈ units := by
  rw [units_create root distinct]
  exact Text.mem_sortBy byFilePath

end CrateAtlas.Snapshot

namespace CrateAtlas.Resolver

open OrderedMap

theorem mem_declarations {resolver : Resolver} {type : TypeDefinition} {unit : SourceUnit} :
    (type, unit) ∈ resolver.declarations ↔
      unit ∈ resolver.units ∧ type ∈ unit.types ∧
        get? type.qualifiedName resolver.registry = some unit.filePath := by
  simp only [declarations, List.mem_flatMap, List.mem_map, List.mem_filter, decide_eq_true_eq,
    Prod.mk.injEq]
  constructor
  · rintro ⟨other, member, declared, ⟨typeMember, registered⟩, rfl, rfl⟩
    exact ⟨member, typeMember, registered⟩
  · rintro ⟨member, typeMember, registered⟩
    exact ⟨unit, member, type, ⟨typeMember, registered⟩, rfl, rfl⟩

theorem declaration?_spec {resolver : Resolver} {name : String} {type : TypeDefinition}
    {unit : SourceUnit} (found : resolver.declaration? name = some (type, unit)) :
    (type, unit) ∈ resolver.declarations ∧ type.qualifiedName = name := by
  have member := List.mem_of_getLast? found
  simpa using member

theorem registered_of_definition? {resolver : Resolver} {name : String}
    (defined : (resolver.definition? name).isSome) : name ∈ keys resolver.registry := by
  obtain ⟨type, found⟩ := Option.isSome_iff_exists.mp defined
  obtain ⟨⟨declared, unit⟩, declaration, rfl⟩ := Option.map_eq_some_iff.mp found
  obtain ⟨member, rfl⟩ := declaration?_spec declaration
  obtain ⟨_, _, registered⟩ := mem_declarations.mp member
  exact mem_keys_iff.mpr ⟨_, registered⟩

theorem definition?_of_declared {resolver : Resolver} {type : TypeDefinition}
    {unit : SourceUnit} (declared : (type, unit) ∈ resolver.declarations) :
    (resolver.definition? type.qualifiedName).isSome := by
  have matching : (type, unit) ∈ resolver.declarations.filter fun declaration =>
      declaration.1.qualifiedName = type.qualifiedName := by
    simpa using declared
  rw [definition?, Option.isSome_map, declaration?]
  exact List.getLast?_isSome.mpr (List.ne_nil_of_mem matching)

end CrateAtlas.Resolver

namespace CrateAtlas.Snapshot

open OrderedMap

theorem declared_of_registered {root name file : String} {units : List SourceUnit}
    (registered : get? name (create root units).registry = some file) :
    ∃ unit ∈ units, ∃ type ∈ unit.types, type.qualifiedName = name ∧ unit.filePath = file := by
  rw [get?_registry] at registered
  match sites : sitesOf name units with
  | [] => simp [sites, onlyFile?] at registered
  | _ :: _ :: _ => simp [sites, onlyFile?] at registered
  | [site] =>
      have member : site ∈ sitesOf name units := by simp [sites]
      obtain ⟨unit, unitMember, type, typeMember, named, rfl⟩ := mem_sitesOf.mp member
      simp only [sites, onlyFile?, Option.some.injEq] at registered
      exact ⟨unit, unitMember, type, typeMember, named, registered⟩

theorem definition?_of_registered {root : String} {units : List SourceUnit}
    (distinct : (units.map SourceUnit.filePath).Nodup) {name : String}
    (registered : name ∈ keys (create root units).registry) :
    ((Resolver.ofSnapshot (create root units)).definition? name).isSome := by
  obtain ⟨file, entry⟩ := mem_keys_iff.mp registered
  obtain ⟨unit, member, type, typeMember, rfl, rfl⟩ := declared_of_registered entry
  have declared : (type, unit) ∈ (Resolver.ofSnapshot (create root units)).declarations :=
    Resolver.mem_declarations.mpr ⟨(mem_units_create root distinct).mpr member, typeMember, entry⟩
  exact Resolver.definition?_of_declared declared

theorem declaredOnce_of_registered {root name : String} {units others : List SourceUnit}
    (sites : (sitesOf name others).Perm (sitesOf name units))
    (registered : name ∈ keys (create root units).registry) {unit : SourceUnit}
    (member : unit ∈ others) :
    (unit.types.filter fun type => type.qualifiedName = name).length ≤ 1 := by
  obtain ⟨file, entry⟩ := mem_keys_iff.mp registered
  rw [get?_registry] at entry
  have single : (sitesOf name units).length = 1 := by
    match found : sitesOf name units with
    | [] => simp [found, onlyFile?] at entry
    | [_] => rfl
    | _ :: _ :: _ => simp [found, onlyFile?] at entry
  have total := sites.length_eq.trans single
  obtain ⟨front, back, rfl⟩ := List.append_of_mem member
  simp only [sitesOf, List.flatMap_append, List.flatMap_cons, List.length_append,
    List.length_map] at total
  omega

end CrateAtlas.Snapshot
