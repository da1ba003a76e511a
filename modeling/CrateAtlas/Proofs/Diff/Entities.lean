import CrateAtlas.Diff.Entity
import CrateAtlas.Proofs.Registry

/-!
The entities of a snapshot, looked up by identity. Main statements: the types are those that
the registry defines, and of the methods with one key, or one identity, the last one counts.
-/

namespace CrateAtlas.Diff

open OrderedMap

def typeIdentities (snapshot : Snapshot) : List String :=
  keys (collectEntities snapshot).types

def methodIdentities (snapshot : Snapshot) : List String :=
  keys (collectEntities snapshot).methods

theorem types_collectEntities (snapshot : Snapshot) :
    (collectEntities snapshot).types =
      tabulate (fun name => ((Resolver.ofSnapshot snapshot).definition? name).map fun definition =>
        typeEntity (ownedImpls snapshot) definition name)
        (Text.sortTexts (keys snapshot.registry)) := by
  simp only [collectEntities, tabulate, Option.map_map, Function.comp_def]

theorem get?_types (snapshot : Snapshot) (name : String) :
    get? name (collectEntities snapshot).types =
      ((Resolver.ofSnapshot snapshot).definition? name).map fun definition =>
        typeEntity (ownedImpls snapshot) definition name := by
  rw [types_collectEntities, get?_tabulate]
  split
  · rfl
  · rename_i unregistered
    rw [Text.mem_sortTexts] at unregistered
    cases found : (Resolver.ofSnapshot snapshot).definition? name with
    | none => rfl
    | some definition =>
        have defined := Option.isSome_iff_exists.mpr ⟨definition, found⟩
        exact absurd (Resolver.registered_of_definition? defined) unregistered

theorem mem_typeIdentities {snapshot : Snapshot} {name : String} :
    name ∈ typeIdentities snapshot ↔
      ((Resolver.ofSnapshot snapshot).definition? name).isSome := by
  rw [typeIdentities, mem_keys_iff_isSome, get?_types, Option.isSome_map]

theorem ascending_typeIdentities {snapshot : Snapshot}
    (distinct : (keys snapshot.registry).Nodup) : Text.Ascending (typeIdentities snapshot) := by
  rw [typeIdentities, types_collectEntities]
  exact (Text.ascending_sortTexts distinct).sublist (keys_tabulate_sublist _ _)

theorem typeIdentities_create (root : String) {units : List SourceUnit}
    (distinct : (units.map SourceUnit.filePath).Nodup) :
    typeIdentities (Snapshot.create root units) = keys (Snapshot.create root units).registry := by
  have registry := Snapshot.ascending_registry root units
  refine (ascending_typeIdentities registry.nodup).eq_of_mem_iff registry ?_
  intro name
  rw [mem_typeIdentities]
  exact ⟨Resolver.registered_of_definition?, Snapshot.definition?_of_registered distinct⟩

theorem methods_collectEntities (snapshot : Snapshot) :
    (collectEntities snapshot).methods =
      fill ((ownedImpls snapshot).flatMap methodEntities) [] := rfl

/-- How a method of an impl block is called among all methods of a snapshot. -/
def OwnedImpl.identityOf (entry : OwnedImpl) (method : Method) : String :=
  entry.owner ++ "::" ++ methodKey method.name entry.traitName

theorem mem_methodIdentities {snapshot : Snapshot} {identity : String} :
    identity ∈ methodIdentities snapshot ↔
      ∃ entry ∈ ownedImpls snapshot, ∃ method ∈ entry.impl.methods,
        entry.identityOf method = identity := by
  rw [methodIdentities, methods_collectEntities, mem_keys_fill]
  simp only [keys, methodEntities, OwnedImpl.identityOf, List.map_flatMap, List.map_map,
    Function.comp_def, List.mem_flatMap, List.mem_map]

end CrateAtlas.Diff
