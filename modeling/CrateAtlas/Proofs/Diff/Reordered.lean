import CrateAtlas.Proofs.Canonical.Graph
import CrateAtlas.Proofs.Diff.Changes
import CrateAtlas.Proofs.Diff.MethodKeys
import CrateAtlas.Proofs.Diff.Partition

/-!
Comparisons of snapshots that are equal up to canonical order. Main statement: when every name in
a unit stands for one thing and every key of a type for one method, no type differs, no method is
added or removed, and a method that differs shares its identity with a method of another type.
-/

namespace CrateAtlas

/-- A unit in which a name finds one type and one import at most, and in which at most one import
is a glob. -/
structure SourceUnit.Unambiguous (unit : SourceUnit) : Prop where
  types : (unit.types.map TypeDefinition.name).Nodup
  imports : ((unit.imports.filter fun entry => !entry.isGlob).map Import.visibleName).Nodup
  globs : (unit.imports.filter Import.isGlob).length ≤ 1

section Unambiguous

open ModulePath Resolver

variable {resolver : Resolver} {unit : SourceUnit}

theorem SourceUnit.Unambiguous.orderFree (unambiguous : unit.Unambiguous)
    (resolver : Resolver) : resolver.OrderFree unit := by
  have explicit := List.pairwise_filter.mp (List.pairwise_map.mp unambiguous.imports)
  have globs : unit.imports.Pairwise fun earlier later =>
      earlier.isGlob → later.isGlob → False := by
    apply List.pairwise_filter.mp
    match few : unit.imports.filter Import.isGlob with
    | [] => exact .nil
    | [_] => exact List.pairwise_singleton _ _
    | _ :: _ :: _ =>
        have bound := unambiguous.globs
        simp [few] at bound
  apply Snapshot.orderFree_of_apart
  · refine (List.pairwise_map.mp unambiguous.types).imp ?_
    exact fun apart _ => apart
  · refine (explicit.and globs).imp ?_
    rintro earlier later ⟨explicitApart, globsApart⟩ _ same
    cases kind : earlier.isGlob with
    | true => exact (globsApart kind (same ▸ kind)).elim
    | false => exact ⟨rfl, explicitApart (by simp [kind]) (by simp [← same, kind])⟩

theorem length_filter_visibleName_le_one (unambiguous : unit.Unambiguous) (head : String) :
    (unit.imports.filter fun entry => !entry.isGlob && entry.visibleName = head).length ≤ 1 := by
  have once := List.nodup_iff_count_le_one.mp unambiguous.imports head
  rw [List.count, List.countP_map, List.countP_filter, List.countP_eq_length_filter] at once
  refine le_of_eq_of_le ?_ once
  congr 1
  refine List.filter_congr ?_
  intro entry _
  simp only [Function.comp_apply, Bool.and_comm, beq_eq_decide]

theorem moduleCandidates_canonical (unambiguous : unit.Unambiguous) (head : String) :
    moduleCandidates head unit.canonical = moduleCandidates head unit := by
  have imported := Text.filter_sortBy_of_length_le_one Import.order
    (length_filter_visibleName_le_one unambiguous head)
  simp only [moduleCandidates, SourceUnit.canonical, imported]

theorem resolveType_canonical_of_unambiguous
    (unambiguous : ∀ unit ∈ resolver.units, unit.Unambiguous) (member : unit ∈ resolver.units)
    (text : String) (selfType : Option String) :
    resolver.canonical.resolveType text unit.canonical selfType =
      resolver.resolveType text unit selfType := by
  have free : ∀ unit ∈ resolver.units, resolver.OrderFree unit :=
    fun unit member => (unambiguous unit member).orderFree resolver
  have inner : resolver.canonical.firstRegistered maxHops = resolver.firstRegistered maxHops :=
    funext fun candidates => firstRegistered_canonical free le_rfl candidates
  have modulePath : unit.canonical.modulePath = unit.modulePath := rfl
  simp only [resolveType, inner, modulePath, resolveName_canonical free (free unit member),
    moduleCandidates_canonical (unambiguous unit member)]

end Unambiguous

namespace Diff

open OrderedMap Resolver

section Canonical

variable {resolver : Resolver} {unit : SourceUnit}

def OwnedImpl.canonical (entry : OwnedImpl) : OwnedImpl :=
  { entry with impl := entry.impl.canonical }

def ownedImpl? (resolver : Resolver) (unit : SourceUnit) (impl : ImplBlock) : Option OwnedImpl :=
  ((named (resolver.resolveType impl.target unit none)).filter fun owner =>
    (resolver.definition? owner).isSome).map (ownImpl resolver unit impl)

theorem ownedImpls_eq (snapshot : Snapshot) :
    ownedImpls snapshot = snapshot.units.flatMap fun unit =>
      unit.impls.filterMap (ownedImpl? (ofSnapshot snapshot) unit) := rfl

theorem ownedImpl?_canonical (unambiguous : ∀ unit ∈ resolver.units, unit.Unambiguous)
    (defined : ∀ name, resolver.canonical.definition? name = resolver.definition? name)
    (member : unit ∈ resolver.units) (impl : ImplBlock) :
    ownedImpl? resolver.canonical unit.canonical impl.canonical =
      (ownedImpl? resolver unit impl).map OwnedImpl.canonical := by
  have resolved := resolveType_canonical_of_unambiguous unambiguous member
  have target : impl.canonical.target = impl.target := rfl
  have traitName : impl.canonical.traitName = impl.traitName := rfl
  have owned : ∀ owner, ownImpl resolver.canonical unit.canonical impl.canonical owner =
      (ownImpl resolver unit impl owner).canonical := by
    intro owner
    simp only [ownImpl, OwnedImpl.canonical, resolved, traitName]
  simp only [ownedImpl?, target, resolved, defined, Option.map_map, Function.comp_def, ← owned]

theorem methodEntities_canonical (entry : OwnedImpl) :
    (methodEntities entry.canonical).Perm (methodEntities entry) := by
  refine ((Text.sortBy_perm Method.order _).map _).trans ?_
  rw [List.map_map]
  rfl

end Canonical

/-- Snapshots of the same types whose impl blocks and methods come in any order. -/
structure Reordered (left right : Snapshot) : Prop where
  registry : left.registry = right.registry
  definitions : ∀ name, (ofSnapshot left).definition? name = (ofSnapshot right).definition? name
  traits : ∀ owner, traitList (ownedImpls left) owner = traitList (ownedImpls right) owner
  methods : ((ownedImpls left).flatMap methodEntities).Perm
    ((ownedImpls right).flatMap methodEntities)

def DistinctKeys (snapshot : Snapshot) : Prop :=
  ∀ entry ∈ ownedImpls snapshot, (keys (methodPairs (ownedImpls snapshot) entry.owner)).Nodup

/-- Two types have methods of this identity, and their signatures differ. -/
def Contested (snapshot : Snapshot) (identity : String) : Prop :=
  ∃ entry ∈ ownedImpls snapshot, ∃ method ∈ entry.impl.methods,
    ∃ other ∈ ownedImpls snapshot, ∃ otherMethod ∈ other.impl.methods,
      entry.identityOf method = identity ∧ other.identityOf otherMethod = identity ∧
        entry.owner ≠ other.owner ∧ method.signature ≠ otherMethod.signature

section Reordered

variable {left right : Snapshot}

theorem Reordered.symm (reordered : Reordered left right) : Reordered right left where
  registry := reordered.registry.symm
  definitions name := (reordered.definitions name).symm
  traits owner := (reordered.traits owner).symm
  methods := reordered.methods.symm

theorem Reordered.trans {middle : Snapshot} (first : Reordered left middle)
    (second : Reordered middle right) : Reordered left right where
  registry := first.registry.trans second.registry
  definitions name := (first.definitions name).trans (second.definitions name)
  traits owner := (first.traits owner).trans (second.traits owner)
  methods := first.methods.trans second.methods

theorem mem_traitList {impls : List OwnedImpl} {owner trait : String} :
    trait ∈ traitList impls owner ↔
      ∃ entry ∈ impls, entry.owner = owner ∧ entry.traitPath = some trait := by
  simp only [traitList, Text.mem_sortTexts, mem_distinct, List.mem_filterMap, List.mem_filter,
    decide_eq_true_eq, and_assoc]

theorem ascending_traitList (impls : List OwnedImpl) (owner : String) :
    Text.Ascending (traitList impls owner) :=
  Text.ascending_sortTexts (nodup_distinct _)

theorem Reordered.of_ownedImpls (registry : left.registry = right.registry)
    (definitions : ∀ name,
      (ofSnapshot left).definition? name = (ofSnapshot right).definition? name)
    (impls : (ownedImpls right).Perm ((ownedImpls left).map OwnedImpl.canonical)) :
    Reordered left right where
  registry := registry
  definitions := definitions
  traits owner := by
    refine (ascending_traitList _ _).eq_of_mem_iff (ascending_traitList _ _) ?_
    intro trait
    rw [mem_traitList, mem_traitList]
    simp only [impls.mem_iff, List.mem_map, exists_exists_and_eq_and]
    rfl
  methods := by
    refine List.Perm.trans ?_ (impls.flatMap_right _).symm
    rw [List.flatMap_map]
    exact List.Perm.flatMap_left _ fun entry _ => (methodEntities_canonical entry).symm

theorem DistinctKeys.nodup (distinct : DistinctKeys left) (owner : String) :
    (keys (methodPairs (ownedImpls left) owner)).Nodup := by
  by_cases owns : ∃ entry ∈ ownedImpls left, entry.owner = owner
  · obtain ⟨entry, owned, rfl⟩ := owns
    exact distinct entry owned
  · have nothing : methodPairs (ownedImpls left) owner = [] := by
      rw [List.eq_nil_iff_forall_not_mem]
      rintro ⟨key, signature⟩ member
      obtain ⟨entry, owned, same, _⟩ := mem_methodPairs.mp member
      exact owns ⟨entry, owned, same⟩
    rw [nothing]
    exact List.nodup_nil

theorem Reordered.methodRecord_eq (reordered : Reordered left right)
    (distinct : DistinctKeys left) (owner : String) :
    methodRecord (ownedImpls left) owner = methodRecord (ownedImpls right) owner := by
  have pairs : (methodPairs (ownedImpls left) owner).Perm
      (methodPairs (ownedImpls right) owner) := by
    rw [methodPairs_eq_map, methodPairs_eq_map]
    exact (reordered.methods.filter _).map _
  refine eq_of_ascending_keys (ascending_keys_methodRecord _ _) (ascending_keys_methodRecord _ _) ?_
  intro key
  have leftDistinct : (keys ((methodPairs (ownedImpls left) owner).filter fun pair =>
      pair.1 ≠ Record.unassignable)).Nodup :=
    (List.filter_sublist.map Prod.fst).nodup (distinct.nodup owner)
  have kept := pairs.filter fun pair => pair.1 ≠ Record.unassignable
  rw [get?_methodRecord, get?_methodRecord, get?_reverse leftDistinct,
    get?_reverse ((kept.map Prod.fst).nodup leftDistinct)]
  exact get?_eq_of_perm kept leftDistinct key

theorem Reordered.types_eq (reordered : Reordered left right) (distinct : DistinctKeys left) :
    (collectEntities left).types = (collectEntities right).types := by
  have entity : ∀ definition owner, typeEntity (ownedImpls left) definition owner =
      typeEntity (ownedImpls right) definition owner := by
    intro definition owner
    simp only [typeEntity, reordered.traits, reordered.methodRecord_eq distinct]
  simp only [types_collectEntities, reordered.registry, reordered.definitions, entity]

theorem Reordered.mem_methodIdentities_iff (reordered : Reordered left right) (identity : String) :
    identity ∈ methodIdentities left ↔ identity ∈ methodIdentities right := by
  rw [methodIdentities, methodIdentities, methods_collectEntities, methods_collectEntities,
    mem_keys_fill, mem_keys_fill]
  exact (reordered.methods.map Prod.fst).mem_iff

theorem mem_entities_of_get? {snapshot : Snapshot} {identity : String} {entity : MethodEntity}
    (found : get? identity (collectEntities snapshot).methods = some entity) :
    (identity, entity) ∈ (ownedImpls snapshot).flatMap methodEntities := by
  rw [methods_collectEntities, get?_fill, get?_nil, Option.or_none] at found
  exact List.mem_reverse.mp (mem_of_get? found)

theorem mem_entities {snapshot : Snapshot} {identity : String} {entity : MethodEntity} :
    (identity, entity) ∈ (ownedImpls snapshot).flatMap methodEntities ↔
      ∃ entry ∈ ownedImpls snapshot, ∃ method ∈ entry.impl.methods,
        entry.identityOf method = identity ∧
          { identity := identity
            owner := entry.owner
            name := method.name
            traitName := entry.traitName
            signature := method.signature } = entity := by
  simp only [List.mem_flatMap, methodEntities, List.mem_map, Prod.mk.injEq]
  constructor
  · rintro ⟨entry, owned, method, member, rfl, rfl⟩
    exact ⟨entry, owned, method, member, rfl, rfl⟩
  · rintro ⟨entry, owned, method, member, rfl, rfl⟩
    exact ⟨entry, owned, method, member, rfl, rfl⟩

theorem Reordered.contested_of_ne (reordered : Reordered left right)
    (distinct : DistinctKeys left) {identity : String} {old new : MethodEntity}
    (oldFound : get? identity (collectEntities left).methods = some old)
    (newFound : get? identity (collectEntities right).methods = some new)
    (different : old.signature ≠ new.signature) : Contested left identity := by
  have newMember := reordered.methods.mem_iff.mpr (mem_entities_of_get? newFound)
  obtain ⟨entry, owned, method, member, named, rfl⟩ :=
    mem_entities.mp (mem_entities_of_get? oldFound)
  obtain ⟨other, otherOwned, otherMethod, otherMember, otherNamed, rfl⟩ :=
    mem_entities.mp newMember
  refine ⟨entry, owned, method, member, other, otherOwned, otherMethod, otherMember, named,
    otherNamed, ?_, different⟩
  intro sameOwner
  -- One owner and one identity leave one key, under which the owner has one method.
  have sameKey : methodKey otherMethod.name other.traitName =
      methodKey method.name entry.traitName := by
    have same := otherNamed.trans named.symm
    rwa [OwnedImpl.identityOf, OwnedImpl.identityOf, sameOwner, String.append_right_inj] at same
  have first := get?_of_mem (distinct.nodup entry.owner)
    (mem_methodPairs.mpr ⟨entry, owned, rfl, method, member, rfl, rfl⟩)
  have second := get?_of_mem (distinct.nodup entry.owner)
    (mem_methodPairs.mpr
      ⟨other, otherOwned, sameOwner.symm, otherMethod, otherMember, sameKey, rfl⟩)
  exact different (Option.some.inj (first.symm.trans second))

end Reordered

section Equal

variable {snapshot left right : Snapshot} {units : List SourceUnit}

theorem reordered_canonical (made : Snapshot.MadeOf snapshot units)
    (unambiguous : ∀ unit ∈ snapshot.units, unit.Unambiguous) :
    Reordered snapshot snapshot.canonical := by
  have resolver := made.resolver_canonical
  have definitions : ∀ name, (ofSnapshot snapshot).canonical.definition? name =
      (ofSnapshot snapshot).definition? name := by
    intro name
    rw [definition?, declaration?_canonical fun _ member _ => made.declaredOnce member,
      Option.map_map]
    rfl
  refine .of_ownedImpls (congrArg Resolver.registry resolver).symm ?_ ?_
  · intro name
    rw [resolver, definitions]
  · rw [ownedImpls_eq, ownedImpls_eq, resolver, made.units_canonical, List.flatMap_map,
      List.map_flatMap]
    -- The units keep their order, and each of them sorts its impl blocks.
    refine List.Perm.flatMap_left _ ?_
    intro unit member
    refine ((Text.sortBy_perm ImplBlock.order _).filterMap _).trans ?_
    rw [List.filterMap_map, List.map_filterMap]
    refine .of_eq (List.filterMap_congr ?_)
    intro impl _
    rw [Function.comp_apply]
    exact ownedImpl?_canonical unambiguous definitions member impl

theorem reordered_of_resolver_eq (same : ofSnapshot left = ofSnapshot right) :
    Reordered left right := by
  have impls : ownedImpls left = ownedImpls right := by
    rw [ownedImpls_eq, ownedImpls_eq, same]
    exact congrArg (List.flatMap _) (congrArg Resolver.units same)
  constructor
  · exact congrArg Resolver.registry same
  · intro name
    rw [same]
  · intro owner
    rw [impls]
  · rw [impls]

theorem silent_of_sameTypes {old new : List (String × TypeEntity)}
    (same : ∀ identity, Option.Rel SameType (get? identity old) (get? identity new)) :
    Silent compareTypes old new := by
  intro identity
  have found := same identity
  generalize get? identity old = first, get? identity new = second at found ⊢
  cases found with
  | none => exact .none
  | some same => exact .some (compareTypes_of_sameType same)

theorem silent_types (types : List (String × TypeEntity)) : Silent compareTypes types types := by
  refine silent_of_sameTypes ?_
  intro identity
  cases get? identity types with
  | none => exact .none
  | some entity => exact .some ⟨rfl, rfl, fun _ => .rfl, fun _ => rfl, fun _ => rfl⟩

theorem Reordered.verdict_of_mem (reordered : Reordered left right)
    (distinct : DistinctKeys left) {identity : String} {verdict : Verdict}
    (member : (identity, verdict) ∈ verdicts Entity.method compareMethods
      (collectEntities left).methods (collectEntities right).methods) :
    verdict = .unchanged ∨ verdict.bucket = .modified ∧ Contested left identity := by
  have judged := get?_of_mem (nodup_keys_verdicts _ _ _ _) member
  have sides := reordered.mem_methodIdentities_iff identity
  rw [methodIdentities, methodIdentities, mem_keys_iff_isSome, mem_keys_iff_isSome] at sides
  rw [get?_verdicts] at judged
  cases oldFound : get? identity (collectEntities left).methods with
  | none =>
      have missing := sides.not.mp (by simp [oldFound])
      rw [Option.not_isSome_iff_eq_none] at missing
      simp [oldFound, missing, judge] at judged
  | some old =>
      obtain ⟨new, newFound⟩ := Option.isSome_iff_exists.mp (sides.mp (by simp [oldFound]))
      rw [oldFound, newFound] at judged
      by_cases same : old.signature = new.signature
      · simp only [judge, compareMethods, valueChange?, same, if_true, Option.map_none,
          Option.some.injEq] at judged
        exact .inl judged.symm
      · simp only [judge, compareMethods, valueChange?, same, if_false, Option.map_some,
          Option.some.injEq] at judged
        subst judged
        exact .inr ⟨rfl, reordered.contested_of_ne distinct oldFound newFound same⟩

theorem Reordered.settled (reordered : Reordered left right) (distinct : DistinctKeys left)
    (granularity : Granularity) {identity : String} {verdict : Verdict}
    (member : (identity, verdict) ∈
      allVerdicts granularity (collectEntities left) (collectEntities right)) :
    verdict = .unchanged ∨
      granularity = .method ∧ verdict.bucket = .modified ∧ Contested left identity := by
  cases granularity with
  | type =>
      rw [allVerdicts, reordered.types_eq distinct] at member
      exact .inl ((silent_types _).unchanged member)
  | method =>
      rw [allVerdicts, reordered.types_eq distinct, List.mem_append] at member
      rcases member with type | method
      · exact .inl ((silent_types _).unchanged type)
      · exact (reordered.verdict_of_mem distinct method).imp_right fun changed => ⟨rfl, changed⟩

theorem Reordered.added_eq_nil (reordered : Reordered left right) (distinct : DistinctKeys left)
    (granularity : Granularity) : (compare left right granularity).added = [] := by
  refine gather_eq_nil ?_
  intro identity verdict member
  rcases reordered.settled distinct granularity member with rfl | ⟨_, modified, _⟩
  · rfl
  · cases verdict <;> simp [Verdict.bucket, addedEntity?] at modified ⊢

theorem Reordered.removed_eq_nil (reordered : Reordered left right) (distinct : DistinctKeys left)
    (granularity : Granularity) : (compare left right granularity).removed = [] := by
  refine gather_eq_nil ?_
  intro identity verdict member
  rcases reordered.settled distinct granularity member with rfl | ⟨_, modified, _⟩
  · rfl
  · cases verdict <;> simp [Verdict.bucket, removedEntity?] at modified ⊢

theorem Reordered.types_unmodified (reordered : Reordered left right)
    (distinct : DistinctKeys left) : (compare left right .type).modified = [] := by
  refine gather_eq_nil ?_
  intro identity verdict member
  rcases reordered.settled distinct .type member with rfl | ⟨method, _⟩
  · rfl
  · cases method

theorem Reordered.contested_of_modified (reordered : Reordered left right)
    (distinct : DistinctKeys left) {identity : String}
    (modified : identity ∈ (compare left right .method).listed .modified) :
    Contested left identity := by
  obtain ⟨verdict, stored, picked⟩ := picked_of_mem_gather modified
  rcases reordered.settled distinct .method stored with rfl | ⟨_, _, contested⟩
  · simp [modification?] at picked
  · exact contested

/-- Snapshots that are equal up to canonical order are compared alike, type by type; of their
methods only those may count as modified whose identity two types contest. -/
theorem compare_of_equal {units others : List SourceUnit}
    (distinct : (units.map SourceUnit.filePath).Nodup)
    (othersDistinct : (others.map SourceUnit.filePath).Nodup) (root other : String) :
    let before := Snapshot.create root units
    let after := Snapshot.create other others
    (∀ unit ∈ units, unit.Unambiguous) → (∀ unit ∈ others, unit.Unambiguous) →
      DistinctKeys before → before.equal after →
        (∀ granularity, (compare before after granularity).added = [] ∧
          (compare before after granularity).removed = []) ∧
        (compare before after .type).modified = [] ∧
        ∀ identity ∈ (compare before after .method).listed .modified,
          Contested before identity := by
  intro before after unambiguous othersUnambiguous distinctKeys equal
  have made := Snapshot.madeOf_create root distinct
  have othersMade := Snapshot.madeOf_create other othersDistinct
  have beforeCanonical : Reordered before before.canonical := reordered_canonical made
    fun unit member => unambiguous unit ((Snapshot.mem_units_create root distinct).mp member)
  have afterCanonical : Reordered after after.canonical := reordered_canonical othersMade
    fun unit member =>
      othersUnambiguous unit ((Snapshot.mem_units_create other othersDistinct).mp member)
  have one : Reordered before.canonical after.canonical :=
    reordered_of_resolver_eq (made.resolver_eq_of_equal othersMade equal)
  have reordered : Reordered before after :=
    (beforeCanonical.trans one).trans afterCanonical.symm
  refine ⟨fun granularity => ⟨reordered.added_eq_nil distinctKeys granularity,
    reordered.removed_eq_nil distinctKeys granularity⟩, reordered.types_unmodified distinctKeys, ?_⟩
  exact fun identity modified => reordered.contested_of_modified distinctKeys modified

end Equal

section Samples

theorem unambiguous_iff {unit : SourceUnit} :
    unit.Unambiguous ↔ (unit.types.map TypeDefinition.name).Nodup ∧
      ((unit.imports.filter fun entry => !entry.isGlob).map Import.visibleName).Nodup ∧
      (unit.imports.filter Import.isGlob).length ≤ 1 :=
  ⟨fun unambiguous => ⟨unambiguous.types, unambiguous.imports, unambiguous.globs⟩,
    fun ⟨types, imports, globs⟩ => ⟨types, imports, globs⟩⟩

instance (unit : SourceUnit) : Decidable unit.Unambiguous :=
  decidable_of_iff' _ unambiguous_iff

instance (snapshot : Snapshot) : Decidable (DistinctKeys snapshot) :=
  inferInstanceAs (Decidable (∀ entry ∈ ownedImpls snapshot, _))

def lineOne : Location := { filePath := "src/lib.rs", startLine := 1, endLine := 1 }

def plainType (name qualifiedName : String) : TypeDefinition :=
  { name := name
    qualifiedName := qualifiedName
    kind := .struct
    visibility := .hidden
    fields := []
    location := lineOne }

def plainMethod (name signature : String) : Method :=
  { name := name
    signature := signature
    returnType := none
    visibility := .hidden
    calls := []
    location := lineOne }

def implOf (target : String) (traitName : Option String) (methods : List Method) : ImplBlock :=
  { target := target, traitName := traitName, methods := methods, location := lineOne }

def rootUnit (types : List TypeDefinition) (impls : List ImplBlock) (imports : List String) :
    SourceUnit :=
  { filePath := "src/lib.rs"
    modulePath := "crate"
    types := types
    impls := impls
    imports := imports.map fun path => { path := path, localName := none } }

def cartUnit : SourceUnit :=
  rootUnit [plainType "Cart" "crate::Cart", plainType "Shelf" "crate::store::Shelf"]
    [implOf "store::Shelf" none [plainMethod "fill" "fn fill()", plainMethod "clear" "fn clear()"],
      implOf "Cart" (some "fmt::Debug") [plainMethod "fmt" "fn fmt(&self)"]]
    ["store::*", "std::fmt"]

def rearrangedCartUnit : SourceUnit :=
  rootUnit [plainType "Shelf" "crate::store::Shelf", plainType "Cart" "crate::Cart"]
    [implOf "Cart" (some "fmt::Debug") [plainMethod "fmt" "fn fmt(&self)"],
      implOf "store::Shelf" none [plainMethod "clear" "fn clear()", plainMethod "fill" "fn fill()"]]
    ["std::fmt", "store::*"]

theorem compare_of_equal_carts :
    let before := Snapshot.create "before" [cartUnit]
    let after := Snapshot.create "after" [rearrangedCartUnit]
    (cartUnit.Unambiguous ∧ rearrangedCartUnit.Unambiguous) ∧ DistinctKeys before ∧
      before.equal after ∧ before.units ≠ after.units ∧
      (∀ granularity, (compare before after granularity).added = [] ∧
        (compare before after granularity).removed = []) ∧
      (compare before after .type).modified = [] ∧
      (∀ identity ∈ (compare before after .method).listed .modified, Contested before identity) ∧
      (compare before after .method).unchanged =
        ["crate::Cart", "crate::Cart::Debug::fmt", "crate::store::Shelf",
          "crate::store::Shelf::clear", "crate::store::Shelf::fill"] := by
  intro before after
  have facts :
      (cartUnit.Unambiguous ∧ rearrangedCartUnit.Unambiguous) ∧ DistinctKeys before ∧
      before.equal after ∧ before.units ≠ after.units ∧
      (compare before after .method).unchanged =
        ["crate::Cart", "crate::Cart::Debug::fmt", "crate::store::Shelf",
          "crate::store::Shelf::clear", "crate::store::Shelf::fill"] := by
    decide +kernel
  obtain ⟨unambiguous, keys, equal, rearranged, unchanged⟩ := facts
  have distinct : ([cartUnit].map SourceUnit.filePath).Nodup := List.nodup_singleton _
  have rearrangedDistinct : ([rearrangedCartUnit].map SourceUnit.filePath).Nodup :=
    List.nodup_singleton _
  obtain ⟨kept, types, methods⟩ := compare_of_equal distinct rearrangedDistinct "before" "after"
    (by simpa using unambiguous.1) (by simpa using unambiguous.2) keys equal
  exact ⟨unambiguous, keys, equal, rearranged, kept, types, methods, unchanged⟩

def engineUnit (impls : List ImplBlock) : SourceUnit :=
  rootUnit [plainType "Draw" "crate::Engine::Draw", plainType "Engine" "crate::Engine"] impls []

def drawImpl : ImplBlock :=
  implOf "Engine::Draw" none [plainMethod "start" "fn start()"]

def engineImpl : ImplBlock :=
  implOf "Engine" (some "ext::Draw") [plainMethod "start" "fn start(&self)"]

/-- The method of a trait and the method of a type have one identity, and of the two the later
one counts: a snapshot differs from an equal one. -/
theorem compare_of_equal_engines_reports_change :
    let unit := engineUnit [drawImpl, engineImpl]
    let rearranged := engineUnit [engineImpl, drawImpl]
    let before := Snapshot.create "" [unit]
    let after := Snapshot.create "" [rearranged]
    unit.Unambiguous ∧ rearranged.Unambiguous ∧ DistinctKeys before ∧ DistinctKeys after ∧
      before.equal after ∧
      (compare before after .method).listed .modified = ["crate::Engine::Draw::start"] := by
  decide +kernel

end Samples

end Diff

end CrateAtlas
