import CrateAtlas.Proofs.Diff.Entities
import CrateAtlas.Proofs.Extracted

/-!
Which methods of a snapshot a comparison gets to see. Methods are kept by type and key, and of
several methods with one key the last one counts. Main statement: every method is seen if and
only if every type that has methods is defined, no key is unassignable, and methods of one
identity have one owner and one signature.
-/

namespace CrateAtlas.Diff

open OrderedMap

def keyTrait (impl : ImplBlock) : Option String :=
  (Resolver.named impl.traitName).map fun name =>
    ModulePath.lastSegment (TypeText.typePathOf name) ++ TypeText.genericArgsOf name

/-- An impl block whose target is a registered type has a method of this key and signature. -/
def HasMethod (snapshot : Snapshot) (owner key signature : String) : Prop :=
  ∃ unit ∈ snapshot.units, ∃ impl ∈ unit.impls,
    (Resolver.named ((Resolver.ofSnapshot snapshot).resolveType impl.target unit none) =
        some owner ∧
      (Resolver.ofSnapshot snapshot).isRegistered owner) ∧
      ∃ method ∈ impl.methods,
        methodKey method.name (keyTrait impl) = key ∧ method.signature = signature

/-- The type lists the signature under the key, and an entity of its own carries it too. -/
structure ShowsMethod (snapshot : Snapshot) (owner key signature : String) : Prop where
  listed : ∃ entity, get? owner (collectEntities snapshot).types = some entity ∧
    get? key entity.methods = some signature
  entity : ∃ entity, get? (owner ++ "::" ++ key) (collectEntities snapshot).methods = some entity ∧
    entity.owner = owner ∧ entity.signature = signature

section Owned

variable {snapshot : Snapshot}

theorem mem_ownedImpls {entry : OwnedImpl} :
    entry ∈ ownedImpls snapshot ↔
      ∃ unit ∈ snapshot.units, ∃ impl ∈ unit.impls, ∃ owner,
        (Resolver.named ((Resolver.ofSnapshot snapshot).resolveType impl.target unit none) =
            some owner ∧
          ((Resolver.ofSnapshot snapshot).definition? owner).isSome) ∧
          ownImpl (Resolver.ofSnapshot snapshot) unit impl owner = entry := by
  simp only [ownedImpls, List.mem_flatMap, List.mem_filterMap, Option.map_eq_some_iff,
    Option.filter_eq_some_iff]

theorem hasMethod_of_owned {entry : OwnedImpl} {method : Method}
    (owned : entry ∈ ownedImpls snapshot) (member : method ∈ entry.impl.methods) :
    HasMethod snapshot entry.owner (methodKey method.name entry.traitName) method.signature := by
  obtain ⟨unit, unitMember, impl, implMember, owner, ⟨target, defined⟩, rfl⟩ :=
    mem_ownedImpls.mp owned
  have registered : (Resolver.ofSnapshot snapshot).isRegistered owner := by
    rw [Resolver.isRegistered, has, ← mem_keys_iff_isSome]
    exact Resolver.registered_of_definition? defined
  exact ⟨unit, unitMember, impl, implMember, ⟨target, registered⟩, method, member, rfl, rfl⟩

theorem owned_of_hasMethod {owner key signature : String}
    (has : HasMethod snapshot owner key signature)
    (defined : ((Resolver.ofSnapshot snapshot).definition? owner).isSome) :
    ∃ entry ∈ ownedImpls snapshot, entry.owner = owner ∧ ∃ method ∈ entry.impl.methods,
      methodKey method.name entry.traitName = key ∧ method.signature = signature := by
  obtain ⟨unit, unitMember, impl, implMember, ⟨target, _⟩, method, member, named, signed⟩ := has
  refine ⟨_, mem_ownedImpls.mpr ⟨unit, unitMember, impl, implMember, owner, ⟨target, defined⟩, rfl⟩,
    rfl, method, member, named, signed⟩

def methodPairs (impls : List OwnedImpl) (owner : String) : List (String × String) :=
  (impls.filter fun entry => entry.owner = owner).flatMap fun entry =>
    entry.impl.methods.map fun method =>
      (methodKey method.name entry.traitName, method.signature)

theorem mem_methodPairs {impls : List OwnedImpl} {owner key signature : String} :
    (key, signature) ∈ methodPairs impls owner ↔
      ∃ entry ∈ impls, entry.owner = owner ∧ ∃ method ∈ entry.impl.methods,
        methodKey method.name entry.traitName = key ∧ method.signature = signature := by
  simp only [methodPairs, List.mem_flatMap, List.mem_filter, decide_eq_true_eq, List.mem_map,
    Prod.mk.injEq, and_assoc]

theorem mem_keys_methodPairs {impls : List OwnedImpl} {owner key : String} :
    key ∈ keys (methodPairs impls owner) ↔
      ∃ entry ∈ impls, entry.owner = owner ∧ ∃ method ∈ entry.impl.methods,
        methodKey method.name entry.traitName = key := by
  simp only [keys, List.mem_map, Prod.exists, mem_methodPairs]
  constructor
  · rintro ⟨_, _, ⟨entry, owned, owns, method, member, keyed, _⟩, rfl⟩
    exact ⟨entry, owned, owns, method, member, keyed⟩
  · rintro ⟨entry, owned, owns, method, member, keyed⟩
    exact ⟨key, method.signature, ⟨entry, owned, owns, method, member, keyed, rfl⟩, rfl⟩

theorem methodPairs_eq_map (impls : List OwnedImpl) (owner : String) :
    methodPairs impls owner =
      ((impls.flatMap methodEntities).filter fun entry => entry.2.owner = owner).map fun entry =>
        (methodKey entry.2.name entry.2.traitName, entry.2.signature) := by
  induction impls with
  | nil => rfl
  | cons first rest ih =>
      have owned : (methodEntities first).filter (fun entry => entry.2.owner = owner) =
          if first.owner = owner then methodEntities first else [] := by
        split
        · rename_i owns
          simp [methodEntities, owns]
        · rename_i other
          simp [methodEntities, other]
      have step : methodPairs (first :: rest) owner =
          (if first.owner = owner then first.impl.methods.map fun method =>
            (methodKey method.name first.traitName, method.signature) else []) ++
            methodPairs rest owner := by
        by_cases owns : first.owner = owner <;> simp [methodPairs, owns]
      rw [step, ih, List.flatMap_cons, List.filter_append, owned, List.map_append]
      congr 1
      split
      · simp [methodEntities]
      · rfl

theorem methodRecord_eq_sorted (impls : List OwnedImpl) (owner : String) :
    methodRecord impls owner = Record.sorted (fill ((methodPairs impls owner).filter
      fun pair => pair.1 ≠ Record.unassignable) []) := by
  rw [← Record.foldl_assign_eq_fill]
  rfl

theorem ascending_keys_methodRecord (impls : List OwnedImpl) (owner : String) :
    Text.Ascending (keys (methodRecord impls owner)) := by
  rw [methodRecord_eq_sorted]
  exact Record.ascending_keys_sorted (nodup_keys_filled _)

theorem get?_methodRecord (impls : List OwnedImpl) (owner key : String) :
    get? key (methodRecord impls owner) =
      get? key ((methodPairs impls owner).filter fun pair =>
        pair.1 ≠ Record.unassignable).reverse := by
  rw [methodRecord_eq_sorted, Record.get?_sorted (nodup_keys_filled _), get?_fill, get?_nil,
    Option.or_none]

theorem mem_keys_methodRecord {impls : List OwnedImpl} {owner key : String} :
    key ∈ keys (methodRecord impls owner) ↔
      key ∈ keys (methodPairs impls owner) ∧ key ≠ Record.unassignable := by
  rw [mem_keys_iff_isSome, get?_methodRecord, ← mem_keys_iff_isSome]
  simp [keys, and_comm]

/-- No method of a type has a key that every record answers to. -/
def PlainKeys (snapshot : Snapshot) : Prop :=
  ∀ entry ∈ ownedImpls snapshot, ∀ method ∈ entry.impl.methods,
    methodKey method.name entry.traitName ∉ Record.inheritedNames

theorem PlainKeys.methodRecord (plain : PlainKeys snapshot)
    (owner : String) : Record.Uninherited (methodRecord (ownedImpls snapshot) owner) := by
  intro key stored
  obtain ⟨entry, owned, _, method, member, rfl⟩ :=
    mem_keys_methodPairs.mp (mem_keys_methodRecord.mp stored).1
  exact plain entry owned method member

end Owned

section Shown

variable {snapshot : Snapshot} {owner key signature : String}

/-- No two methods of one identity differ in their owner or their signature. -/
def NoClash (snapshot : Snapshot) : Prop :=
  ∀ owner key signature other otherKey otherSignature,
    HasMethod snapshot owner key signature → HasMethod snapshot other otherKey otherSignature →
      owner ++ "::" ++ key = other ++ "::" ++ otherKey →
        owner = other ∧ signature = otherSignature

/-- A method can be kept: its type has a definition, and its key takes a value. -/
def Keepable (snapshot : Snapshot) : Prop :=
  ∀ owner key signature, HasMethod snapshot owner key signature →
    ((Resolver.ofSnapshot snapshot).definition? owner).isSome ∧ key ≠ Record.unassignable

theorem get?_listed_of_noClash (noClash : NoClash snapshot)
    (has : HasMethod snapshot owner key signature)
    (defined : ((Resolver.ofSnapshot snapshot).definition? owner).isSome)
    (assignable : key ≠ Record.unassignable) :
    get? key (methodRecord (ownedImpls snapshot) owner) = some signature := by
  rw [get?_methodRecord]
  apply get?_of_unique
  · obtain ⟨entry, owned, rfl, method, member, named, signed⟩ := owned_of_hasMethod has defined
    simp only [List.mem_reverse, List.mem_filter, decide_eq_true_eq]
    exact ⟨mem_methodPairs.mpr ⟨entry, owned, rfl, method, member, named, signed⟩, assignable⟩
  · intro other member
    simp only [List.mem_reverse, List.mem_filter] at member
    obtain ⟨entry, owned, rfl, method, methodMember, rfl, rfl⟩ := mem_methodPairs.mp member.1
    exact (noClash _ _ _ _ _ _ (hasMethod_of_owned owned methodMember) has rfl).2

theorem owned_of_entity {identity : String} {entity : MethodEntity}
    (found : get? identity (collectEntities snapshot).methods = some entity) :
    ∃ entry ∈ ownedImpls snapshot, ∃ method ∈ entry.impl.methods,
      entry.identityOf method = identity ∧ entity.owner = entry.owner ∧
        entity.signature = method.signature := by
  rw [methods_collectEntities, get?_fill, get?_nil, Option.or_none] at found
  have member := mem_of_get? found
  simp only [List.mem_reverse, List.mem_flatMap, methodEntities, List.mem_map,
    Prod.mk.injEq] at member
  obtain ⟨entry, owned, method, methodMember, rfl, rfl⟩ := member
  exact ⟨entry, owned, method, methodMember, rfl, rfl, rfl⟩

theorem hasMethod_of_entity {identity : String} {entity : MethodEntity}
    (found : get? identity (collectEntities snapshot).methods = some entity) :
    ∃ key, HasMethod snapshot entity.owner key entity.signature ∧
      entity.owner ++ "::" ++ key = identity := by
  obtain ⟨entry, owned, method, member, named, owns, signed⟩ := owned_of_entity found
  rw [owns, signed]
  exact ⟨_, hasMethod_of_owned owned member, named⟩

theorem identity_mem_of_hasMethod (has : HasMethod snapshot owner key signature)
    (defined : ((Resolver.ofSnapshot snapshot).definition? owner).isSome) :
    owner ++ "::" ++ key ∈ methodIdentities snapshot := by
  obtain ⟨entry, owned, rfl, method, member, rfl, _⟩ := owned_of_hasMethod has defined
  exact mem_methodIdentities.mpr ⟨entry, owned, method, member, rfl⟩

theorem showsMethod_of_noClash (noClash : NoClash snapshot)
    (has : HasMethod snapshot owner key signature)
    (defined : ((Resolver.ofSnapshot snapshot).definition? owner).isSome)
    (assignable : key ≠ Record.unassignable) : ShowsMethod snapshot owner key signature where
  listed := by
    obtain ⟨definition, found⟩ := Option.isSome_iff_exists.mp defined
    refine ⟨_, by rw [get?_types, found]; rfl, ?_⟩
    exact get?_listed_of_noClash noClash has defined assignable
  entity := by
    obtain ⟨entity, found⟩ := mem_keys_iff.mp (identity_mem_of_hasMethod has defined)
    obtain ⟨other, otherHas, same⟩ := hasMethod_of_entity found
    exact ⟨entity, found, noClash _ _ _ _ _ _ otherHas has same⟩

theorem keepable_of_shows (shows : ShowsMethod snapshot owner key signature) :
    ((Resolver.ofSnapshot snapshot).definition? owner).isSome ∧ key ≠ Record.unassignable := by
  obtain ⟨entity, found, listed⟩ := shows.listed
  rw [get?_types] at found
  obtain ⟨definition, defined, rfl⟩ := Option.map_eq_some_iff.mp found
  refine ⟨by simp [defined], ?_⟩
  rintro rfl
  have refused : get? Record.unassignable (methodRecord (ownedImpls snapshot) owner) = none := by
    rw [get?_methodRecord, get?_eq_none_iff]
    simp [keys]
  have stored : get? Record.unassignable (methodRecord (ownedImpls snapshot) owner) =
      some signature := listed
  simp [refused] at stored

/-- Every method of a snapshot is shown with its signature if and only if every method can be
kept and no two methods of one identity differ. -/
theorem every_method_shown_iff (snapshot : Snapshot) :
    (∀ owner key signature, HasMethod snapshot owner key signature →
      ShowsMethod snapshot owner key signature) ↔ Keepable snapshot ∧ NoClash snapshot := by
  constructor
  · intro shown
    refine ⟨fun owner key signature has => keepable_of_shows (shown _ _ _ has), ?_⟩
    intro owner key signature other otherKey otherSignature has otherHas same
    obtain ⟨entity, found, rfl, rfl⟩ := (shown _ _ _ has).entity
    obtain ⟨otherEntity, otherFound, rfl, rfl⟩ := (shown _ _ _ otherHas).entity
    rw [← same, found] at otherFound
    rw [Option.some.inj otherFound]
    exact ⟨rfl, rfl⟩
  · rintro ⟨keepable, noClash⟩ owner key signature has
    obtain ⟨defined, assignable⟩ := keepable owner key signature has
    exact showsMethod_of_noClash noClash has defined assignable

end Shown

def twoShapes : Snapshot :=
  Snapshot.create "" (Extraction.unitsOf 0
    [("src/a.rs", "pub trait Shape \x7b fn area(&self, scale: u32); \x7d"),
      ("src/b.rs", "pub trait Shape \x7b fn area(&self, unit: f64); \x7d"),
      ("src/lib.rs", "mod a; mod b; struct Square;\n" ++
        "impl a::Shape for Square \x7b fn area(&self, scale: u32) \x7b\x7d \x7d\n" ++
        "impl b::Shape for Square \x7b fn area(&self, unit: f64) \x7b\x7d \x7d")])

/-- The type lists both traits, and the method of one of them in place of both. -/
theorem traits_of_one_name_hide_a_method :
    HasMethod twoShapes "crate::Square" "Shape::area" "fn area(&self, scale: u32)" ∧
      ¬ShowsMethod twoShapes "crate::Square" "Shape::area" "fn area(&self, scale: u32)" ∧
      (get? "crate::Square" (collectEntities twoShapes).types).map TypeEntity.traits =
        some ["crate::a::Shape", "crate::b::Shape"] := by
  have facts : HasMethod twoShapes "crate::Square" "Shape::area" "fn area(&self, scale: u32)" ∧
      (get? "crate::Square" (collectEntities twoShapes).types).map TypeEntity.traits =
        some ["crate::a::Shape", "crate::b::Shape"] ∧
      get? "crate::Square::Shape::area" (collectEntities twoShapes).methods =
        some { identity := "crate::Square::Shape::area", owner := "crate::Square", name := "area",
               traitName := some "Shape", signature := "fn area(&self, unit: f64)" } := by
    unfold HasMethod
    decide +kernel
  obtain ⟨has, traits, shown⟩ := facts
  refine ⟨has, ?_, traits⟩
  intro shows
  obtain ⟨entity, found, _, signed⟩ := shows.entity
  have identity : "crate::Square" ++ "::" ++ "Shape::area" = "crate::Square::Shape::area" := by
    decide
  rw [identity, shown] at found
  obtain rfl := Option.some.inj found
  exact absurd signed (by decide)

end CrateAtlas.Diff
