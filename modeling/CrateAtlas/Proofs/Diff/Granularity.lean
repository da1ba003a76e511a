import CrateAtlas.Proofs.Diff.Changes
import CrateAtlas.Proofs.Diff.MethodKeys
import CrateAtlas.Proofs.Diff.Partition

/-!
The two granularities of a comparison. Methods are compared with their type, in a record of the
type, or on their own, among all methods of a snapshot. Main statement: for a type that both
snapshots register, both ways report the same changes.
-/

namespace CrateAtlas.Diff

open OrderedMap

def SetChange.map (change : SetChange) (rename : String → String) : SetChange :=
  { added := change.added.map rename
    removed := change.removed.map rename
    changed := change.changed.map rename }

def Entity.isMethodOf (owner : String) : Entity → Bool
  | .type _ => false
  | .method entity => entity.owner = owner

/-- The methods of a type that a result lists on their own, by their identities. -/
def Result.methodsOf (result : Result) (owner : String) : SetChange :=
  { added := keys (result.added.filter fun entry => entry.2.any (Entity.isMethodOf owner))
    removed := keys (result.removed.filter fun entry => entry.2.any (Entity.isMethodOf owner))
    changed := keys (result.modified.filter fun entry =>
      entry.2.before.any (Entity.isMethodOf owner)) }

/-- The methods that a result lists with their type, by their keys. -/
def Result.methodChange (result : Result) (owner : String) : SetChange :=
  ((get? owner result.modified).map fun change => change.changes.methods).getD SetChange.empty

def SetChange.listed (change : SetChange) : Bucket → List String
  | .added => change.added
  | .removed => change.removed
  | .modified => change.changed
  | .unchanged => []

/-- How the values of a name differ, by the bucket that such a difference belongs to. -/
def Differ (old new : Option String) : Bucket → Prop
  | .added => old = none ∧ new.isSome
  | .removed => old.isSome ∧ new = none
  | .modified => old.isSome ∧ new.isSome ∧ old ≠ new
  | .unchanged => False

theorem SetChange.mem_listed_map {change : SetChange} {rename : String → String} {name : String}
    {bucket : Bucket} :
    name ∈ (change.map rename).listed bucket ↔
      ∃ original ∈ change.listed bucket, rename original = name := by
  cases bucket <;> simp [SetChange.map, SetChange.listed]

theorem SetChange.Ascending.eq_of_mem_listed {left right : SetChange}
    (leftAscending : left.Ascending) (rightAscending : right.Ascending)
    (same : ∀ bucket name, name ∈ left.listed bucket ↔ name ∈ right.listed bucket) :
    left = right :=
  leftAscending.eq_of_mem_iff rightAscending (same .added) (same .removed) (same .modified)

theorem mem_listed_compareRecords {before after : List (String × String)}
    (beforeOwn : Record.Uninherited before) (afterOwn : Record.Uninherited after)
    (bucket : Bucket) (name : String) :
    name ∈ (compareRecords before after).listed bucket ↔
      Differ (get? name before) (get? name after) bucket := by
  have same : SameInherited before after := fun name inherited =>
    iff_of_false (fun stored => beforeOwn name stored inherited)
      fun stored => afterOwn name stored inherited
  have exact := exact_of_sameInherited same
  cases bucket with
  | added =>
      rw [SetChange.listed, exact.added_iff, mem_keys_iff_isSome, ← get?_eq_none_iff, and_comm]
      rfl
  | removed =>
      rw [SetChange.listed, exact.removed_iff, mem_keys_iff_isSome, ← get?_eq_none_iff]
      rfl
  | modified =>
      rw [SetChange.listed, exact.changed_iff, mem_keys_iff_isSome, mem_keys_iff_isSome]
      rfl
  | unchanged => exact iff_of_false List.not_mem_nil id

theorem SetChange.Ascending.map_append {change : SetChange} (ascending : change.Ascending)
    (lead : String) : (change.map (lead ++ ·)).Ascending where
  added := ascending.added.map_append lead
  removed := ascending.removed.map_append lead
  changed := ascending.changed.map_append lead

theorem SetChange.eq_empty_iff {change : SetChange} :
    change = SetChange.empty ↔ change.isEmpty := by
  cases change
  simp [SetChange.empty, SetChange.isEmpty, and_assoc]

theorem SetChange.map_eq_empty_iff {change : SetChange} {rename : String → String} :
    change.map rename = SetChange.empty ↔ change = SetChange.empty := by
  cases change
  simp [SetChange.map, SetChange.empty]

section Lookups

def Identified (list : List (String × MethodEntity)) : Prop :=
  ∀ entry ∈ list, entry.1 = entry.2.owner ++ "::" ++ methodKey entry.2.name entry.2.traitName

theorem identified_methodEntities (impls : List OwnedImpl) :
    Identified (impls.flatMap methodEntities) := by
  intro entry member
  simp only [List.mem_flatMap, methodEntities, List.mem_map] at member
  obtain ⟨own, _, method, _, rfl⟩ := member
  rfl

theorem get?_of_owner {list : List (String × MethodEntity)} (identified : Identified list)
    {owner key : String}
    (apart : ∀ entry ∈ list, entry.1 = owner ++ "::" ++ key → entry.2.owner = owner) :
    get? key ((list.filter fun entry => entry.2.owner = owner).map fun entry =>
        (methodKey entry.2.name entry.2.traitName, entry.2.signature)) =
      (get? (owner ++ "::" ++ key) list).map MethodEntity.signature := by
  induction list with
  | nil => rfl
  | cons first rest ih =>
      -- Both sides try the first method or neither does: `apart` rules out the rest.
      have tail := ih (fun entry member => identified entry (by simp [member]))
        fun entry member => apart entry (by simp [member])
      have named := identified first (by simp)
      rw [get?_cons]
      by_cases owns : first.2.owner = owner
      · rw [List.filter_cons_of_pos (by simpa using owns), List.map_cons, get?_cons, tail, named,
          owns]
        simp only [String.append_right_inj]
        split <;> rfl
      · have other : first.1 ≠ owner ++ "::" ++ key := fun same => owns (apart first (by simp) same)
        rw [List.filter_cons_of_neg (by simpa using owns), tail, if_neg other]

theorem get?_methodRecord_eq {snapshot : Snapshot} {owner key : String}
    (assignable : key ≠ Record.unassignable)
    (apart : ∀ entry ∈ ownedImpls snapshot, ∀ method ∈ entry.impl.methods,
      entry.identityOf method = owner ++ "::" ++ key → entry.owner = owner) :
    get? key (methodRecord (ownedImpls snapshot) owner) =
      (get? (owner ++ "::" ++ key) (collectEntities snapshot).methods).map
        MethodEntity.signature := by
  have identified := identified_methodEntities (ownedImpls snapshot)
  rw [get?_methodRecord, ← List.filter_reverse, get?_without, if_neg assignable.symm,
    methodPairs_eq_map, ← List.map_reverse, ← List.filter_reverse, methods_collectEntities,
    get?_fill, get?_nil, Option.or_none]
  apply get?_of_owner
  · exact fun entry member => identified entry (List.mem_reverse.mp member)
  · intro entry member same
    simp only [List.mem_reverse, List.mem_flatMap, methodEntities, List.mem_map] at member
    obtain ⟨own, owned, method, methodMember, rfl⟩ := member
    exact apart own owned method methodMember same

end Lookups

/-- Methods of one identity belong to one type, in each snapshot and across both of them. -/
def SeparateOwners (before after : Snapshot) : Prop :=
  ∀ entry ∈ ownedImpls before ++ ownedImpls after, ∀ method ∈ entry.impl.methods,
    ∀ other ∈ ownedImpls before ++ ownedImpls after, ∀ otherMethod ∈ other.impl.methods,
      entry.identityOf method = other.identityOf otherMethod → entry.owner = other.owner

/-- No method of either snapshot has the identity of a type of either. -/
def ApartFromTypes (before after : Snapshot) : Prop :=
  ∀ name, name ∈ methodIdentities before ∨ name ∈ methodIdentities after →
    name ∉ typeIdentities before ∧ name ∉ typeIdentities after

def Assignable (before after : Snapshot) : Prop :=
  ∀ name, name ∈ typeIdentities before ∨ name ∈ typeIdentities after → name ≠ Record.unassignable

section Verdicts

def Verdict.concerns (owner : String) : Verdict → Bool
  | .added entity => entity.isMethodOf owner
  | .removed entity => entity.isMethodOf owner
  | .modified change => change.before.any (Entity.isMethodOf owner)
  | .unchanged => false

variable {owner : String} {verdict : Verdict}

theorem concerns_judge_type {compare : TypeEntity → TypeEntity → Option ChangeDetail}
    {old new : Option TypeEntity} (judged : judge Entity.type compare old new = some verdict) :
    verdict.concerns owner = false := by
  cases old with
  | none =>
      cases new with
      | none => simp [judge] at judged
      | some new =>
          obtain rfl := Option.some.inj judged
          rfl
  | some old =>
      cases new with
      | none =>
          obtain rfl := Option.some.inj judged
          rfl
      | some new =>
          simp only [judge] at judged
          split at judged <;> obtain rfl := Option.some.inj judged <;> rfl

theorem owner_of_concerns {compare : MethodEntity → MethodEntity → Option ChangeDetail}
    {old new : Option MethodEntity} (judged : judge Entity.method compare old new = some verdict)
    (concerns : verdict.concerns owner) :
    (∃ entity, old = some entity ∧ entity.owner = owner) ∨
      ∃ entity, new = some entity ∧ entity.owner = owner := by
  cases old with
  | none =>
      cases new with
      | none => simp [judge] at judged
      | some new =>
          obtain rfl := Option.some.inj judged
          exact .inr ⟨new, rfl, by simpa [Verdict.concerns, Entity.isMethodOf] using concerns⟩
  | some old =>
      refine .inl ⟨old, rfl, ?_⟩
      cases new with
      | none =>
          obtain rfl := Option.some.inj judged
          simpa [Verdict.concerns, Entity.isMethodOf] using concerns
      | some new =>
          simp only [judge] at judged
          split at judged
          · obtain rfl := Option.some.inj judged
            simpa [Verdict.concerns, Entity.isMethodOf] using concerns
          · obtain rfl := Option.some.inj judged
            simp [Verdict.concerns] at concerns

theorem bucket_iff {old new : Option MethodEntity} (oldOwner : ∀ entity ∈ old, entity.owner = owner)
    (newOwner : ∀ entity ∈ new, entity.owner = owner) (bucket : Bucket) :
    (∃ verdict, judge Entity.method compareMethods old new = some verdict ∧
        verdict.bucket = bucket ∧ verdict.concerns owner) ↔
      Differ (old.map MethodEntity.signature) (new.map MethodEntity.signature) bucket := by
  cases old with
  | none =>
      cases new with
      | none => cases bucket <;> simp [judge, Differ]
      | some new =>
          have owns : new.owner = owner := newOwner new rfl
          cases bucket <;>
            simp [judge, Verdict.bucket, Verdict.concerns, Entity.isMethodOf, owns, Differ]
  | some old =>
      have owns : old.owner = owner := oldOwner old rfl
      cases new with
      | none =>
          cases bucket <;>
            simp [judge, Verdict.bucket, Verdict.concerns, Entity.isMethodOf, owns, Differ]
      | some new =>
          by_cases same : old.signature = new.signature
          · cases bucket <;>
              simp [judge, compareMethods, valueChange?, same, Verdict.bucket, Verdict.concerns,
                Differ]
          · cases bucket <;>
              simp [judge, compareMethods, valueChange?, same, Verdict.bucket, Verdict.concerns,
                Entity.isMethodOf, owns, Differ]

end Verdicts

section Methods

variable {before after : Snapshot} {owner key : String}

def Known (before after : Snapshot) (owner key : String) : Prop :=
  key ∈ keys (methodPairs (ownedImpls before) owner) ∨
    key ∈ keys (methodPairs (ownedImpls after) owner)

theorem Known.owner_eq (separate : SeparateOwners before after)
    (known : Known before after owner key) {entry : OwnedImpl}
    (owned : entry ∈ ownedImpls before ++ ownedImpls after) {method : Method}
    (member : method ∈ entry.impl.methods)
    (named : entry.identityOf method = owner ++ "::" ++ key) : entry.owner = owner := by
  rcases known with known | known
  · obtain ⟨other, otherOwned, rfl, otherMethod, otherMember, rfl⟩ := mem_keys_methodPairs.mp known
    exact separate entry owned method member other (List.mem_append_left _ otherOwned) otherMethod
      otherMember named
  · obtain ⟨other, otherOwned, rfl, otherMethod, otherMember, rfl⟩ := mem_keys_methodPairs.mp known
    exact separate entry owned method member other (List.mem_append_right _ otherOwned) otherMethod
      otherMember named

theorem Known.assignable (beforeKeys : PlainKeys before) (afterKeys : PlainKeys after)
    (known : Known before after owner key) : key ≠ Record.unassignable := by
  have plain : key ∉ Record.inheritedNames := by
    rcases known with known | known
    · obtain ⟨entry, owned, _, method, member, rfl⟩ := mem_keys_methodPairs.mp known
      exact beforeKeys entry owned method member
    · obtain ⟨entry, owned, _, method, member, rfl⟩ := mem_keys_methodPairs.mp known
      exact afterKeys entry owned method member
  rintro rfl
  exact plain (by decide)

theorem Known.lookup {snapshot : Snapshot}
    (side : ownedImpls snapshot ⊆ ownedImpls before ++ ownedImpls after)
    (separate : SeparateOwners before after) (known : Known before after owner key)
    (assignable : key ≠ Record.unassignable) :
    (get? (owner ++ "::" ++ key) (collectEntities snapshot).methods).map MethodEntity.signature =
        get? key (methodRecord (ownedImpls snapshot) owner) ∧
      ∀ entity ∈ get? (owner ++ "::" ++ key) (collectEntities snapshot).methods,
        entity.owner = owner := by
  constructor
  · rw [get?_methodRecord_eq assignable]
    exact fun entry owned method member named =>
      known.owner_eq separate (side owned) member named
  · intro entity found
    obtain ⟨entry, owned, method, member, named, owns, _⟩ := owned_of_entity found
    rw [owns]
    exact known.owner_eq separate (side owned) member named

theorem Known.identity (known : Known before after owner key) :
    owner ++ "::" ++ key ∈ methodIdentities before ∨
      owner ++ "::" ++ key ∈ methodIdentities after := by
  refine known.imp ?_ ?_
  · intro known
    obtain ⟨entry, owned, rfl, method, member, rfl⟩ := mem_keys_methodPairs.mp known
    exact mem_methodIdentities.mpr ⟨entry, owned, method, member, rfl⟩
  · intro known
    obtain ⟨entry, owned, rfl, method, member, rfl⟩ := mem_keys_methodPairs.mp known
    exact mem_methodIdentities.mpr ⟨entry, owned, method, member, rfl⟩

theorem get?_judged_method (apart : ApartFromTypes before after) {identity : String}
    (method : identity ∈ methodIdentities before ∨ identity ∈ methodIdentities after) :
    get? identity (allVerdicts .method (collectEntities before) (collectEntities after)) =
      judge Entity.method compareMethods (get? identity (collectEntities before).methods)
        (get? identity (collectEntities after).methods) := by
  have noType := apart identity method
  have noVerdict : get? identity (verdicts .type compareTypes
      (withoutMethods (collectEntities before).types)
      (withoutMethods (collectEntities after).types)) = none := by
    rw [get?_verdicts, get?_eq_none_iff.mpr, get?_eq_none_iff.mpr]
    · rfl
    · rw [keys_withoutMethods]
      exact noType.2
    · rw [keys_withoutMethods]
      exact noType.1
  rw [allVerdicts, get?_append, noVerdict, Option.none_or, get?_verdicts]

theorem get?_judged_type {identity : String}
    (noMethod : identity ∉ methodIdentities before ∧ identity ∉ methodIdentities after) :
    get? identity (allVerdicts .method (collectEntities before) (collectEntities after)) =
      judge Entity.type compareTypes
        ((get? identity (collectEntities before).types).map TypeEntity.withoutMethods)
        ((get? identity (collectEntities after).types).map TypeEntity.withoutMethods) := by
  have noVerdict : get? identity (verdicts .method compareMethods
      (collectEntities before).methods (collectEntities after).methods) = none := by
    rw [get?_verdicts, get?_eq_none_iff.mpr noMethod.1, get?_eq_none_iff.mpr noMethod.2]
    rfl
  rw [allVerdicts, get?_append, noVerdict, Option.or_none, get?_verdicts, get?_withoutMethods,
    get?_withoutMethods]

theorem known_of_concerns (apart : ApartFromTypes before after) {identity : String}
    {verdict : Verdict}
    (found : get? identity (allVerdicts .method (collectEntities before) (collectEntities after)) =
      some verdict) (concerns : verdict.concerns owner) :
    ∃ key, Known before after owner key ∧ owner ++ "::" ++ key = identity := by
  by_cases method : identity ∈ methodIdentities before ∨ identity ∈ methodIdentities after
  · rw [get?_judged_method apart method] at found
    rcases owner_of_concerns found concerns with ⟨entity, lookup, rfl⟩ | ⟨entity, lookup, rfl⟩
    · obtain ⟨entry, owned, method, member, named, owns, _⟩ := owned_of_entity lookup
      rw [owns]
      exact ⟨_, .inl (mem_keys_methodPairs.mpr ⟨entry, owned, rfl, method, member, rfl⟩), named⟩
    · obtain ⟨entry, owned, method, member, named, owns, _⟩ := owned_of_entity lookup
      rw [owns]
      exact ⟨_, .inr (mem_keys_methodPairs.mpr ⟨entry, owned, rfl, method, member, rfl⟩), named⟩
  · -- Nothing but a type can have this identity, and a type is no method.
    rw [not_or] at method
    rw [get?_judged_type method] at found
    simp [concerns_judge_type found] at concerns

theorem unassignable_not_judged_methods (apart : ApartFromTypes before after)
    (assignable : Assignable before after) :
    Record.unassignable ∉
      keys (allVerdicts .method (collectEntities before) (collectEntities after)) := by
  rw [(judged_methods apart).mem_keys_iff, List.mem_append, List.mem_append]
  rintro ((type | method) | (type | method))
  · exact assignable _ (.inl type) rfl
  · exact methodIdentity_ne method rfl
  · exact assignable _ (.inr type) rfl
  · exact methodIdentity_ne method rfl

theorem mem_listed_methodsOf (apart : ApartFromTypes before after)
    (assignable : Assignable before after) (bucket : Bucket) (identity : String) :
    identity ∈ ((compare before after .method).methodsOf owner).listed bucket ↔
      ∃ verdict, get? identity (allVerdicts .method (collectEntities before)
        (collectEntities after)) = some verdict ∧ verdict.bucket = bucket ∧
          verdict.concerns owner := by
  have judged := judged_methods apart
  have refused := unassignable_not_judged_methods apart assignable
  have listed : ∀ {γ : Type} (pick : Verdict → Option γ) (keep : γ → Bool),
      (∀ verdict, (∃ value, pick verdict = some value ∧ keep value) ↔
        verdict.bucket = bucket ∧ verdict.concerns owner) →
      (identity ∈ keys ((gather pick (allVerdicts .method (collectEntities before)
          (collectEntities after))).filter fun entry => keep entry.2) ↔
        ∃ verdict, get? identity (allVerdicts .method (collectEntities before)
          (collectEntities after)) = some verdict ∧ verdict.bucket = bucket ∧
            verdict.concerns owner) := by
    intro γ pick keep picked
    rw [mem_keys_filter ascending_gather.nodup, get?_gather judged.unique refused]
    cases get? identity (allVerdicts .method (collectEntities before)
      (collectEntities after)) with
    | none => simp
    | some verdict => simpa using picked verdict
  cases bucket with
  | added =>
      refine listed addedEntity? (fun entity => entity.any (Entity.isMethodOf owner)) ?_
      intro verdict
      cases verdict <;> simp [addedEntity?, Verdict.bucket, Verdict.concerns]
  | removed =>
      refine listed removedEntity? (fun entity => entity.any (Entity.isMethodOf owner)) ?_
      intro verdict
      cases verdict <;> simp [removedEntity?, Verdict.bucket, Verdict.concerns]
  | modified =>
      refine listed modification?
        (fun change => change.before.any (Entity.isMethodOf owner)) ?_
      intro verdict
      cases verdict <;> simp [modification?, Verdict.bucket, Verdict.concerns]
  | unchanged =>
      refine iff_of_false List.not_mem_nil ?_
      rintro ⟨verdict, _, bucket, concerns⟩
      cases verdict <;> simp [Verdict.bucket, Verdict.concerns] at bucket concerns

/-- The methods of a type that are listed on their own are those whose signatures differ in the
records of the type. -/
theorem mem_methodsOf_iff (separate : SeparateOwners before after)
    (apart : ApartFromTypes before after) (beforeKeys : PlainKeys before)
    (afterKeys : PlainKeys after) (assignable : Assignable before after) (bucket : Bucket)
    (identity : String) :
    identity ∈ ((compare before after .method).methodsOf owner).listed bucket ↔
      ∃ key, Differ (get? key (methodRecord (ownedImpls before) owner))
          (get? key (methodRecord (ownedImpls after) owner)) bucket ∧
        owner ++ "::" ++ key = identity := by
  have settled : ∀ key, Known before after owner key →
      (owner ++ "::" ++ key ∈ ((compare before after .method).methodsOf owner).listed bucket ↔
        Differ (get? key (methodRecord (ownedImpls before) owner))
          (get? key (methodRecord (ownedImpls after) owner)) bucket) := by
    intro key known
    have keyAssignable := known.assignable beforeKeys afterKeys
    have old := known.lookup (List.subset_append_left _ _) separate keyAssignable
    have new := known.lookup (List.subset_append_right _ _) separate keyAssignable
    rw [mem_listed_methodsOf apart assignable, get?_judged_method apart known.identity,
      bucket_iff old.2 new.2, old.1, new.1]
  constructor
  · intro member
    obtain ⟨verdict, found, _, concerns⟩ :=
      (mem_listed_methodsOf apart assignable bucket identity).mp member
    obtain ⟨key, known, rfl⟩ := known_of_concerns apart found concerns
    exact ⟨key, (settled key known).mp member, rfl⟩
  · rintro ⟨key, differ, rfl⟩
    refine (settled key ?_).mpr differ
    -- A key that neither snapshot knows is in neither record, and two absent values do not differ.
    by_contra unknown
    rw [Known, not_or] at unknown
    have missing : ∀ snapshot, key ∉ keys (methodPairs (ownedImpls snapshot) owner) →
        get? key (methodRecord (ownedImpls snapshot) owner) = none := fun snapshot absent =>
      get?_eq_none_iff.mpr fun stored => absent (mem_keys_methodRecord.mp stored).1
    rw [missing before unknown.1, missing after unknown.2] at differ
    cases bucket <;> simp [Differ] at differ

theorem ascending_methodsOf : ((compare before after .method).methodsOf owner).Ascending where
  added := ascending_gather.sublist (List.filter_sublist.map Prod.fst)
  removed := ascending_gather.sublist (List.filter_sublist.map Prod.fst)
  changed := ascending_gather.sublist (List.filter_sublist.map Prod.fst)

theorem methodsOf_eq (separate : SeparateOwners before after) (apart : ApartFromTypes before after)
    (beforeKeys : PlainKeys before) (afterKeys : PlainKeys after)
    (assignable : Assignable before after) :
    (compare before after .method).methodsOf owner =
      (compareRecords (methodRecord (ownedImpls before) owner)
        (methodRecord (ownedImpls after) owner)).map ((owner ++ "::") ++ ·) := by
  have ascending := ascending_compareRecords
    (ascending_keys_methodRecord (ownedImpls before) owner).nodup
    (ascending_keys_methodRecord (ownedImpls after) owner).nodup
  refine ascending_methodsOf.eq_of_mem_listed (ascending.map_append _) ?_
  intro bucket identity
  rw [mem_methodsOf_iff separate apart beforeKeys afterKeys assignable, SetChange.mem_listed_map]
  refine exists_congr fun key => and_congr_left fun _ => ?_
  rw [mem_listed_compareRecords (beforeKeys.methodRecord owner) (afterKeys.methodRecord owner)]

end Methods

section Types

theorem isEmpty_typeChanges (before after : TypeEntity) :
    (typeChanges before after).isEmpty =
      ((typeChanges before.withoutMethods after.withoutMethods).isEmpty &&
        (compareRecords before.methods after.methods).isEmpty) := by
  have nothing : (compareRecords [] []).isEmpty = true := rfl
  simp only [ChangeDetail.isEmpty, typeChanges, TypeEntity.withoutMethods, nothing,
    Bool.and_true]
  ac_rfl

theorem compareTypes_isSome_iff (before after : TypeEntity) :
    (compareTypes before after).isSome ↔
      (compareTypes before.withoutMethods after.withoutMethods).isSome ∨
        compareRecords before.methods after.methods ≠ SetChange.empty := by
  rw [Option.isSome_iff_ne_none, Option.isSome_iff_ne_none, ne_eq, ne_eq,
    compareTypes_eq_none_iff, compareTypes_eq_none_iff, isEmpty_typeChanges, Bool.and_eq_true,
    ← SetChange.eq_empty_iff, not_and_or]

theorem judge_modified_iff {compare : TypeEntity → TypeEntity → Option ChangeDetail}
    {old new : TypeEntity} :
    (∃ verdict, judge Entity.type compare (some old) (some new) = some verdict ∧
        verdict.bucket = .modified) ↔ (compare old new).isSome := by
  simp only [judge]
  cases compare old new <;> simp [Verdict.bucket]

variable {before after : Snapshot} {owner : String} {old new : TypeEntity}

structure OnBothSides (before after : Snapshot) (owner : String) (old new : TypeEntity) :
    Prop where
  old : get? owner (collectEntities before).types = some old
  new : get? owner (collectEntities after).types = some new

theorem judged_types : Judged (allVerdicts .type (collectEntities before) (collectEntities after))
    (typeIdentities before) (typeIdentities after) :=
  judged_verdicts _ _ _ _

theorem unassignable_not_judged (assignable : Assignable before after) :
    Record.unassignable ∉
      keys (allVerdicts .type (collectEntities before) (collectEntities after)) := by
  rw [judged_types.mem_keys_iff]
  exact fun side => assignable _ side rfl

theorem OnBothSides.type_modified_iff (sides : OnBothSides before after owner old new)
    (assignable : Assignable before after) :
    owner ∈ (compare before after .type).listed .modified ↔ (compareTypes old new).isSome := by
  rw [mem_listed judged_types.unique (unassignable_not_judged assignable), allVerdicts,
    get?_verdicts, sides.old, sides.new, judge_modified_iff]

theorem OnBothSides.method_modified_iff (sides : OnBothSides before after owner old new)
    (apart : ApartFromTypes before after) (assignable : Assignable before after) :
    owner ∈ (compare before after .method).listed .modified ↔
      (compareTypes old.withoutMethods new.withoutMethods).isSome := by
  have typed : owner ∈ typeIdentities before := mem_keys_iff.mpr ⟨old, sides.old⟩
  have noMethod : owner ∉ methodIdentities before ∧ owner ∉ methodIdentities after :=
    ⟨fun method => (apart owner (.inl method)).1 typed,
      fun method => (apart owner (.inr method)).1 typed⟩
  rw [mem_listed (judged_methods apart).unique (unassignable_not_judged_methods apart assignable),
    get?_judged_type noMethod, sides.old, sides.new, Option.map_some, Option.map_some,
    judge_modified_iff]

theorem OnBothSides.methodChange_eq (sides : OnBothSides before after owner old new)
    (assignable : Assignable before after) :
    (compare before after .type).methodChange owner = compareRecords old.methods new.methods := by
  have found : get? owner (compare before after .type).modified =
      (judge Entity.type compareTypes (some old) (some new)).bind modification? := by
    rw [← sides.old, ← sides.new, ← get?_verdicts]
    exact get?_gather judged_types.unique (unassignable_not_judged assignable) owner
  rw [Result.methodChange, found]
  cases changes : compareTypes old new with
  | none =>
      have silent := (compareTypes_isSome_iff old new).not.mp (by simp [changes])
      rw [not_or, not_ne_iff] at silent
      simp [judge, changes, modification?, silent.2]
  | some detail =>
      rw [compareTypes_eq_some changes] at changes
      simp [judge, changes, modification?, typeChanges]

end Types

theorem exists_sides {oldUnits newUnits : List SourceUnit}
    (oldDistinct : (oldUnits.map SourceUnit.filePath).Nodup)
    (newDistinct : (newUnits.map SourceUnit.filePath).Nodup) {oldRoot newRoot owner : String}
    (oldRegistered : owner ∈ keys (Snapshot.create oldRoot oldUnits).registry)
    (newRegistered : owner ∈ keys (Snapshot.create newRoot newUnits).registry) :
    ∃ old new, OnBothSides (Snapshot.create oldRoot oldUnits) (Snapshot.create newRoot newUnits)
        owner old new ∧
      old.methods = methodRecord (ownedImpls (Snapshot.create oldRoot oldUnits)) owner ∧
      new.methods = methodRecord (ownedImpls (Snapshot.create newRoot newUnits)) owner := by
  obtain ⟨oldType, oldDefined⟩ := Option.isSome_iff_exists.mp
    (Snapshot.definition?_of_registered oldDistinct oldRegistered)
  obtain ⟨newType, newDefined⟩ := Option.isSome_iff_exists.mp
    (Snapshot.definition?_of_registered newDistinct newRegistered)
  refine ⟨typeEntity _ oldType owner, typeEntity _ newType owner, ⟨?_, ?_⟩, rfl, rfl⟩
  · rw [get?_types, oldDefined, Option.map_some]
  · rw [get?_types, newDefined, Option.map_some]

/-- Both granularities report the same about a type that both snapshots register: the methods
listed on their own are those listed with the type, by identity instead of key, and the type is
modified with its methods when it is modified without them or one of them is listed. -/
theorem compare_granularities {oldUnits newUnits : List SourceUnit}
    (wellNamedOld : WellNamed oldUnits) (wellNamedNew : WellNamed newUnits)
    (oldRoot newRoot : String) :
    let before := Snapshot.create oldRoot oldUnits
    let after := Snapshot.create newRoot newUnits
    PlainKeys before → PlainKeys after → SeparateOwners before after →
      ApartFromTypes before after →
        ∀ name ∈ keys before.registry, name ∈ keys after.registry →
          (name ∈ (compare before after .type).listed .modified ↔
              name ∈ (compare before after .method).listed .modified ∨
                (compare before after .method).methodsOf name ≠ SetChange.empty) ∧
            (compare before after .method).methodsOf name =
              ((compare before after .type).methodChange name).map ((name ++ "::") ++ ·) := by
  intro before after beforeKeys afterKeys separate apart name oldRegistered newRegistered
  have assignable : Assignable before after := by
    rintro name (first | second)
    · exact wellNamedOld.typeIdentity_ne first
    · exact wellNamedNew.typeIdentity_ne second
  obtain ⟨old, new, sides, oldMethods, newMethods⟩ := exists_sides wellNamedOld.distinctFiles
    wellNamedNew.distinctFiles oldRegistered newRegistered
  have listed : (compare before after .method).methodsOf name =
      (compareRecords old.methods new.methods).map ((name ++ "::") ++ ·) := by
    rw [oldMethods, newMethods]
    exact methodsOf_eq separate apart beforeKeys afterKeys assignable
  constructor
  · rw [sides.type_modified_iff assignable, sides.method_modified_iff apart assignable, listed,
      ne_eq, SetChange.map_eq_empty_iff]
    exact compareTypes_isSome_iff old new
  · rw [listed, sides.methodChange_eq assignable]

def doorUnits : List SourceUnit :=
  Extraction.unitsOf 0
    [("src/lib.rs", "struct Door;\n" ++
      "impl Door \x7b fn open(&self) \x7b\x7d fn shut(&self) \x7b\x7d \x7d\n" ++
      "impl Lock for Door \x7b fn turn(&self) \x7b\x7d \x7d")]

def rebuiltDoorUnits : List SourceUnit :=
  Extraction.unitsOf 0
    [("src/lib.rs", "struct Door;\n" ++
      "impl Door \x7b fn open(&self) \x7b\x7d fn knock(&self) \x7b\x7d \x7d\n" ++
      "impl Lock for Door \x7b fn turn(&self, key: u8) \x7b\x7d \x7d")]

theorem compare_granularities_of_door :
    let before := Snapshot.create "before" doorUnits
    let after := Snapshot.create "after" rebuiltDoorUnits
    PlainKeys before ∧ PlainKeys after ∧ SeparateOwners before after ∧
      ApartFromTypes before after ∧
      ("crate::Door" ∈ (compare before after .type).listed .modified ↔
        "crate::Door" ∈ (compare before after .method).listed .modified ∨
          (compare before after .method).methodsOf "crate::Door" ≠ SetChange.empty) ∧
      (compare before after .method).methodsOf "crate::Door" =
        ((compare before after .type).methodChange "crate::Door").map
          (("crate::Door" ++ "::") ++ ·) ∧
      "crate::Door" ∉ (compare before after .method).listed .modified ∧
      (compare before after .method).methodsOf "crate::Door" =
        { added := ["crate::Door::knock"]
          removed := ["crate::Door::shut"]
          changed := ["crate::Door::Lock::turn"] } := by
  intro before after
  have facts :
      ((doorUnits.map SourceUnit.filePath).Nodup ∧ ∀ unit ∈ doorUnits,
        ∀ type ∈ unit.types, Text.hasPart "::" type.qualifiedName.toList) ∧
      ((rebuiltDoorUnits.map SourceUnit.filePath).Nodup ∧ ∀ unit ∈ rebuiltDoorUnits,
        ∀ type ∈ unit.types, Text.hasPart "::" type.qualifiedName.toList) ∧
      (PlainKeys before ∧ PlainKeys after ∧ SeparateOwners before after) ∧
      (∀ name ∈ methodIdentities before ++ methodIdentities after,
        name ∉ typeIdentities before ∧ name ∉ typeIdentities after) ∧
      ("crate::Door" ∈ keys before.registry ∧ "crate::Door" ∈ keys after.registry) ∧
      "crate::Door" ∉ (compare before after .method).listed .modified ∧
      (compare before after .method).methodsOf "crate::Door" =
        { added := ["crate::Door::knock"]
          removed := ["crate::Door::shut"]
          changed := ["crate::Door::Lock::turn"] } := by
    unfold PlainKeys SeparateOwners
    decide +kernel
  obtain ⟨old, new, ⟨beforeKeys, afterKeys, separate⟩, identities, ⟨oldDoor, newDoor⟩, listed⟩ :=
    facts
  have apart : ApartFromTypes before after := fun name method =>
    identities name (List.mem_append.mpr method)
  obtain ⟨modified, methods⟩ := compare_granularities ⟨old.1, old.2⟩ ⟨new.1, new.2⟩ "before" "after"
    beforeKeys afterKeys separate apart "crate::Door" oldDoor newDoor
  exact ⟨beforeKeys, afterKeys, separate, apart, modified, methods, listed⟩

end CrateAtlas.Diff
