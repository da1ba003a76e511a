import CrateAtlas.Proofs.Diff.Changes
import CrateAtlas.Proofs.Diff.MethodKeys
import CrateAtlas.Proofs.Diff.Partition

/-!
Comparisons read backwards. Main statement: when the two snapshots of a comparison are exchanged,
its result is mirrored, as long as no field and no method goes by an inherited name.
-/

namespace CrateAtlas.Diff

open OrderedMap

def SetChange.mirror (change : SetChange) : SetChange :=
  { added := change.removed, removed := change.added, changed := change.changed }

def ValueChange.mirror (change : ValueChange) : ValueChange :=
  { before := change.after, after := change.before }

def ChangeDetail.mirror (detail : ChangeDetail) : ChangeDetail :=
  { kind := detail.kind.map ValueChange.mirror
    visibility := detail.visibility.map ValueChange.mirror
    signature := detail.signature.map ValueChange.mirror
    fields := detail.fields.mirror
    methods := detail.methods.mirror
    traits := detail.traits.mirror }

def Modification.mirror (modification : Modification) : Modification :=
  { before := modification.after
    after := modification.before
    changes := modification.changes.mirror }

def Verdict.mirror : Verdict → Verdict
  | .added entity => .removed entity
  | .removed entity => .added entity
  | .modified change => .modified change.mirror
  | .unchanged => .unchanged

/-- The same result, told from the later snapshot to the earlier one. -/
def Result.mirror (result : Result) : Result :=
  { granularity := result.granularity
    added := result.removed
    removed := result.added
    modified := result.modified.map fun entry => (entry.1, entry.2.mirror)
    unchanged := result.unchanged
    skippedBefore := result.skippedAfter
    skippedAfter := result.skippedBefore }

section Details

theorem compareRecords_mirror {before after : List (String × String)}
    (beforeDistinct : (keys before).Nodup) (afterDistinct : (keys after).Nodup)
    (beforeOwn : Record.Uninherited before) (afterOwn : Record.Uninherited after) :
    compareRecords after before = (compareRecords before after).mirror := by
  have forward := ascending_compareRecords beforeDistinct afterDistinct
  have backward := ascending_compareRecords afterDistinct beforeDistinct
  refine backward.eq_of_mem_iff ⟨forward.removed, forward.added, forward.changed⟩
    (fun _ => Iff.rfl) (fun _ => Iff.rfl) ?_
  intro name
  change name ∈ _ ↔ name ∈ (compareRecords before after).changed
  rw [mem_changed_iff, mem_changed_iff]
  constructor
  · rintro ⟨first, second | inherited, different⟩
    · exact ⟨second, .inl first, different.symm⟩
    · exact absurd inherited (beforeOwn name first)
  · rintro ⟨first, second | inherited, different⟩
    · exact ⟨second, .inl first, different.symm⟩
    · exact absurd inherited (afterOwn name first)

theorem valueChange?_mirror (before after : String) :
    valueChange? after before = (valueChange? before after).map ValueChange.mirror := by
  by_cases same : before = after
  · simp [valueChange?, same]
  · simp [valueChange?, same, Ne.symm same, ValueChange.mirror]

theorem SetChange.isEmpty_mirror (change : SetChange) : change.mirror.isEmpty = change.isEmpty := by
  simp only [SetChange.isEmpty, SetChange.mirror, Bool.and_comm]

theorem ChangeDetail.isEmpty_mirror (detail : ChangeDetail) :
    detail.mirror.isEmpty = detail.isEmpty := by
  simp only [ChangeDetail.isEmpty, ChangeDetail.mirror, SetChange.isEmpty_mirror, Option.isNone_map]

structure TypeEntity.Plain (entity : TypeEntity) : Prop where
  fields : Record.Uninherited (fieldRecord entity.fields)
  methods : Record.Uninherited entity.methods
  distinct : (keys entity.methods).Nodup

theorem TypeEntity.Plain.withoutMethods {entity : TypeEntity} (plain : entity.Plain) :
    entity.withoutMethods.Plain where
  fields := plain.fields
  methods := by simp [Record.Uninherited, TypeEntity.withoutMethods]
  distinct := List.nodup_nil

theorem compareTypes_mirror {before after : TypeEntity} (beforePlain : before.Plain)
    (afterPlain : after.Plain) :
    compareTypes after before = (compareTypes before after).map ChangeDetail.mirror := by
  have fields : compareFields after.fields before.fields =
      (compareFields before.fields after.fields).mirror :=
    compareRecords_mirror (nodup_keys_filled _) (nodup_keys_filled _) beforePlain.fields
      afterPlain.fields
  have methods := compareRecords_mirror beforePlain.distinct afterPlain.distinct
    beforePlain.methods afterPlain.methods
  have changes : typeChanges after before = (typeChanges before after).mirror := by
    simp only [typeChanges, ChangeDetail.mirror, ← fields, ← methods, ← valueChange?_mirror]
    rfl
  simp only [compareTypes, changes, ChangeDetail.isEmpty_mirror]
  split <;> rfl

theorem compareMethods_mirror (before after : MethodEntity) :
    compareMethods after before = (compareMethods before after).map ChangeDetail.mirror := by
  rw [compareMethods, compareMethods, valueChange?_mirror]
  cases valueChange? before.signature after.signature <;> rfl

end Details

section Verdicts

structure MirrorImages (found mirrored : List (String × Verdict)) : Prop where
  unique : (keys found).Nodup
  mirroredUnique : (keys mirrored).Nodup
  lookup : ∀ identity, get? identity mirrored = (get? identity found).map Verdict.mirror

theorem mirrorImages_nil : MirrorImages [] [] where
  unique := List.nodup_nil
  mirroredUnique := List.nodup_nil
  lookup _ := rfl

theorem mirrorImages_verdicts {wrap : α → Entity} {compare : α → α → Option ChangeDetail}
    {before after : List (String × α)}
    (mirrored : ∀ identity old new, get? identity before = some old →
      get? identity after = some new →
        compare new old = (compare old new).map ChangeDetail.mirror) :
    MirrorImages (verdicts wrap compare before after) (verdicts wrap compare after before) where
  unique := nodup_keys_verdicts wrap compare before after
  mirroredUnique := nodup_keys_verdicts wrap compare after before
  lookup identity := by
    rw [get?_verdicts, get?_verdicts]
    cases first : get? identity before with
    | none => cases get? identity after <;> rfl
    | some old =>
        cases second : get? identity after with
        | none => rfl
        | some new =>
            simp only [judge, mirrored identity old new first second]
            cases compare old new <;> rfl

theorem MirrorImages.perm {found mirrored : List (String × Verdict)}
    (images : MirrorImages found mirrored) :
    mirrored.Perm (found.map fun entry => (entry.1, entry.2.mirror)) := by
  refine perm_of_get?_eq images.mirroredUnique ?_ ?_
  · rw [keys_map_values]
    exact images.unique
  · intro identity
    rw [get?_map_values, images.lookup]

variable {types methods mirroredTypes mirroredMethods : List (String × Verdict)}

theorem gather_mirror (typeImages : MirrorImages types mirroredTypes)
    (methodImages : MirrorImages methods mirroredMethods) {pick : Verdict → Option α}
    {pickMirrored : Verdict → Option β} (change : α → β)
    (exchanged : ∀ verdict, pickMirrored verdict.mirror = (pick verdict).map change) :
    gather pickMirrored (mirroredTypes ++ mirroredMethods) =
      (gather pick (types ++ methods)).map fun entry => (entry.1, change entry.2) := by
  refine eq_of_ascending_keys ascending_gather ?_ ?_
  · rw [keys_map_values]
    exact ascending_gather
  · intro identity
    rw [get?_map_values, get?_gather_append _ typeImages.mirroredUnique
      methodImages.mirroredUnique, get?_gather_append _ typeImages.unique methodImages.unique,
      typeImages.lookup, methodImages.lookup]
    -- Both sides leave out the name that a plain record cannot store.
    split
    · rfl
    · simp only [Option.bind_map, Function.comp_def, exchanged, Option.map_or, Option.map_bind]

theorem unchanged_mirror {found mirrored : List (String × Verdict)}
    (perm : mirrored.Perm (found.map fun entry => (entry.1, entry.2.mirror))) :
    Text.sortTexts ((mirrored.filter fun entry => isUnchanged entry.2).map Prod.fst) =
      Text.sortTexts ((found.filter fun entry => isUnchanged entry.2).map Prod.fst) := by
  have kept : ∀ verdict : Verdict, isUnchanged verdict.mirror = isUnchanged verdict := by
    intro verdict
    cases verdict <;> rfl
  have same := (perm.filter fun entry => isUnchanged entry.2).map Prod.fst
  rw [List.filter_map, List.map_map] at same
  simp only [Function.comp_def, kept] at same
  exact Text.sortTexts_eq_of_perm same

end Verdicts

section Snapshots

/-- No field and no key of a method is a name that every record answers to. -/
structure PlainNames (snapshot : Snapshot) : Prop where
  fields : ∀ unit ∈ snapshot.units, ∀ type ∈ unit.types, ∀ field ∈ type.fields,
    field.name ∉ Record.inheritedNames
  methods : PlainKeys snapshot

theorem PlainNames.entity {snapshot : Snapshot} (plain : PlainNames snapshot) {name : String}
    {entity : TypeEntity} (found : get? name (collectEntities snapshot).types = some entity) :
    entity.Plain := by
  rw [get?_types] at found
  obtain ⟨definition, defined, rfl⟩ := Option.map_eq_some_iff.mp found
  obtain ⟨⟨type, unit⟩, declared, rfl⟩ := Option.map_eq_some_iff.mp defined
  obtain ⟨member, typeMember, _⟩ :=
    Resolver.mem_declarations.mp (Resolver.declaration?_spec declared).1
  constructor
  · intro fieldName stored
    have listed := mem_keys_fill.mp stored
    simp only [keys, List.map_map, List.mem_map] at listed
    obtain ⟨field, fieldMember, rfl⟩ := listed
    exact plain.fields unit member type typeMember field fieldMember
  · exact plain.methods.methodRecord name
  · exact (ascending_keys_methodRecord _ _).nodup

theorem exists_mirrorImages {before after : EntityIndex}
    (beforePlain : ∀ name entity, get? name before.types = some entity → entity.Plain)
    (afterPlain : ∀ name entity, get? name after.types = some entity → entity.Plain)
    (granularity : Granularity) :
    ∃ types methods mirroredTypes mirroredMethods,
      MirrorImages types mirroredTypes ∧ MirrorImages methods mirroredMethods ∧
        allVerdicts granularity before after = types ++ methods ∧
        allVerdicts granularity after before = mirroredTypes ++ mirroredMethods := by
  cases granularity with
  | type =>
      refine ⟨_, [], _, [], mirrorImages_verdicts ?_, mirrorImages_nil,
        (List.append_nil _).symm, (List.append_nil _).symm⟩
      intro identity old new first second
      exact compareTypes_mirror (beforePlain identity old first) (afterPlain identity new second)
  | method =>
      refine ⟨_, _, _, _, mirrorImages_verdicts ?_, mirrorImages_verdicts ?_, rfl, rfl⟩
      · intro identity old new first second
        rw [get?_withoutMethods] at first second
        obtain ⟨oldFull, oldFound, rfl⟩ := Option.map_eq_some_iff.mp first
        obtain ⟨newFull, newFound, rfl⟩ := Option.map_eq_some_iff.mp second
        exact compareTypes_mirror (beforePlain identity oldFull oldFound).withoutMethods
          (afterPlain identity newFull newFound).withoutMethods
      · exact fun _ old new _ _ => compareMethods_mirror old new

/-- A comparison of two snapshots in the other direction is its mirror image, whether or not a
method has the identity of a type or of another method. -/
theorem compare_mirror {before after : Snapshot} (beforePlain : PlainNames before)
    (afterPlain : PlainNames after) (granularity : Granularity) :
    compare after before granularity = (compare before after granularity).mirror := by
  obtain ⟨types, methods, mirroredTypes, mirroredMethods, typeImages, methodImages, forward,
    backward⟩ := exists_mirrorImages (fun _ _ => beforePlain.entity) (fun _ _ => afterPlain.entity)
      granularity
  have unchanged : Text.sortTexts (((mirroredTypes ++ mirroredMethods).filter fun entry =>
      isUnchanged entry.2).map Prod.fst) = Text.sortTexts (((types ++ methods).filter fun entry =>
        isUnchanged entry.2).map Prod.fst) := by
    refine unchanged_mirror ?_
    rw [List.map_append]
    exact typeImages.perm.append methodImages.perm
  have added : gather addedEntity? (mirroredTypes ++ mirroredMethods) =
      (gather removedEntity? (types ++ methods)).map fun entry => (entry.1, id entry.2) :=
    gather_mirror typeImages methodImages id fun verdict => by cases verdict <;> rfl
  have removed : gather removedEntity? (mirroredTypes ++ mirroredMethods) =
      (gather addedEntity? (types ++ methods)).map fun entry => (entry.1, id entry.2) :=
    gather_mirror typeImages methodImages id fun verdict => by cases verdict <;> rfl
  have modified : gather modification? (mirroredTypes ++ mirroredMethods) =
      (gather modification? (types ++ methods)).map fun entry => (entry.1, entry.2.mirror) :=
    gather_mirror typeImages methodImages Modification.mirror fun verdict => by
      cases verdict <;> rfl
  simp only [id, Prod.eta, List.map_id'] at added removed
  simp only [compare, forward, backward, added, removed, modified, unchanged, Result.mirror]

theorem compare_mirror_at_samples :
    let before := Snapshot.create "before" earlierUnits
    let after := Snapshot.create "after" laterUnits
    PlainNames before ∧ PlainNames after ∧
      compare after before .type = (compare before after .type).mirror ∧
      compare after before .method = (compare before after .method).mirror ∧
      (compare after before .method).listed .added = ["crate::Gone", "crate::Kept::leave"] ∧
      (get? "crate::Grown" (compare after before .method).modified).map
        (fun change => change.changes.fields) =
          some { added := [], removed := ["size"], changed := [] } := by
  intro before after
  have plain : ∀ snapshot ∈ [before, after],
      (∀ unit ∈ snapshot.units, ∀ type ∈ unit.types, ∀ field ∈ type.fields,
        field.name ∉ Record.inheritedNames) ∧
      ∀ entry ∈ ownedImpls snapshot, ∀ method ∈ entry.impl.methods,
        methodKey method.name entry.traitName ∉ Record.inheritedNames := by
    decide +kernel
  have beforePlain : PlainNames before :=
    ⟨(plain before (by simp)).1, (plain before (by simp)).2⟩
  have afterPlain : PlainNames after := ⟨(plain after (by simp)).1, (plain after (by simp)).2⟩
  have listed : (compare after before .method).listed .added =
        ["crate::Gone", "crate::Kept::leave"] ∧
      (get? "crate::Grown" (compare after before .method).modified).map
        (fun change => change.changes.fields) =
          some { added := [], removed := ["size"], changed := [] } := by
    decide +kernel
  exact ⟨beforePlain, afterPlain, compare_mirror beforePlain afterPlain .type,
    compare_mirror beforePlain afterPlain .method, listed⟩

end Snapshots

end CrateAtlas.Diff
