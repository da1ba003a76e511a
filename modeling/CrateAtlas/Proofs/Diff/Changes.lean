import CrateAtlas.Diff
import CrateAtlas.Proofs.Extracted
import CrateAtlas.Proofs.Maps

/-!
What the comparison of two types reports. Records are compared by name, and a record answers to
some names that it never stored. Main statement: the comparison of two types reports exactly
what differs if and only if no such name belongs to one of the two types alone.
-/

namespace CrateAtlas.Diff

open OrderedMap

/-- A change of records that lists the names of the later one only, of the earlier one only,
and of both with different values. -/
structure SetChange.Exact (change : SetChange) (before after : List (String × String)) :
    Prop where
  added_iff : ∀ name, name ∈ change.added ↔ name ∈ keys after ∧ name ∉ keys before
  removed_iff : ∀ name, name ∈ change.removed ↔ name ∈ keys before ∧ name ∉ keys after
  changed_iff : ∀ name, name ∈ change.changed ↔
    name ∈ keys before ∧ name ∈ keys after ∧ get? name before ≠ get? name after

section Records

variable {before after : List (String × String)} {name : String}

theorem mem_added_iff :
    name ∈ (compareRecords before after).added ↔
      name ∈ keys after ∧ name ∉ keys before ∧ name ∉ Record.inheritedNames := by
  simp only [compareRecords, Text.mem_sortTexts, List.mem_filter, Record.mem_names,
    Bool.not_eq_true', ← Bool.not_eq_true, Record.answersTo_iff, not_or]

theorem mem_removed_iff :
    name ∈ (compareRecords before after).removed ↔
      name ∈ keys before ∧ name ∉ keys after ∧ name ∉ Record.inheritedNames := by
  simp only [compareRecords, Text.mem_sortTexts, List.mem_filter, Record.mem_names,
    Bool.not_eq_true', ← Bool.not_eq_true, Record.answersTo_iff, not_or]

theorem mem_changed_iff :
    name ∈ (compareRecords before after).changed ↔
      name ∈ keys after ∧ (name ∈ keys before ∨ name ∈ Record.inheritedNames) ∧
        get? name before ≠ get? name after := by
  simp only [compareRecords, Text.mem_sortTexts, List.mem_filter, Record.mem_names,
    Record.answersTo_iff, decide_eq_true_eq, and_assoc]

structure SetChange.Ascending (change : SetChange) : Prop where
  added : Text.Ascending change.added
  removed : Text.Ascending change.removed
  changed : Text.Ascending change.changed

theorem SetChange.Ascending.eq_of_mem_iff {left right : SetChange}
    (leftAscending : left.Ascending) (rightAscending : right.Ascending)
    (added : ∀ name, name ∈ left.added ↔ name ∈ right.added)
    (removed : ∀ name, name ∈ left.removed ↔ name ∈ right.removed)
    (changed : ∀ name, name ∈ left.changed ↔ name ∈ right.changed) : left = right := by
  have addedSame := leftAscending.added.eq_of_mem_iff rightAscending.added added
  have removedSame := leftAscending.removed.eq_of_mem_iff rightAscending.removed removed
  have changedSame := leftAscending.changed.eq_of_mem_iff rightAscending.changed changed
  cases left
  cases right
  simp_all only

theorem ascending_compareRecords (beforeDistinct : (keys before).Nodup)
    (afterDistinct : (keys after).Nodup) : (compareRecords before after).Ascending where
  added := Text.ascending_sortTexts ((Record.nodup_names afterDistinct).filter _)
  removed := Text.ascending_sortTexts ((Record.nodup_names beforeDistinct).filter _)
  changed := Text.ascending_sortTexts (((Record.nodup_names afterDistinct).filter _).filter _)

def SameInherited (before after : List (String × String)) : Prop :=
  ∀ name ∈ Record.inheritedNames, name ∈ keys before ↔ name ∈ keys after

theorem exact_of_sameInherited (same : SameInherited before after) :
    (compareRecords before after).Exact before after where
  added_iff name := by
    rw [mem_added_iff]
    constructor
    · rintro ⟨present, missing, _⟩
      exact ⟨present, missing⟩
    · rintro ⟨present, missing⟩
      exact ⟨present, missing, fun inherited => missing ((same name inherited).mpr present)⟩
  removed_iff name := by
    rw [mem_removed_iff]
    constructor
    · rintro ⟨present, missing, _⟩
      exact ⟨present, missing⟩
    · rintro ⟨present, missing⟩
      exact ⟨present, missing, fun inherited => missing ((same name inherited).mp present)⟩
  changed_iff name := by
    rw [mem_changed_iff]
    constructor
    · rintro ⟨present, stored | inherited, different⟩
      · exact ⟨stored, present, different⟩
      · exact ⟨(same name inherited).mpr present, present, different⟩
    · rintro ⟨stored, present, different⟩
      exact ⟨present, .inl stored, different⟩

theorem sameInherited_of_exact (exact : (compareRecords before after).Exact before after) :
    SameInherited before after := by
  intro name inherited
  constructor
  · intro present
    by_contra missing
    have removed := (exact.removed_iff name).mpr ⟨present, missing⟩
    exact (mem_removed_iff.mp removed).2.2 inherited
  · intro present
    by_contra missing
    have added := (exact.added_iff name).mpr ⟨present, missing⟩
    exact (mem_added_iff.mp added).2.2 inherited

theorem sameInherited_of_lookups (same : ∀ name, get? name before = get? name after) :
    SameInherited before after := by
  intro name _
  rw [mem_keys_iff_isSome, mem_keys_iff_isSome, same]

theorem SetChange.isEmpty_iff (change : SetChange) :
    change.isEmpty ↔ ∀ name, name ∉ change.added ∧ name ∉ change.removed ∧
      name ∉ change.changed := by
  simp only [SetChange.isEmpty, Bool.and_eq_true, List.isEmpty_iff, List.eq_nil_iff_forall_not_mem]
  constructor
  · rintro ⟨⟨added, removed⟩, changed⟩ name
    exact ⟨added name, removed name, changed name⟩
  · intro none
    exact ⟨⟨fun name => (none name).1, fun name => (none name).2.1⟩,
      fun name => (none name).2.2⟩

theorem SetChange.Exact.isEmpty_iff {change : SetChange} (exact : change.Exact before after) :
    change.isEmpty ↔ ∀ name, get? name before = get? name after := by
  rw [SetChange.isEmpty_iff]
  refine forall_congr' fun name => ?_
  rw [exact.added_iff, exact.removed_iff, exact.changed_iff, mem_keys_iff_isSome,
    mem_keys_iff_isSome]
  cases get? name before <;> cases get? name after <;> simp

end Records

section Types

def fieldRecord (fields : List Field) : List (String × String) :=
  Record.ofPairs (fields.map fun field => (field.name, field.typeText))

/-- Two types that differ in nothing but the order of what they list. -/
structure SameType (before after : TypeEntity) : Prop where
  kind : before.kind = after.kind
  visibility : before.visibility = after.visibility
  traits : ∀ trait, trait ∈ before.traits ↔ trait ∈ after.traits
  fields : ∀ name, get? name (fieldRecord before.fields) = get? name (fieldRecord after.fields)
  methods : ∀ key, get? key before.methods = get? key after.methods

/-- A comparison of two types that stays silent for equal types only, and otherwise lists the
fields and methods that one of them lacks or that differ. -/
structure ReportsExactly (before after : TypeEntity) : Prop where
  silent_iff : compareTypes before after = none ↔ SameType before after
  fields : ∀ detail, compareTypes before after = some detail →
    detail.fields.Exact (fieldRecord before.fields) (fieldRecord after.fields)
  methods : ∀ detail, compareTypes before after = some detail →
    detail.methods.Exact before.methods after.methods

theorem valueChange?_isNone {before after : String} :
    (valueChange? before after).isNone ↔ before = after := by
  simp only [valueChange?]
  split <;> simp_all

theorem compareSets_isEmpty {before after : List String} :
    (compareSets before after).isEmpty ↔ ∀ member, member ∈ before ↔ member ∈ after := by
  rw [SetChange.isEmpty_iff]
  refine forall_congr' fun member => ?_
  simp only [compareSets, Text.mem_sortTexts, List.mem_filter, Bool.not_eq_true',
    List.contains_eq_mem, decide_eq_false_iff_not, List.not_mem_nil, not_false_eq_true, and_true]
  tauto

variable {before after : TypeEntity}

theorem compareTypes_eq_none_iff :
    compareTypes before after = none ↔ (typeChanges before after).isEmpty := by
  simp only [compareTypes]
  split <;> simp_all

theorem compareTypes_eq_some {detail : ChangeDetail}
    (changed : compareTypes before after = some detail) :
    detail = typeChanges before after := by
  simp only [compareTypes] at changed
  split at changed
  · simp at changed
  · exact (Option.some.inj changed).symm

theorem sameType_iff_isEmpty
    (fields : SameInherited (fieldRecord before.fields) (fieldRecord after.fields))
    (methods : SameInherited before.methods after.methods) :
    (typeChanges before after).isEmpty ↔ SameType before after := by
  have fieldsExact := (exact_of_sameInherited fields).isEmpty_iff
  have methodsExact := (exact_of_sameInherited methods).isEmpty_iff
  have traits : (compareSets before.traits after.traits).isEmpty ↔ _ := compareSets_isEmpty
  simp only [ChangeDetail.isEmpty, typeChanges, Bool.and_eq_true, valueChange?_isNone,
    TypeKind.label_injective.eq_iff, Visibility.label_injective.eq_iff, Option.isNone_none]
  constructor
  · rintro ⟨⟨⟨⟨⟨kind, visibility⟩, _⟩, noFields⟩, noMethods⟩, noTraits⟩
    exact ⟨kind, visibility, traits.mp noTraits, fieldsExact.mp noFields,
      methodsExact.mp noMethods⟩
  · intro same
    exact ⟨⟨⟨⟨⟨same.kind, same.visibility⟩, trivial⟩, fieldsExact.mpr same.fields⟩,
      methodsExact.mpr same.methods⟩, traits.mpr same.traits⟩

theorem compareTypes_of_sameType (same : SameType before after) :
    compareTypes before after = none := by
  have fields := sameInherited_of_lookups same.fields
  have methods := sameInherited_of_lookups same.methods
  exact compareTypes_eq_none_iff.mpr ((sameType_iff_isEmpty fields methods).mpr same)

/-- The comparison of two types is exact if and only if they have the same inherited names
among their fields, and among the keys of their methods. -/
theorem compareTypes_exact_iff (before after : TypeEntity) :
    ReportsExactly before after ↔
      SameInherited (fieldRecord before.fields) (fieldRecord after.fields) ∧
        SameInherited before.methods after.methods := by
  constructor
  · intro exact
    cases outcome : compareTypes before after with
    | none =>
        have same := exact.silent_iff.mp outcome
        exact ⟨sameInherited_of_lookups same.fields, sameInherited_of_lookups same.methods⟩
    | some detail =>
        have fields := exact.fields detail outcome
        have methods := exact.methods detail outcome
        rw [compareTypes_eq_some outcome] at fields methods
        exact ⟨sameInherited_of_exact fields, sameInherited_of_exact methods⟩
  · rintro ⟨fields, methods⟩
    constructor
    · rw [compareTypes_eq_none_iff]
      exact sameType_iff_isEmpty fields methods
    · intro detail outcome
      rw [compareTypes_eq_some outcome]
      exact exact_of_sameInherited fields
    · intro detail outcome
      rw [compareTypes_eq_some outcome]
      exact exact_of_sameInherited methods

def plainPoint (fields : List Field) : TypeEntity :=
  { identity := "crate::Point"
    kind := .struct
    visibility := .hidden
    fields := fields
    traits := []
    methods := [] }

def entitiesOf (text : String) : List (String × TypeEntity) :=
  (collectEntities (Snapshot.create "" (Extraction.unitsOf 0 [("src/lib.rs", text)]))).types

/-- A field that goes by an inherited name is removed without a trace. -/
theorem compareTypes_overlooks_constructor :
    let before := plainPoint [{ name := "constructor", typeText := "u32" }]
    let after := plainPoint []
    get? "crate::Point" (entitiesOf "struct Point \x7b constructor: u32 \x7d") = some before ∧
      get? "crate::Point" (entitiesOf "struct Point \x7b\x7d") = some after ∧
      compareTypes before after = none ∧ ¬SameType before after ∧
      ¬ReportsExactly before after := by
  intro before after
  have different : ¬SameType before after := fun same =>
    absurd (same.fields "constructor") (by decide)
  have silent : compareTypes before after = none := by decide +kernel
  refine ⟨by decide +kernel, by decide +kernel, silent, different, ?_⟩
  intro exact
  exact different (exact.silent_iff.mp silent)

end Types

end CrateAtlas.Diff
