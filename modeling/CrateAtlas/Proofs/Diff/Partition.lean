import CrateAtlas.Diff
import CrateAtlas.Proofs.Diff.Entities
import CrateAtlas.Proofs.Extracted

/-!
A comparison sorts the identities of two snapshots into four buckets. Main statement: every
identity of either side is in exactly one bucket, and nothing else is in any.
-/

namespace CrateAtlas.Diff

open OrderedMap

inductive Bucket where
  | added
  | removed
  | modified
  | unchanged
  deriving DecidableEq, Repr

def Result.listed (result : Result) : Bucket → List String
  | .added => keys result.added
  | .removed => keys result.removed
  | .modified => keys result.modified
  | .unchanged => result.unchanged

def Verdict.bucket : Verdict → Bucket
  | .added _ => .added
  | .removed _ => .removed
  | .modified _ => .modified
  | .unchanged => .unchanged

/-- What becomes of an identity that stands for these entities before and after. -/
def judge (wrap : α → Entity) (compare : α → α → Option ChangeDetail) :
    Option α → Option α → Option Verdict
  | some old, some new =>
      match compare old new with
      | some changes =>
          some (.modified { before := some (wrap old), after := some (wrap new),
                            changes := changes })
      | none => some .unchanged
  | none, some new => some (.added (wrap new))
  | some old, none => some (.removed (wrap old))
  | none, none => none

section Verdicts

variable (wrap : α → Entity) (compare : α → α → Option ChangeDetail)
  (before after : List (String × α))

theorem verdicts_eq_tabulate :
    verdicts wrap compare before after =
      tabulate (fun identity => judge wrap compare (get? identity before) (get? identity after))
        (distinct (keys before ++ keys after)) := by
  refine List.filterMap_congr ?_
  intro identity _
  dsimp only
  cases get? identity before with
  | none => cases get? identity after <;> rfl
  | some old =>
      cases get? identity after with
      | none => rfl
      | some new =>
          simp only [judge]
          cases compare old new <;> rfl

theorem nodup_keys_verdicts : (keys (verdicts wrap compare before after)).Nodup := by
  rw [verdicts_eq_tabulate]
  exact (keys_tabulate_sublist _ _).nodup (nodup_distinct _)

theorem get?_verdicts (identity : String) :
    get? identity (verdicts wrap compare before after) =
      judge wrap compare (get? identity before) (get? identity after) := by
  rw [verdicts_eq_tabulate, get?_tabulate]
  split
  · rfl
  · rename_i absent
    simp only [mem_distinct, List.mem_append, not_or] at absent
    rw [get?_eq_none_iff.mpr absent.1, get?_eq_none_iff.mpr absent.2]
    rfl

variable {wrap : α → Entity} {compare : α → α → Option ChangeDetail} {before after : List (String × α)}

def Silent (compare : α → α → Option ChangeDetail) (before after : List (String × α)) : Prop :=
  ∀ identity, Option.Rel (fun old new => compare old new = none) (get? identity before)
    (get? identity after)

theorem judge_of_silent {old new : Option α}
    (silent : Option.Rel (fun old new => compare old new = none) old new) :
    judge wrap compare old new = old.map fun _ => .unchanged := by
  cases silent with
  | none => rfl
  | some quiet => simp only [judge, quiet, Option.map_some]

theorem Silent.unchanged (silent : Silent compare before after) {identity : String}
    {verdict : Verdict} (member : (identity, verdict) ∈ verdicts wrap compare before after) :
    verdict = .unchanged := by
  have judged := get?_of_mem (nodup_keys_verdicts wrap compare before after) member
  rw [get?_verdicts, judge_of_silent (silent identity), Option.map_eq_some_iff] at judged
  obtain ⟨_, _, same⟩ := judged
  exact same.symm

theorem Silent.keys_perm (silent : Silent compare before after)
    (distinct : (keys before).Nodup) : (keys (verdicts wrap compare before after)).Perm
      (keys before) := by
  refine (List.perm_ext_iff_of_nodup (nodup_keys_verdicts _ _ _ _) distinct).mpr ?_
  intro identity
  rw [mem_keys_iff_isSome, mem_keys_iff_isSome, get?_verdicts, judge_of_silent (silent identity),
    Option.isSome_map]

end Verdicts

section Gather

variable {pick : Verdict → Option α} {found : List (String × Verdict)}

theorem gather_eq_sorted (pick : Verdict → Option α) (found : List (String × Verdict)) :
    gather pick found = Record.sorted (fill ((mapValues (fun _ => pick) found).filter
      fun pair => pair.1 ≠ Record.unassignable) []) := by
  rw [← Record.foldl_assign_eq_fill, mapValues, List.foldl_filterMap, gather]
  congr 2
  funext record entry
  cases pick entry.2 <;> rfl

theorem get?_gather_append (pick : Verdict → Option α) {types methods : List (String × Verdict)}
    (typesUnique : (keys types).Nodup) (methodsUnique : (keys methods).Nodup) (identity : String) :
    get? identity (gather pick (types ++ methods)) =
      if Record.unassignable = identity then none
      else ((get? identity methods).bind pick).or ((get? identity types).bind pick) := by
  have found : ∀ {verdicts : List (String × Verdict)}, (keys verdicts).Nodup →
      get? identity (mapValues (fun _ => pick) verdicts).reverse =
        (get? identity verdicts).bind pick := by
    intro verdicts unique
    rw [get?_reverse ((keys_mapValues_sublist _ _).nodup unique), get?_mapValues _ unique]
  have spread : mapValues (fun _ => pick) (types ++ methods) =
      mapValues (fun _ => pick) types ++ mapValues (fun _ => pick) methods :=
    List.filterMap_append
  rw [gather_eq_sorted, Record.get?_sorted (nodup_keys_filled _), get?_fill, get?_nil,
    Option.or_none, ← List.filter_reverse, get?_without, spread, List.reverse_append, get?_append,
    found typesUnique, found methodsUnique]

theorem get?_gather (unique : (keys found).Nodup)
    (assignable : Record.unassignable ∉ keys found) (identity : String) :
    get? identity (gather pick found) = (get? identity found).bind pick := by
  have nothing : (keys ([] : List (String × Verdict))).Nodup := List.nodup_nil
  have alone := get?_gather_append pick unique nothing identity
  rw [List.append_nil] at alone
  rw [alone]
  split
  · rename_i refused
    rw [← refused, get?_eq_none_iff.mpr assignable]
    rfl
  · rfl

theorem ascending_gather : Text.Ascending (keys (gather pick found)) := by
  rw [gather_eq_sorted]
  exact Record.ascending_keys_sorted (nodup_keys_filled _)

theorem mem_keys_gather {bucket : Bucket}
    (picked : ∀ verdict, (pick verdict).isSome ↔ verdict.bucket = bucket)
    (unique : (keys found).Nodup) (assignable : Record.unassignable ∉ keys found)
    (name : String) :
    name ∈ keys (gather pick found) ↔
      ∃ verdict, get? name found = some verdict ∧ verdict.bucket = bucket := by
  rw [mem_keys_iff_isSome, get?_gather unique assignable]
  cases get? name found with
  | none => simp
  | some verdict => simp [picked]

theorem picked_of_mem_gather {name : String} (member : name ∈ keys (gather pick found)) :
    ∃ verdict, (name, verdict) ∈ found ∧ (pick verdict).isSome := by
  rw [gather_eq_sorted, keys, ((Record.sorted_perm _).map Prod.fst).mem_iff] at member
  have filled := mem_keys_fill.mp member
  simp only [keys, List.mem_map, List.mem_filter, mapValues, List.mem_filterMap,
    Option.map_eq_some_iff] at filled
  obtain ⟨_, ⟨⟨⟨_, verdict⟩, stored, value, picked, rfl⟩, _⟩, rfl⟩ := filled
  exact ⟨verdict, stored, by simp [picked]⟩

theorem gather_eq_nil (unpicked : ∀ name verdict, (name, verdict) ∈ found → pick verdict = none) :
    gather pick found = [] := by
  rw [List.eq_nil_iff_forall_not_mem]
  intro entry member
  obtain ⟨verdict, stored, picked⟩ := picked_of_mem_gather (List.mem_map_of_mem member)
  simp [unpicked _ verdict stored] at picked

end Gather

/-- Whether a verdict fits an identity that stands on these sides. -/
def Fits (before after : Prop) : Option Verdict → Prop
  | none => ¬before ∧ ¬after
  | some (.added _) => ¬before ∧ after
  | some (.removed _) => before ∧ ¬after
  | some (.modified _) => before ∧ after
  | some .unchanged => before ∧ after

/-- Verdicts on the identities of two sides, one for each of them. -/
structure Judged (found : List (String × Verdict)) (before after : List String) : Prop where
  unique : (keys found).Nodup
  fits : ∀ name, Fits (name ∈ before) (name ∈ after) (get? name found)

theorem judged_verdicts (wrap : α → Entity) (compare : α → α → Option ChangeDetail)
    (before after : List (String × α)) :
    Judged (verdicts wrap compare before after) (keys before) (keys after) where
  unique := nodup_keys_verdicts wrap compare before after
  fits name := by
    rw [get?_verdicts, mem_keys_iff_isSome, mem_keys_iff_isSome]
    cases get? name before with
    | none => cases get? name after <;> simp [judge, Fits]
    | some old =>
        cases get? name after with
        | none => simp [judge, Fits]
        | some new =>
            simp only [judge]
            cases compare old new <;> simp [Fits]

theorem Fits.judged_iff {before after : Prop} {verdict : Option Verdict}
    (fits : Fits before after verdict) : verdict.isSome ↔ before ∨ after := by
  cases verdict with
  | none => simp_all [Fits]
  | some verdict => cases verdict <;> simp_all [Fits]

theorem Fits.added_iff {before after : Prop} {verdict : Option Verdict}
    (fits : Fits before after verdict) :
    (∃ found, verdict = some found ∧ found.bucket = .added) ↔ after ∧ ¬before := by
  cases verdict with
  | none => simp_all [Fits]
  | some verdict => cases verdict <;> simp_all [Fits, Verdict.bucket]

theorem Fits.removed_iff {before after : Prop} {verdict : Option Verdict}
    (fits : Fits before after verdict) :
    (∃ found, verdict = some found ∧ found.bucket = .removed) ↔ before ∧ ¬after := by
  cases verdict with
  | none => simp_all [Fits]
  | some verdict => cases verdict <;> simp_all [Fits, Verdict.bucket]

theorem Judged.mem_keys_iff {found : List (String × Verdict)} {before after : List String}
    (judged : Judged found before after) (name : String) :
    name ∈ keys found ↔ name ∈ before ∨ name ∈ after := by
  rw [mem_keys_iff_isSome]
  exact (judged.fits name).judged_iff

theorem Judged.append {types methods : List (String × Verdict)}
    {before after beforeMethods afterMethods : List String}
    (judgedTypes : Judged types before after)
    (judgedMethods : Judged methods beforeMethods afterMethods)
    (disjoint : ∀ name, name ∈ beforeMethods ∨ name ∈ afterMethods →
      name ∉ before ∧ name ∉ after) :
    Judged (types ++ methods) (before ++ beforeMethods) (after ++ afterMethods) where
  unique := by
    rw [keys_append, List.nodup_append]
    refine ⟨judgedTypes.unique, judgedMethods.unique, ?_⟩
    rintro name type _ method rfl
    have typeSide := (judgedTypes.fits name).judged_iff.mp (mem_keys_iff_isSome.mp type)
    have methodSide := (judgedMethods.fits name).judged_iff.mp (mem_keys_iff_isSome.mp method)
    exact typeSide.elim (disjoint name methodSide).1 (disjoint name methodSide).2
  fits name := by
    have typeFits := judgedTypes.fits name
    rw [get?_append, List.mem_append, List.mem_append]
    cases lookup : get? name types with
    | none =>
        rw [lookup] at typeFits
        simpa [typeFits.1, typeFits.2] using judgedMethods.fits name
    | some verdict =>
        have typeSide : name ∈ before ∨ name ∈ after := typeFits.judged_iff.mp (by simp [lookup])
        have noMethod : ¬(name ∈ beforeMethods ∨ name ∈ afterMethods) := fun methodSide =>
          typeSide.elim (disjoint name methodSide).1 (disjoint name methodSide).2
        rw [not_or] at noMethod
        rw [lookup] at typeFits
        simpa [noMethod.1, noMethod.2] using typeFits

/-- A result that puts every identity of two sides into exactly one bucket and holds nothing
else. -/
structure Result.Partitions (result : Result) (before after : List String) : Prop where
  exactlyOne : ∀ name, name ∈ before ∨ name ∈ after → ∃! bucket, name ∈ result.listed bucket
  nothingElse : ∀ name bucket, name ∈ result.listed bucket → name ∈ before ∨ name ∈ after
  added_iff : ∀ name, name ∈ result.listed .added ↔ name ∈ after ∧ name ∉ before
  removed_iff : ∀ name, name ∈ result.listed .removed ↔ name ∈ before ∧ name ∉ after
  ascending : ∀ bucket, Text.Ascending (result.listed bucket)

section Compare

variable {old new : Snapshot} {granularity : Granularity}

theorem mem_listed
    (unique : (keys (allVerdicts granularity (collectEntities old)
      (collectEntities new))).Nodup)
    (assignable : Record.unassignable ∉ keys (allVerdicts granularity (collectEntities old)
      (collectEntities new)))
    (name : String) (bucket : Bucket) :
    name ∈ (compare old new granularity).listed bucket ↔
      ∃ verdict, get? name (allVerdicts granularity (collectEntities old)
        (collectEntities new)) = some verdict ∧ verdict.bucket = bucket := by
  cases bucket with
  | added =>
      refine mem_keys_gather ?_ unique assignable name
      intro verdict
      cases verdict <;> simp [addedEntity?, Verdict.bucket]
  | removed =>
      refine mem_keys_gather ?_ unique assignable name
      intro verdict
      cases verdict <;> simp [removedEntity?, Verdict.bucket]
  | modified =>
      refine mem_keys_gather ?_ unique assignable name
      intro verdict
      cases verdict <;> simp [modification?, Verdict.bucket]
  | unchanged =>
      simp only [Result.listed, compare, Text.mem_sortTexts, List.mem_map, List.mem_filter]
      constructor
      · rintro ⟨⟨_, verdict⟩, ⟨member, unchanged⟩, rfl⟩
        refine ⟨verdict, get?_of_mem unique member, ?_⟩
        cases verdict <;> simp_all [isUnchanged, Verdict.bucket]
      · rintro ⟨verdict, lookup, unchanged⟩
        refine ⟨(name, verdict), ⟨mem_of_get? lookup, ?_⟩, rfl⟩
        cases verdict <;> simp_all [isUnchanged, Verdict.bucket]

theorem ascending_listed
    (unique : (keys (allVerdicts granularity (collectEntities old)
      (collectEntities new))).Nodup) (bucket : Bucket) :
    Text.Ascending ((compare old new granularity).listed bucket) := by
  cases bucket with
  | added => exact ascending_gather
  | removed => exact ascending_gather
  | modified => exact ascending_gather
  | unchanged => exact Text.ascending_sortTexts ((List.filter_sublist.map Prod.fst).nodup unique)

theorem partitions_of_judged {before after : List String}
    (judged : Judged (allVerdicts granularity (collectEntities old) (collectEntities new))
      before after)
    (assignable : ∀ name, name ∈ before ∨ name ∈ after → name ≠ Record.unassignable) :
    (compare old new granularity).Partitions before after := by
  have settled := judged.mem_keys_iff
  have listed := mem_listed judged.unique fun refused =>
    assignable _ ((settled _).mp refused) rfl
  constructor
  · intro name side
    obtain ⟨verdict, lookup⟩ := mem_keys_iff.mp ((settled name).mpr side)
    refine ⟨verdict.bucket, (listed name _).mpr ⟨verdict, lookup, rfl⟩, ?_⟩
    intro bucket member
    obtain ⟨other, lookupOther, rfl⟩ := (listed name bucket).mp member
    rw [Option.some.inj (lookup.symm.trans lookupOther)]
  · intro name bucket member
    obtain ⟨verdict, lookup, _⟩ := (listed name bucket).mp member
    exact (settled name).mp (mem_keys_iff.mpr ⟨verdict, lookup⟩)
  · intro name
    rw [listed]
    exact (judged.fits name).added_iff
  · intro name
    rw [listed]
    exact (judged.fits name).removed_iff
  · exact ascending_listed judged.unique

end Compare

/-- Units of different files in which every type is named by a path. -/
structure WellNamed (units : List SourceUnit) : Prop where
  distinctFiles : (units.map SourceUnit.filePath).Nodup
  qualified : ∀ unit ∈ units, ∀ type ∈ unit.types,
    Text.hasPart "::" type.qualifiedName.toList

theorem colon_mem_of_hasPart {text : List Char} (found : Text.hasPart "::" text) :
    ':' ∈ text := by
  induction text with
  | nil => simp [Text.hasPart] at found
  | cons first rest ih =>
      simp only [Text.hasPart, Bool.or_eq_true] at found
      rcases found with here | later
      · exact (List.isPrefixOf_iff_prefix.mp here).subset (by decide)
      · exact List.mem_cons_of_mem _ (ih later)

theorem ne_unassignable_of_colon {name : String} (colon : ':' ∈ name.toList) :
    name ≠ Record.unassignable := by
  rintro rfl
  revert colon
  decide

theorem WellNamed.registered_ne {units : List SourceUnit} (named : WellNamed units)
    {root name : String} (registered : name ∈ keys (Snapshot.create root units).registry) :
    name ≠ Record.unassignable := by
  obtain ⟨file, entry⟩ := mem_keys_iff.mp registered
  obtain ⟨unit, member, type, typeMember, rfl, _⟩ := Snapshot.declared_of_registered entry
  have qualified := named.qualified unit member type typeMember
  exact ne_unassignable_of_colon (colon_mem_of_hasPart qualified)

theorem methodIdentity_ne {snapshot : Snapshot} {name : String}
    (member : name ∈ methodIdentities snapshot) : name ≠ Record.unassignable := by
  obtain ⟨entry, _, method, _, rfl⟩ := mem_methodIdentities.mp member
  apply ne_unassignable_of_colon
  simp [OwnedImpl.identityOf]

def TypeEntity.withoutMethods (entity : TypeEntity) : TypeEntity :=
  { entity with methods := [] }

theorem keys_withoutMethods (types : List (String × TypeEntity)) :
    keys (withoutMethods types) = keys types :=
  keys_map_values TypeEntity.withoutMethods types

theorem get?_withoutMethods (name : String) (types : List (String × TypeEntity)) :
    get? name (withoutMethods types) = (get? name types).map TypeEntity.withoutMethods :=
  get?_map_values TypeEntity.withoutMethods name types

theorem WellNamed.typeIdentity_ne {units : List SourceUnit} (named : WellNamed units)
    {root name : String} (member : name ∈ typeIdentities (Snapshot.create root units)) :
    name ≠ Record.unassignable := by
  rw [typeIdentities_create root named.distinctFiles] at member
  exact named.registered_ne member

theorem judged_methods {before after : Snapshot}
    (disjoint : ∀ name, name ∈ methodIdentities before ∨ name ∈ methodIdentities after →
      name ∉ typeIdentities before ∧ name ∉ typeIdentities after) :
    Judged (allVerdicts .method (collectEntities before) (collectEntities after))
      (typeIdentities before ++ methodIdentities before)
      (typeIdentities after ++ methodIdentities after) := by
  refine Judged.append ?_ (judged_verdicts _ _ _ _) disjoint
  have judged := judged_verdicts Entity.type compareTypes
    (withoutMethods (collectEntities before).types)
    (withoutMethods (collectEntities after).types)
  rw [keys_withoutMethods, keys_withoutMethods] at judged
  exact judged

/-- Every identity of two snapshots is in exactly one bucket of their comparison: the types of
their registries, and at the granularity of methods also the methods, as long as no method
shares its identity with a type. -/
theorem compare_partitions {oldUnits newUnits : List SourceUnit} (old : WellNamed oldUnits)
    (new : WellNamed newUnits) (oldRoot newRoot : String) :
    let before := Snapshot.create oldRoot oldUnits
    let after := Snapshot.create newRoot newUnits
    (compare before after .type).Partitions (keys before.registry) (keys after.registry) ∧
      ((∀ name, name ∈ methodIdentities before ∨ name ∈ methodIdentities after →
          name ∉ typeIdentities before ∧ name ∉ typeIdentities after) →
        (compare before after .method).Partitions
          (typeIdentities before ++ methodIdentities before)
          (typeIdentities after ++ methodIdentities after)) := by
  intro before after
  have typeAssignable : ∀ name, name ∈ typeIdentities before ∨ name ∈ typeIdentities after →
      name ≠ Record.unassignable := by
    rintro name (first | second)
    · exact old.typeIdentity_ne first
    · exact new.typeIdentity_ne second
  constructor
  · rw [← typeIdentities_create oldRoot old.distinctFiles,
      ← typeIdentities_create newRoot new.distinctFiles]
    exact partitions_of_judged (judged_verdicts _ _ _ _) typeAssignable
  · intro disjoint
    refine partitions_of_judged (judged_methods disjoint) ?_
    simp only [List.mem_append]
    rintro name ((type | method) | (type | method))
    · exact typeAssignable name (.inl type)
    · exact methodIdentity_ne method
    · exact typeAssignable name (.inr type)
    · exact methodIdentity_ne method

def earlierUnits : List SourceUnit :=
  Extraction.unitsOf 0
    [("src/lib.rs", "struct Kept; struct Grown; struct Gone;\n" ++
      "impl Kept \x7b fn stay() \x7b\x7d fn leave() \x7b\x7d \x7d")]

def laterUnits : List SourceUnit :=
  Extraction.unitsOf 0
    [("src/lib.rs", "struct Kept; struct Grown \x7b size: u8 \x7d"),
      ("src/fresh.rs", "struct Born;\n" ++
        "impl crate::Kept \x7b fn stay() \x7b\x7d fn come() \x7b\x7d \x7d")]

theorem compare_partitions_at_samples :
    let before := Snapshot.create "before" earlierUnits
    let after := Snapshot.create "after" laterUnits
    (compare before after .type).Partitions (keys before.registry) (keys after.registry) ∧
      (compare before after .method).Partitions
        (typeIdentities before ++ methodIdentities before)
        (typeIdentities after ++ methodIdentities after) ∧
      (compare before after .method).listed .added = ["crate::Kept::come", "crate::fresh::Born"] ∧
      (compare before after .method).listed .removed = ["crate::Gone", "crate::Kept::leave"] ∧
      (compare before after .method).listed .modified = ["crate::Grown"] ∧
      (compare before after .method).listed .unchanged =
        ["crate::Kept", "crate::Kept::stay"] := by
  intro before after
  have facts :
      ((earlierUnits.map SourceUnit.filePath).Nodup ∧ ∀ unit ∈ earlierUnits,
        ∀ type ∈ unit.types, Text.hasPart "::" type.qualifiedName.toList) ∧
      ((laterUnits.map SourceUnit.filePath).Nodup ∧ ∀ unit ∈ laterUnits,
        ∀ type ∈ unit.types, Text.hasPart "::" type.qualifiedName.toList) ∧
      (∀ name ∈ methodIdentities before ++ methodIdentities after,
        name ∉ typeIdentities before ∧ name ∉ typeIdentities after) ∧
      (compare before after .method).listed .added = ["crate::Kept::come", "crate::fresh::Born"] ∧
      (compare before after .method).listed .removed = ["crate::Gone", "crate::Kept::leave"] ∧
      (compare before after .method).listed .modified = ["crate::Grown"] ∧
      (compare before after .method).listed .unchanged =
        ["crate::Kept", "crate::Kept::stay"] := by
    decide +kernel
  obtain ⟨earlier, later, disjoint, listed⟩ := facts
  have old : WellNamed earlierUnits := ⟨earlier.1, earlier.2⟩
  have new : WellNamed laterUnits := ⟨later.1, later.2⟩
  obtain ⟨types, methods⟩ := compare_partitions old new "before" "after"
  exact ⟨types, methods fun name side => disjoint name (List.mem_append.mpr side), listed⟩

end CrateAtlas.Diff
