import CrateAtlas.Proofs.Diff.Reordered

/-!
What a comparison does not look at. Main statement: a snapshot compared with one that has other
locations, other calls, other recorded return types and visibilities of methods, and its fields in
another order, is found unchanged, identity by identity.
-/

namespace CrateAtlas

/-- Fields may change places where their names are distinct. -/
structure TypeDefinition.Retouched (before after : TypeDefinition) : Prop where
  name : before.name = after.name
  qualifiedName : before.qualifiedName = after.qualifiedName
  kind : before.kind = after.kind
  visibility : before.visibility = after.visibility
  fields : before.fields = after.fields ∨
    (before.fields.map Field.name).Nodup ∧ before.fields.Perm after.fields

structure Method.Retouched (before after : Method) : Prop where
  name : before.name = after.name
  signature : before.signature = after.signature

structure ImplBlock.Retouched (before after : ImplBlock) : Prop where
  target : before.target = after.target
  traitName : before.traitName = after.traitName
  methods : List.Forall₂ Method.Retouched before.methods after.methods

structure SourceUnit.Retouched (before after : SourceUnit) : Prop where
  filePath : before.filePath = after.filePath
  modulePath : before.modulePath = after.modulePath
  imports : before.imports = after.imports
  types : List.Forall₂ TypeDefinition.Retouched before.types after.types
  impls : List.Forall₂ ImplBlock.Retouched before.impls after.impls

/-- Snapshots of one registry that differ, unit by unit, in locations, in calls, in the recorded
return types and visibilities of methods and in the order of fields. -/
structure Snapshot.Retouched (before after : Snapshot) : Prop where
  registry : before.registry = after.registry
  units : List.Forall₂ SourceUnit.Retouched before.units after.units

section Same

theorem TypeDefinition.Retouched.refl (type : TypeDefinition) : type.Retouched type :=
  ⟨rfl, rfl, rfl, rfl, .inl rfl⟩

theorem Method.Retouched.refl (method : Method) : method.Retouched method :=
  ⟨rfl, rfl⟩

theorem ImplBlock.Retouched.refl (impl : ImplBlock) : impl.Retouched impl :=
  ⟨rfl, rfl, List.forall₂_same.mpr fun method _ => .refl method⟩

theorem SourceUnit.Retouched.refl (unit : SourceUnit) : unit.Retouched unit :=
  ⟨rfl, rfl, rfl, List.forall₂_same.mpr fun type _ => .refl type,
    List.forall₂_same.mpr fun impl _ => .refl impl⟩

theorem Snapshot.Retouched.refl (snapshot : Snapshot) : snapshot.Retouched snapshot :=
  ⟨rfl, List.forall₂_same.mpr fun unit _ => .refl unit⟩

end Same

section Pairs

variable {related : α → β → Prop} {left : List α} {right : List β}

theorem map_eq_of_forall₂ {first : α → γ} {second : β → γ}
    (agree : ∀ value other, related value other → first value = second other)
    (pairs : List.Forall₂ related left right) : left.map first = right.map second := by
  induction pairs with
  | nil => rfl
  | cons same _ ih => rw [List.map_cons, List.map_cons, agree _ _ same, ih]

theorem flatMap_eq_of_forall₂ {first : α → List γ} {second : β → List γ}
    (agree : ∀ value other, related value other → first value = second other)
    (pairs : List.Forall₂ related left right) : left.flatMap first = right.flatMap second := by
  rw [List.flatMap_def, List.flatMap_def, map_eq_of_forall₂ agree pairs]

theorem rel_getLast? (pairs : List.Forall₂ related left right) :
    Option.Rel related left.getLast? right.getLast? := by
  rw [← List.head?_reverse, ← List.head?_reverse]
  have reversed := List.rel_reverse pairs
  generalize left.reverse = first, right.reverse = second at reversed
  cases reversed with
  | nil => exact .none
  | cons same _ => exact .some same

end Pairs

section Names

theorem SourceUnit.Retouched.sameNames {before after : SourceUnit}
    (retouched : before.Retouched after) : before.SameNames after where
  modulePath := retouched.modulePath
  imports := retouched.imports
  types := map_eq_of_forall₂
    (fun _ _ same => Prod.ext same.name same.qualifiedName) retouched.types

open Resolver

variable {before after : Snapshot}

theorem Snapshot.Retouched.sameNames (retouched : before.Retouched after) :
    (ofSnapshot before).SameNames (ofSnapshot after) where
  registry := retouched.registry
  units := retouched.units.imp fun _ _ same => same.sameNames

theorem Snapshot.Retouched.declarations (retouched : before.Retouched after) :
    List.Forall₂ (fun first second => first.1.Retouched second.1)
      (ofSnapshot before).declarations (ofSnapshot after).declarations := by
  refine List.rel_flatMap retouched.units ?_
  intro unit other same
  have registry : (ofSnapshot before).registry = (ofSnapshot after).registry := retouched.registry
  dsimp only
  rw [List.forall₂_map_left_iff, List.forall₂_map_right_iff]
  refine List.rel_filter ?_ same.types
  intro type otherType sameType
  have named : type.qualifiedName = otherType.qualifiedName := sameType.qualifiedName
  simp only [registry, named, same.filePath]

theorem Snapshot.Retouched.definition? (retouched : before.Retouched after) (name : String) :
    Option.Rel TypeDefinition.Retouched ((ofSnapshot before).definition? name)
      ((ofSnapshot after).definition? name) := by
  have found : Option.Rel (fun first second => first.1.Retouched second.1)
      ((ofSnapshot before).declaration? name) ((ofSnapshot after).declaration? name) := by
    refine rel_getLast? (List.rel_filter ?_ retouched.declarations)
    intro first second same
    simp only [same.qualifiedName]
  rw [Resolver.definition?, Resolver.definition?]
  generalize (ofSnapshot before).declaration? name = first,
    (ofSnapshot after).declaration? name = second at found
  cases found with
  | none => exact .none
  | some same => exact .some same

end Names

namespace Diff

open OrderedMap Resolver

structure OwnedImpl.Retouched (before after : OwnedImpl) : Prop where
  owner : before.owner = after.owner
  traitName : before.traitName = after.traitName
  traitPath : before.traitPath = after.traitPath
  methods : List.Forall₂ Method.Retouched before.impl.methods after.impl.methods

theorem OwnedImpl.Retouched.methodEntities {before after : OwnedImpl}
    (retouched : before.Retouched after) : methodEntities before = methodEntities after := by
  refine map_eq_of_forall₂ ?_ retouched.methods
  intro method other same
  simp only [retouched.owner, retouched.traitName, same.name, same.signature]

theorem sameFields_of_retouched {before after : TypeDefinition}
    (retouched : before.Retouched after) (name : String) :
    get? name (fieldRecord before.fields) = get? name (fieldRecord after.fields) := by
  rcases retouched.fields with same | ⟨distinct, perm⟩
  · rw [same]
  · let pair (field : Field) : String × String := (field.name, field.typeText)
    have fieldNames : keys (before.fields.map pair) = before.fields.map Field.name := by
      rw [keys, List.map_map]
      rfl
    have once : (keys (before.fields.map pair)).Nodup := fieldNames ▸ distinct
    have pairs : (before.fields.map pair).Perm (after.fields.map pair) := perm.map pair
    have stored : ∀ fields : List Field,
        fieldRecord fields = fill (fields.map pair) [] := fun _ => rfl
    rw [stored, stored, get?_fill, get?_fill, get?_reverse once,
      get?_reverse ((pairs.map Prod.fst).nodup once), get?_eq_of_perm pairs once]

section Snapshots

variable {before after : Snapshot}

theorem ownedImpls_retouched (retouched : before.Retouched after) :
    List.Forall₂ OwnedImpl.Retouched (ownedImpls before) (ownedImpls after) := by
  have names := retouched.sameNames
  have defined : ∀ owner, ((ofSnapshot before).definition? owner).isSome =
      ((ofSnapshot after).definition? owner).isSome := by
    intro owner
    have found := retouched.definition? owner
    generalize (ofSnapshot before).definition? owner = first,
      (ofSnapshot after).definition? owner = second at found
    cases found <;> rfl
  rw [ownedImpls_eq, ownedImpls_eq]
  refine List.rel_flatMap retouched.units ?_
  intro unit other same
  refine List.rel_filterMap ?_ same.impls
  intro impl otherImpl sameImpl
  have resolved := names.resolveType same.sameNames
  simp only [ownedImpl?, sameImpl.target, resolved, defined]
  cases (named ((ofSnapshot after).resolveType otherImpl.target other none)).filter fun owner =>
      ((ofSnapshot after).definition? owner).isSome with
  | none => exact .none
  | some owner =>
      refine .some ⟨rfl, ?_, ?_, sameImpl.methods⟩
      · simp only [ownImpl, sameImpl.traitName]
      · simp only [ownImpl, sameImpl.traitName, resolved]

theorem entities_retouched (retouched : before.Retouched after) :
    (ownedImpls before).flatMap methodEntities = (ownedImpls after).flatMap methodEntities :=
  flatMap_eq_of_forall₂ (fun _ _ same => same.methodEntities) (ownedImpls_retouched retouched)

theorem methods_retouched (retouched : before.Retouched after) :
    (collectEntities before).methods = (collectEntities after).methods := by
  rw [methods_collectEntities, methods_collectEntities, entities_retouched retouched]

theorem methodRecord_retouched (retouched : before.Retouched after) (owner : String) :
    methodRecord (ownedImpls before) owner = methodRecord (ownedImpls after) owner := by
  rw [methodRecord_eq_sorted, methodRecord_eq_sorted, methodPairs_eq_map, methodPairs_eq_map,
    entities_retouched retouched]

theorem traitList_retouched (retouched : before.Retouched after) (owner : String) :
    traitList (ownedImpls before) owner = traitList (ownedImpls after) owner := by
  have paths : ∀ impls : List OwnedImpl, (impls.filter fun entry => entry.owner = owner).filterMap
      OwnedImpl.traitPath =
        (impls.map fun entry => (entry.owner, entry.traitPath)).filterMap fun entry =>
          if entry.1 = owner then entry.2 else none := by
    intro impls
    rw [List.filterMap_map, List.filterMap_filter]
    simp only [decide_eq_true_eq, Function.comp_def]
  have same : (ownedImpls before).map (fun entry => (entry.owner, entry.traitPath)) =
      (ownedImpls after).map fun entry => (entry.owner, entry.traitPath) :=
    map_eq_of_forall₂ (fun _ _ entry => Prod.ext entry.owner entry.traitPath)
      (ownedImpls_retouched retouched)
  simp only [traitList, paths]
  rw [same]

theorem types_retouched (retouched : before.Retouched after) (identity : String) :
    Option.Rel SameType (get? identity (collectEntities before).types)
      (get? identity (collectEntities after).types) := by
  rw [get?_types, get?_types]
  have found := retouched.definition? identity
  generalize (ofSnapshot before).definition? identity = first,
    (ofSnapshot after).definition? identity = second at found
  cases found with
  | none => exact .none
  | some same =>
      refine .some ⟨same.kind, same.visibility, ?_, sameFields_of_retouched same, ?_⟩
      · intro trait
        simp only [typeEntity, traitList_retouched retouched]
      · intro key
        simp only [typeEntity, methodRecord_retouched retouched]

theorem SameType.withoutMethods {old new : TypeEntity} (same : SameType old new) :
    SameType old.withoutMethods new.withoutMethods :=
  ⟨same.kind, same.visibility, same.traits, same.fields, fun _ => rfl⟩

theorem silent_withoutMethods (retouched : before.Retouched after) :
    Silent compareTypes (withoutMethods (collectEntities before).types)
      (withoutMethods (collectEntities after).types) := by
  refine silent_of_sameTypes ?_
  intro identity
  rw [get?_withoutMethods, get?_withoutMethods]
  have found := types_retouched retouched identity
  generalize get? identity (collectEntities before).types = first,
    get? identity (collectEntities after).types = second at found ⊢
  cases found with
  | none => exact .none
  | some same => exact .some same.withoutMethods

theorem silent_methods (methods : List (String × MethodEntity)) :
    Silent compareMethods methods methods := by
  intro identity
  cases get? identity methods with
  | none => exact .none
  | some entity => exact .some (by simp [compareMethods, valueChange?])

/-- What a comparison of this granularity has to sort into its buckets. -/
def identities (snapshot : Snapshot) : Granularity → List String
  | .type => keys snapshot.registry
  | .method => keys snapshot.registry ++ methodIdentities snapshot

structure AllUnchanged (found : List (String × Verdict)) (identities : List String) : Prop where
  unchanged : ∀ identity verdict, (identity, verdict) ∈ found → verdict = .unchanged
  keys_perm : (keys found).Perm identities

theorem Silent.allUnchanged {wrap : α → Entity} {compare : α → α → Option ChangeDetail}
    {old new : List (String × α)} (silent : Silent compare old new)
    (distinct : (keys old).Nodup) : AllUnchanged (verdicts wrap compare old new) (keys old) where
  unchanged _ _ member := silent.unchanged member
  keys_perm := silent.keys_perm distinct

theorem AllUnchanged.append {types methods : List (String × Verdict)}
    {typeNames methodNames : List String} (first : AllUnchanged types typeNames)
    (second : AllUnchanged methods methodNames) :
    AllUnchanged (types ++ methods) (typeNames ++ methodNames) where
  unchanged identity verdict member :=
    (List.mem_append.mp member).elim (first.unchanged identity verdict)
      (second.unchanged identity verdict)
  keys_perm := by
    rw [keys_append]
    exact first.keys_perm.append second.keys_perm

theorem AllUnchanged.gather_eq_nil {found : List (String × Verdict)} {identities : List String}
    (settled : AllUnchanged found identities) {pick : Verdict → Option α}
    (unpicked : pick .unchanged = none) : gather pick found = [] := by
  refine Diff.gather_eq_nil ?_
  intro identity verdict member
  rw [settled.unchanged identity verdict member, unpicked]

theorem AllUnchanged.sorted {found : List (String × Verdict)} {identities : List String}
    (settled : AllUnchanged found identities) :
    Text.sortTexts ((found.filter fun entry => isUnchanged entry.2).map Prod.fst) =
      Text.sortTexts identities := by
  have all : found.filter (fun entry => isUnchanged entry.2) = found := by
    refine List.filter_eq_self.mpr ?_
    rintro ⟨identity, verdict⟩ member
    rw [settled.unchanged identity verdict member]
    rfl
  rw [all]
  exact Text.sortTexts_eq_of_perm settled.keys_perm

theorem allUnchanged_retouched {root : String} {units : List SourceUnit}
    (distinct : (units.map SourceUnit.filePath).Nodup)
    (retouched : (Snapshot.create root units).Retouched after) (granularity : Granularity) :
    AllUnchanged
      (allVerdicts granularity (collectEntities (Snapshot.create root units))
        (collectEntities after))
      (identities (Snapshot.create root units) granularity) := by
  have types := typeIdentities_create root distinct
  have once : (typeIdentities (Snapshot.create root units)).Nodup := by
    rw [types]
    exact (Snapshot.ascending_registry root units).nodup
  cases granularity with
  | type =>
      rw [identities, ← types]
      exact (silent_of_sameTypes (types_retouched retouched)).allUnchanged once
  | method =>
      rw [identities, ← types, typeIdentities, ← keys_withoutMethods]
      refine ((silent_withoutMethods retouched).allUnchanged ?_).append ?_
      · rw [keys_withoutMethods]
        exact once
      · rw [← methods_retouched retouched]
        exact (silent_methods _).allUnchanged (nodup_keys_filled _)

/-- A snapshot that is compared with a retouched one, itself for instance, is unchanged: nothing
is added, removed or modified, and every identity is listed in order. -/
theorem compare_of_retouched {units : List SourceUnit}
    (distinct : (units.map SourceUnit.filePath).Nodup) (root : String) :
    let before := Snapshot.create root units
    ∀ after, before.Retouched after → ∀ granularity,
      let result := compare before after granularity
      result.added = [] ∧ result.removed = [] ∧ result.modified = [] ∧
        result.unchanged = Text.sortTexts (identities before granularity) := by
  intro before after retouched granularity result
  have settled := allUnchanged_retouched distinct retouched granularity
  exact ⟨settled.gather_eq_nil rfl, settled.gather_eq_nil rfl, settled.gather_eq_nil rfl,
    settled.sorted⟩

end Snapshots

section Samples

def lidUnit (fields : List Field) (line : Int) (method : Method) : SourceUnit :=
  rootUnit
    [{ plainType "Lid" "crate::Lid" with
        fields := fields
        location := { lineOne with startLine := line, endLine := line + 3 } }]
    [implOf "Lid" (some "From<Bolt>") [method, plainMethod "__proto__" "fn __proto__()"],
      implOf "Lid" (some "io::From<Bolt>") [plainMethod "from" "fn from(bolt: Nut)"]] []

def lidField : Field := { name := "constructor", typeText := "Bolt" }

def boltField : Field := { name := "10", typeText := "u8" }

def turnedMethod : Method :=
  { plainMethod "from" "fn from(bolt: Bolt)" with
    returnType := some "Self"
    visibility := .everywhere
    calls := [{ callee := "Lid::turn", method := "turn", target := none, line := 12 }]
    location := { lineOne with startLine := 11, endLine := 13 } }

theorem compare_of_retouched_lids :
    let units := [lidUnit [lidField, boltField] 1 (plainMethod "from" "fn from(bolt: Bolt)")]
    let others := [lidUnit [boltField, lidField] 7 turnedMethod]
    let before := Snapshot.create "" units
    let after := Snapshot.create "" others
    (units.map SourceUnit.filePath).Nodup ∧ before.Retouched after ∧ before.units ≠ after.units ∧
      ((compare before after .method).added = [] ∧ (compare before after .method).removed = [] ∧
        (compare before after .method).modified = [] ∧
        (compare before after .method).unchanged =
          Text.sortTexts (identities before .method)) ∧
      identities before .method =
        ["crate::Lid", "crate::Lid::From<Bolt>::from", "crate::Lid::From<Bolt>::__proto__"] := by
  intro units others before after
  have distinct : (units.map SourceUnit.filePath).Nodup := List.nodup_singleton _
  have facts : before.registry = after.registry ∧ before.units = units ∧ after.units = others ∧
      before.units ≠ after.units ∧ identities before .method =
        ["crate::Lid", "crate::Lid::From<Bolt>::from", "crate::Lid::From<Bolt>::__proto__"] := by
    decide +kernel
  obtain ⟨registry, listed, othersListed, moved, settled⟩ := facts
  have retouched : before.Retouched after := by
    refine ⟨registry, ?_⟩
    rw [listed, othersListed]
    refine .cons ⟨rfl, rfl, rfl, .cons ⟨rfl, rfl, rfl, rfl, .inr ⟨by decide, by decide⟩⟩ .nil, ?_⟩
      .nil
    refine .cons ⟨rfl, rfl, .cons ⟨rfl, rfl⟩ (.cons ⟨rfl, rfl⟩ .nil)⟩ (.cons (.refl _) .nil)
  exact ⟨distinct, retouched, moved, compare_of_retouched distinct "" after retouched .method,
    settled⟩

end Samples

end Diff

end CrateAtlas
