import CrateAtlas.Proofs.Registry
import Mathlib.Data.List.Forall2

/-!
How a resolver searches. Main statements: whatever a written type resolves to is registered; a
list of candidates is searched directly first and then through the imports of their parents, so
that only the searches decide what a list leads to; and crates that declare and import the same
names resolve every type alike.
-/

namespace CrateAtlas.Resolver

open ModulePath

variable {resolver : Resolver}

theorem eq_of_named {name : Option String} {found : String} (kept : named name = some found) :
    name = some found := by
  simp only [named, Option.filter_eq_some_iff] at kept
  exact kept.1

/-- What a candidate leads to through the imports of its parent module. -/
def throughParent (resolver : Resolver) (hops : Nat) (candidate : String) : Option String :=
  if parent candidate = candidate then none
  else
    (resolver.unitsOfModule (parent candidate)).findSome? fun unit =>
      throughImports (resolver.firstRegistered hops) (lastSegment candidate) unit

theorem firstRegistered_zero (candidates : List String) :
    resolver.firstRegistered 0 candidates = named (candidates.find? resolver.isRegistered) := by
  unfold firstRegistered
  cases named (candidates.find? resolver.isRegistered) <;> rfl

theorem firstRegistered_succ (hops : Nat) (candidates : List String) :
    resolver.firstRegistered (hops + 1) candidates =
      (named (candidates.find? resolver.isRegistered)).or
        (candidates.findSome? (resolver.throughParent hops)) := by
  unfold firstRegistered
  cases named (candidates.find? resolver.isRegistered) <;> rfl

theorem firstRegistered_congr {left right : List String}
    (alike : ∀ search : String → Option String, left.findSome? search = right.findSome? search)
    (hops : Nat) : resolver.firstRegistered hops left = resolver.firstRegistered hops right := by
  have direct : left.find? resolver.isRegistered = right.find? resolver.isRegistered := by
    rw [List.find?_eq_findSome?_guard, List.find?_eq_findSome?_guard, alike]
  cases hops with
  | zero => rw [firstRegistered_zero, firstRegistered_zero, direct]
  | succ hops => rw [firstRegistered_succ, firstRegistered_succ, direct, alike]

theorem findSome?_distinct (search : String → Option β) (list : List String) :
    (OrderedMap.distinct list).findSome? search = list.findSome? search := by
  induction list with
  | nil => rfl
  | cons first rest ih =>
      rw [OrderedMap.distinct, List.findSome?_cons, List.findSome?_cons]
      cases answer : search first with
      | some found => rfl
      | none =>
          rw [← ih, Text.findSome?_filter]
          refine Text.findSome?_congr ?_
          intro value _
          by_cases same : value = first
          · simp [same, answer]
          · simp [same]

theorem resolveName_eq (name : String) (unit : SourceUnit) :
    resolver.resolveName name unit =
      ((unit.types.find? fun type =>
        type.name = name && resolver.isRegistered type.qualifiedName).map
        TypeDefinition.qualifiedName).or
        (if resolver.isRegistered (join [unit.modulePath, name]) then
          some (join [unit.modulePath, name])
        else throughImports (resolver.firstRegistered maxHops) name unit) := by
  simp only [resolveName]
  cases unit.types.find? fun type =>
    type.name = name && resolver.isRegistered type.qualifiedName <;> rfl

section Registered

theorem registered_of_throughImports {find : List String → Option String}
    (sound : ∀ candidates found, find candidates = some found → resolver.isRegistered found)
    {name found : String} {unit : SourceUnit}
    (imported : throughImports find name unit = some found) : resolver.isRegistered found := by
  obtain ⟨path, _, answer⟩ := List.exists_of_findSome?_eq_some imported
  exact sound _ _ (eq_of_named answer)

theorem registered_of_firstRegistered {hops : Nat} {candidates : List String} {found : String}
    (first : resolver.firstRegistered hops candidates = some found) :
    resolver.isRegistered found := by
  induction hops generalizing candidates found with
  | zero =>
      rw [firstRegistered_zero] at first
      exact List.find?_some (eq_of_named first)
  | succ hops ih =>
      rw [firstRegistered_succ, Option.or_eq_some_iff] at first
      rcases first with direct | ⟨_, through⟩
      · exact List.find?_some (eq_of_named direct)
      · obtain ⟨candidate, _, answer⟩ := List.exists_of_findSome?_eq_some through
        simp only [throughParent] at answer
        split at answer
        · simp at answer
        · obtain ⟨unit, _, imported⟩ := List.exists_of_findSome?_eq_some answer
          exact registered_of_throughImports (fun _ _ => ih) imported

theorem registered_of_resolveName {name found : String} {unit : SourceUnit}
    (resolved : resolver.resolveName name unit = some found) : resolver.isRegistered found := by
  simp only [resolveName] at resolved
  split at resolved
  · rename_i type here
    have tested := List.find?_some here
    simp only [Bool.and_eq_true] at tested
    obtain rfl := Option.some.inj resolved
    exact tested.2
  · split at resolved
    · rename_i registered
      obtain rfl := Option.some.inj resolved
      exact registered
    · exact registered_of_throughImports (fun _ _ => registered_of_firstRegistered) resolved

theorem registered_of_resolveType {text found : String} {unit : SourceUnit}
    {selfType : Option String} (self : ∀ owner ∈ selfType, resolver.isRegistered owner)
    (resolved : resolver.resolveType text unit selfType = some found) :
    resolver.isRegistered found := by
  simp only [resolveType] at resolved
  split at resolved
  · simp at resolved
  · split at resolved
    · simp at resolved
    · exact self found resolved
    · simp at resolved
    · split at resolved
      · exact registered_of_firstRegistered resolved
      · split at resolved
        · exact registered_of_resolveName resolved
        · exact registered_of_firstRegistered resolved

theorem mem_keys_mergeMentions {name : String} {found : List (String × Bool)} :
    name ∈ OrderedMap.keys (TypeText.mergeMentions found) ↔ name ∈ OrderedMap.keys found := by
  have keys := OrderedMap.keys_foldl_update false (fun many => (· || many)) found
  rw [TypeText.mergeMentions, keys, OrderedMap.mem_distinct]

theorem mem_resolveTypeRefs {text name : String} {unit : SourceUnit} {selfType : Option String} :
    (∃ reference ∈ resolver.resolveTypeRefs text unit selfType, reference.qualifiedName = name) ↔
      ∃ mention ∈ TypeText.innerTypeRefs text,
        named (resolver.resolveType mention.path unit selfType) = some name := by
  let found := (TypeText.innerTypeRefs text).filterMap fun mention =>
    (named (resolver.resolveType mention.path unit selfType)).map fun name => (name, mention.many)
  have listed : (∃ reference ∈ resolver.resolveTypeRefs text unit selfType,
      reference.qualifiedName = name) ↔ name ∈ OrderedMap.keys (TypeText.mergeMentions found) := by
    simp only [resolveTypeRefs, OrderedMap.keys, List.mem_map, exists_exists_and_eq_and, found]
  rw [listed, mem_keys_mergeMentions]
  simp [found, OrderedMap.keys]

theorem registered_of_mem_resolveTypeRefs {text : String} {unit : SourceUnit}
    {selfType : Option String} (self : ∀ owner ∈ selfType, resolver.isRegistered owner)
    {reference : ResolvedRef} (member : reference ∈ resolver.resolveTypeRefs text unit selfType) :
    resolver.isRegistered reference.qualifiedName := by
  obtain ⟨mention, _, resolved⟩ := mem_resolveTypeRefs.mp ⟨reference, member, rfl⟩
  exact registered_of_resolveType self (eq_of_named resolved)

theorem registered_of_resolveFieldType {owner fieldName found : String}
    (resolved : resolver.resolveFieldType owner fieldName = some found) :
    resolver.isRegistered found := by
  simp only [resolveFieldType] at resolved
  split at resolved
  · simp at resolved
  · rename_i type unit declared
    split at resolved
    · simp at resolved
    · rename_i field written
      obtain ⟨reference, first, rfl⟩ := Option.map_eq_some_iff.mp resolved
      refine registered_of_mem_resolveTypeRefs ?_ (List.mem_of_head? first)
      intro name self
      obtain ⟨declaration, named⟩ := declaration?_spec declared
      obtain ⟨_, _, listed⟩ := mem_declarations.mp declaration
      rw [← Option.some.inj self, isRegistered, OrderedMap.has, ← named, listed]
      rfl

theorem registered_of_resolveCallee {callee found : String} {unit : SourceUnit}
    {selfType : Option String} (self : ∀ owner ∈ selfType, resolver.isRegistered owner)
    (resolved : resolver.resolveCallee callee unit selfType = some found) :
    resolver.isRegistered found := by
  simp only [resolveCallee] at resolved
  split at resolved
  · split at resolved
    · rename_i owner _ enclosing
      obtain rfl := Option.some.inj resolved
      exact self owner (eq_of_named enclosing)
    · exact registered_of_resolveFieldType resolved
    · simp at resolved
  · split at resolved
    · exact registered_of_resolveType self resolved
    · exact registered_of_resolveType self resolved

end Registered

end CrateAtlas.Resolver

namespace CrateAtlas

def TypeDefinition.names (type : TypeDefinition) : String × String :=
  (type.name, type.qualifiedName)

/-- Two units of one module that declare the same names and import the same paths. -/
structure SourceUnit.SameNames (left right : SourceUnit) : Prop where
  modulePath : left.modulePath = right.modulePath
  imports : left.imports = right.imports
  types : left.types.map TypeDefinition.names = right.types.map TypeDefinition.names

namespace Resolver

open ModulePath

structure SameNames (left right : Resolver) : Prop where
  registry : left.registry = right.registry
  units : List.Forall₂ SourceUnit.SameNames left.units right.units

theorem findSome?_eq_of_forall₂ {related : α → β → Prop} {find : α → Option γ}
    {search : β → Option γ} (agree : ∀ value other, related value other → find value = search other)
    {left : List α} {right : List β} (pairs : List.Forall₂ related left right) :
    left.findSome? find = right.findSome? search := by
  induction pairs with
  | nil => rfl
  | cons first _ ih => rw [List.findSome?_cons, List.findSome?_cons, agree _ _ first, ih]

theorem throughImports_of_sameNames {unit other : SourceUnit} (same : unit.SameNames other)
    (find : List String → Option String) (name : String) :
    throughImports find name unit = throughImports find name other := by
  simp only [throughImports, same.imports, same.modulePath]

theorem moduleCandidates_of_sameNames {unit other : SourceUnit} (same : unit.SameNames other)
    (head : String) : moduleCandidates head unit = moduleCandidates head other := by
  simp only [moduleCandidates, same.imports, same.modulePath]

namespace SameNames

variable {left right : Resolver} {unit other : SourceUnit}

theorem isRegistered (crates : left.SameNames right) : left.isRegistered = right.isRegistered := by
  funext name
  rw [Resolver.isRegistered, Resolver.isRegistered, crates.registry]

theorem unitsOfModule (crates : left.SameNames right) (modulePath : String) :
    List.Forall₂ SourceUnit.SameNames (left.unitsOfModule modulePath)
      (right.unitsOfModule modulePath) := by
  refine List.rel_filter ?_ crates.units
  intro unit other same
  simp only [same.modulePath]

theorem firstRegistered (crates : left.SameNames right) (hops : Nat) :
    left.firstRegistered hops = right.firstRegistered hops := by
  induction hops with
  | zero =>
      funext candidates
      rw [firstRegistered_zero, firstRegistered_zero, crates.isRegistered]
  | succ hops ih =>
      have through : left.throughParent hops = right.throughParent hops := by
        funext candidate
        have agree : ∀ unit other : SourceUnit, unit.SameNames other →
            throughImports (right.firstRegistered hops) (lastSegment candidate) unit =
              throughImports (right.firstRegistered hops) (lastSegment candidate) other :=
          fun _ _ same => throughImports_of_sameNames same _ _
        simp only [throughParent, ih]
        rw [findSome?_eq_of_forall₂ agree (crates.unitsOfModule (parent candidate))]
      funext candidates
      rw [firstRegistered_succ, firstRegistered_succ, through, crates.isRegistered]

theorem resolveName (crates : left.SameNames right) (same : unit.SameNames other)
    (name : String) : left.resolveName name unit = right.resolveName name other := by
  have declared : ∀ unit : SourceUnit, (unit.types.find? fun type =>
      type.name = name && right.isRegistered type.qualifiedName).map
        TypeDefinition.qualifiedName =
      ((unit.types.map TypeDefinition.names).find? fun names =>
        names.1 = name && right.isRegistered names.2).map Prod.snd := by
    intro unit
    rw [List.find?_map, Option.map_map]
    rfl
  rw [resolveName_eq, resolveName_eq, crates.isRegistered, crates.firstRegistered, declared unit,
    declared other, same.types, same.modulePath, throughImports_of_sameNames same]

theorem resolveType (crates : left.SameNames right) (same : unit.SameNames other)
    (text : String) (selfType : Option String) :
    left.resolveType text unit selfType = right.resolveType text other selfType := by
  simp only [Resolver.resolveType, same.modulePath, crates.firstRegistered,
    crates.resolveName same, moduleCandidates_of_sameNames same]

end SameNames

end Resolver

end CrateAtlas
