import CrateAtlas.Graph.Build
import CrateAtlas.Proofs.EdgeKeys
import CrateAtlas.Proofs.Resolution

/-!
Where the edges of a graph come from. Main statements: every edge connects registered names, only
edges of containment have a cardinality, and the graph of a snapshot is read off the edges of its
units in the order of their files.
-/

namespace CrateAtlas.Snapshot

open Resolver

variable {resolver : Resolver} {unit : SourceUnit}

theorem mem_ownedMethods {owned : OwnedMethod} {units : List SourceUnit} :
    owned ∈ ownedMethods resolver units ↔
      ∃ unit ∈ units, ∃ impl ∈ unit.impls,
        named (resolver.resolveType impl.target unit none) = some owned.owner ∧
          owned.method ∈ impl.methods ∧ owned.unit = unit := by
  simp only [ownedMethods, List.mem_flatMap]
  refine exists_congr fun unit => and_congr_right fun _ => exists_congr fun impl =>
    and_congr_right fun _ => ?_
  cases named (resolver.resolveType impl.target unit none) with
  | none => simp
  | some owner =>
      simp only [List.mem_map, Option.some.injEq]
      constructor
      · rintro ⟨method, member, rfl⟩
        exact ⟨rfl, member, rfl⟩
      · rintro ⟨rfl, member, rfl⟩
        exact ⟨owned.method, member, rfl⟩

theorem isStateTransition_iff {methods : List OwnedMethod} {call : CallSite} {target : String} :
    isStateTransition resolver methods call target ↔
      isConstructorName call.method ∨ ∃ owned ∈ methods,
        (owned.owner = target ∧ owned.method.name = call.method) ∧
          returnsOwner resolver owned := by
  simp only [isStateTransition, Bool.or_eq_true, List.any_eq_true, List.mem_filter,
    Bool.and_eq_true, decide_eq_true_eq, and_assoc]

theorem mem_implEdges {methods : List OwnedMethod} {impl : ImplBlock} {edge : Edge} :
    edge ∈ implEdges resolver methods unit impl ↔
      ∃ source, named (resolver.resolveType impl.target unit none) = some source ∧
        (edge ∈ implementsEdges resolver unit source impl ∨
          ∃ method ∈ impl.methods, ∃ call ∈ method.calls,
            edge ∈ callEdges resolver methods unit source method call) := by
  simp only [implEdges]
  cases named (resolver.resolveType impl.target unit none) with
  | none => simp
  | some source => simp [List.mem_flatMap]

def edgesOf (resolver : Resolver) (units : List SourceUnit) : List Edge :=
  units.flatMap fun unit =>
    typeEdges resolver unit ++
      unit.impls.flatMap (implEdges resolver (ownedMethods resolver units) unit)

theorem mem_edgesOf {units : List SourceUnit} {edge : Edge} :
    edge ∈ edgesOf resolver units ↔ ∃ unit ∈ units, edge ∈ typeEdges resolver unit ∨
      ∃ impl ∈ unit.impls, edge ∈ implEdges resolver (ownedMethods resolver units) unit impl := by
  simp only [edgesOf, List.mem_flatMap, List.mem_append]

def unresolvedOf (resolver : Resolver) (units : List SourceUnit) : Nat :=
  (units.flatMap fun unit => unit.impls.map (unresolvedCalls resolver unit)).foldl (· + ·) 0

def Connects (resolver : Resolver) (edge : Edge) : Prop :=
  resolver.isRegistered edge.source ∧ resolver.isRegistered edge.target

theorem source_of_mem_containsEdges {type : TypeDefinition} {edge : Edge}
    (member : edge ∈ containsEdges resolver unit type) :
    edge.source = type.qualifiedName ∧ edge.kind = .contains := by
  simp only [containsEdges, List.mem_flatMap, List.mem_map] at member
  obtain ⟨_, _, _, _, rfl⟩ := member
  exact ⟨rfl, rfl⟩

theorem connects_of_mem_containsEdges {type : TypeDefinition} {edge : Edge}
    (registered : resolver.isRegistered type.qualifiedName)
    (member : edge ∈ containsEdges resolver unit type) : Connects resolver edge := by
  simp only [containsEdges, List.mem_flatMap, List.mem_map] at member
  obtain ⟨field, _, reference, mentioned, rfl⟩ := member
  refine ⟨registered, registered_of_mem_resolveTypeRefs ?_ mentioned⟩
  intro owner self
  rw [← Option.some.inj self]
  exact registered

theorem registered_of_declared {type : TypeDefinition}
    (declared : OrderedMap.get? type.qualifiedName resolver.registry = some unit.filePath) :
    resolver.isRegistered type.qualifiedName := by
  rw [isRegistered, OrderedMap.has, declared]
  rfl

theorem contained_of_mem_typeEdges {edge : Edge} (member : edge ∈ typeEdges resolver unit) :
    edge.kind = .contains ∧ Connects resolver edge := by
  simp only [typeEdges, List.mem_flatMap, List.mem_filter, decide_eq_true_eq] at member
  obtain ⟨type, ⟨_, declared⟩, found⟩ := member
  exact ⟨(source_of_mem_containsEdges found).2,
    connects_of_mem_containsEdges (registered_of_declared declared) found⟩

theorem registered_of_callTarget {call : CallSite} {source target : String}
    (lands : callTarget resolver call unit source = some target) :
    resolver.isRegistered target := by
  simp only [callTarget, Option.filter_eq_some_iff] at lands
  exact lands.2

theorem plain_of_mem_implEdges {methods : List OwnedMethod} {impl : ImplBlock} {edge : Edge}
    (member : edge ∈ implEdges resolver methods unit impl) :
    (edge.kind ≠ .contains ∧ edge.cardinality = none) ∧ Connects resolver edge := by
  obtain ⟨source, resolved, found⟩ := mem_implEdges.mp member
  have sourceRegistered : resolver.isRegistered source :=
    registered_of_resolveType (by simp) (eq_of_named resolved)
  have self : ∀ owner ∈ some source, resolver.isRegistered owner := by
    intro owner same
    rw [← Option.some.inj same]
    exact sourceRegistered
  rcases found with implemented | ⟨method, _, call, _, called⟩
  · simp only [implementsEdges] at implemented
    split at implemented
    · simp at implemented
    · split at implemented
      · simp at implemented
      · rename_i target targetResolved
        split at implemented
        · simp at implemented
        · rw [List.mem_singleton.mp implemented]
          exact ⟨⟨by simp, rfl⟩, sourceRegistered,
            registered_of_resolveType self (eq_of_named targetResolved)⟩
  · simp only [callEdges] at called
    split at called
    · simp at called
    · rename_i target lands
      have targetRegistered := registered_of_callTarget lands
      split at called
      · simp at called
      · rcases List.mem_cons.mp called with rfl | transition
        · exact ⟨⟨by simp, rfl⟩, sourceRegistered, targetRegistered⟩
        · split at transition
          · rw [List.mem_singleton.mp transition]
            exact ⟨⟨by simp, rfl⟩, sourceRegistered, targetRegistered⟩
          · simp at transition

theorem connects_of_mem_edgesOf {units : List SourceUnit} {edge : Edge}
    (member : edge ∈ edgesOf resolver units) : Connects resolver edge := by
  obtain ⟨unit, _, contained | ⟨impl, _, found⟩⟩ := mem_edgesOf.mp member
  · exact (contained_of_mem_typeEdges contained).2
  · exact (plain_of_mem_implEdges found).2

theorem plain_of_mem_edgesOf {units : List SourceUnit} {edge : Edge}
    (member : edge ∈ edgesOf resolver units) (other : edge.kind ≠ .contains) :
    edge.cardinality = none := by
  obtain ⟨unit, _, contained | ⟨impl, _, found⟩⟩ := mem_edgesOf.mp member
  · exact absurd (contained_of_mem_typeEdges contained).1 other
  · exact (plain_of_mem_implEdges found).1.2

theorem cardinality_of_mem_containsEdges {type : TypeDefinition} {edge : Edge}
    (member : edge ∈ containsEdges resolver unit type) : edge.cardinality.isSome := by
  simp only [containsEdges, List.mem_flatMap, List.mem_map] at member
  obtain ⟨_, _, _, _, rfl⟩ := member
  rfl

theorem cardinality_of_mem_edgesOf {units : List SourceUnit} {edge : Edge}
    (member : edge ∈ edgesOf resolver units) :
    edge.cardinality.isSome ↔ edge.kind = .contains := by
  obtain ⟨unit, _, contained | ⟨impl, _, found⟩⟩ := mem_edgesOf.mp member
  · have kind := (contained_of_mem_typeEdges contained).1
    simp only [typeEdges, List.mem_flatMap] at contained
    obtain ⟨type, _, here⟩ := contained
    exact iff_of_true (cardinality_of_mem_containsEdges here) kind
  · obtain ⟨⟨other, plain⟩, _⟩ := plain_of_mem_implEdges found
    exact iff_of_false (by simp [plain]) other

end CrateAtlas.Snapshot
