import CrateAtlas.Proofs.Canonical.Lookup
import CrateAtlas.Proofs.Graph.Edges

/-!
The edges of a crate against the canonical order of its units. Main statements: in a steady crate
every key has the same first edge in both orders, and the same calls stay unresolved.
-/

namespace CrateAtlas.Snapshot

open Resolver

variable {resolver : Resolver} {unit : SourceUnit}

theorem mem_impls_canonical {impl : ImplBlock} :
    impl ∈ unit.canonical.impls ↔ ∃ original ∈ unit.impls, original.canonical = impl := by
  simp only [SourceUnit.canonical, Text.mem_sortBy, List.mem_map]

theorem mem_methods_canonical {impl : ImplBlock} {method : Method} :
    method ∈ impl.canonical.methods ↔
      ∃ original ∈ impl.methods, original.canonical = method := by
  simp only [ImplBlock.canonical, Text.mem_sortBy, List.mem_map]

theorem mem_calls_canonical {method : Method} {call : CallSite} :
    call ∈ method.canonical.calls ↔ call ∈ method.calls := by
  simp only [Method.canonical, Text.mem_sortBy]

def OwnedMethod.canonical (owned : OwnedMethod) : OwnedMethod :=
  { owned with method := owned.method.canonical, unit := owned.unit.canonical }

section Steady

theorem mem_ownedMethods_canonical (steady : resolver.Steady) {owned : OwnedMethod} :
    owned ∈ ownedMethods resolver.canonical resolver.canonical.units ↔
      ∃ original ∈ ownedMethods resolver resolver.units, original.canonical = owned := by
  simp only [mem_ownedMethods, Resolver.canonical, List.mem_map]
  constructor
  · rintro ⟨_, ⟨unit, member, rfl⟩, impl, implMember, target, methodMember, same⟩
    obtain ⟨impl, written, rfl⟩ := mem_impls_canonical.mp implMember
    obtain ⟨method, methodWritten, methodEq⟩ := mem_methods_canonical.mp methodMember
    have resolved := steady.resolveType member impl.target none
    refine ⟨{ owner := owned.owner, method := method, unit := unit },
      ⟨unit, member, impl, written, ?_, methodWritten, rfl⟩, ?_⟩
    · rw [← resolved]
      exact target
    · cases owned
      simp_all [OwnedMethod.canonical]
  · rintro ⟨original, ⟨unit, member, impl, implMember, target, methodMember, rfl⟩, rfl⟩
    have resolved := steady.resolveType member impl.target none
    refine ⟨original.unit.canonical, ⟨original.unit, member, rfl⟩, impl.canonical,
      mem_impls_canonical.mpr ⟨impl, implMember, rfl⟩, ?_,
      mem_methods_canonical.mpr ⟨original.method, methodMember, rfl⟩, rfl⟩
    exact (congrArg named resolved).trans target

theorem returnsOwner_canonical (steady : resolver.Steady) {owned : OwnedMethod}
    (member : owned.unit ∈ resolver.units) :
    returnsOwner resolver.canonical owned.canonical = returnsOwner resolver owned := by
  have returned : owned.canonical.method.returnType = owned.method.returnType := rfl
  have references : ∀ text, resolver.canonical.resolveTypeRefs text owned.canonical.unit
      (some owned.canonical.owner) = resolver.resolveTypeRefs text owned.unit (some owned.owner) :=
    fun text => steady.resolveTypeRefs member text _
  simp only [returnsOwner, returned, references]
  rfl

theorem isStateTransition_canonical (steady : resolver.Steady) (call : CallSite)
    (target : String) :
    isStateTransition resolver.canonical
        (ownedMethods resolver.canonical resolver.canonical.units) call target =
      isStateTransition resolver (ownedMethods resolver resolver.units) call target := by
  rw [Bool.eq_iff_iff, isStateTransition_iff, isStateTransition_iff]
  refine or_congr_right ?_
  constructor
  · rintro ⟨owned, owns, called, returns⟩
    obtain ⟨original, originalOwns, rfl⟩ := (mem_ownedMethods_canonical steady).mp owns
    obtain ⟨unit, member, _, _, _, _, same⟩ := mem_ownedMethods.mp originalOwns
    rw [returnsOwner_canonical steady (same ▸ member)] at returns
    exact ⟨original, originalOwns, called, returns⟩
  · rintro ⟨owned, owns, called, returns⟩
    obtain ⟨unit, member, _, _, _, _, same⟩ := mem_ownedMethods.mp owns
    refine ⟨owned.canonical, (mem_ownedMethods_canonical steady).mpr ⟨owned, owns, rfl⟩,
      called, ?_⟩
    rw [returnsOwner_canonical steady (same ▸ member)]
    exact returns

theorem callTarget_canonical (steady : resolver.Steady) (member : unit ∈ resolver.units)
    (call : CallSite) (source : String) :
    callTarget resolver.canonical call unit.canonical source =
      callTarget resolver call unit source := by
  simp only [callTarget, steady.resolveCallee member]
  rfl

theorem containsEdges_canonical (steady : resolver.Steady) (member : unit ∈ resolver.units)
    (type : TypeDefinition) :
    containsEdges resolver.canonical unit.canonical type = containsEdges resolver unit type := by
  simp only [containsEdges, steady.resolveTypeRefs member]

theorem implementsEdges_canonical (steady : resolver.Steady) (member : unit ∈ resolver.units)
    (source : String) (impl : ImplBlock) :
    implementsEdges resolver.canonical unit.canonical source impl.canonical =
      implementsEdges resolver unit source impl := by
  have written : impl.canonical.traitName = impl.traitName := rfl
  simp only [implementsEdges, steady.resolveType member, written]

theorem callEdges_canonical (steady : resolver.Steady) (member : unit ∈ resolver.units)
    (source : String) (method : Method) (call : CallSite) :
    callEdges resolver.canonical (ownedMethods resolver.canonical resolver.canonical.units)
        unit.canonical source method.canonical call =
      callEdges resolver (ownedMethods resolver resolver.units) unit source method call := by
  simp only [callEdges, callTarget_canonical steady member, isStateTransition_canonical steady]
  rfl

theorem mem_implEdges_canonical (steady : resolver.Steady) (member : unit ∈ resolver.units)
    (impl : ImplBlock) {edge : Edge} :
    edge ∈ implEdges resolver.canonical
        (ownedMethods resolver.canonical resolver.canonical.units) unit.canonical
        impl.canonical ↔
      edge ∈ implEdges resolver (ownedMethods resolver resolver.units) unit impl := by
  have target : resolver.canonical.resolveType impl.canonical.target unit.canonical none =
      resolver.resolveType impl.target unit none := steady.resolveType member _ _
  rw [mem_implEdges, mem_implEdges, target]
  refine exists_congr fun source => and_congr_right fun _ => ?_
  rw [implementsEdges_canonical steady member]
  refine or_congr_right ?_
  constructor
  · rintro ⟨_, methodMember, call, callMember, edgeMember⟩
    obtain ⟨method, written, rfl⟩ := mem_methods_canonical.mp methodMember
    rw [callEdges_canonical steady member] at edgeMember
    exact ⟨method, written, call, mem_calls_canonical.mp callMember, edgeMember⟩
  · rintro ⟨method, methodMember, call, callMember, edgeMember⟩
    refine ⟨method.canonical, mem_methods_canonical.mpr ⟨method, methodMember, rfl⟩, call,
      mem_calls_canonical.mpr callMember, ?_⟩
    rw [callEdges_canonical steady member]
    exact edgeMember

theorem mem_typeEdges_canonical (steady : resolver.Steady) (member : unit ∈ resolver.units)
    {edge : Edge} :
    edge ∈ typeEdges resolver.canonical unit.canonical ↔ edge ∈ typeEdges resolver unit := by
  simp only [typeEdges, List.mem_flatMap, List.mem_filter, SourceUnit.canonical, Text.mem_sortBy]
  refine exists_congr fun type => and_congr_right fun _ => ?_
  have edges := containsEdges_canonical steady member type
  rw [← edges]
  rfl

theorem mem_edgesOf_canonical (steady : resolver.Steady) {edge : Edge} :
    edge ∈ edgesOf resolver.canonical resolver.canonical.units ↔
      edge ∈ edgesOf resolver resolver.units := by
  rw [mem_edgesOf, mem_edgesOf]
  constructor
  · rintro ⟨_, unitMember, found⟩
    obtain ⟨unit, member, rfl⟩ := List.mem_map.mp unitMember
    refine ⟨unit, member, ?_⟩
    rcases found with contained | ⟨_, implMember, edgeMember⟩
    · exact .inl ((mem_typeEdges_canonical steady member).mp contained)
    · obtain ⟨impl, written, rfl⟩ := mem_impls_canonical.mp implMember
      exact .inr ⟨impl, written, (mem_implEdges_canonical steady member impl).mp edgeMember⟩
  · rintro ⟨unit, member, found⟩
    refine ⟨unit.canonical, List.mem_map_of_mem member, ?_⟩
    rcases found with contained | ⟨impl, implMember, edgeMember⟩
    · exact .inl ((mem_typeEdges_canonical steady member).mpr contained)
    · exact .inr ⟨impl.canonical, mem_impls_canonical.mpr ⟨impl, implMember, rfl⟩,
        (mem_implEdges_canonical steady member impl).mpr edgeMember⟩

end Steady

section Firsts

theorem filter_edgesOf (units : List SourceUnit) :
    (edgesOf resolver units).filter (fun edge => edge.kind = .contains) =
      units.flatMap (typeEdges resolver) := by
  rw [edgesOf, List.filter_flatMap]
  refine List.flatMap_congr ?_
  intro unit _
  have kept : (typeEdges resolver unit).filter (fun edge => edge.kind = .contains) =
      typeEdges resolver unit :=
    List.filter_eq_self.mpr fun edge member => by
      simpa using (contained_of_mem_typeEdges member).1
  have dropped : (unit.impls.flatMap (implEdges resolver (ownedMethods resolver units) unit)).filter
      (fun edge => edge.kind = .contains) = [] :=
    List.filter_eq_nil_iff.mpr fun edge member => by
      obtain ⟨impl, _, found⟩ := List.mem_flatMap.mp member
      simpa using (plain_of_mem_implEdges found).1.1
  rw [List.filter_append, kept, dropped, List.append_nil]

theorem proper_of_connects (proper : ∀ name, resolver.isRegistered name → ProperName name)
    {edge : Edge} (connects : Connects resolver edge) : edge.Proper :=
  ⟨proper edge.source connects.1, proper edge.target connects.2⟩

theorem apart_of_declaredOnce (steady : resolver.Steady) (member : unit ∈ resolver.units) :
    unit.types.Pairwise fun earlier later => resolver.isRegistered earlier.qualifiedName →
      earlier.qualifiedName ≠ later.qualifiedName := by
  rw [List.pairwise_iff_forall_sublist]
  intro earlier later sublist registered same
  have few := steady.declaredOnce unit member _ registered
  have kept := (sublist.filter fun type =>
    type.qualifiedName = earlier.qualifiedName).length_le
  simp [same] at kept few
  omega

theorem find?_typeEdges_canonical (steady : resolver.Steady) (member : unit ∈ resolver.units)
    (proper : ∀ name, resolver.isRegistered name → ProperName name) (key : String) :
    (typeEdges resolver.canonical unit.canonical).find? (fun edge => edge.key = key) =
      (typeEdges resolver unit).find? fun edge => edge.key = key := by
  simp only [typeEdges, List.find?_flatMap, containsEdges_canonical steady member]
  apply Text.findSome?_filter_sortBy
  refine (apart_of_declaredOnce steady member).imp ?_
  intro earlier later apart _ keepEarlier keepLater
  simp only [decide_eq_true_eq] at keepEarlier keepLater
  have earlierRegistered := registered_of_declared keepEarlier
  have laterRegistered := registered_of_declared keepLater
  cases first : (containsEdges resolver unit earlier).find? (fun edge => edge.key = key) with
  | none => exact .inl rfl
  | some edge =>
      cases second : (containsEdges resolver unit later).find? (fun edge => edge.key = key) with
      | none => exact .inr (.inl rfl)
      | some other =>
          have edgeMember := List.mem_of_find?_eq_some first
          have otherMember := List.mem_of_find?_eq_some second
          have edgeKeyed : edge.key = key := by simpa using List.find?_some first
          have otherKeyed : other.key = key := by simpa using List.find?_some second
          have sources := (Edge.key_injective
            (proper_of_connects proper (connects_of_mem_containsEdges earlierRegistered edgeMember))
            (proper_of_connects proper (connects_of_mem_containsEdges laterRegistered otherMember))
            (edgeKeyed.trans otherKeyed.symm)).2.1
          rw [(source_of_mem_containsEdges edgeMember).1,
            (source_of_mem_containsEdges otherMember).1] at sources
          exact absurd sources (apart earlierRegistered)

theorem firsts_canonical (steady : resolver.Steady)
    (proper : ∀ name, resolver.isRegistered name → ProperName name) (key : String) :
    (edgesOf resolver.canonical resolver.canonical.units).find? (fun edge => edge.key = key) =
      (edgesOf resolver resolver.units).find? fun edge => edge.key = key := by
  symm
  apply Graph.firsts_eq_of_mem_iff
  · exact fun edge => (mem_edgesOf_canonical steady).symm
  · exact fun edge member => proper_of_connects proper (connects_of_mem_edgesOf member)
  · exact fun edge member => plain_of_mem_edgesOf member
  · intro key
    rw [filter_edgesOf, filter_edgesOf, List.find?_flatMap, List.find?_flatMap]
    simp only [Resolver.canonical, List.findSome?_map]
    refine Text.findSome?_congr ?_
    intro unit member
    exact (find?_typeEdges_canonical steady member proper key).symm

end Firsts

end CrateAtlas.Snapshot
