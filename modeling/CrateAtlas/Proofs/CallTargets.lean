import CrateAtlas.Proofs.Graph.Build

/-!
Targets of calls that are filled in beforehand. Main statement: filling them in changes nothing but
the targets, writes registered names only, changes nothing the second time, and leaves the graph of
a snapshot without targets as it is.
-/

namespace CrateAtlas.Resolver

open ModulePath

/-- A change of units that keeps everything names are looked up in. -/
structure KeepsNames (change : SourceUnit → SourceUnit) : Prop where
  filePath : ∀ unit, (change unit).filePath = unit.filePath
  modulePath : ∀ unit, (change unit).modulePath = unit.modulePath
  types : ∀ unit, (change unit).types = unit.types
  imports : ∀ unit, (change unit).imports = unit.imports

def changed (change : SourceUnit → SourceUnit) (resolver : Resolver) : Resolver :=
  { resolver with units := resolver.units.map change }

variable {change : SourceUnit → SourceUnit} {resolver : Resolver}

@[simp] theorem isRegistered_changed :
    (resolver.changed change).isRegistered = resolver.isRegistered :=
  rfl

namespace KeepsNames

theorem sameNames_unit (keeps : KeepsNames change) (unit : SourceUnit) :
    (change unit).SameNames unit where
  modulePath := keeps.modulePath unit
  imports := keeps.imports unit
  types := by rw [keeps.types]

theorem sameNames (keeps : KeepsNames change) : (resolver.changed change).SameNames resolver where
  registry := rfl
  units := by
    rw [changed, List.forall₂_map_left_iff, List.forall₂_same]
    exact fun unit _ => keeps.sameNames_unit unit

theorem resolveType (keeps : KeepsNames change) (text : String) (unit : SourceUnit)
    (selfType : Option String) :
    (resolver.changed change).resolveType text (change unit) selfType =
      resolver.resolveType text unit selfType :=
  keeps.sameNames.resolveType (keeps.sameNames_unit unit) text selfType

theorem resolveTypeRefs (keeps : KeepsNames change) (text : String) (unit : SourceUnit)
    (selfType : Option String) :
    (resolver.changed change).resolveTypeRefs text (change unit) selfType =
      resolver.resolveTypeRefs text unit selfType := by
  simp only [Resolver.resolveTypeRefs, keeps.resolveType]

theorem declaration? (keeps : KeepsNames change) (name : String) :
    (resolver.changed change).declaration? name =
      (resolver.declaration? name).map fun entry => (entry.1, change entry.2) := by
  have declared : (resolver.changed change).declarations =
      resolver.declarations.map fun entry => (entry.1, change entry.2) := by
    simp only [declarations, changed, List.flatMap_map, List.map_flatMap, List.map_map,
      keeps.types, keeps.filePath, Function.comp_def]
  simp only [Resolver.declaration?, declared, List.filter_map, List.getLast?_map, Function.comp_def]

theorem resolveFieldType (keeps : KeepsNames change) (owner fieldName : String) :
    (resolver.changed change).resolveFieldType owner fieldName =
      resolver.resolveFieldType owner fieldName := by
  simp only [Resolver.resolveFieldType, keeps.declaration?]
  cases resolver.declaration? owner with
  | none => rfl
  | some entry => simp only [Option.map_some, keeps.resolveTypeRefs]

theorem resolveCallee (keeps : KeepsNames change) (callee : String) (unit : SourceUnit)
    (selfType : Option String) :
    (resolver.changed change).resolveCallee callee (change unit) selfType =
      resolver.resolveCallee callee unit selfType := by
  simp only [Resolver.resolveCallee, keeps.resolveFieldType, keeps.resolveType]

end KeepsNames

end CrateAtlas.Resolver

namespace CrateAtlas

def CallSite.landed (resolver : Resolver) (unit : SourceUnit) (selfType : Option String)
    (call : CallSite) : CallSite :=
  { call with target := resolver.resolveCallee call.callee unit selfType }

def Method.landed (resolver : Resolver) (unit : SourceUnit) (selfType : Option String)
    (method : Method) : Method :=
  { method with calls := method.calls.map (CallSite.landed resolver unit selfType) }

def SourceUnit.landed (resolver : Resolver) (unit : SourceUnit) : SourceUnit :=
  { unit with impls := unit.impls.map (Snapshot.resolveImpl resolver unit) }

abbrev Resolver.landed (resolver : Resolver) : Resolver :=
  resolver.changed (SourceUnit.landed resolver)

def CallSite.blank (call : CallSite) : CallSite :=
  { call with target := none }

def Method.blank (method : Method) : Method :=
  { method with calls := method.calls.map CallSite.blank }

def ImplBlock.blank (impl : ImplBlock) : ImplBlock :=
  { impl with methods := impl.methods.map Method.blank }

def SourceUnit.blank (unit : SourceUnit) : SourceUnit :=
  { unit with impls := unit.impls.map ImplBlock.blank }

/-- Everything that a snapshot says besides the targets of its calls. -/
def Snapshot.blank (snapshot : Snapshot) : Snapshot :=
  { snapshot with units := snapshot.units.map SourceUnit.blank }

namespace Snapshot

open Resolver

variable {resolver : Resolver}

theorem keepsNames_landed (resolver : Resolver) : KeepsNames (SourceUnit.landed resolver) where
  filePath _ := rfl
  modulePath _ := rfl
  types _ := rfl
  imports _ := rfl

theorem resolveImpl_eq (unit : SourceUnit) (impl : ImplBlock) :
    resolveImpl resolver unit impl =
      { impl with
        methods := impl.methods.map
          (Method.landed resolver unit (resolver.resolveType impl.target unit none)) } :=
  rfl

theorem ofSnapshot_resolveCallTargets (snapshot : Snapshot) :
    ofSnapshot snapshot.resolveCallTargets = (ofSnapshot snapshot).landed :=
  rfl

theorem units_resolveCallTargets (snapshot : Snapshot) :
    snapshot.resolveCallTargets.units =
      snapshot.units.map (SourceUnit.landed (ofSnapshot snapshot)) :=
  rfl

section Landed

@[simp] theorem impls_landed (unit : SourceUnit) :
    (unit.landed resolver).impls = unit.impls.map (resolveImpl resolver unit) :=
  rfl

@[simp] theorem calls_landed (unit : SourceUnit) (selfType : Option String) (method : Method) :
    (method.landed resolver unit selfType).calls =
      method.calls.map (CallSite.landed resolver unit selfType) :=
  rfl

theorem blank_landed (unit : SourceUnit) : (unit.landed resolver).blank = unit.blank := by
  have method : ∀ selfType, Method.blank ∘ Method.landed resolver unit selfType = Method.blank := by
    intro selfType
    funext method
    simp only [Function.comp_apply, Method.blank, Method.landed, List.map_map]
    rfl
  have impl : ImplBlock.blank ∘ resolveImpl resolver unit = ImplBlock.blank := by
    funext impl
    simp only [Function.comp_apply, resolveImpl_eq, ImplBlock.blank, List.map_map, method]
  simp only [SourceUnit.blank, SourceUnit.landed, List.map_map, impl]

theorem landed_landed (unit : SourceUnit) :
    (unit.landed resolver).landed resolver.landed = unit.landed resolver := by
  have keeps := keepsNames_landed resolver
  have call : ∀ selfType, CallSite.landed resolver.landed (unit.landed resolver) selfType ∘
      CallSite.landed resolver unit selfType = CallSite.landed resolver unit selfType := by
    intro selfType
    funext call
    simp only [Function.comp_apply, CallSite.landed, keeps.resolveCallee]
  have method : ∀ selfType, Method.landed resolver.landed (unit.landed resolver) selfType ∘
      Method.landed resolver unit selfType = Method.landed resolver unit selfType := by
    intro selfType
    funext method
    simp only [Function.comp_apply, Method.landed, List.map_map, call]
  have impl : resolveImpl resolver.landed (unit.landed resolver) ∘ resolveImpl resolver unit =
      resolveImpl resolver unit := by
    funext impl
    simp only [Function.comp_apply, resolveImpl_eq, keeps.resolveType, List.map_map, method]
  rw [SourceUnit.landed, impls_landed, List.map_map, impl]
  rfl

theorem registered_of_landed {units : List SourceUnit} {site : Site} {target : String}
    (member : site ∈ callSites (units.map (SourceUnit.landed resolver)))
    (lands : site.call.target = some target) : resolver.isRegistered target := by
  have here := mem_callSites.mp member
  obtain ⟨unit, _, same⟩ := List.mem_map.mp here.unit
  have implMember := here.impl
  rw [← same] at implMember
  obtain ⟨impl, _, written⟩ := List.mem_map.mp implMember
  have methodMember := here.method
  rw [← written, resolveImpl_eq] at methodMember
  obtain ⟨method, _, named⟩ := List.mem_map.mp methodMember
  have callMember := here.call
  rw [← named] at callMember
  obtain ⟨call, _, called⟩ := List.mem_map.mp callMember
  rw [← called] at lands
  have self : ∀ owner ∈ resolver.resolveType impl.target unit none,
      resolver.isRegistered owner := by
    intro owner enclosing
    exact registered_of_resolveType (by simp) enclosing
  exact registered_of_resolveCallee self lands

end Landed

section Graph

variable {unit : SourceUnit}

def OwnedMethod.landed (resolver : Resolver) (owned : OwnedMethod) : OwnedMethod :=
  { owned with
    method := owned.method.landed resolver owned.unit (some owned.owner)
    unit := owned.unit.landed resolver }

theorem ownedMethods_landed (units : List SourceUnit) :
    ownedMethods resolver.landed (units.map (SourceUnit.landed resolver)) =
      (ownedMethods resolver units).map (OwnedMethod.landed resolver) := by
  have keeps := keepsNames_landed resolver
  simp only [ownedMethods, List.flatMap_map, List.map_flatMap]
  refine List.flatMap_congr fun unit _ => ?_
  rw [impls_landed, List.flatMap_map]
  refine List.flatMap_congr fun impl _ => ?_
  rw [resolveImpl_eq, keeps.resolveType]
  cases resolved : named (resolver.resolveType impl.target unit none) with
  | none => rfl
  | some owner =>
      rw [eq_of_named resolved]
      simp only [List.map_map]
      rfl

theorem isStateTransition_landed (methods : List OwnedMethod) (call : CallSite)
    (target : String) :
    isStateTransition resolver.landed (methods.map (OwnedMethod.landed resolver)) call target =
      isStateTransition resolver methods call target := by
  have returns : ∀ owned : OwnedMethod,
      returnsOwner resolver.landed (owned.landed resolver) = returnsOwner resolver owned := by
    intro owned
    simp only [returnsOwner, OwnedMethod.landed, Method.landed,
      (keepsNames_landed resolver).resolveTypeRefs]
    rfl
  simp only [isStateTransition, List.filter_map, List.any_map, Function.comp_def, returns]
  rfl

theorem callTarget_landed {call : CallSite} (untargeted : call.target = none) (source : String) :
    callTarget resolver.landed (call.landed resolver unit (some source)) (unit.landed resolver)
        source =
      callTarget resolver call unit source := by
  simp only [callTarget, CallSite.landed, untargeted, (keepsNames_landed resolver).resolveCallee,
    isRegistered_changed]
  -- a target that was not found before is searched again, and again not found
  cases resolver.resolveCallee call.callee unit (some source) <;> rfl

theorem callEdges_landed (methods : List OwnedMethod) (method : Method) {call : CallSite}
    (untargeted : call.target = none) (source : String) :
    callEdges resolver.landed (methods.map (OwnedMethod.landed resolver)) (unit.landed resolver)
        source (method.landed resolver unit (some source))
        (call.landed resolver unit (some source)) =
      callEdges resolver methods unit source method call := by
  have transition : ∀ target, isStateTransition resolver.landed
      (methods.map (OwnedMethod.landed resolver)) (call.landed resolver unit (some source)) target =
        isStateTransition resolver methods call target :=
    fun target => isStateTransition_landed methods _ target
  simp only [callEdges, callTarget_landed untargeted, transition]
  rfl

theorem implEdges_landed (methods : List OwnedMethod) {impl : ImplBlock}
    (untargeted : ∀ method ∈ impl.methods, ∀ call ∈ method.calls, call.target = none) :
    implEdges resolver.landed (methods.map (OwnedMethod.landed resolver)) (unit.landed resolver)
        (resolveImpl resolver unit impl) =
      implEdges resolver methods unit impl := by
  have keeps := keepsNames_landed resolver
  rw [resolveImpl_eq]
  simp only [implEdges, keeps.resolveType]
  cases resolved : named (resolver.resolveType impl.target unit none) with
  | none => rfl
  | some source =>
      rw [eq_of_named resolved]
      have implemented : implementsEdges resolver.landed (unit.landed resolver) source
          { impl with methods := impl.methods.map (Method.landed resolver unit (some source)) } =
            implementsEdges resolver unit source impl := by
        simp only [implementsEdges, keeps.resolveType]
      have called : ∀ method ∈ impl.methods,
          (method.landed resolver unit (some source)).calls.flatMap
              (callEdges resolver.landed (methods.map (OwnedMethod.landed resolver))
                (unit.landed resolver) source (method.landed resolver unit (some source))) =
            method.calls.flatMap (callEdges resolver methods unit source method) := by
        intro method methodMember
        rw [calls_landed, List.flatMap_map]
        exact List.flatMap_congr fun call callMember =>
          callEdges_landed methods method (untargeted method methodMember call callMember) source
      simp only [implemented, List.flatMap_map, List.flatMap_congr called]

theorem unresolvedCalls_landed {impl : ImplBlock}
    (untargeted : ∀ method ∈ impl.methods, ∀ call ∈ method.calls, call.target = none) :
    unresolvedCalls resolver.landed (unit.landed resolver)
        (resolveImpl resolver unit impl) =
      unresolvedCalls resolver unit impl := by
  have calls : ∀ selfType, (impl.methods.map (Method.landed resolver unit selfType)).flatMap
      Method.calls = (impl.methods.flatMap Method.calls).map
        (CallSite.landed resolver unit selfType) := by
    intro selfType
    rw [List.flatMap_map, List.map_flatMap]
    rfl
  rw [resolveImpl_eq]
  simp only [unresolvedCalls, (keepsNames_landed resolver).resolveType, calls]
  cases resolved : named (resolver.resolveType impl.target unit none) with
  | none => simp only [List.length_map]
  | some source =>
      rw [eq_of_named resolved]
      simp only [List.filter_map, List.length_map, Function.comp_def]
      refine congrArg List.length (List.filter_congr fun call member => ?_)
      obtain ⟨method, methodMember, callMember⟩ := List.mem_flatMap.mp member
      rw [callTarget_landed (untargeted method methodMember call callMember)]

theorem typeEdges_landed (unit : SourceUnit) :
    typeEdges resolver.landed (unit.landed resolver) =
      typeEdges resolver unit := by
  have contained : containsEdges resolver.landed (unit.landed resolver) =
      containsEdges resolver unit := by
    funext type
    simp only [containsEdges, (keepsNames_landed resolver).resolveTypeRefs]
  simp only [typeEdges, contained]
  rfl

def Untargeted (units : List SourceUnit) : Prop :=
  ∀ site ∈ callSites units, site.call.target = none

theorem Untargeted.call {units : List SourceUnit} (untargeted : Untargeted units)
    (unitMember : unit ∈ units) {impl : ImplBlock} (implMember : impl ∈ unit.impls) :
    ∀ method ∈ impl.methods, ∀ call ∈ method.calls, call.target = none := by
  intro method methodMember call callMember
  have here : Site.In ⟨unit, impl, method, call⟩ units :=
    ⟨unitMember, implMember, methodMember, callMember⟩
  exact untargeted _ (mem_callSites.mpr here)

theorem edgesOf_landed {units : List SourceUnit} (untargeted : Untargeted units) :
    edgesOf resolver.landed (units.map (SourceUnit.landed resolver)) = edgesOf resolver units := by
  have impls : ∀ unit ∈ units, (unit.landed resolver).impls.flatMap
      (implEdges resolver.landed
        ((ownedMethods resolver units).map (OwnedMethod.landed resolver)) (unit.landed resolver)) =
        unit.impls.flatMap (implEdges resolver (ownedMethods resolver units) unit) := by
    intro unit unitMember
    rw [impls_landed, List.flatMap_map]
    exact List.flatMap_congr fun impl implMember =>
      implEdges_landed _ (untargeted.call unitMember implMember)
  rw [edgesOf, edgesOf, ownedMethods_landed, List.flatMap_map]
  refine List.flatMap_congr fun unit unitMember => ?_
  rw [typeEdges_landed, impls unit unitMember]

theorem unresolvedOf_landed {units : List SourceUnit} (untargeted : Untargeted units) :
    unresolvedOf resolver.landed (units.map (SourceUnit.landed resolver)) =
      unresolvedOf resolver units := by
  have counts : ∀ unit ∈ units, (unit.landed resolver).impls.map
      (unresolvedCalls resolver.landed (unit.landed resolver)) =
        unit.impls.map (unresolvedCalls resolver unit) := by
    intro unit unitMember
    rw [impls_landed, List.map_map]
    refine List.map_congr_left fun impl implMember => ?_
    rw [Function.comp_apply]
    exact unresolvedCalls_landed (untargeted.call unitMember implMember)
  rw [unresolvedOf, unresolvedOf, List.flatMap_map, List.flatMap_congr counts]

theorem graphOf_resolveCallTargets {snapshot : Snapshot}
    (untargeted : Untargeted snapshot.units) :
    graphOf snapshot.resolveCallTargets = graphOf snapshot := by
  have sorted : Text.sortBy byFilePath snapshot.resolveCallTargets.units =
      (Text.sortBy byFilePath snapshot.units).map (SourceUnit.landed (ofSnapshot snapshot)) :=
    Text.sortBy_map byFilePath (SourceUnit.landed (ofSnapshot snapshot)) snapshot.units
  have sortedUntargeted : Untargeted (Text.sortBy byFilePath snapshot.units) := by
    intro site member
    have perm := Text.sortBy_perm byFilePath snapshot.units
    exact untargeted site ((perm.flatMap_right _).mem_iff.mp member)
  simp only [graphOf, sorted, ofSnapshot_resolveCallTargets, edgesOf_landed sortedUntargeted,
    unresolvedOf_landed sortedUntargeted]
  rfl

theorem buildGraph_eq_ite (snapshot : Snapshot) (allowDuplicates : Bool) :
    buildGraph snapshot allowDuplicates =
      if Text.sortTexts (duplicateNames snapshot) ≠ [] ∧ !allowDuplicates then
        .error (.ambiguousGraph (Text.sortTexts (duplicateNames snapshot)))
      else .ok (graphOf snapshot) :=
  rfl

end Graph

theorem resolveCallTargets_twice (snapshot : Snapshot) :
    snapshot.resolveCallTargets.resolveCallTargets = snapshot.resolveCallTargets := by
  have twice : SourceUnit.landed (ofSnapshot snapshot.resolveCallTargets) ∘
      SourceUnit.landed (ofSnapshot snapshot) = SourceUnit.landed (ofSnapshot snapshot) :=
    funext fun unit => landed_landed unit
  have units : snapshot.resolveCallTargets.resolveCallTargets.units =
      snapshot.resolveCallTargets.units := by
    rw [units_resolveCallTargets, units_resolveCallTargets, List.map_map, twice]
  exact congrArg (fun units => { snapshot with units := units }) units

theorem blank_resolveCallTargets (snapshot : Snapshot) :
    snapshot.resolveCallTargets.blank = snapshot.blank := by
  have once : SourceUnit.blank ∘ SourceUnit.landed (ofSnapshot snapshot) = SourceUnit.blank :=
    funext fun unit => blank_landed unit
  have units : snapshot.resolveCallTargets.units.map SourceUnit.blank =
      snapshot.units.map SourceUnit.blank := by
    rw [units_resolveCallTargets, List.map_map, once]
  exact congrArg (fun units => { snapshot with units := units }) units

/-- Filling in the targets of calls changes nothing else, nothing at all the second time, and
writes registered names only. A snapshot without targets keeps its graph, or the refusal of it. -/
theorem resolveCallTargets_agrees (snapshot : Snapshot) :
    let settled := snapshot.resolveCallTargets
    (Untargeted snapshot.units →
      ∀ allowDuplicates, buildGraph settled allowDuplicates = buildGraph snapshot allowDuplicates) ∧
      settled.resolveCallTargets = settled ∧ settled.blank = snapshot.blank ∧
      ∀ site ∈ callSites settled.units, ∀ target, site.call.target = some target →
        target ∈ OrderedMap.keys snapshot.registry := by
  intro settled
  refine ⟨?_, resolveCallTargets_twice snapshot, blank_resolveCallTargets snapshot, ?_⟩
  · intro untargeted allowDuplicates
    have graph : graphOf settled = graphOf snapshot := graphOf_resolveCallTargets untargeted
    rw [buildGraph_eq_ite, buildGraph_eq_ite, graph]
    rfl
  · intro site member target lands
    exact mem_keys_of_isRegistered (registered_of_landed member lands)

theorem resolveCallTargets_agrees_till :
    Untargeted tillSnapshot.units ∧
      buildGraph tillSnapshot.resolveCallTargets false = buildGraph tillSnapshot false ∧
      tillSnapshot.resolveCallTargets.resolveCallTargets = tillSnapshot.resolveCallTargets ∧
      (callSites tillSnapshot.resolveCallTargets.units).map (fun site => site.call.target) =
        [some "Coin", none] ∧ "Coin" ∈ OrderedMap.keys tillSnapshot.registry := by
  have untargeted : Untargeted tillSnapshot.units := by
    unfold Untargeted
    decide +kernel
  have targets : (callSites tillSnapshot.resolveCallTargets.units).map
      (fun site => site.call.target) = [some "Coin", none] := by
    decide +kernel
  obtain ⟨graph, settled, -, registered⟩ := resolveCallTargets_agrees tillSnapshot
  refine ⟨untargeted, graph untargeted false, settled, targets, ?_⟩
  have written : some "Coin" ∈ (callSites tillSnapshot.resolveCallTargets.units).map
      fun site => site.call.target := by
    simp [targets]
  obtain ⟨site, member, lands⟩ := List.mem_map.mp written
  exact registered site member "Coin" lands

end Snapshot

end CrateAtlas
