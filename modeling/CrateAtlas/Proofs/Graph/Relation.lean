import CrateAtlas.Proofs.Graph.Edges

/-!
The relations between the types of a crate, told without the loops that gather them. Main
statement: the edges of some units are the relations that their declarations and calls witness.
-/

namespace CrateAtlas.Snapshot

open Resolver

/-- A written type stands for a type in a unit, where `Self` stands for `selfType`. -/
def Resolves (resolver : Resolver) (text : String) (unit : SourceUnit)
    (selfType : Option String) (name : String) : Prop :=
  resolver.resolveType text unit selfType = some name ∧ name ≠ ""

def RefersTo (resolver : Resolver) (text : String) (unit : SourceUnit) (owner name : String) :
    Prop :=
  ∃ mention ∈ TypeText.innerTypeRefs text, Resolves resolver mention.path unit (some owner) name

/-- The registered type that a call lands on: the stored target, or else that of the callee. -/
def LandsOn (resolver : Resolver) (call : CallSite) (unit : SourceUnit)
    (source target : String) : Prop :=
  (call.target = some target ∨
      call.target = none ∧ resolver.resolveCallee call.callee unit (some source) = some target) ∧
    target ≠ "" ∧ resolver.isRegistered target

structure Site where
  unit : SourceUnit
  impl : ImplBlock
  method : Method
  call : CallSite

structure Site.In (site : Site) (units : List SourceUnit) : Prop where
  unit : site.unit ∈ units
  impl : site.impl ∈ site.unit.impls
  method : site.method ∈ site.impl.methods
  call : site.call ∈ site.method.calls

structure Site.Joins (resolver : Resolver) (site : Site) (source target : String) : Prop where
  caller : Resolves resolver site.impl.target site.unit none source
  callee : LandsOn resolver site.call site.unit source target

def GivesBack (resolver : Resolver) (units : List SourceUnit) (target methodName : String) : Prop :=
  ∃ unit ∈ units, ∃ impl ∈ unit.impls, Resolves resolver impl.target unit none target ∧
    ∃ method ∈ impl.methods, method.name = methodName ∧
      ∃ returned, method.returnType = some returned ∧
        (mentionsSelf returned ∨ RefersTo resolver returned unit target target)

inductive Relates (resolver : Resolver) (units : List SourceUnit) :
    String → String → EdgeKind → String → Prop
  | contains {unit : SourceUnit} {type : TypeDefinition} {field : Field} {target : String} :
      unit ∈ units → type ∈ unit.types →
      OrderedMap.get? type.qualifiedName resolver.registry = some unit.filePath →
      field ∈ type.fields → RefersTo resolver field.typeText unit type.qualifiedName target →
      Relates resolver units type.qualifiedName target .contains field.name
  | implements {unit : SourceUnit} {impl : ImplBlock} {traitName source target : String} :
      unit ∈ units → impl ∈ unit.impls → Resolves resolver impl.target unit none source →
      impl.traitName = some traitName → Resolves resolver traitName unit (some source) target →
      target ≠ source → Relates resolver units source target .implements ""
  | calls {site : Site} {source target : String} :
      site.In units → site.Joins resolver source target → target ≠ source →
      Relates resolver units source target .calls site.call.method
  | stateTransition {site : Site} {source target : String} :
      site.In units → site.Joins resolver source target → target ≠ source →
      isConstructorName site.call.method ∨
        GivesBack resolver units target site.call.method →
      Relates resolver units source target .stateTransition site.method.name

section Producers

variable {resolver : Resolver} {units : List SourceUnit} {unit : SourceUnit}

theorem named_eq_some {name : Option String} {found : String} :
    named name = some found ↔ name = some found ∧ found ≠ "" := by
  simp [named, Option.filter_eq_some_iff]

theorem resolves_iff {text name : String} {selfType : Option String} :
    named (resolver.resolveType text unit selfType) = some name ↔
      Resolves resolver text unit selfType name :=
  named_eq_some

theorem refersTo_iff {text owner name : String} :
    (∃ reference ∈ resolver.resolveTypeRefs text unit (some owner),
        reference.qualifiedName = name) ↔ RefersTo resolver text unit owner name := by
  simp only [mem_resolveTypeRefs, resolves_iff, RefersTo]

theorem callTarget_eq_some {call : CallSite} {source target : String} :
    callTarget resolver call unit source = some target ↔
      LandsOn resolver call unit source target := by
  simp only [callTarget, Option.filter_eq_some_iff, LandsOn, named_eq_some, and_assoc]
  cases call.target with
  | none => simp
  | some stored => simp

theorem not_resolves_empty {selfType : Option String} {name : String} :
    ¬ Resolves resolver "" unit selfType name := by
  have blank : TypeText.typePathOf "" = "" := by decide
  simp [Resolves, resolveType, blank]

theorem returnsOwner_iff {owned : OwnedMethod} :
    returnsOwner resolver owned ↔ ∃ returned, owned.method.returnType = some returned ∧
      (mentionsSelf returned ∨
        RefersTo resolver returned owned.unit owned.owner owned.owner) := by
  have blankSelf : mentionsSelf "" = false := by decide
  have blankRefs : TypeText.innerTypeRefs "" = [] := by decide
  rw [returnsOwner]
  cases written : owned.method.returnType with
  | none => simp [named]
  | some returned =>
      -- an empty return type is dropped, but it would mention nothing either
      by_cases blank : returned = ""
      · subst blank
        have dropped : named (some "") = none := by decide
        rw [dropped]
        simp [blankSelf, blankRefs, RefersTo]
      · have kept : named (some returned) = some returned := named_eq_some.mpr ⟨rfl, blank⟩
        rw [kept]
        simp [← refersTo_iff]

theorem isStateTransition_iff_givesBack {call : CallSite} {target : String} :
    isStateTransition resolver (ownedMethods resolver units) call target ↔
      isConstructorName call.method ∨ GivesBack resolver units target call.method := by
  rw [isStateTransition_iff]
  refine or_congr_right ?_
  constructor
  · rintro ⟨owned, owns, ⟨rfl, called⟩, returns⟩
    obtain ⟨_, member, impl, implMember, resolved, methodMember, rfl⟩ := mem_ownedMethods.mp owns
    exact ⟨owned.unit, member, impl, implMember, resolves_iff.mp resolved, owned.method,
      methodMember, called, returnsOwner_iff.mp returns⟩
  · rintro ⟨unit, member, impl, implMember, resolved, method, methodMember, called, returns⟩
    refine ⟨⟨target, method, unit⟩, mem_ownedMethods.mpr
      ⟨unit, member, impl, implMember, resolves_iff.mpr resolved, methodMember, rfl⟩,
      ⟨rfl, called⟩, returnsOwner_iff.mpr returns⟩

theorem mem_containsEdges {type : TypeDefinition} {target label : String} :
    (∃ edge ∈ containsEdges resolver unit type, edge.target = target ∧ edge.label = label) ↔
      ∃ field ∈ type.fields, field.name = label ∧
        RefersTo resolver field.typeText unit type.qualifiedName target := by
  simp only [← refersTo_iff, containsEdges, List.mem_flatMap, List.mem_map]
  constructor
  · rintro ⟨_, ⟨field, written, reference, mentioned, rfl⟩, rfl, rfl⟩
    exact ⟨field, written, rfl, reference, mentioned, rfl⟩
  · rintro ⟨field, written, rfl, reference, mentioned, rfl⟩
    exact ⟨_, ⟨field, written, reference, mentioned, rfl⟩, rfl, rfl⟩

theorem mem_implementsEdges {impl : ImplBlock} {source : String} {edge : Edge} :
    edge ∈ implementsEdges resolver unit source impl ↔
      ∃ traitName target, impl.traitName = some traitName ∧
        Resolves resolver traitName unit (some source) target ∧ target ≠ source ∧
          edge = { source := source, target := target, kind := .implements, label := "",
                   cardinality := none } := by
  rw [implementsEdges]
  cases written : named impl.traitName with
  | none =>
      simp only [List.not_mem_nil, false_iff]
      rintro ⟨traitName, target, implemented, resolved, _⟩
      have blank : traitName = "" := by simpa [named, implemented] using written
      exact not_resolves_empty (blank ▸ resolved)
  | some traitName =>
      have implemented := eq_of_named written
      simp only [implemented, Option.some.injEq, exists_and_left, exists_eq_left', ← resolves_iff]
      cases named (resolver.resolveType traitName unit (some source)) with
      | none => simp
      | some target =>
          simp only [Option.some.injEq, exists_eq_left']
          split <;> simp_all

theorem mem_callEdges {source : String} {method : Method} {call : CallSite} {edge : Edge} :
    edge ∈ callEdges resolver (ownedMethods resolver units) unit source method call ↔
      ∃ target, LandsOn resolver call unit source target ∧ target ≠ source ∧
        (edge = { source := source, target := target, kind := .calls, label := call.method,
                  cardinality := none } ∨
          (isConstructorName call.method ∨ GivesBack resolver units target call.method) ∧
            edge = { source := source, target := target, kind := .stateTransition,
                     label := method.name, cardinality := none }) := by
  rw [callEdges]
  simp only [← callTarget_eq_some, ← isStateTransition_iff_givesBack]
  cases callTarget resolver call unit source with
  | none => simp
  | some target =>
      simp only [Option.some.injEq, exists_eq_left']
      split
      · simp_all
      · split <;> simp_all

theorem relates_of_mem_edgesOf {edge : Edge} (member : edge ∈ edgesOf resolver units) :
    Relates resolver units edge.source edge.target edge.kind edge.label := by
  obtain ⟨unit, unitMember, contained | ⟨impl, implMember, found⟩⟩ := mem_edgesOf.mp member
  · simp only [typeEdges, List.mem_flatMap, List.mem_filter, decide_eq_true_eq] at contained
    obtain ⟨type, ⟨declared, registered⟩, edgeMember⟩ := contained
    obtain ⟨source, kind⟩ := source_of_mem_containsEdges edgeMember
    obtain ⟨field, written, label, refers⟩ := mem_containsEdges.mp ⟨edge, edgeMember, rfl, rfl⟩
    rw [source, kind, ← label]
    exact .contains unitMember declared registered written refers
  · obtain ⟨source, resolved, found⟩ := mem_implEdges.mp found
    have caller := resolves_iff.mp resolved
    rcases found with implemented | ⟨method, methodMember, call, callMember, called⟩
    · obtain ⟨traitName, target, written, refers, other, rfl⟩ := mem_implementsEdges.mp implemented
      exact .implements unitMember implMember caller written refers other
    · have here : Site.In ⟨unit, impl, method, call⟩ units :=
        ⟨unitMember, implMember, methodMember, callMember⟩
      obtain ⟨target, lands, other, rfl | ⟨moves, rfl⟩⟩ := mem_callEdges.mp called
      · exact .calls here ⟨caller, lands⟩ other
      · exact .stateTransition here ⟨caller, lands⟩ other moves

theorem Site.In.mem_edgesOf {site : Site} (here : site.In units) {source : String}
    (caller : Resolves resolver site.impl.target site.unit none source) {edge : Edge}
    (member : edge ∈ callEdges resolver (ownedMethods resolver units) site.unit source site.method
      site.call) : edge ∈ edgesOf resolver units :=
  Snapshot.mem_edgesOf.mpr ⟨site.unit, here.unit, .inr ⟨site.impl, here.impl,
    mem_implEdges.mpr ⟨source, resolves_iff.mpr caller,
      .inr ⟨site.method, here.method, site.call, here.call, member⟩⟩⟩⟩

theorem shows_edgesOf {source target label : String} {kind : EdgeKind} :
    Graph.Shows (edgesOf resolver units) source target kind label ↔
      Relates resolver units source target kind label := by
  constructor
  · rintro ⟨edge, member, rfl, rfl, rfl, rfl⟩
    exact relates_of_mem_edgesOf member
  · intro relates
    cases relates with
    | @contains unit type field target unitMember declared registered written refers =>
        obtain ⟨edge, member, landed, labelled⟩ :=
          mem_containsEdges.mpr ⟨field, written, rfl, refers⟩
        obtain ⟨sourced, kind⟩ := source_of_mem_containsEdges member
        refine ⟨edge, mem_edgesOf.mpr ⟨unit, unitMember, .inl ?_⟩, sourced, landed, kind, labelled⟩
        exact List.mem_flatMap.mpr
          ⟨type, List.mem_filter.mpr ⟨declared, by simpa using registered⟩, member⟩
    | @implements unit impl traitName source target unitMember implMember caller written refers
        other =>
        have member := mem_implementsEdges.mpr ⟨traitName, target, written, refers, other, rfl⟩
        have found : _ ∈ implEdges resolver (ownedMethods resolver units) unit impl :=
          mem_implEdges.mpr ⟨source, resolves_iff.mpr caller, .inl member⟩
        exact ⟨_, mem_edgesOf.mpr ⟨unit, unitMember, .inr ⟨impl, implMember, found⟩⟩, rfl, rfl,
          rfl, rfl⟩
    | @calls site source target here joins other =>
        have member := here.mem_edgesOf joins.caller
          (mem_callEdges.mpr ⟨target, joins.callee, other, .inl rfl⟩)
        exact ⟨_, member, rfl, rfl, rfl, rfl⟩
    | @stateTransition site source target here joins other moves =>
        have member := here.mem_edgesOf joins.caller
          (mem_callEdges.mpr ⟨target, joins.callee, other, .inr ⟨moves, rfl⟩⟩)
        exact ⟨_, member, rfl, rfl, rfl, rfl⟩

end Producers

end CrateAtlas.Snapshot
