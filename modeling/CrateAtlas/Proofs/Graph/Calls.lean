import CrateAtlas.Proofs.Graph.Relation

/-!
The calls that a graph leaves out. Main statement: a call is left out when the impl block around
it is of no known type, or when it lands on no known type, and the count of these calls is what
the impl blocks report.
-/

namespace CrateAtlas.Snapshot

open Resolver

variable {resolver : Resolver} {units : List SourceUnit}

/-- The call site stands in an impl block of no known type. -/
def Site.Lost (resolver : Resolver) (site : Site) : Prop :=
  ∀ source, ¬ Resolves resolver site.impl.target site.unit none source

/-- The call site stands in an impl block of a type and lands on none. -/
def Site.Misses (resolver : Resolver) (site : Site) : Prop :=
  ∃ source, Resolves resolver site.impl.target site.unit none source ∧
    ∀ target, ¬ LandsOn resolver site.call site.unit source target

theorem Site.lost_iff {site : Site} : site.Lost resolver ↔
    named (resolver.resolveType site.impl.target site.unit none) = none := by
  simp only [Site.Lost, ← resolves_iff, Option.eq_none_iff_forall_ne_some]

theorem Site.misses_iff {site : Site} : site.Misses resolver ↔
    ∃ source ∈ named (resolver.resolveType site.impl.target site.unit none),
      callTarget resolver site.call site.unit source = none := by
  simp only [Site.Misses, ← resolves_iff, ← callTarget_eq_some,
    Option.eq_none_iff_forall_ne_some, Option.mem_def]

instance (site : Site) : Decidable (site.Lost resolver) :=
  decidable_of_iff _ Site.lost_iff.symm

instance (site : Site) : Decidable (site.Misses resolver) :=
  decidable_of_iff _ Site.misses_iff.symm

def callSitesOf (unit : SourceUnit) (impl : ImplBlock) : List Site :=
  impl.methods.flatMap fun method => method.calls.map (Site.mk unit impl method)

def callSites (units : List SourceUnit) : List Site :=
  units.flatMap fun unit => unit.impls.flatMap (callSitesOf unit)

theorem mem_callSites {site : Site} : site ∈ callSites units ↔ site.In units := by
  simp only [callSites, callSitesOf, List.mem_flatMap, List.mem_map]
  constructor
  · rintro ⟨unit, unitMember, impl, implMember, method, methodMember, call, callMember, rfl⟩
    exact ⟨unitMember, implMember, methodMember, callMember⟩
  · rintro ⟨unitMember, implMember, methodMember, callMember⟩
    exact ⟨site.unit, unitMember, site.impl, implMember, site.method, methodMember, site.call,
      callMember, rfl⟩

theorem spec_of_mem_callSitesOf {unit : SourceUnit} {impl : ImplBlock} {site : Site}
    (member : site ∈ callSitesOf unit impl) : site.unit = unit ∧ site.impl = impl := by
  simp only [callSitesOf, List.mem_flatMap, List.mem_map] at member
  obtain ⟨_, _, _, _, rfl⟩ := member
  exact ⟨rfl, rfl⟩

theorem unresolvedCalls_eq (unit : SourceUnit) (impl : ImplBlock) :
    unresolvedCalls resolver unit impl =
      (callSitesOf unit impl).countP (fun site => site.Lost resolver) +
        (callSitesOf unit impl).countP fun site => site.Misses resolver := by
  have calls : impl.methods.flatMap Method.calls = (callSitesOf unit impl).map Site.call := by
    simp [callSitesOf, List.map_flatMap, Function.comp_def]
  rw [unresolvedCalls, calls]
  -- the calls of one impl block are all lost, or none of them is
  cases target : named (resolver.resolveType impl.target unit none) with
  | none =>
      have lost : ∀ site ∈ callSitesOf unit impl, site.Lost resolver := by
        intro site member
        obtain ⟨rfl, rfl⟩ := spec_of_mem_callSitesOf member
        exact Site.lost_iff.mpr target
      have allLost : (callSitesOf unit impl).countP (fun site => site.Lost resolver) =
          (callSitesOf unit impl).length :=
        List.countP_eq_length.mpr fun site member => by simpa using lost site member
      have noneMisses : (callSitesOf unit impl).countP (fun site => site.Misses resolver) = 0 := by
        refine List.countP_eq_zero.mpr fun site member => ?_
        simp only [decide_eq_true_eq]
        exact fun ⟨source, resolved, _⟩ => lost site member source resolved
      rw [allLost, noneMisses]
      simp
  | some source =>
      have noneLost : (callSitesOf unit impl).countP (fun site => site.Lost resolver) = 0 := by
        refine List.countP_eq_zero.mpr fun site member => ?_
        obtain ⟨rfl, rfl⟩ := spec_of_mem_callSitesOf member
        simp [Site.lost_iff, target]
      have missing : ∀ site ∈ callSitesOf unit impl, site.Misses resolver ↔
          (callTarget resolver site.call unit source).isNone := by
        intro site member
        obtain ⟨rfl, rfl⟩ := spec_of_mem_callSitesOf member
        simp [Site.misses_iff, target]
      dsimp only
      rw [noneLost, Nat.zero_add, ← List.countP_eq_length_filter, List.countP_map]
      refine List.countP_congr fun site member => ?_
      simpa using (missing site member).symm

theorem foldl_unresolvedCalls (unit : SourceUnit) (impls : List ImplBlock) (start : Nat) :
    (impls.map (unresolvedCalls resolver unit)).foldl (· + ·) start = start +
      ((impls.flatMap (callSitesOf unit)).countP (fun site => site.Lost resolver) +
        (impls.flatMap (callSitesOf unit)).countP fun site => site.Misses resolver) := by
  induction impls generalizing start with
  | nil => rfl
  | cons impl rest ih =>
      rw [List.map_cons, List.foldl_cons, ih, unresolvedCalls_eq, List.flatMap_cons,
        List.countP_append, List.countP_append]
      omega

theorem unresolvedOf_eq (units : List SourceUnit) :
    unresolvedOf resolver units =
      (callSites units).countP (fun site => site.Lost resolver) +
        (callSites units).countP fun site => site.Misses resolver := by
  have counted : ∀ start : Nat,
      (units.flatMap fun unit => unit.impls.map (unresolvedCalls resolver unit)).foldl
          (· + ·) start = start +
        ((callSites units).countP (fun site => site.Lost resolver) +
          (callSites units).countP fun site => site.Misses resolver) := by
    induction units with
    | nil => exact fun start => rfl
    | cons unit rest ih =>
        intro start
        have grow : callSites (unit :: rest) =
            unit.impls.flatMap (callSitesOf unit) ++ callSites rest := List.flatMap_cons
        rw [List.flatMap_cons, List.foldl_append, ih, foldl_unresolvedCalls, grow,
          List.countP_append, List.countP_append]
        omega
  rw [unresolvedOf, counted, Nat.zero_add]

theorem Site.cases (resolver : Resolver) (site : Site) :
    site.Lost resolver ∨ site.Misses resolver ∨
      ∃ source target, site.Joins resolver source target := by
  by_cases lost : site.Lost resolver
  · exact .inl lost
  · obtain ⟨source, caller⟩ := not_forall_not.mp lost
    by_cases lands : ∃ target, LandsOn resolver site.call site.unit source target
    · obtain ⟨target, callee⟩ := lands
      exact .inr (.inr ⟨source, target, caller, callee⟩)
    · exact .inr (.inl ⟨source, caller, not_exists.mp lands⟩)

end CrateAtlas.Snapshot
