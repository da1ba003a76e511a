import CrateAtlas.Proofs.Resolution
import CrateAtlas.Snapshot.Canonical

/-!
Resolution against the canonical order of a crate. Canonical order exchanges types and imports,
while a search takes the first match. Main statement: every written type resolves alike when
canonical order exchanges nothing that leads one name to different types.
-/

namespace CrateAtlas

open ModulePath

def Import.below (entry : Import) (rest : List String) (modulePath : String) : List String :=
  (absoluteCandidates entry.path modulePath).map fun base => join (base :: rest)

namespace Resolver

def canonical (resolver : Resolver) : Resolver :=
  { resolver with units := resolver.units.map SourceUnit.canonical }

def Agree (resolver : Resolver) (left right : List String) : Prop :=
  ∀ hops ≤ maxHops, Text.Compatible (resolver.firstRegistered hops left)
    (resolver.firstRegistered hops right)

/-- Canonical order exchanges no two types of one name, no two imports of one name and no two
globs of a unit that lead to different types. -/
structure OrderFree (resolver : Resolver) (unit : SourceUnit) : Prop where
  types : unit.types.Pairwise fun earlier later =>
    TypeDefinition.order earlier later = .gt → earlier.name = later.name →
      ¬(resolver.isRegistered earlier.qualifiedName ∧
        resolver.isRegistered later.qualifiedName)
  imports : unit.imports.Pairwise fun earlier later =>
    Import.order earlier later = .gt → earlier.isGlob = false → later.isGlob = false →
      earlier.visibleName = later.visibleName → ∀ rest,
        resolver.Agree (earlier.below rest unit.modulePath) (later.below rest unit.modulePath)
  globs : unit.imports.Pairwise fun earlier later =>
    Import.order earlier later = .gt → earlier.isGlob → later.isGlob → ∀ name,
      resolver.Agree (absoluteCandidates (earlier.globMember name) unit.modulePath)
        (absoluteCandidates (later.globMember name) unit.modulePath)

variable {resolver : Resolver}

theorem join_singleton (part : String) : join [part] = part := by
  by_cases missing : part = ""
  · subst missing
    rfl
  · simp [join, missing, Text.joinWith]

theorem below_nil (entry : Import) (modulePath : String) :
    entry.below [] modulePath = absoluteCandidates entry.path modulePath := by
  simp [Import.below, join_singleton]

theorem compatible_named {left right : Option String} (compatible : Text.Compatible left right) :
    Text.Compatible (named left) (named right) := by
  rcases compatible with rfl | rfl | rfl
  · exact .inl rfl
  · exact .inr (.inl rfl)
  · exact .inr (.inr rfl)

theorem throughImports_canonical {unit : SourceUnit} (free : resolver.OrderFree unit)
    {hops : Nat} (bound : hops ≤ maxHops) (name : String) :
    throughImports (resolver.firstRegistered hops) name unit.canonical =
      throughImports (resolver.firstRegistered hops) name unit := by
  simp only [throughImports, SourceUnit.canonical, List.findSome?_append, List.findSome?_map]
  congr 1
  · apply Text.findSome?_filter_sortBy
    refine free.imports.imp ?_
    intro earlier later agree exchanged keepEarlier keepLater
    simp only [Bool.and_eq_true, Bool.not_eq_true', decide_eq_true_eq] at keepEarlier keepLater
    have reached := agree exchanged keepEarlier.1 keepLater.1
      (keepEarlier.2.trans keepLater.2.symm) [] hops bound
    rw [below_nil, below_nil] at reached
    exact compatible_named reached
  · apply Text.findSome?_filter_sortBy
    refine free.globs.imp ?_
    intro earlier later agree exchanged keepEarlier keepLater
    simp only [Function.comp_apply]
    exact compatible_named (agree exchanged keepEarlier keepLater name hops bound)

theorem unitsOfModule_canonical (modulePath : String) :
    resolver.canonical.unitsOfModule modulePath =
      (resolver.unitsOfModule modulePath).map SourceUnit.canonical := by
  simp only [unitsOfModule, canonical, List.filter_map]
  rfl

theorem firstRegistered_canonical (free : ∀ unit ∈ resolver.units, resolver.OrderFree unit)
    {hops : Nat} (bound : hops ≤ maxHops) (candidates : List String) :
    resolver.canonical.firstRegistered hops candidates =
      resolver.firstRegistered hops candidates := by
  -- On the imports that may still be followed: a unit of a parent module is searched with fewer.
  induction hops generalizing candidates with
  | zero =>
      rw [firstRegistered_zero, firstRegistered_zero]
      rfl
  | succ hops ih =>
      have fewer : hops ≤ maxHops := by omega
      have inner : resolver.canonical.firstRegistered hops = resolver.firstRegistered hops :=
        funext fun candidates => ih fewer candidates
      have through : resolver.canonical.throughParent hops = resolver.throughParent hops := by
        funext candidate
        simp only [throughParent, inner, unitsOfModule_canonical, List.findSome?_map]
        split
        · rfl
        · refine Text.findSome?_congr ?_
          intro unit member
          exact throughImports_canonical (free unit (List.mem_of_mem_filter member)) fewer _
      rw [firstRegistered_succ, firstRegistered_succ, through]
      rfl

theorem resolveName_canonical (free : ∀ unit ∈ resolver.units, resolver.OrderFree unit)
    {unit : SourceUnit} (unitFree : resolver.OrderFree unit) (name : String) :
    resolver.canonical.resolveName name unit.canonical = resolver.resolveName name unit := by
  have inner : resolver.canonical.firstRegistered maxHops = resolver.firstRegistered maxHops :=
    funext fun candidates => firstRegistered_canonical free le_rfl candidates
  rw [resolveName_eq, resolveName_eq, inner, throughImports_canonical unitFree le_rfl]
  congr 1
  rw [Text.map_find?_eq_findSome?, Text.map_find?_eq_findSome?]
  apply Text.findSome?_filter_sortBy
  refine unitFree.types.imp ?_
  intro earlier later apart exchanged keepEarlier keepLater
  simp only [Bool.and_eq_true, decide_eq_true_eq] at keepEarlier keepLater
  exact absurd ⟨keepEarlier.2, keepLater.2⟩
    (apart exchanged (keepEarlier.1.trans keepLater.1.symm))

theorem named_find? (blank : ¬resolver.isRegistered "") (candidates : List String) :
    named (candidates.find? resolver.isRegistered) =
      candidates.find? resolver.isRegistered := by
  cases found : candidates.find? resolver.isRegistered with
  | none => rfl
  | some name =>
      have filled : name ≠ "" := by
        rintro rfl
        exact blank (List.find?_some found)
      simp [named, filled]

theorem Agree.direct (blank : ¬resolver.isRegistered "") {left right : List String}
    (agree : resolver.Agree left right) :
    Text.Compatible (left.find? resolver.isRegistered) (right.find? resolver.isRegistered) := by
  have reached := agree 0 (Nat.zero_le maxHops)
  rw [firstRegistered_zero, firstRegistered_zero, named_find? blank, named_find? blank] at reached
  exact reached

theorem firstRegistered_of_indirect {candidates : List String}
    (indirect : candidates.find? resolver.isRegistered = none) (hops : Nat) :
    resolver.firstRegistered (hops + 1) candidates =
      candidates.findSome? (resolver.throughParent hops) := by
  rw [firstRegistered_succ, indirect]
  rfl

theorem firstRegistered_sortedGroups (blank : ¬resolver.isRegistered "")
    (order : α → α → Ordering) (keep : α → Bool) (group : α → List String) (list : List α)
    (agree : list.Pairwise fun earlier later => order earlier later = .gt →
      keep earlier → keep later → resolver.Agree (group earlier) (group later))
    (others : List String) {hops : Nat} (bound : hops ≤ maxHops) :
    resolver.firstRegistered hops
        (((Text.sortBy order list).filter keep).flatMap group ++ others) =
      resolver.firstRegistered hops ((list.filter keep).flatMap group ++ others) := by
  have direct : (((Text.sortBy order list).filter keep).flatMap group).find?
      resolver.isRegistered =
        ((list.filter keep).flatMap group).find? resolver.isRegistered := by
    rw [List.find?_flatMap, List.find?_flatMap]
    apply Text.findSome?_filter_sortBy
    refine agree.imp ?_
    intro earlier later agreed exchanged keepEarlier keepLater
    exact (agreed exchanged keepEarlier keepLater).direct blank
  cases hops with
  | zero =>
      rw [firstRegistered_zero, firstRegistered_zero, List.find?_append, List.find?_append, direct]
  | succ hops =>
      rw [firstRegistered_succ, firstRegistered_succ, named_find? blank, named_find? blank,
        List.find?_append, List.find?_append, direct, List.findSome?_append,
        List.findSome?_append]
      cases found : ((list.filter keep).flatMap group).find? resolver.isRegistered with
      | some name => rfl
      | none =>
          -- Only now the imports of the parents are searched, so no group leads anywhere directly.
          have indirect : ∀ member ∈ list, keep member →
              (group member).find? resolver.isRegistered = none := by
            intro member present kept
            rw [List.find?_flatMap, List.findSome?_eq_none_iff] at found
            exact found member (List.mem_filter.mpr ⟨present, kept⟩)
          have through : (((Text.sortBy order list).filter keep).flatMap group).findSome?
              (resolver.throughParent hops) =
                ((list.filter keep).flatMap group).findSome? (resolver.throughParent hops) := by
            rw [Text.findSome?_flatMap, Text.findSome?_flatMap]
            apply Text.findSome?_filter_sortBy
            refine agree.imp_of_mem ?_
            intro earlier later presentEarlier presentLater agreed exchanged keepEarlier keepLater
            have reached := agreed exchanged keepEarlier keepLater (hops + 1) bound
            rw [firstRegistered_of_indirect (indirect earlier presentEarlier keepEarlier),
              firstRegistered_of_indirect (indirect later presentLater keepLater)] at reached
            exact reached
          rw [through]

theorem firstRegistered_moduleCandidates (blank : ¬resolver.isRegistered "") {unit : SourceUnit}
    (unitFree : resolver.OrderFree unit) (head : String) (rest others : List String) :
    resolver.firstRegistered maxHops
        ((moduleCandidates head unit.canonical).map (fun base => join (base :: rest)) ++ others) =
      resolver.firstRegistered maxHops
        ((moduleCandidates head unit).map (fun base => join (base :: rest)) ++ others) := by
  have spread : ∀ unit : SourceUnit, resolver.firstRegistered maxHops
      ((moduleCandidates head unit).map (fun base => join (base :: rest)) ++ others) =
        resolver.firstRegistered maxHops
          ((unit.imports.filter fun entry => !entry.isGlob && entry.visibleName = head).flatMap
            (fun entry => entry.below rest unit.modulePath) ++
            ([join [unit.modulePath, head], join [crateRoot unit.modulePath, head],
              "crate::" ++ head].map (fun base => join (base :: rest)) ++ others)) := by
    intro unit
    apply firstRegistered_congr
    intro search
    simp only [moduleCandidates, List.findSome?_append, List.findSome?_map, findSome?_distinct,
      Text.findSome?_flatMap, Import.below, Option.or_assoc]
  rw [spread, spread]
  apply firstRegistered_sortedGroups blank _ _ _ _ _ _ le_rfl
  refine unitFree.imports.imp ?_
  intro earlier later agree exchanged keepEarlier keepLater
  simp only [Bool.and_eq_true, Bool.not_eq_true', decide_eq_true_eq] at keepEarlier keepLater
  exact agree exchanged keepEarlier.1 keepLater.1 (keepEarlier.2.trans keepLater.2.symm) rest

theorem resolveType_canonical (blank : ¬resolver.isRegistered "")
    (free : ∀ unit ∈ resolver.units, resolver.OrderFree unit) {unit : SourceUnit}
    (unitFree : resolver.OrderFree unit) (text : String) (selfType : Option String) :
    resolver.canonical.resolveType text unit.canonical selfType =
      resolver.resolveType text unit selfType := by
  have inner : resolver.canonical.firstRegistered maxHops = resolver.firstRegistered maxHops :=
    funext fun candidates => firstRegistered_canonical free le_rfl candidates
  have modulePath : unit.canonical.modulePath = unit.modulePath := rfl
  simp only [resolveType, inner, modulePath, resolveName_canonical free unitFree,
    firstRegistered_moduleCandidates blank unitFree]

theorem declaration?_canonical
    (declaredOnce : ∀ unit ∈ resolver.units, ∀ name, resolver.isRegistered name →
      (unit.types.filter fun type => type.qualifiedName = name).length ≤ 1) (name : String) :
    resolver.canonical.declaration? name =
      (resolver.declaration? name).map fun entry => (entry.1, entry.2.canonical) := by
  have declared : resolver.canonical.declarations.filter (fun entry =>
      entry.1.qualifiedName = name) =
        (resolver.declarations.filter fun entry => entry.1.qualifiedName = name).map
          fun entry => (entry.1, entry.2.canonical) := by
    simp only [declarations, canonical, List.flatMap_map, List.filter_flatMap, List.map_flatMap]
    refine List.flatMap_congr ?_
    intro unit member
    simp only [List.filter_map, List.map_map, List.filter_filter, SourceUnit.canonical]
    rw [Text.filter_sortBy_of_length_le_one]
    · rfl
    · by_cases registered : resolver.isRegistered name
      · refine le_trans ?_ (declaredOnce unit member name registered)
        refine List.Sublist.length_le (List.monotone_filter_right _ ?_)
        intro type kept
        simp only [Function.comp_apply, Bool.and_eq_true] at kept
        exact kept.1
      · rw [List.filter_eq_nil_iff.mpr]
        · exact Nat.zero_le 1
        · intro type _ kept
          simp only [Function.comp_apply, Bool.and_eq_true, decide_eq_true_eq] at kept
          obtain ⟨rfl, here⟩ := kept
          apply registered
          rw [isRegistered, OrderedMap.has, of_decide_eq_true here]
          rfl
  rw [Resolver.declaration?, Resolver.declaration?, declared, List.getLast?_map]

/-- A crate of which canonical order changes nothing that a search finds: every registered type
is declared once, and every unit is free of its order. -/
structure Steady (resolver : Resolver) : Prop where
  blank : ¬resolver.isRegistered ""
  declaredOnce : ∀ unit ∈ resolver.units, ∀ name, resolver.isRegistered name →
    (unit.types.filter fun type => type.qualifiedName = name).length ≤ 1
  free : ∀ unit ∈ resolver.units, resolver.OrderFree unit

section Steady

variable {unit : SourceUnit}

theorem Steady.resolveType (steady : resolver.Steady) (member : unit ∈ resolver.units)
    (text : String) (selfType : Option String) :
    resolver.canonical.resolveType text unit.canonical selfType =
      resolver.resolveType text unit selfType :=
  resolveType_canonical steady.blank steady.free (steady.free unit member) text selfType

theorem Steady.resolveTypeRefs (steady : resolver.Steady) (member : unit ∈ resolver.units)
    (text : String) (selfType : Option String) :
    resolver.canonical.resolveTypeRefs text unit.canonical selfType =
      resolver.resolveTypeRefs text unit selfType := by
  simp only [Resolver.resolveTypeRefs, steady.resolveType member]

theorem Steady.declaration? (steady : resolver.Steady) (name : String) :
    resolver.canonical.declaration? name =
      (resolver.declaration? name).map fun entry => (entry.1, entry.2.canonical) :=
  declaration?_canonical steady.declaredOnce name

theorem Steady.resolveFieldType (steady : resolver.Steady) (owner fieldName : String) :
    resolver.canonical.resolveFieldType owner fieldName =
      resolver.resolveFieldType owner fieldName := by
  simp only [Resolver.resolveFieldType, steady.declaration?]
  cases found : resolver.declaration? owner with
  | none => rfl
  | some entry =>
      obtain ⟨type, unit⟩ := entry
      have member := (mem_declarations.mp (declaration?_spec found).1).1
      simp only [Option.map_some, steady.resolveTypeRefs member]

theorem Steady.resolveCallee (steady : resolver.Steady) (member : unit ∈ resolver.units)
    (callee : String) (selfType : Option String) :
    resolver.canonical.resolveCallee callee unit.canonical selfType =
      resolver.resolveCallee callee unit selfType := by
  simp only [Resolver.resolveCallee, steady.resolveFieldType, steady.resolveType member]

end Steady

end Resolver

end CrateAtlas
