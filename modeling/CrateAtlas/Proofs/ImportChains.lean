import CrateAtlas.Proofs.CrateRoots
import CrateAtlas.Proofs.Resolution
import CrateAtlas.Proofs.TypeText.TypePath

/-!
Names that are resolved through imports. Main statement: a name that its unit does not declare is
resolved exactly when a chain of at most five imports leads from the unit to a registered type, and
then to the end of such a chain; and whatever is resolved is registered.
-/

namespace CrateAtlas

open ModulePath Text

/-- What an import stands for when a name is looked up: an explicit one, which makes that name
visible, for its own path, and a glob for the name below its base. -/
inductive Import.Offers (entry : Import) (name : String) : String → Prop
  | explicit (plain : entry.isGlob = false) (visible : entry.visibleName = name) :
      entry.Offers name entry.path
  | glob (glob : entry.isGlob) : entry.Offers name (entry.globMember name)

namespace Resolver

/-- A number of imports, the first of them in a unit, that lead from a name to a registered type.
Each import but the last has a candidate in another module, where the next one is found under the
last segment of that candidate. -/
inductive Chain (resolver : Resolver) : Nat → SourceUnit → String → String → Prop
  | last {unit : SourceUnit} {name path found : String} {entry : Import}
      (member : entry ∈ unit.imports) (offers : entry.Offers name path)
      (candidate : found ∈ absoluteCandidates path unit.modulePath)
      (registered : resolver.isRegistered found) : Chain resolver 1 unit name found
  | next {length : Nat} {unit other : SourceUnit} {name path middle found : String}
      {entry : Import} (member : entry ∈ unit.imports) (offers : entry.Offers name path)
      (candidate : middle ∈ absoluteCandidates path unit.modulePath)
      (nested : 2 ≤ (segments middle).length) (declared : other ∈ resolver.units)
      (placed : other.modulePath = parent middle)
      (rest : Chain resolver length other (lastSegment middle) found) :
      Chain resolver (length + 1) unit name found

variable {resolver : Resolver} {unit : SourceUnit} {name found : String}

theorem Chain.pos {length : Nat} (chain : resolver.Chain length unit name found) : 1 ≤ length := by
  cases chain <;> omega

variable {find : List String → Option String}

theorem mem_tried {path : String} :
    path ∈ (unit.imports.filter fun entry => !entry.isGlob && entry.visibleName = name).map
        Import.path ++ (unit.imports.filter Import.isGlob).map (·.globMember name) ↔
      ∃ entry ∈ unit.imports, entry.Offers name path := by
  simp only [List.mem_append, List.mem_map, List.mem_filter, Bool.and_eq_true, Bool.not_eq_true',
    decide_eq_true_eq]
  constructor
  · rintro (⟨entry, ⟨member, plain, visible⟩, rfl⟩ | ⟨entry, ⟨member, glob⟩, rfl⟩)
    · exact ⟨entry, member, .explicit plain visible⟩
    · exact ⟨entry, member, .glob glob⟩
  · rintro ⟨entry, member, plain | glob⟩
    · rename_i visible
      exact .inl ⟨entry, ⟨member, plain, visible⟩, rfl⟩
    · exact .inr ⟨entry, ⟨member, glob⟩, rfl⟩

theorem exists_offer_of_throughImports (imported : throughImports find name unit = some found) :
    ∃ entry ∈ unit.imports, ∃ path, entry.Offers name path ∧
      find (absoluteCandidates path unit.modulePath) = some found := by
  obtain ⟨path, tried, answer⟩ := List.exists_of_findSome?_eq_some imported
  obtain ⟨entry, member, offers⟩ := mem_tried.mp tried
  exact ⟨entry, member, path, offers, eq_of_named answer⟩

theorem throughImports_isSome {entry : Import} {path : String} (member : entry ∈ unit.imports)
    (offers : entry.Offers name path)
    (answers : (named (find (absoluteCandidates path unit.modulePath))).isSome) :
    (throughImports find name unit).isSome := by
  rw [throughImports, List.findSome?_isSome_iff]
  exact ⟨path, mem_tried.mpr ⟨entry, member, offers⟩, answers⟩

theorem firstRegistered_cases {hops : Nat} {candidates : List String}
    (answer : resolver.firstRegistered hops candidates = some found) :
    found ∈ candidates ∧ resolver.isRegistered found ∨
      ∃ fewer, hops = fewer + 1 ∧ ∃ middle ∈ candidates, 2 ≤ (segments middle).length ∧
        ∃ other ∈ resolver.units, other.modulePath = parent middle ∧
          throughImports (resolver.firstRegistered fewer) (lastSegment middle) other =
            some found := by
  have registered_of_direct (direct : named (candidates.find? resolver.isRegistered) = some found) :
      found ∈ candidates ∧ resolver.isRegistered found :=
    ⟨List.mem_of_find?_eq_some (eq_of_named direct), List.find?_some (eq_of_named direct)⟩
  cases hops with
  | zero =>
      rw [firstRegistered_zero] at answer
      exact .inl (registered_of_direct answer)
  | succ fewer =>
      rw [firstRegistered_succ, Option.or_eq_some_iff] at answer
      rcases answer with direct | ⟨_, through⟩
      · exact .inl (registered_of_direct direct)
      · obtain ⟨middle, candidate, deeper⟩ := List.exists_of_findSome?_eq_some through
        simp only [throughParent] at deeper
        split at deeper
        · simp at deeper
        · rename_i nested
          obtain ⟨other, placed, further⟩ := List.exists_of_findSome?_eq_some deeper
          rw [parent_eq_self_iff, not_lt] at nested
          simp only [unitsOfModule, List.mem_filter, decide_eq_true_eq] at placed
          exact .inr ⟨fewer, rfl, middle, candidate, nested, other, placed.1, placed.2, further⟩

theorem exists_chain_of_throughImports {hops : Nat}
    (imported : throughImports (resolver.firstRegistered hops) name unit = some found) :
    ∃ length, length ≤ hops + 1 ∧ resolver.Chain length unit name found := by
  induction hops using Nat.strongRecOn generalizing unit name with
  | ind hops ih =>
      obtain ⟨entry, member, path, offers, answer⟩ := exists_offer_of_throughImports imported
      rcases firstRegistered_cases answer with ⟨candidate, registered⟩ |
        ⟨fewer, rfl, middle, candidate, nested, other, declared, placed, further⟩
      · exact ⟨1, by omega, .last member offers candidate registered⟩
      · obtain ⟨length, bound, rest⟩ := ih fewer (by omega) further
        exact ⟨length + 1, by omega, .next member offers candidate nested declared placed rest⟩

section Complete

def Filled (resolver : Resolver) : Prop :=
  ∀ name ∈ OrderedMap.keys resolver.registry, name ≠ ""

theorem Filled.named_some (filled : resolver.Filled) (registered : resolver.isRegistered found) :
    named (some found) = some found := by
  rw [named, Option.filter_some, if_pos]
  simpa using filled found (OrderedMap.mem_keys_iff_isSome.mpr registered)

theorem Filled.named_firstRegistered (filled : resolver.Filled) (hops : Nat)
    (candidates : List String) :
    named (resolver.firstRegistered hops candidates) =
      resolver.firstRegistered hops candidates := by
  cases first : resolver.firstRegistered hops candidates with
  | none => rfl
  | some found => exact filled.named_some (registered_of_firstRegistered first)

theorem Filled.firstRegistered_direct (filled : resolver.Filled) {candidates : List String}
    (candidate : found ∈ candidates) (registered : resolver.isRegistered found) (hops : Nat) :
    (resolver.firstRegistered hops candidates).isSome := by
  obtain ⟨first, direct⟩ :=
    Option.isSome_iff_exists.mp (List.find?_isSome.mpr ⟨found, candidate, registered⟩)
  have answers := filled.named_some (List.find?_some direct)
  cases hops with
  | zero => rw [firstRegistered_zero, direct, answers]; rfl
  | succ hops => rw [firstRegistered_succ, direct, answers]; rfl

theorem Filled.throughImports_of_chain (filled : resolver.Filled) {length : Nat}
    (chain : resolver.Chain length unit name found) {hops : Nat} (bound : length ≤ hops + 1) :
    (throughImports (resolver.firstRegistered hops) name unit).isSome := by
  -- On the chain: behind each import the hops that are left suffice for the rest of it.
  induction chain generalizing hops with
  | last member offers candidate registered =>
      refine throughImports_isSome member offers ?_
      rw [filled.named_firstRegistered]
      exact filled.firstRegistered_direct candidate registered hops
  | next member offers candidate nested declared placed rest ih =>
      refine throughImports_isSome member offers ?_
      rw [filled.named_firstRegistered]
      have more := rest.pos
      obtain ⟨hops, rfl⟩ : ∃ fewer, hops = fewer + 1 := ⟨hops - 1, by omega⟩
      rw [firstRegistered_succ, Option.isSome_or, Bool.or_eq_true]
      refine .inr (List.findSome?_isSome_iff.mpr ⟨_, candidate, ?_⟩)
      rw [throughParent, if_neg, List.findSome?_isSome_iff]
      · refine ⟨_, ?_, ih (by omega)⟩
        simpa [unitsOfModule] using ⟨declared, placed⟩
      · rw [parent_eq_self_iff]
        omega

end Complete

section Names

/-- A name of one segment, in characters of identifiers. -/
structure SingleName (name : String) : Prop where
  filled : name ≠ ""
  letters : ∀ character ∈ name.toList, TypeText.isIdentifierChar character

theorem SingleName.segments (single : SingleName name) : segments name = [name] := by
  refine segments_of_free fun colon => ?_
  exact absurd (single.letters ':' colon) (by decide)

theorem SingleName.typePathOf (single : SingleName name) : TypeText.typePathOf name = name := by
  by_cases keyword : name ∈ TypeText.typeKeywords
  · have kept : ∀ keyword ∈ TypeText.typeKeywords, TypeText.typePathOf keyword = keyword := by
      decide
    exact kept name keyword
  · let identifier : TypeText.Identifier := {
      text := name.toList
      filled := mt String.toList_eq_nil_iff.mp single.filled
      letters := single.letters
      free := by rwa [String.ofList_toList] }
    let path : TypeText.WrittenPath := { head := ⟨identifier, .none⟩, links := [] }
    have written : TypeText.writtenType .none .none [] path = name := by
      simp [TypeText.writtenType, TypeText.WrittenPath.text, TypeText.Segment.text,
        TypeText.Arguments.text, path, identifier]
    have read := (TypeText.typePathChars_names path [] .none .none).mpr (by simp)
    rw [written, path.text_plain] at read
    apply String.toList_injective
    rw [TypeText.typePathOf, String.toList_ofList, read]
    simp [path, identifier]

theorem SingleName.resolveType (single : SingleName name)
    (free : name ∉ ["Self", "crate", "self", "super"])
    (undeclared : ∀ type ∈ unit.types, type.name = name →
      ¬resolver.isRegistered type.qualifiedName)
    (outside : ¬resolver.isRegistered (join [unit.modulePath, name])) (selfType : Option String) :
    resolver.resolveType name unit selfType =
      throughImports (resolver.firstRegistered maxHops) name unit := by
  have absent : unit.types.find? (fun type =>
      type.name = name && resolver.isRegistered type.qualifiedName) = none := by
    rw [List.find?_eq_none]
    intro type member
    simpa using undeclared type member
  have own : resolver.resolveName name unit =
      throughImports (resolver.firstRegistered maxHops) name unit := by
    rw [resolveName_eq, absent, if_neg outside]
    rfl
  have notSelf : name ≠ "Self" := fun same => free (by simp [same])
  have notRelative : ["crate", "self", "super"].contains name = false := by
    simp only [List.mem_cons, not_or] at free
    simp [free]
  rw [Resolver.resolveType, single.typePathOf, single.segments, if_neg single.filled]
  split
  · rename_i nothing
    simp at nothing
  · rename_i same
    exact absurd (List.cons.inj same).1 notSelf
  · rename_i same
    exact absurd (List.cons.inj same).1 notSelf
  · rename_i head rest _ _ same
    obtain ⟨rfl, rfl⟩ := List.cons.inj same
    rw [notRelative, if_neg (by simp), if_pos rfl, own]

/-- The name of a type that its unit does not hold is resolved exactly when at most five imports
lead to a registered type, and then to one that they lead to. Whatever a resolver finds, for any
text, is registered, as long as `Self` stands for a registered type. -/
theorem resolves_along_imports (resolver : Resolver) :
    ((∀ registered ∈ OrderedMap.keys resolver.registry, registered ≠ "") →
      ∀ (unit : SourceUnit) (name : String) (selfType : Option String), SingleName name →
        name ∉ ["Self", "crate", "self", "super"] →
        (∀ type ∈ unit.types, type.name = name → ¬resolver.isRegistered type.qualifiedName) →
        ¬resolver.isRegistered (join [unit.modulePath, name]) →
          ((resolver.resolveType name unit selfType).isSome ↔
            ∃ length found, 1 ≤ length ∧ length ≤ 5 ∧ resolver.Chain length unit name found) ∧
          ∀ found, resolver.resolveType name unit selfType = some found →
            ∃ length, 1 ≤ length ∧ length ≤ 5 ∧ resolver.Chain length unit name found) ∧
    ∀ selfType : Option String, (∀ owner ∈ selfType, resolver.isRegistered owner) →
      (∀ text unit found, resolver.resolveType text unit selfType = some found →
        resolver.isRegistered found) ∧
      (∀ text unit, ∀ reference ∈ resolver.resolveTypeRefs text unit selfType,
        resolver.isRegistered reference.qualifiedName) ∧
      (∀ callee unit found, resolver.resolveCallee callee unit selfType = some found →
        resolver.isRegistered found) ∧
      ∀ owner fieldName found, resolver.resolveFieldType owner fieldName = some found →
        resolver.isRegistered found := by
  constructor
  · intro filled unit name selfType single free undeclared outside
    rw [single.resolveType free undeclared outside]
    have sound : ∀ found, throughImports (resolver.firstRegistered maxHops) name unit =
        some found → ∃ length, 1 ≤ length ∧ length ≤ 5 ∧ resolver.Chain length unit name found := by
      intro found imported
      obtain ⟨length, bound, chain⟩ := exists_chain_of_throughImports imported
      exact ⟨length, chain.pos, bound, chain⟩
    refine ⟨⟨fun resolved => ?_, ?_⟩, sound⟩
    · obtain ⟨found, imported⟩ := Option.isSome_iff_exists.mp resolved
      obtain ⟨length, some, bound, chain⟩ := sound found imported
      exact ⟨length, found, some, bound, chain⟩
    · rintro ⟨length, found, _, bound, chain⟩
      exact Filled.throughImports_of_chain filled chain bound
  · intro selfType self
    exact ⟨fun _ _ _ => registered_of_resolveType self,
      fun _ _ _ => registered_of_mem_resolveTypeRefs self,
      fun _ _ _ => registered_of_resolveCallee self, fun _ _ _ => registered_of_resolveFieldType⟩

def moduleWith (modulePath : String) (imports : List Import) : SourceUnit :=
  { filePath := modulePath, modulePath := modulePath, types := [], impls := [],
    imports := imports }

def shopUnit : SourceUnit := moduleWith "crate::app" [⟨"crate::api::Market", some "Shop"⟩]

def apiUnit : SourceUnit := moduleWith "crate::api" [⟨"self::v1::*", none⟩]

def firstUnit : SourceUnit := moduleWith "crate::api::v1" [⟨"super::v2::Market", none⟩]

def secondUnit : SourceUnit :=
  moduleWith "crate::api::v2" [⟨"super::v1::Market", none⟩, ⟨"crate::trade::Bazaar", some "Market"⟩]

def tradeUnit : SourceUnit := moduleWith "crate::trade" [⟨"crate::store::*", none⟩]

def bazaar : Resolver where
  units := [shopUnit, apiUnit, firstUnit, secondUnit, tradeUnit]
  registry := [("crate::store::Bazaar", "src/store.rs")]

def frontUnit : SourceUnit := moduleWith "crate::front" [⟨"crate::app::Shop", none⟩]

theorem resolves_along_imports_of_bazaar :
    (∀ registered ∈ OrderedMap.keys bazaar.registry, registered ≠ "") ∧ SingleName "Shop" ∧
      ¬bazaar.isRegistered (join [shopUnit.modulePath, "Shop"]) ∧
      bazaar.resolveType "Shop" shopUnit none = some "crate::store::Bazaar" ∧
      (∃ length, 1 ≤ length ∧ length ≤ 5 ∧
        bazaar.Chain length shopUnit "Shop" "crate::store::Bazaar") ∧
      (¬∃ length found, 1 ≤ length ∧ length ≤ 5 ∧ bazaar.Chain length frontUnit "Shop" found) ∧
      bazaar.isRegistered "crate::store::Bazaar" := by
  have filled : ∀ registered ∈ OrderedMap.keys bazaar.registry, registered ≠ "" := by decide
  have single : SingleName "Shop" := ⟨by decide, by simp only [← List.all_eq_true]; decide⟩
  have free : "Shop" ∉ ["Self", "crate", "self", "super"] := by decide
  have facts : ¬bazaar.isRegistered (join [shopUnit.modulePath, "Shop"]) ∧
      ¬bazaar.isRegistered (join [frontUnit.modulePath, "Shop"]) ∧
      bazaar.resolveType "Shop" shopUnit none = some "crate::store::Bazaar" ∧
      bazaar.resolveType "Shop" frontUnit none = none := by
    decide +kernel
  obtain ⟨outside, frontOutside, resolved, unresolved⟩ := facts
  obtain ⟨along, registered⟩ := resolves_along_imports bazaar
  have chain := (along filled shopUnit "Shop" none single free (by simp [shopUnit, moduleWith])
    outside).2 _ resolved
  have far := (along filled frontUnit "Shop" none single free (by simp [frontUnit, moduleWith])
    frontOutside).1
  rw [unresolved] at far
  exact ⟨filled, single, outside, resolved, chain, by simpa using far,
    (registered none (by simp)).1 _ _ _ resolved⟩

end Names

end Resolver

end CrateAtlas
