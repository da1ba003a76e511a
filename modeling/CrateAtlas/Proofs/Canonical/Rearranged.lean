import CrateAtlas.Artifact
import CrateAtlas.Yaml
import CrateAtlas.Proofs.Canonical.Order

/-!
What canonical order forgets. Main statement: a unit whose declarations are told apart by their keys
has one canonical form and one artifact in whatever order they stand, and a snapshot equals its
canonical form.
-/

namespace CrateAtlas

/-- The members of one list, in any order, each related to a member of the other. -/
def Shuffled (relation : α → α → Prop) (left right : List α) : Prop :=
  ∃ middle, left.Perm middle ∧ List.Forall₂ relation middle right

inductive Method.Rearranged (method : Method) : Method → Prop where
  | intro {calls : List CallSite} (perm : method.calls.Perm calls) :
      Rearranged method { method with calls := calls }

inductive ImplBlock.Rearranged (impl : ImplBlock) : ImplBlock → Prop where
  | intro {methods : List Method} (shuffled : Shuffled Method.Rearranged impl.methods methods) :
      Rearranged impl { impl with methods := methods }

/-- The declarations of a unit in another order, with those inside its impl blocks and methods. -/
inductive SourceUnit.Rearranged (unit : SourceUnit) : SourceUnit → Prop where
  | intro {types : List TypeDefinition} {impls : List ImplBlock} {imports : List Import}
      (typesPerm : unit.types.Perm types)
      (implsShuffled : Shuffled ImplBlock.Rearranged unit.impls impls)
      (importsPerm : unit.imports.Perm imports) :
      Rearranged unit { unit with types := types, impls := impls, imports := imports }

def ImplBlock.key (impl : ImplBlock) : String × String × Int :=
  (impl.target, impl.traitName.getD "", impl.location.startLine)

def Import.key (entry : Import) : String × String :=
  (entry.path, entry.localName.getD "")

def Method.ToldApart (method : Method) : Prop :=
  ∀ first ∈ method.calls, ∀ second ∈ method.calls,
    first.line = second.line → first.callee = second.callee → first = second

structure ImplBlock.ToldApart (impl : ImplBlock) : Prop where
  methods : (impl.methods.map Method.name).Nodup
  calls : ∀ method ∈ impl.methods, method.ToldApart

/-- No two declarations that stand side by side have the same key. -/
structure SourceUnit.ToldApart (unit : SourceUnit) : Prop where
  types : (unit.types.map TypeDefinition.qualifiedName).Nodup
  impls : (unit.impls.map ImplBlock.key).Nodup
  inside : ∀ impl ∈ unit.impls, impl.ToldApart
  imports : (unit.imports.map Import.key).Nodup

section Shuffled

variable {relation : α → α → Prop} {left right : List α} (order : α → α → Ordering)
  {normal : α → α}

theorem Shuffled.sortBy_map_eq [Std.TransCmp order] (shuffled : Shuffled relation left right)
    (settled : ∀ value ∈ left, ∀ other, relation value other → normal value = normal other)
    (ties : ∀ first ∈ left, ∀ second ∈ left,
      order (normal first) (normal second) = .eq → first = second) :
    Text.sortBy order (left.map normal) = Text.sortBy order (right.map normal) := by
  obtain ⟨middle, perm, related⟩ := shuffled
  have forms : middle.map normal = right.map normal := by
    rw [← List.forall₂_eq_eq_eq, List.forall₂_map_left_iff, List.forall₂_map_right_iff]
    have present := (List.forall₂_and_left middle right).mpr
      ⟨fun value member => perm.mem_iff.mpr member, related⟩
    exact present.imp fun value other ⟨member, same⟩ => settled value member other same
  rw [← forms]
  apply Text.sortBy_eq_of_perm order (perm.map normal)
  intro first firstMember second secondMember tied
  obtain ⟨firstValue, firstPresent, rfl⟩ := List.mem_map.mp firstMember
  obtain ⟨secondValue, secondPresent, rfl⟩ := List.mem_map.mp secondMember
  rw [ties firstValue firstPresent secondValue secondPresent tied]

theorem shuffled_sortBy_map (reaches : ∀ value ∈ left, relation value (normal value)) :
    Shuffled relation left (Text.sortBy order (left.map normal)) := by
  -- Sorting the normal forms is sorting the members by the order of their normal forms.
  have perm := Text.sortBy_perm (fun first second => order (normal first) (normal second)) left
  rw [Text.sortBy_map]
  refine ⟨_, perm.symm, ?_⟩
  rw [List.forall₂_map_right_iff, List.forall₂_same]
  exact fun value member => reaches value ((Text.mem_sortBy _).mp member)

end Shuffled

section Ties

theorem TypeDefinition.qualifiedName_eq_of_order_eq {left right : TypeDefinition}
    (tied : order left right = .eq) : left.qualifiedName = right.qualifiedName := by
  rw [order, Ordering.then_eq_eq] at tied
  exact Std.LawfulEqCmp.eq_of_compare tied.2

theorem Method.name_eq_of_order_eq {left right : Method} (tied : order left right = .eq) :
    left.name = right.name :=
  Std.LawfulEqCmp.eq_of_compare tied

theorem ImplBlock.key_eq_of_order_eq {left right : ImplBlock} (tied : order left right = .eq) :
    left.key = right.key := by
  rw [order, Ordering.then_eq_eq, Ordering.then_eq_eq] at tied
  obtain ⟨⟨target, traitName⟩, line⟩ := tied
  rw [key, key, Std.LawfulEqCmp.eq_of_compare target, Std.LawfulEqOrd.eq_of_compare line]
  rw [Text.compareOptional] at traitName
  rw [Std.LawfulEqCmp.eq_of_compare traitName]

theorem Import.key_eq_of_order_eq {left right : Import} (tied : order left right = .eq) :
    left.key = right.key := by
  rw [order, Ordering.then_eq_eq] at tied
  obtain ⟨path, localName⟩ := tied
  rw [Text.compareOptional] at localName
  rw [key, key, Std.LawfulEqCmp.eq_of_compare path, Std.LawfulEqCmp.eq_of_compare localName]

theorem CallSite.eq_of_order_eq {left right : CallSite} (tied : order left right = .eq) :
    left.line = right.line ∧ left.callee = right.callee := by
  rw [order, Ordering.then_eq_eq] at tied
  exact ⟨Std.LawfulEqOrd.eq_of_compare tied.1, Std.LawfulEqCmp.eq_of_compare tied.2⟩

end Ties

section Units

theorem Method.Rearranged.canonical_eq {method other : Method}
    (rearranged : method.Rearranged other) (apart : method.ToldApart) :
    method.canonical = other.canonical := by
  cases rearranged with
  | intro perm =>
      have sorted := Text.sortBy_eq_of_perm CallSite.order perm
        fun first firstMember second secondMember tied =>
          let ⟨line, callee⟩ := CallSite.eq_of_order_eq tied
          apart first firstMember second secondMember line callee
      simp only [Method.canonical, sorted]

theorem ImplBlock.Rearranged.canonical_eq {impl other : ImplBlock}
    (rearranged : impl.Rearranged other) (apart : impl.ToldApart) :
    impl.canonical = other.canonical := by
  cases rearranged with
  | intro shuffled =>
      have sorted := shuffled.sortBy_map_eq Method.order
        (fun method member _ same => same.canonical_eq (apart.calls method member))
        fun first firstMember second secondMember tied =>
          List.inj_on_of_nodup_map apart.methods firstMember secondMember
            (Method.name_eq_of_order_eq tied)
      simp only [ImplBlock.canonical, sorted]

theorem SourceUnit.Rearranged.canonical_eq {unit other : SourceUnit}
    (rearranged : unit.Rearranged other) (apart : unit.ToldApart) :
    unit.canonical = other.canonical := by
  cases rearranged with
  | intro types impls imports =>
      have sortedTypes := Text.sortBy_eq_of_perm TypeDefinition.order types
        fun first firstMember second secondMember tied =>
          List.inj_on_of_nodup_map apart.types firstMember secondMember
            (TypeDefinition.qualifiedName_eq_of_order_eq tied)
      have sortedImpls := impls.sortBy_map_eq ImplBlock.order
        (fun impl member _ same => same.canonical_eq (apart.inside impl member))
        fun first firstMember second secondMember tied =>
          List.inj_on_of_nodup_map apart.impls firstMember secondMember
            (ImplBlock.key_eq_of_order_eq tied)
      have sortedImports := Text.sortBy_eq_of_perm Import.order imports
        fun first firstMember second secondMember tied =>
          List.inj_on_of_nodup_map apart.imports firstMember secondMember
            (Import.key_eq_of_order_eq tied)
      simp only [SourceUnit.canonical, sortedTypes, sortedImpls, sortedImports]

theorem Method.rearranged_canonical (method : Method) : method.Rearranged method.canonical :=
  .intro (Text.sortBy_perm CallSite.order method.calls).symm

theorem ImplBlock.rearranged_canonical (impl : ImplBlock) : impl.Rearranged impl.canonical :=
  .intro (shuffled_sortBy_map Method.order fun method _ => method.rearranged_canonical)

theorem SourceUnit.rearranged_canonical (unit : SourceUnit) : unit.Rearranged unit.canonical :=
  .intro (Text.sortBy_perm TypeDefinition.order unit.types).symm
    (shuffled_sortBy_map ImplBlock.order fun impl _ => impl.rearranged_canonical)
    (Text.sortBy_perm Import.order unit.imports).symm

end Units

/-- The order in which declarations stand is not stored, and nothing else is lost with it: the
canonical form of a unit is a rearrangement of it, and all rearrangements of a unit whose keys differ
share it. -/
theorem declaration_order_not_stored :
    (∀ unit : SourceUnit, unit.Rearranged unit.canonical ∧
      (unit.ToldApart → ∀ other, unit.Rearranged other →
        other.canonical = unit.canonical ∧
          ∀ format, Artifact.print format other = Artifact.print format unit)) ∧
    (∀ snapshot : Snapshot, snapshot.Keyed →
      snapshot.canonical.canonical = snapshot.canonical ∧ snapshot.equal snapshot.canonical) ∧
    ∀ root units, (Snapshot.create root units).Keyed ∧
      (Snapshot.create root units).resolveCallTargets.Keyed := by
  refine ⟨?_, ?_, ?_⟩
  · intro unit
    refine ⟨unit.rearranged_canonical, ?_⟩
    intro apart other rearranged
    have canonical := rearranged.canonical_eq apart
    exact ⟨canonical.symm, fun format => by rw [Artifact.print, Artifact.print, canonical]⟩
  · exact fun snapshot keyed => ⟨keyed.canonical_canonical, keyed.equal_canonical⟩
  · intro root units
    have keyed := Snapshot.keyed_create root units
    exact ⟨keyed, keyed.resolveCallTargets⟩

def loomCall (line : Int) (callee : String) : CallSite :=
  { callee := callee, method := callee, target := none, line := line }

def loomMethod (name : String) (calls : List CallSite) : Method :=
  { name := name, signature := "fn " ++ name ++ "()", returnType := none, visibility := .hidden
    calls := calls, location := { filePath := "loom", startLine := 5, endLine := 9 } }

def loomImpl (traitName : Option String) (methods : List Method) : ImplBlock :=
  { target := "Loom", traitName := traitName, methods := methods
    location := { filePath := "loom", startLine := 4, endLine := 9 } }

def loomType (name : String) : TypeDefinition :=
  { name := name, qualifiedName := "crate::" ++ name, kind := .struct, visibility := .hidden
    fields := [], location := { filePath := "loom", startLine := 1, endLine := 1 } }

def loom : SourceUnit :=
  { filePath := "loom", modulePath := "crate", types := [loomType "Weft", loomType "Loom"]
    impls :=
      [loomImpl (some "Weave")
        [loomMethod "weave" [loomCall 7 "lift", loomCall 6 "throw", loomCall 7 "lift"],
          loomMethod "beat" []],
        loomImpl none []]
    imports :=
      [{ path := "yarn::Weft", localName := none }, { path := "yarn", localName := some "thread" }] }

def turnedLoom : SourceUnit :=
  { loom with
    types := [loomType "Loom", loomType "Weft"]
    impls :=
      [loomImpl none [],
        loomImpl (some "Weave")
          [loomMethod "beat" [],
            loomMethod "weave" [loomCall 6 "throw", loomCall 7 "lift", loomCall 7 "lift"]]]
    imports := loom.imports.reverse }

theorem loom_toldApart : loom.ToldApart where
  types := by decide
  impls := by decide
  imports := by decide
  inside := by
    have decided : ∀ impl ∈ loom.impls, (impl.methods.map Method.name).Nodup ∧
        ∀ method ∈ impl.methods, ∀ first ∈ method.calls, ∀ second ∈ method.calls,
          first.line = second.line → first.callee = second.callee → first = second := by
      decide +kernel
    exact fun impl member => ⟨(decided impl member).1, (decided impl member).2⟩

theorem loom_rearranged : loom.Rearranged turnedLoom := by
  have weave : (loomMethod "weave"
      [loomCall 7 "lift", loomCall 6 "throw", loomCall 7 "lift"]).Rearranged
        (loomMethod "weave" [loomCall 6 "throw", loomCall 7 "lift", loomCall 7 "lift"]) :=
    .intro (.swap _ _ _)
  have beat : (loomMethod "beat" []).Rearranged (loomMethod "beat" []) := .intro (.refl [])
  refine .intro (.swap _ _ _) ⟨_, .swap _ _ _, .cons ?_ (.cons ?_ .nil)⟩ (.swap _ _ _)
  · exact .intro ⟨[], .refl [], .nil⟩
  · exact .intro ⟨_, .swap _ _ _, .cons beat (.cons weave .nil)⟩

theorem declaration_order_not_stored_loom :
    loom.ToldApart ∧ loom.Rearranged turnedLoom ∧ turnedLoom ≠ loom ∧
      turnedLoom.canonical = loom.canonical ∧
      Artifact.print Yaml.format turnedLoom = Artifact.print Yaml.format loom ∧
      (Snapshot.create "" [loom]).Keyed ∧
      (Snapshot.create "" [loom]).equal (Snapshot.create "" [loom]).canonical := by
  obtain ⟨units, snapshots, created⟩ := declaration_order_not_stored
  obtain ⟨canonical, print⟩ := (units loom).2 loom_toldApart turnedLoom loom_rearranged
  have keyed := (created "" [loom]).1
  exact ⟨loom_toldApart, loom_rearranged, by decide, canonical, print Yaml.format, keyed,
    (snapshots _ keyed).2⟩

end CrateAtlas
