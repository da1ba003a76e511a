import CrateAtlas.Graph
import CrateAtlas.Proofs.Maps
import CrateAtlas.Proofs.ProperNames
import Mathlib.Data.List.Find

/-!
Which edges a graph keeps. Edges are kept by a key that joins their parts with null characters.
Main statements: the key of an edge between proper names tells all of them apart, and the sorted
edges of a graph are determined by the first edge of every key.
-/

namespace CrateAtlas

theorem append_separator_inj {left right rest others : List Char} {mark : Char}
    (leftFree : mark ∉ left) (rightFree : mark ∉ right)
    (same : left ++ mark :: rest = right ++ mark :: others) : left = right ∧ rest = others := by
  induction left generalizing right with
  | nil =>
      cases right with
      | nil => exact ⟨rfl, (List.cons.inj same).2⟩
      | cons first tail =>
          simp only [List.nil_append, List.cons_append, List.cons.injEq] at same
          simp [← same.1] at rightFree
  | cons first tail ih =>
      cases right with
      | nil =>
          simp only [List.nil_append, List.cons_append, List.cons.injEq] at same
          simp [same.1] at leftFree
      | cons other others =>
          simp only [List.cons_append, List.cons.injEq] at same
          simp only [List.mem_cons, not_or] at leftFree rightFree
          obtain ⟨tails, rests⟩ := ih leftFree.2 rightFree.2 same.2
          exact ⟨by rw [same.1, tails], rests⟩

theorem separator_inj {left right rest others : String} (leftProper : ProperName left)
    (rightProper : ProperName right)
    (same : left ++ "\x00" ++ rest = right ++ "\x00" ++ others) :
    left = right ∧ rest = others := by
  have characters := congrArg String.toList same
  simp only [String.toList_append, List.append_assoc] at characters
  obtain ⟨parts, tails⟩ := append_separator_inj leftProper rightProper characters
  exact ⟨String.toList_injective parts, String.toList_injective tails⟩

namespace Edge

theorem kindLabel_injective : Function.Injective EdgeKind.label := by
  intro left right same
  cases left <;> cases right <;> simp_all [EdgeKind.label]

theorem kindRank_injective : Function.Injective EdgeKind.rank := by
  intro left right same
  cases left <;> cases right <;> simp_all [EdgeKind.rank]

theorem properName_kindLabel (kind : EdgeKind) : ProperName kind.label := by
  unfold ProperName
  cases kind <;> decide

def Proper (edge : Edge) : Prop :=
  ProperName edge.source ∧ ProperName edge.target

theorem key_eq_nested (edge : Edge) :
    edge.key = edge.kind.label ++ "\x00" ++
      (edge.source ++ "\x00" ++ (edge.target ++ "\x00" ++ edge.label)) := by
  simp only [key, String.append_assoc]

/-- Proper edges of one key agree in everything but their cardinality. -/
theorem key_injective {left right : Edge} (leftProper : left.Proper) (rightProper : right.Proper)
    (same : left.key = right.key) :
    left.kind = right.kind ∧ left.source = right.source ∧ left.target = right.target ∧
      left.label = right.label := by
  rw [key_eq_nested, key_eq_nested] at same
  obtain ⟨kinds, ends⟩ :=
    separator_inj (properName_kindLabel left.kind) (properName_kindLabel right.kind) same
  obtain ⟨sources, targetsAndLabels⟩ := separator_inj leftProper.1 rightProper.1 ends
  obtain ⟨targets, labels⟩ := separator_inj leftProper.2 rightProper.2 targetsAndLabels
  exact ⟨kindLabel_injective kinds, sources, targets, labels⟩

instance : Std.TransCmp Edge.order := by
  have source : Std.TransCmp fun left right : Edge =>
      Text.compareText left.source right.source := Text.transCmp_on Text.compareText Edge.source
  have target : Std.TransCmp fun left right : Edge =>
      Text.compareText left.target right.target := Text.transCmp_on Text.compareText Edge.target
  have rank : Std.TransCmp fun left right : Edge =>
      compare left.kind.rank right.kind.rank :=
    Text.transCmp_on compare fun edge : Edge => edge.kind.rank
  have label : Std.TransCmp fun left right : Edge =>
      Text.compareText left.label right.label := Text.transCmp_on Text.compareText Edge.label
  exact inferInstanceAs (Std.TransCmp (compareLex (compareLex (compareLex
    (fun left right : Edge => Text.compareText left.source right.source)
    (fun left right : Edge => Text.compareText left.target right.target))
    (fun left right : Edge => compare left.kind.rank right.kind.rank))
    (fun left right : Edge => Text.compareText left.label right.label)))

theorem key_eq_of_order_eq {left right : Edge} (tied : order left right = .eq) :
    left.key = right.key := by
  simp only [order, Ordering.then_eq_eq] at tied
  obtain ⟨⟨⟨source, target⟩, rank⟩, label⟩ := tied
  have kind := kindRank_injective (Std.LawfulEqOrd.eq_of_compare rank)
  rw [key, key, Std.LawfulEqCmp.eq_of_compare source, Std.LawfulEqCmp.eq_of_compare target, kind,
    Std.LawfulEqCmp.eq_of_compare label]

end Edge

namespace Graph

open OrderedMap

def firstEdges (edges : List Edge) : List (String × Edge) :=
  fillNew (edges.map fun edge => (edge.key, edge)) []

theorem distinctEdges_eq_values (edges : List Edge) :
    distinctEdges edges = values (firstEdges edges) := by
  simp only [distinctEdges, firstEdges, fillNew, List.foldl_map]

theorem get?_firstEdges (key : String) (edges : List Edge) :
    get? key (firstEdges edges) = edges.find? fun edge => edge.key = key := by
  rw [firstEdges, get?_fillNew, get?_nil, Option.none_or]
  induction edges with
  | nil => rfl
  | cons first rest ih =>
      rw [List.map_cons, get?_cons, ih, List.find?_cons]
      by_cases same : first.key = key
      · simp [same]
      · simp [same]

theorem nodup_keys_firstEdges (edges : List Edge) : (keys (firstEdges edges)).Nodup :=
  nodup_keys_fillNew _ List.nodup_nil

theorem spec_of_mem_firstEdges {edges : List Edge} {key : String} {edge : Edge}
    (entry : (key, edge) ∈ firstEdges edges) : edge ∈ edges ∧ edge.key = key := by
  have found := get?_of_mem (nodup_keys_firstEdges edges) entry
  rw [get?_firstEdges] at found
  exact ⟨List.mem_of_find?_eq_some found, by simpa using List.find?_some found⟩

theorem mem_of_mem_distinctEdges {edges : List Edge} {edge : Edge}
    (member : edge ∈ distinctEdges edges) : edge ∈ edges := by
  rw [distinctEdges_eq_values, values, List.mem_map] at member
  obtain ⟨⟨key, _⟩, entry, rfl⟩ := member
  exact (spec_of_mem_firstEdges entry).1

theorem nodup_keys_distinctEdges (edges : List Edge) :
    ((distinctEdges edges).map Edge.key).Nodup := by
  have same : (distinctEdges edges).map Edge.key = keys (firstEdges edges) := by
    rw [distinctEdges_eq_values, values, List.map_map, keys]
    exact List.map_congr_left fun _ entry => (spec_of_mem_firstEdges entry).2
  rw [same]
  exact nodup_keys_firstEdges edges

theorem distinctEdges_inj {edges : List Edge} {left right : Edge}
    (leftMember : left ∈ distinctEdges edges) (rightMember : right ∈ distinctEdges edges)
    (same : left.key = right.key) : left = right :=
  List.inj_on_of_nodup_map (nodup_keys_distinctEdges edges) leftMember rightMember same

theorem exists_distinctEdges_key {edges : List Edge} {edge : Edge} (member : edge ∈ edges) :
    ∃ kept ∈ distinctEdges edges, kept.key = edge.key := by
  have present : (edges.find? fun other => other.key = edge.key).isSome :=
    List.find?_isSome.mpr ⟨edge, member, by simp⟩
  obtain ⟨kept, found⟩ := Option.isSome_iff_exists.mp present
  have stored : get? edge.key (firstEdges edges) = some kept := by rw [get?_firstEdges, found]
  refine ⟨kept, ?_, by simpa using List.find?_some found⟩
  rw [distinctEdges_eq_values, values]
  exact List.mem_map_of_mem (mem_of_get? stored)

def Shows (edges : List Edge) (source target : String) (kind : EdgeKind) (label : String) : Prop :=
  ∃ edge ∈ edges, edge.source = source ∧ edge.target = target ∧ edge.kind = kind ∧
    edge.label = label

theorem shows_distinctEdges {edges : List Edge} (proper : ∀ edge ∈ edges, edge.Proper)
    {source target label : String} {kind : EdgeKind} :
    Shows (distinctEdges edges) source target kind label ↔
      Shows edges source target kind label := by
  constructor
  · rintro ⟨edge, member, parts⟩
    exact ⟨edge, mem_of_mem_distinctEdges member, parts⟩
  · rintro ⟨edge, member, rfl, rfl, rfl, rfl⟩
    obtain ⟨kept, keptMember, same⟩ := exists_distinctEdges_key member
    obtain ⟨kinds, sources, targets, labels⟩ := Edge.key_injective
      (proper kept (mem_of_mem_distinctEdges keptMember)) (proper edge member) same
    exact ⟨kept, keptMember, sources, targets, kinds, labels⟩

theorem increasing_distinctEdges (edges : List Edge) :
    (Text.sortBy Edge.order (distinctEdges edges)).Pairwise fun left right =>
      Edge.order left right = .lt := by
  apply Text.increasing_sortBy Edge.order (nodup_keys_distinctEdges edges).of_map
  -- edges that tie have the same key, and of one key only one edge is kept
  intro left leftMember right rightMember tied
  exact distinctEdges_inj leftMember rightMember (Edge.key_eq_of_order_eq tied)

theorem sortedEdges_eq_of_firsts {left right : List Edge}
    (firsts : ∀ key, left.find? (fun edge => edge.key = key) =
      right.find? fun edge => edge.key = key) :
    Text.sortBy Edge.order (distinctEdges left) =
      Text.sortBy Edge.order (distinctEdges right) := by
  have perm : (distinctEdges left).Perm (distinctEdges right) := by
    rw [distinctEdges_eq_values, distinctEdges_eq_values]
    refine List.Perm.map Prod.snd (perm_of_get?_eq (nodup_keys_firstEdges left)
      (nodup_keys_firstEdges right) ?_)
    intro key
    rw [get?_firstEdges, get?_firstEdges, firsts]
  apply Text.sortBy_eq_of_perm Edge.order perm
  intro first firstMember second secondMember tied
  exact distinctEdges_inj firstMember secondMember (Edge.key_eq_of_order_eq tied)

/-- Lists of the same proper edges agree on the first edge of every key if their edges of
containment do, as no other edge has a cardinality. -/
theorem firsts_eq_of_mem_iff {left right : List Edge} (same : ∀ edge, edge ∈ left ↔ edge ∈ right)
    (proper : ∀ edge ∈ left, edge.Proper)
    (plain : ∀ edge ∈ left, edge.kind ≠ .contains → edge.cardinality = none)
    (contained : ∀ key,
      (left.filter fun edge => edge.kind = .contains).find? (fun edge => edge.key = key) =
        (right.filter fun edge => edge.kind = .contains).find? fun edge => edge.key = key)
    (key : String) :
    left.find? (fun edge => edge.key = key) = right.find? fun edge => edge.key = key := by
  cases found : left.find? (fun edge => edge.key = key) with
  | none =>
      symm
      rw [List.find?_eq_none] at found ⊢
      exact fun edge member => found edge ((same edge).mpr member)
  | some edge =>
      have member := List.mem_of_find?_eq_some found
      have keyed : edge.key = key := by simpa using List.find?_some found
      have alike : ∀ other ∈ left, other.key = key → other.kind = edge.kind ∧
          other.source = edge.source ∧ other.target = edge.target ∧ other.label = edge.label :=
        fun other otherMember otherKeyed => Edge.key_injective (proper other otherMember)
          (proper edge member) (otherKeyed.trans keyed.symm)
      by_cases containment : edge.kind = .contains
      · have restricted : ∀ list : List Edge, (∀ other ∈ list, other ∈ left) →
            list.find? (fun edge => edge.key = key) =
              (list.filter fun edge => edge.kind = .contains).find? fun edge =>
                edge.key = key := by
          intro list within
          rw [List.find?_filter]
          refine List.find?_congr ?_
          intro other otherMember
          by_cases otherKeyed : other.key = key
          · simp [otherKeyed, (alike other (within other otherMember) otherKeyed).1, containment]
          · simp [otherKeyed]
        rw [← found, restricted left fun _ => id, restricted right fun other => (same other).mpr]
        exact contained key
      · have present : (right.find? fun edge => edge.key = key).isSome :=
          List.find?_isSome.mpr ⟨edge, (same edge).mp member, by simpa using keyed⟩
        obtain ⟨other, otherFound⟩ := Option.isSome_iff_exists.mp present
        have otherMember := (same other).mpr (List.mem_of_find?_eq_some otherFound)
        have otherKeyed : other.key = key := by simpa using List.find?_some otherFound
        obtain ⟨kind, source, target, label⟩ := alike other otherMember otherKeyed
        have cardinality : other.cardinality = edge.cardinality := by
          rw [plain other otherMember (kind ▸ containment), plain edge member containment]
        rw [otherFound]
        cases other
        cases edge
        simp_all

end Graph

end CrateAtlas
