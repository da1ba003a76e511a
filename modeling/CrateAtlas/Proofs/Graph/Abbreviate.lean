import CrateAtlas.Proofs.EdgeKeys

/-!
Abbreviated graphs. Main statement: of the edges between two nodes one without a label is left, of
the kind that takes precedence among them, in whatever order they come, and a graph that is
abbreviated already stays as it is.
-/

namespace CrateAtlas

/-- What an abbreviated graph shows of an edge. -/
def Edge.plain (edge : Edge) : Edge :=
  { edge with label := "", cardinality := none }

namespace Graph

open OrderedMap Edge

def SameEnds (left right : Edge) : Prop :=
  left.source = right.source ∧ left.target = right.target

section Ends

variable {left middle right : Edge}

theorem SameEnds.symm (same : SameEnds left right) : SameEnds right left :=
  ⟨same.1.symm, same.2.symm⟩

theorem SameEnds.trans (first : SameEnds left middle) (second : SameEnds middle right) :
    SameEnds left right :=
  ⟨first.1.trans second.1, first.2.trans second.2⟩

theorem SameEnds.pairKey_eq (same : SameEnds left right) : left.pairKey = right.pairKey := by
  rw [pairKey, pairKey, same.1, same.2]

theorem sameEnds_of_pairKey_eq (leftProper : left.Proper) (rightProper : right.Proper)
    (same : left.pairKey = right.pairKey) : SameEnds left right :=
  separator_inj leftProper.1 rightProper.1 same

theorem sameEnds_of_order_eq (tied : Edge.order left right = .eq) : SameEnds left right := by
  simp only [Edge.order, Ordering.then_eq_eq] at tied
  obtain ⟨⟨⟨source, target⟩, _⟩, _⟩ := tied
  exact ⟨Std.LawfulEqCmp.eq_of_compare source, Std.LawfulEqCmp.eq_of_compare target⟩

theorem SameEnds.eq_of_plain (same : SameEnds left right) (kind : left.kind = right.kind)
    (leftPlain : left.plain = left) (rightPlain : right.plain = right) : left = right := by
  rw [← leftPlain, ← rightPlain, plain, plain, same.1, same.2, kind]

end Ends

section Preference

variable {seen edges : List Edge} {kept : List (String × Edge)} {edge : Edge} {key : String}

def preferred (edge : Edge) : Option Edge → Edge
  | none => edge.plain
  | some existing => if edge.kind.rank < existing.kind.rank then edge.plain else existing

theorem get?_preferKind (key : String) (kept : List (String × Edge)) (edge : Edge) :
    get? key (preferKind kept edge) =
      if edge.pairKey = key then some (preferred edge (get? key kept)) else get? key kept := by
  by_cases same : edge.pairKey = key
  · subst key
    rw [if_pos rfl]
    simp only [preferKind]
    cases found : get? edge.pairKey kept with
    | none => exact (get?_put _ _ _ _).trans (if_pos rfl)
    | some existing =>
        simp only [preferred]
        split
        · exact (get?_put _ _ _ _).trans (if_pos rfl)
        · exact found
  · have unchanged : ∀ value, get? key (put edge.pairKey value kept) = get? key kept :=
      fun value => (get?_put _ _ _ _).trans (if_neg same)
    rw [if_neg same]
    simp only [preferKind]
    split
    · exact unchanged _
    · split
      · exact unchanged _
      · rfl

theorem nodup_keys_preferKind (distinct : (keys kept).Nodup) (edge : Edge) :
    (keys (preferKind kept edge)).Nodup := by
  simp only [preferKind]
  split
  · exact nodup_keys_put distinct _ _
  · split
    · exact nodup_keys_put distinct _ _
    · exact distinct

/-- What a map of edges may hold under a key when it has seen some edges: one of the edges with that
key, whose kind takes precedence, or nothing when there is none. -/
def Leads (seen : List Edge) (key : String) : Option Edge → Prop
  | none => ∀ edge ∈ seen, edge.pairKey ≠ key
  | some short =>
      (∃ edge ∈ seen, edge.pairKey = key ∧ edge.plain = short) ∧
        ∀ edge ∈ seen, edge.pairKey = key → short.kind.rank ≤ edge.kind.rank

theorem Leads.skip {found : Option Edge} (leads : Leads seen key found)
    (other : edge.pairKey ≠ key) : Leads (seen ++ [edge]) key found := by
  cases found with
  | none => exact List.forall_mem_append.mpr ⟨leads, List.forall_mem_singleton.mpr other⟩
  | some short =>
      obtain ⟨⟨original, before, keyed, rfl⟩, lowest⟩ := leads
      refine ⟨⟨original, List.mem_append_left _ before, keyed, rfl⟩, ?_⟩
      refine List.forall_mem_append.mpr ⟨lowest, List.forall_mem_singleton.mpr ?_⟩
      exact fun same => absurd same other

theorem Leads.take {found : Option Edge} (leads : Leads seen key found)
    (keyed : edge.pairKey = key) : Leads (seen ++ [edge]) key (some (preferred edge found)) := by
  have last : edge ∈ seen ++ [edge] := List.mem_append_right _ (List.mem_singleton_self edge)
  cases found with
  | none =>
      refine ⟨⟨edge, last, keyed, rfl⟩, ?_⟩
      refine List.forall_mem_append.mpr ⟨?_, List.forall_mem_singleton.mpr fun _ => le_rfl⟩
      exact fun candidate before same => absurd same (leads candidate before)
  | some short =>
      obtain ⟨⟨original, before, originalKeyed, rfl⟩, lowest⟩ := leads
      by_cases better : edge.kind.rank < original.plain.kind.rank
      · rw [preferred, if_pos better]
        refine ⟨⟨edge, last, keyed, rfl⟩, ?_⟩
        refine List.forall_mem_append.mpr ⟨?_, List.forall_mem_singleton.mpr fun _ => le_rfl⟩
        exact fun candidate earlier same => better.le.trans (lowest candidate earlier same)
      · rw [preferred, if_neg better]
        refine ⟨⟨original, List.mem_append_left _ before, originalKeyed, rfl⟩, ?_⟩
        refine List.forall_mem_append.mpr ⟨lowest, List.forall_mem_singleton.mpr ?_⟩
        exact fun _ => Nat.le_of_not_lt better

theorem leads_preferKind (leads : ∀ key, Leads seen key (get? key kept)) (edge : Edge)
    (key : String) : Leads (seen ++ [edge]) key (get? key (preferKind kept edge)) := by
  rw [get?_preferKind]
  split
  · rename_i keyed
    exact (leads key).take keyed
  · rename_i other
    exact (leads key).skip other

theorem leads_foldl (leads : ∀ key, Leads seen key (get? key kept)) (rest : List Edge) :
    ∀ key, Leads (seen ++ rest) key (get? key (rest.foldl preferKind kept)) := by
  induction rest generalizing seen kept with
  | nil =>
      rw [List.append_nil]
      exact leads
  | cons edge rest ih =>
      rw [List.append_cons]
      exact ih (leads_preferKind leads edge)

theorem nodup_keys_foldl (distinct : (keys kept).Nodup) (rest : List Edge) :
    (keys (rest.foldl preferKind kept)).Nodup := by
  induction rest generalizing kept with
  | nil => exact distinct
  | cons edge rest ih => exact ih (nodup_keys_preferKind distinct edge)

end Preference

section Collapsed

variable {edges : List Edge} {short other : Edge} {key : String}

def collapse (edges : List Edge) : List (String × Edge) :=
  edges.foldl preferKind []

theorem nodup_keys_collapse (edges : List Edge) : (keys (collapse edges)).Nodup := by
  have empty : (keys ([] : List (String × Edge))).Nodup := List.nodup_nil
  exact nodup_keys_foldl empty edges

theorem leads_collapse (edges : List Edge) (key : String) :
    Leads edges key (get? key (collapse edges)) := by
  have nothing : ∀ key, Leads [] key (get? key ([] : List (String × Edge))) :=
    fun key edge member => absurd member List.not_mem_nil
  exact leads_foldl nothing edges key

theorem pairKey_of_stored (stored : (key, short) ∈ collapse edges) : short.pairKey = key := by
  have leads := leads_collapse edges key
  rw [get?_of_mem (nodup_keys_collapse edges) stored] at leads
  obtain ⟨⟨original, _, keyed, rfl⟩, _⟩ := leads
  exact keyed

theorem mem_collapsed :
    short ∈ values (collapse edges) ↔ get? short.pairKey (collapse edges) = some short := by
  constructor
  · intro member
    obtain ⟨⟨key, value⟩, stored, rfl⟩ := List.mem_map.mp member
    rw [pairKey_of_stored stored]
    exact get?_of_mem (nodup_keys_collapse edges) stored
  · intro found
    exact List.mem_map_of_mem (mem_of_get? found)

theorem leads_of_mem (member : short ∈ values (collapse edges)) :
    Leads edges short.pairKey (some short) := by
  have leads := leads_collapse edges short.pairKey
  rwa [mem_collapsed.mp member] at leads

theorem plain_of_mem (member : short ∈ values (collapse edges)) : short.plain = short := by
  obtain ⟨⟨original, _, _, rfl⟩, _⟩ := leads_of_mem member
  rfl

theorem eq_of_pairKey_eq (member : short ∈ values (collapse edges))
    (otherMember : other ∈ values (collapse edges)) (same : short.pairKey = other.pairKey) :
    short = other := by
  have found := mem_collapsed.mp member
  rw [same, mem_collapsed.mp otherMember] at found
  exact (Option.some.inj found).symm

theorem exists_collapsed {edge : Edge} (member : edge ∈ edges) :
    ∃ short ∈ values (collapse edges), short.pairKey = edge.pairKey := by
  have leads := leads_collapse edges edge.pairKey
  cases found : get? edge.pairKey (collapse edges) with
  | none =>
      rw [found] at leads
      exact absurd rfl (leads edge member)
  | some short =>
      rw [found] at leads
      obtain ⟨⟨original, _, keyed, rfl⟩, _⟩ := leads
      exact ⟨original.plain, List.mem_map_of_mem (mem_of_get? found), keyed⟩

theorem nodup_collapsed (edges : List Edge) : (values (collapse edges)).Nodup := by
  have keyed : keys (collapse edges) = (values (collapse edges)).map pairKey := by
    rw [keys, values, List.map_map]
    exact List.map_congr_left fun entry stored => (pairKey_of_stored stored).symm
  exact .of_map pairKey (keyed ▸ nodup_keys_collapse edges)

theorem ties_collapsed (member : short ∈ values (collapse edges))
    (otherMember : other ∈ values (collapse edges)) (tied : Edge.order short other = .eq) :
    short = other :=
  eq_of_pairKey_eq member otherMember (sameEnds_of_order_eq tied).pairKey_eq

theorem sortBy_collapsed_congr {others : List Edge}
    (same : ∀ edge, edge ∈ values (collapse edges) ↔ edge ∈ values (collapse others)) :
    Text.sortBy Edge.order (values (collapse edges)) =
      Text.sortBy Edge.order (values (collapse others)) := by
  have perm := (List.perm_ext_iff_of_nodup (nodup_collapsed edges) (nodup_collapsed others)).mpr same
  exact Text.sortBy_eq_of_perm Edge.order perm
    fun first firstMember second secondMember => ties_collapsed firstMember secondMember

theorem mem_collapse_collapsed (edges : List Edge) (edge : Edge) :
    edge ∈ values (collapse (Text.sortBy Edge.order (values (collapse edges)))) ↔
      edge ∈ values (collapse edges) := by
  constructor
  · intro member
    obtain ⟨⟨original, present, _, rfl⟩, _⟩ := leads_of_mem member
    rw [Text.mem_sortBy] at present
    rwa [plain_of_mem present]
  · intro member
    obtain ⟨short, shortMember, keyed⟩ :=
      exists_collapsed ((Text.mem_sortBy Edge.order).mpr member)
    obtain ⟨⟨original, present, originalKeyed, rfl⟩, _⟩ := leads_of_mem shortMember
    rw [Text.mem_sortBy] at present
    rw [plain_of_mem present] at shortMember keyed
    rwa [← eq_of_pairKey_eq present member keyed]

end Collapsed

section Abbreviate

variable {graph : Graph} {edges : List Edge} {short : Edge}

theorem edges_abbreviate (graph : Graph) :
    graph.abbreviate.edges = Text.sortBy Edge.order (values (collapse graph.edges)) := rfl

theorem mem_edges_abbreviate :
    short ∈ graph.abbreviate.edges ↔ short ∈ values (collapse graph.edges) :=
  Text.mem_sortBy Edge.order

theorem exists_original (member : short ∈ graph.abbreviate.edges) :
    ∃ edge ∈ graph.edges, SameEnds short edge := by
  obtain ⟨⟨original, present, _, rfl⟩, _⟩ := leads_of_mem (mem_edges_abbreviate.mp member)
  exact ⟨original, present, rfl, rfl⟩

theorem Joined.abbreviate (joined : graph.Joined) : graph.abbreviate.Joined := by
  intro short member
  obtain ⟨edge, present, source, target⟩ := exists_original member
  obtain ⟨sourceNode, targetNode⟩ := joined edge present
  rw [← source] at sourceNode
  rw [← target] at targetNode
  constructor
  · exact List.mem_filter.mpr ⟨sourceNode, List.any_eq_true.mpr ⟨short, member, by simp⟩⟩
  · exact List.mem_filter.mpr ⟨targetNode, List.any_eq_true.mpr ⟨short, member, by simp⟩⟩

/-- An edge that stands for all edges between its ends. -/
structure StandsFor (short : Edge) (edges : List Edge) : Prop where
  label : short.label = ""
  cardinality : short.cardinality = none
  kind : ∃ edge ∈ edges, SameEnds short edge ∧ short.kind = edge.kind
  precedes : ∀ edge ∈ edges, SameEnds short edge → short.kind.rank ≤ edge.kind.rank

theorem StandsFor.plain_eq (stands : StandsFor short edges) : short.plain = short := by
  rw [plain, ← stands.label, ← stands.cardinality]

theorem StandsFor.mono {others : List Edge} (same : ∀ edge, edge ∈ edges ↔ edge ∈ others)
    (stands : StandsFor short edges) : StandsFor short others where
  label := stands.label
  cardinality := stands.cardinality
  kind := by
    obtain ⟨edge, member, ends, kind⟩ := stands.kind
    exact ⟨edge, (same edge).mp member, ends, kind⟩
  precedes edge member := stands.precedes edge ((same edge).mpr member)

theorem standsFor_of_mem (member : short ∈ values (collapse edges)) : StandsFor short edges := by
  obtain ⟨⟨original, present, _, rfl⟩, lowest⟩ := leads_of_mem member
  exact ⟨rfl, rfl, ⟨original, present, ⟨rfl, rfl⟩, rfl⟩,
    fun edge edgeMember ends => lowest edge edgeMember ends.pairKey_eq.symm⟩

theorem mem_of_standsFor (proper : ∀ edge ∈ edges, edge.Proper) (stands : StandsFor short edges) :
    short ∈ values (collapse edges) := by
  obtain ⟨edge, member, ends, kind⟩ := stands.kind
  obtain ⟨collapsed, collapsedMember, keyed⟩ := exists_collapsed member
  -- Both stand for the edges between these ends, so neither kind precedes the other.
  have other := standsFor_of_mem collapsedMember
  obtain ⟨original, present, originalEnds, originalKind⟩ := other.kind
  have sameKey := originalEnds.pairKey_eq.symm.trans keyed
  have joins := sameEnds_of_pairKey_eq (proper original present) (proper edge member) sameKey
  have below := stands.precedes original present (ends.trans joins.symm)
  have above := other.precedes edge member (originalEnds.trans joins)
  rw [← originalKind] at below
  rw [← kind] at above
  have sameKind := kindRank_injective (Nat.le_antisymm below above)
  have sameEnds := ends.trans (originalEnds.trans joins).symm
  rwa [sameEnds.eq_of_plain sameKind stands.plain_eq (plain_of_mem collapsedMember)]

theorem mem_collapsed_iff (proper : ∀ edge ∈ edges, edge.Proper) :
    short ∈ values (collapse edges) ↔ StandsFor short edges :=
  ⟨standsFor_of_mem, mem_of_standsFor proper⟩

theorem existsUnique_abbreviated (proper : ∀ edge ∈ graph.edges, edge.Proper) {edge : Edge}
    (member : edge ∈ graph.edges) :
    ∃! short, short ∈ graph.abbreviate.edges ∧ SameEnds short edge := by
  obtain ⟨short, shortMember, keyed⟩ := exists_collapsed member
  obtain ⟨original, present, ends, _⟩ := (standsFor_of_mem shortMember).kind
  have sameKey := ends.pairKey_eq.symm.trans keyed
  have joins := sameEnds_of_pairKey_eq (proper original present) (proper edge member) sameKey
  refine ⟨short, ⟨mem_edges_abbreviate.mpr shortMember, ends.trans joins⟩, ?_⟩
  rintro other ⟨otherMember, otherEnds⟩
  exact eq_of_pairKey_eq (mem_edges_abbreviate.mp otherMember) shortMember
    (otherEnds.pairKey_eq.trans keyed.symm)

theorem mem_ends_abbreviate (proper : ∀ edge ∈ graph.edges, edge.Proper) (node : String) :
    (∃ short ∈ graph.abbreviate.edges, short.source = node ∨ short.target = node) ↔
      ∃ edge ∈ graph.edges, edge.source = node ∨ edge.target = node := by
  constructor
  · rintro ⟨short, member, ends⟩
    obtain ⟨edge, present, source, target⟩ := exists_original member
    rw [source, target] at ends
    exact ⟨edge, present, ends⟩
  · rintro ⟨edge, member, ends⟩
    obtain ⟨short, ⟨shortMember, source, target⟩, _⟩ := existsUnique_abbreviated proper member
    rw [← source, ← target] at ends
    exact ⟨short, shortMember, ends⟩

theorem nodes_abbreviate (graph : Graph) :
    graph.abbreviate.nodes = graph.nodes.filter fun node =>
      ∃ short ∈ graph.abbreviate.edges, short.source = node ∨ short.target = node := by
  refine List.filter_congr fun node _ => ?_
  rw [Bool.eq_iff_iff]
  simp [edges_abbreviate, collapse]

theorem increasing_abbreviate (graph : Graph) :
    graph.abbreviate.edges.Pairwise fun left right => Edge.order left right = .lt :=
  Text.increasing_sortBy Edge.order (nodup_collapsed graph.edges)
    fun _ firstMember _ secondMember => ties_collapsed firstMember secondMember

theorem abbreviate_congr (proper : ∀ edge ∈ graph.edges, edge.Proper)
    (same : ∀ edge, edge ∈ edges ↔ edge ∈ graph.edges) :
    { graph with edges := edges }.abbreviate = graph.abbreviate := by
  have properEdges : ∀ edge ∈ edges, edge.Proper :=
    fun edge member => proper edge ((same edge).mp member)
  have kept : { graph with edges := edges }.abbreviate.edges = graph.abbreviate.edges := by
    refine sortBy_collapsed_congr fun short => ?_
    rw [mem_collapsed_iff properEdges, mem_collapsed_iff proper]
    exact ⟨.mono same, .mono fun edge => (same edge).symm⟩
  rw [Graph.mk.injEq]
  refine ⟨?_, kept, rfl, rfl⟩
  exact (nodes_abbreviate _).trans (kept ▸ (nodes_abbreviate graph).symm)

theorem abbreviate_abbreviate (graph : Graph) :
    graph.abbreviate.abbreviate = graph.abbreviate := by
  have kept : graph.abbreviate.abbreviate.edges = graph.abbreviate.edges :=
    sortBy_collapsed_congr (mem_collapse_collapsed graph.edges)
  rw [Graph.mk.injEq]
  refine ⟨?_, kept, rfl, rfl⟩
  rw [nodes_abbreviate graph.abbreviate, kept]
  refine List.filter_eq_self.mpr fun node member => ?_
  rw [nodes_abbreviate] at member
  exact (List.mem_filter.mp member).2

/-- Between any two nodes that edges join, an abbreviated graph shows one plain edge of the kind that
takes precedence among these edges, and it has the nodes at which edges end. -/
theorem abbreviate_stands_for (graph : Graph) :
    ((∀ edge ∈ graph.edges, edge.Proper) →
      (∀ edge ∈ graph.edges, ∃! short, short ∈ graph.abbreviate.edges ∧ SameEnds short edge) ∧
      (∀ short, short ∈ graph.abbreviate.edges ↔ StandsFor short graph.edges) ∧
      graph.abbreviate.nodes = graph.nodes.filter (fun node =>
        ∃ edge ∈ graph.edges, edge.source = node ∨ edge.target = node) ∧
      ∀ edges : List Edge, edges.Perm graph.edges →
        { graph with edges := edges }.abbreviate = graph.abbreviate) ∧
    graph.abbreviate.edges.Pairwise (fun left right => Edge.order left right = .lt) ∧
    graph.abbreviate.unresolvedCalls = graph.unresolvedCalls ∧
    graph.abbreviate.duplicates = graph.duplicates ∧
    graph.abbreviate.abbreviate = graph.abbreviate := by
  refine ⟨?_, increasing_abbreviate graph, rfl, rfl, abbreviate_abbreviate graph⟩
  intro proper
  refine ⟨fun edge => existsUnique_abbreviated proper, ?_, ?_, ?_⟩
  · intro short
    rw [mem_edges_abbreviate, mem_collapsed_iff proper]
  · rw [nodes_abbreviate]
    exact List.filter_congr fun node _ => decide_eq_decide.mpr (mem_ends_abbreviate proper node)
  · exact fun edges perm => abbreviate_congr proper fun edge => perm.mem_iff

end Abbreviate

def worksEdge (source target : String) (kind : EdgeKind) (label : String) : Edge :=
  { source := source, target := target, kind := kind, label := label
    cardinality := if kind = .contains then some .many else none }

def works : Graph :=
  { nodes := ["Wheel", "Idle", "Shape", "Engine"]
    edges :=
      [worksEdge "Engine" "Wheel" .calls "spin", worksEdge "Engine" "Wheel" .contains "wheels",
        worksEdge "Wheel" "Shape" .stateTransition "turn", worksEdge "Engine" "Wheel" .calls "stop",
        worksEdge "Wheel" "Engine" .calls "notify", worksEdge "Wheel" "Shape" .implements "",
        worksEdge "Engine" "Engine" .contains "next"]
    unresolvedCalls := 3, duplicates := [] }

theorem abbreviate_stands_for_works :
    (∀ edge ∈ works.edges, edge.Proper) ∧
      works.abbreviate.edges.map (fun edge => (edge.source, edge.kind, edge.target)) =
        [("Engine", .contains, "Engine"), ("Engine", .contains, "Wheel"),
          ("Wheel", .calls, "Engine"), ("Wheel", .implements, "Shape")] ∧
      works.abbreviate.nodes = ["Wheel", "Shape", "Engine"] ∧
      { works with edges := works.edges.reverse }.abbreviate = works.abbreviate ∧
      ∃! short, short ∈ works.abbreviate.edges ∧
        SameEnds short (worksEdge "Engine" "Wheel" .calls "stop") := by
  have proper : ∀ edge ∈ works.edges, edge.Proper := by
    unfold Edge.Proper ProperName
    decide +kernel
  obtain ⟨single, -, nodes, anyOrder⟩ := (abbreviate_stands_for works).1 proper
  refine ⟨proper, by decide +kernel, ?_, anyOrder _ (List.reverse_perm works.edges), ?_⟩
  · rw [nodes]
    decide +kernel
  · exact single _ (by decide)

end Graph

end CrateAtlas
