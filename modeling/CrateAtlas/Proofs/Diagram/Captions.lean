import CrateAtlas.Proofs.Diagram.Drawable
import CrateAtlas.Proofs.Text.Blanks

/-!
What the texts of a graph can do to the markup. Main statement: a diagram has one line for each item
that it shows, and the quotes and colons of a line are those of the markup, with the captions of the
item between them.
-/

namespace CrateAtlas.Diagram

open Text OrderedMap

section Reading

def isMark (character : Char) : Bool :=
  character = '"' || character = ':'

/-- A line taken apart at its quotes and colons: the text in front of the first of them, and each of
them with the text behind it. -/
def dissect : List Char → List Char × List (Char × List Char)
  | [] => ([], [])
  | character :: rest =>
      let (text, others) := dissect rest
      if isMark character then ([], (character, text) :: others) else (character :: text, others)

def OneLine (text : List Char) : Prop :=
  ∀ character ∈ text, isLineBreak character = false

/-- A text that stays inside of its line and of the quotes around it. -/
def Unmarked (text : List Char) : Prop :=
  ∀ character ∈ text, isMark character = false ∧ isLineBreak character = false

instance (text : List Char) : Decidable (Unmarked text) :=
  List.decidableBAll _ text

variable {text left right : List Char}

theorem dissect_append (unmarked : Unmarked text) (rest : List Char) :
    dissect (text ++ rest) = (text ++ (dissect rest).1, (dissect rest).2) := by
  induction text with
  | nil => rfl
  | cons first others ih =>
      have plain := (unmarked first List.mem_cons_self).1
      rw [List.cons_append, dissect, ih fun character member =>
        unmarked character (List.mem_cons_of_mem first member)]
      simp [plain]

theorem dissect_unmarked (unmarked : Unmarked text) : dissect text = (text, []) := by
  have whole := dissect_append unmarked []
  rwa [List.append_nil, dissect, List.append_nil] at whole

theorem dissect_mark {mark : Char} (marked : isMark mark) (unmarked : Unmarked text)
    (rest : List Char) :
    dissect (text ++ mark :: rest) = (text, (mark, (dissect rest).1) :: (dissect rest).2) := by
  simp [dissect_append unmarked, dissect, marked]

theorem dissect_quoted (leftUnmarked : Unmarked left) (unmarked : Unmarked text)
    (rest : List Char) :
    dissect (left ++ '"' :: (text ++ '"' :: rest)) =
      (left, ('"', text) :: ('"', (dissect rest).1) :: (dissect rest).2) := by
  rw [dissect_mark rfl leftUnmarked, dissect_mark rfl unmarked]

theorem Unmarked.append (leftUnmarked : Unmarked left) (rightUnmarked : Unmarked right) :
    Unmarked (left ++ right) := by
  intro character member
  rcases List.mem_append.mp member with inLeft | inRight
  · exact leftUnmarked character inLeft
  · exact rightUnmarked character inRight

theorem Unmarked.cons {first : Char} (plain : isMark first = false ∧ isLineBreak first = false)
    (unmarked : Unmarked text) : Unmarked (first :: text) :=
  List.forall_mem_cons.mpr ⟨plain, unmarked⟩

theorem unmarked_joined {left right : String} (leftUnmarked : Unmarked left.toList)
    (rightUnmarked : Unmarked right.toList) : Unmarked (left ++ right).toList := by
  rw [String.toList_append]
  exact leftUnmarked.append rightUnmarked

theorem oneLine_of_dissect {front : List Char} {pieces : List (Char × List Char)}
    (read : dissect text = (front, pieces)) (first : OneLine front)
    (others : ∀ piece ∈ pieces, OneLine piece.2) : OneLine text := by
  induction text generalizing front pieces with
  | nil => simp [OneLine]
  | cons character rest ih =>
      simp only [dissect] at read
      split at read
      · rename_i mark
        obtain ⟨rfl, rfl⟩ := Prod.mk.inj read
        obtain ⟨text, deeper⟩ := List.forall_mem_cons.mp others
        refine List.forall_mem_cons.mpr ⟨?_, ih rfl text deeper⟩
        rw [isMark, Bool.or_eq_true, decide_eq_true_eq, decide_eq_true_eq] at mark
        rcases mark with rfl | rfl <;> decide
      · obtain ⟨rfl, rfl⟩ := Prod.mk.inj read
        obtain ⟨here, text⟩ := List.forall_mem_cons.mp first
        exact List.forall_mem_cons.mpr ⟨here, ih rfl text others⟩

end Reading

section Texts

theorem isMark_of_isWordChar {character : Char} (word : isWordChar character) :
    isMark character = false ∧ isLineBreak character = false := by
  have visible : isBlank character = false := isBlank_of_isNameChar (by simp [isNameChar, word])
  constructor
  · by_contra mark
    rw [Bool.not_eq_false, isMark, Bool.or_eq_true, decide_eq_true_eq, decide_eq_true_eq] at mark
    rcases mark with rfl | rfl <;> exact absurd word (by decide)
  · by_contra lineBreak
    rw [isBlank_of_isLineBreak (by simpa using lineBreak)] at visible
    simp at visible

theorem unmarked_sanitizeId (name : String) : Unmarked (sanitizeId name).toList := by
  intro character member
  refine isMark_of_isWordChar ?_
  rw [sanitizeId, String.toList_ofList, stripUnderscores, List.mem_reverse] at member
  have inner := (List.dropWhile_suffix _).subset member
  rw [List.mem_reverse] at inner
  exact ModulePath.isWordChar_of_mem_sanitizeComponent ((List.dropWhile_suffix _).subset inner)

/-- Escaped texts hold neither quotes nor colons, and no line break of any kind. -/
theorem unmarked_escapeLabel (text : String) : Unmarked (escapeLabel text).toList := by
  intro character member
  rw [escapeLabel, String.toList_ofList] at member
  rcases mem_normalize member with rfl | ⟨held, visible⟩
  · decide
  · simp only [replaceChars, List.mem_flatMap] at held
    obtain ⟨original, _, replaced⟩ := held
    have unmarked : isMark character = false := by
      by_cases quote : original = '"'
      · have spelled : character ∈ "#quot;".toList := by simpa [quote] using replaced
        exact ((by decide : Unmarked "#quot;".toList) character spelled).1
      · by_cases colon : original = ':'
        · have spelled : character ∈ "#58;".toList := by simpa [colon] using replaced
          exact ((by decide : Unmarked "#58;".toList) character spelled).1
        · have same : character = original := by simpa [quote, colon] using replaced
          simp [same, isMark, quote, colon]
    refine ⟨unmarked, ?_⟩
    by_contra lineBreak
    rw [isBlank_of_isLineBreak (by simpa using lineBreak)] at visible
    simp at visible

theorem unmarked_classArrow (kind : EdgeKind) : Unmarked (classArrow kind).toList := by
  cases kind <;> decide

end Texts

section Lines

def captionOf (node : String) : List Char :=
  (escapeLabel (ModulePath.lastSegment node)).toList

def labelOf (edge : Edge) : List Char :=
  (escapeLabel edge.caption).toList

/-- The line shows the caption of a node in quotes, with no other quote or colon. -/
def ShowsNode (node line : String) : Prop :=
  OneLine line.toList ∧ Unmarked (captionOf node) ∧
    ∃ front behind, dissect line.toList = (front, [('"', captionOf node), ('"', behind)])

/-- The quotes and colons of an edge's line, each with the text behind it. -/
def Mode.ShowsLabel (edge : Edge) (marked : List (Char × List Char)) (mode : Mode) : Prop :=
  match mode, edge.kind with
  | .classes, .contains => ∃ arrow many target,
      marked = [('"', ['1']), ('"', arrow), ('"', many), ('"', target), (':', ' ' :: labelOf edge)]
  | .classes, _ => marked = [(':', ' ' :: labelOf edge)]
  | .state, _ => marked = [(':', ' ' :: labelOf edge)]
  | .connections, _ => marked = []
  | .entity, _ => marked = [(':', [' ']), ('"', labelOf edge), ('"', [])]

def Mode.ShowsEdge (mode : Mode) (edge : Edge) (line : String) : Prop :=
  OneLine line.toList ∧ Unmarked (labelOf edge) ∧ mode.ShowsLabel edge (dissect line.toList).2

variable {node line : String} {edge : Edge} {graph : Graph} {ids : List (String × String)}

theorem unmarked_captionOf (node : String) : Unmarked (captionOf node) := unmarked_escapeLabel _

theorem unmarked_labelOf (edge : Edge) : Unmarked (labelOf edge) := unmarked_escapeLabel _

theorem Unmarked.oneLine (unmarked : Unmarked text) : OneLine text :=
  fun character member => (unmarked character member).2

theorem showsNode {front behind : String} (first : Unmarked front.toList)
    (last : Unmarked behind.toList) (node : String) :
    ShowsNode node (front ++ quotedName node ++ behind) := by
  have caption := unmarked_captionOf node
  have shape : (front ++ quotedName node ++ behind).toList =
      front.toList ++ '"' :: (captionOf node ++ '"' :: behind.toList) := by
    simp [quotedName, captionOf]
  have read : dissect (front ++ quotedName node ++ behind).toList =
      (front.toList, [('"', captionOf node), ('"', behind.toList)]) := by
    rw [shape, dissect_quoted first caption, dissect_unmarked last]
  refine ⟨oneLine_of_dissect read first.oneLine ?_, caption, _, _, read⟩
  simp [caption.oneLine, last.oneLine]

theorem showsEdge {mode : Mode} {front : List Char} {marked : List (Char × List Char)}
    (read : dissect line.toList = (front, marked)) (first : Unmarked front)
    (others : ∀ piece ∈ marked, Unmarked piece.2) (shown : mode.ShowsLabel edge marked) :
    mode.ShowsEdge edge line := by
  have oneLine := oneLine_of_dissect read first.oneLine fun piece member =>
    (others piece member).oneLine
  exact ⟨oneLine, unmarked_labelOf edge, by rwa [read]⟩

theorem dissect_labelled {front : String} (first : Unmarked front.toList) (edge : Edge) :
    dissect (front ++ " : " ++ escapeLabel edge.caption).toList =
      (front.toList ++ [' '], [(':', ' ' :: labelOf edge)]) := by
  have shape : (front ++ " : " ++ escapeLabel edge.caption).toList =
      front.toList ++ [' '] ++ ':' :: (' ' :: labelOf edge) := by
    simp [labelOf]
  have label : Unmarked (' ' :: labelOf edge) := .cons (by decide) (unmarked_labelOf edge)
  rw [shape, dissect_mark rfl (first.append (by decide)), dissect_unmarked label]

end Lines

section Items

variable {graph : Graph} {ids : List (String × String)} {node id line : String} {edge : Edge}

theorem unmarked_of_idOf (assigned : assignIds graph = .ok ids) (found : idOf ids node = .ok id) :
    Unmarked id.toList := by
  have held : get? node ids = some id := by
    cases lookup : get? node ids with
    | none => simp [idOf, lookup] at found
    | some given =>
        rw [idOf, lookup] at found
        rw [Except.ok.inj found]
  rw [((get?_assigned assigned).mp held).2]
  exact unmarked_sanitizeId node

/-- A block of lines that shows a node: the line of the node, and lines of its members unless it is
bare. -/
def ShowsBlock (bare : Prop) (node : String) (block : List String) : Prop :=
  ∃ line members, block = line :: members ∧ ShowsNode node line ∧ (bare → members = [])

theorem classNodeLines_shows {members : List (String × ClassMember)} {block : List String}
    (assigned : assignIds graph = .ok ids)
    (written : classNodeLines ids members node = .ok block) :
    ShowsBlock (members = []) node block := by
  obtain ⟨id, found, rest⟩ := bind_eq_ok.mp written
  refine ⟨classLine id node, _, (pure_eq_ok.mp rest).symm, ?_, ?_⟩
  · have front : Unmarked ("  class " ++ id).toList :=
      unmarked_joined (by decide) (unmarked_of_idOf assigned found)
    exact showsNode (unmarked_joined front (by decide)) (by decide) node
  · rintro rfl
    rfl

theorem stateNodeLine_shows (assigned : assignIds graph = .ok ids)
    (written : stateNodeLine ids node = .ok line) : ShowsNode node line := by
  obtain ⟨id, found, rest⟩ := bind_eq_ok.mp written
  obtain rfl := pure_eq_ok.mp rest
  have behind : Unmarked (" as " ++ id).toList :=
    unmarked_joined (by decide) (unmarked_of_idOf assigned found)
  rw [String.append_assoc]
  exact showsNode (by decide) behind node

theorem connectionNodeLine_shows (assigned : assignIds graph = .ok ids)
    (written : connectionNodeLine ids node = .ok line) : ShowsNode node line := by
  obtain ⟨id, found, rest⟩ := bind_eq_ok.mp written
  obtain rfl := pure_eq_ok.mp rest
  have front : Unmarked ("  " ++ id).toList :=
    unmarked_joined (by decide) (unmarked_of_idOf assigned found)
  exact showsNode (unmarked_joined front (by decide)) (by decide) node

theorem exists_ends (assigned : assignIds graph = .ok ids)
    {write : String → String → Except Failure String}
    (written : (do
      let source ← idOf ids edge.source
      let target ← idOf ids edge.target
      write source target) = .ok line) :
    ∃ source target, Unmarked source.toList ∧ Unmarked target.toList ∧
      write source target = .ok line := by
  obtain ⟨source, sourceFound, rest⟩ := bind_eq_ok.mp written
  obtain ⟨target, targetFound, done⟩ := bind_eq_ok.mp rest
  exact ⟨source, target, unmarked_of_idOf assigned sourceFound,
    unmarked_of_idOf assigned targetFound, done⟩

theorem classEdgeLine_shows (assigned : assignIds graph = .ok ids)
    (written : classEdgeLine ids edge = .ok line) : Mode.classes.ShowsEdge edge line := by
  obtain ⟨source, target, sourceId, targetId, done⟩ := exists_ends assigned written
  have label : Unmarked (' ' :: labelOf edge) := .cons (by decide) (unmarked_labelOf edge)
  have front : Unmarked ("  " ++ source).toList := unmarked_joined (by decide) sourceId
  by_cases contained : edge.kind = .contains
  · simp only [contained] at done
    obtain rfl := pure_eq_ok.mp done
    obtain ⟨many, spelled, unmarked⟩ : ∃ many : List Char,
        (if isMany edge then "\"*\"" else "\"1\"").toList = '"' :: (many ++ ['"']) ∧
          Unmarked many := by
      by_cases severalTimes : isMany edge = true
      · exact ⟨['*'], by simp [severalTimes], by decide⟩
      · exact ⟨['1'], by simp [severalTimes], by decide⟩
    have start : Unmarked ("  " ++ source ++ " ").toList := unmarked_joined front (by decide)
    have stop : Unmarked (" " ++ target ++ " ").toList :=
      unmarked_joined (unmarked_joined (by decide) targetId) (by decide)
    have arrow : Unmarked " *-- ".toList := by decide
    have shape : ("  " ++ source ++ " \"1\" " ++ classArrow .contains ++ " " ++
          (if isMany edge then "\"*\"" else "\"1\"") ++ " " ++ target ++ " : " ++
          escapeLabel edge.caption).toList =
        ("  " ++ source ++ " ").toList ++ '"' :: (['1'] ++ '"' :: (" *-- ".toList ++ '"' ::
          (many ++ '"' :: ((" " ++ target ++ " ").toList ++ ':' :: (' ' :: labelOf edge))))) := by
      simp only [String.toList_append, spelled]
      simp [labelOf, classArrow]
    have read := congrArg dissect shape
    rw [dissect_quoted start (by decide), dissect_quoted arrow unmarked,
      dissect_mark rfl stop, dissect_unmarked label] at read
    refine showsEdge read start ?_ ?_
    · simp only [List.forall_mem_cons]
      exact ⟨by decide, arrow, unmarked, stop, label, by simp⟩
    · simp only [Mode.ShowsLabel, contained]
      exact ⟨_, _, _, rfl⟩
  · have plain : "  " ++ source ++ " " ++ classArrow edge.kind ++ " " ++ target ++ " : " ++
        escapeLabel edge.caption = line := by
      cases kind : edge.kind <;> simp_all [pure_eq_ok]
    subst plain
    have arrow : Unmarked ("  " ++ source ++ " " ++ classArrow edge.kind).toList :=
      unmarked_joined (unmarked_joined front (by decide)) (unmarked_classArrow edge.kind)
    have start : Unmarked ("  " ++ source ++ " " ++ classArrow edge.kind ++ " " ++ target).toList :=
      unmarked_joined (unmarked_joined arrow (by decide)) targetId
    refine showsEdge (dissect_labelled start edge) ?_ ?_ ?_
    · exact start.append (by decide)
    · simpa using label
    · cases kind : edge.kind <;> simp_all [Mode.ShowsLabel]

theorem stateEdgeLine_shows (assigned : assignIds graph = .ok ids)
    (written : stateEdgeLine ids edge = .ok line) : Mode.state.ShowsEdge edge line := by
  obtain ⟨source, target, sourceId, targetId, done⟩ := exists_ends assigned written
  obtain rfl := pure_eq_ok.mp done
  have label : Unmarked (' ' :: labelOf edge) := .cons (by decide) (unmarked_labelOf edge)
  have front : Unmarked ("  " ++ source).toList := unmarked_joined (by decide) sourceId
  have start : Unmarked ("  " ++ source ++ " --> " ++ target).toList :=
    unmarked_joined (unmarked_joined front (by decide)) targetId
  refine showsEdge (dissect_labelled start edge) ?_ ?_ rfl
  · exact start.append (by decide)
  · simpa using label

theorem connectionEdgeLine_shows (assigned : assignIds graph = .ok ids)
    (written : connectionEdgeLine ids edge = .ok line) : Mode.connections.ShowsEdge edge line := by
  obtain ⟨source, target, sourceId, targetId, done⟩ := exists_ends assigned written
  obtain rfl := pure_eq_ok.mp done
  have front : Unmarked ("  " ++ source).toList := unmarked_joined (by decide) sourceId
  have whole : Unmarked ("  " ++ source ++ " --> " ++ target).toList :=
    unmarked_joined (unmarked_joined front (by decide)) targetId
  exact showsEdge (dissect_unmarked whole) whole (by simp) rfl

theorem entityEdgeLine_shows (assigned : assignIds graph = .ok ids)
    (written : entityEdgeLine ids edge = .ok line) : Mode.entity.ShowsEdge edge line := by
  obtain ⟨source, target, sourceId, targetId, done⟩ := exists_ends assigned written
  have label := unmarked_labelOf edge
  have front : Unmarked ("  " ++ source).toList := unmarked_joined (by decide) sourceId
  obtain ⟨relation, spelled, unmarked⟩ : ∃ relation : String,
      (if isMany edge then "||--o\x7b" else "||--||") = relation ∧ Unmarked relation.toList := by
    by_cases severalTimes : isMany edge = true
    · exact ⟨_, if_pos severalTimes, by decide⟩
    · exact ⟨_, if_neg severalTimes, by decide⟩
  dsimp only at done
  rw [spelled] at done
  obtain rfl := pure_eq_ok.mp done
  have start : Unmarked ("  " ++ source ++ " " ++ relation ++ " " ++ target ++ " ").toList :=
    unmarked_joined (unmarked_joined (unmarked_joined
      (unmarked_joined (unmarked_joined front (by decide)) unmarked) (by decide)) targetId)
      (by decide)
  have shape : ("  " ++ source ++ " " ++ relation ++ " " ++ target ++ " : \"" ++
        escapeLabel edge.caption ++ "\"").toList =
      ("  " ++ source ++ " " ++ relation ++ " " ++ target ++ " ").toList ++
        ':' :: ([' '] ++ '"' :: (labelOf edge ++ '"' :: [])) := by
    simp [labelOf]
  have read := congrArg dissect shape
  rw [dissect_mark rfl start, dissect_quoted (by decide) label, dissect] at read
  refine showsEdge read start ?_ rfl
  simp only [List.forall_mem_cons]
  exact ⟨by decide, label, by decide, by simp⟩

end Items

section Drawings

variable {graph : Graph} {ids : List (String × String)} {mode : Mode} {snapshot : Option Snapshot}
  {bare : Prop} {markup : String} {blocks : List (List String)} {edgeLines : List String}

def Mode.heading : Mode → String
  | .classes => "classDiagram"
  | .state => "stateDiagram-v2"
  | .connections => "graph LR"
  | .entity => "erDiagram"

def Mode.shownNodes (graph : Graph) : Mode → List String
  | .entity => []
  | mode => (mode.view graph).nodes

def Mode.shownEdges (graph : Graph) : Mode → List Edge
  | .entity => graph.edges.filter fun edge => edge.kind = .contains
  | mode => (mode.view graph).edges

/-- The markup is the heading and a line for each item, with the lines of a node's members behind
the line of the node. -/
structure Mode.Draws (mode : Mode) (graph : Graph) (bare : Prop) (markup : String)
    (blocks : List (List String)) (edgeLines : List String) : Prop where
  text : markup = joinLines (mode.heading :: (blocks.flatten ++ edgeLines))
  nodes : List.Forall₂ (ShowsBlock bare) (mode.shownNodes graph) blocks
  edges : List.Forall₂ mode.ShowsEdge (mode.shownEdges graph) edgeLines

theorem draws_lines {nodeLines : List String}
    (text : markup = joinLines (mode.heading :: nodeLines ++ edgeLines))
    (nodes : List.Forall₂ ShowsNode (mode.shownNodes graph) nodeLines)
    (edges : List.Forall₂ mode.ShowsEdge (mode.shownEdges graph) edgeLines) :
    mode.Draws graph bare markup (nodeLines.map ([·])) edgeLines where
  text := by rw [text, ← List.flatMap_def, List.flatMap_singleton', List.cons_append]
  nodes := List.forall₂_map_right_iff.mpr
    (nodes.imp fun _ line shows => ⟨line, [], rfl, shows, fun _ => rfl⟩)
  edges := edges

theorem exists_drawing (drawn : render graph mode snapshot = .ok markup) :
    ∃ blocks edgeLines,
      mode.Draws graph (mode ≠ .classes ∨ snapshot = none) markup blocks edgeLines := by
  cases mode with
  | classes =>
      obtain ⟨ids, assigned, rest⟩ := bind_eq_ok.mp drawn
      obtain ⟨blocks, nodesDone, rest⟩ := bind_eq_ok.mp rest
      obtain ⟨edgeLines, edgesDone, done⟩ := bind_eq_ok.mp rest
      refine ⟨blocks, edgeLines, (pure_eq_ok.mp done).symm, ?_, ?_⟩
      · refine (mapM_eq_ok.mp nodesDone).imp fun node block written => ?_
        obtain ⟨line, members, shape, shows, none⟩ := classNodeLines_shows assigned written
        refine ⟨line, members, shape, shows, fun bare => none ?_⟩
        rw [bare.resolve_left (by simp)]
        rfl
      · exact (mapM_eq_ok.mp edgesDone).imp fun _ _ => classEdgeLine_shows assigned
  | state =>
      obtain ⟨ids, assigned, rest⟩ := bind_eq_ok.mp drawn
      obtain ⟨nodeLines, nodesDone, rest⟩ := bind_eq_ok.mp rest
      obtain ⟨edgeLines, edgesDone, done⟩ := bind_eq_ok.mp rest
      refine ⟨_, edgeLines, draws_lines (pure_eq_ok.mp done).symm ?_ ?_⟩
      · exact (mapM_eq_ok.mp nodesDone).imp fun _ _ => stateNodeLine_shows assigned
      · exact (mapM_eq_ok.mp edgesDone).imp fun _ _ => stateEdgeLine_shows assigned
  | connections =>
      obtain ⟨ids, assigned, rest⟩ := bind_eq_ok.mp drawn
      obtain ⟨nodeLines, nodesDone, rest⟩ := bind_eq_ok.mp rest
      obtain ⟨edgeLines, edgesDone, done⟩ := bind_eq_ok.mp rest
      refine ⟨_, edgeLines, draws_lines (pure_eq_ok.mp done).symm ?_ ?_⟩
      · exact (mapM_eq_ok.mp nodesDone).imp fun _ _ => connectionNodeLine_shows assigned
      · exact (mapM_eq_ok.mp edgesDone).imp fun _ _ => connectionEdgeLine_shows assigned
  | entity =>
      obtain ⟨ids, assigned, rest⟩ := bind_eq_ok.mp drawn
      obtain ⟨edgeLines, edgesDone, done⟩ := bind_eq_ok.mp rest
      refine ⟨[], edgeLines, (pure_eq_ok.mp done).symm, .nil, ?_⟩
      exact (mapM_eq_ok.mp edgesDone).imp fun _ _ => entityEdgeLine_shows assigned

theorem showsNode_flatten {nodes : List String}
    (shown : List.Forall₂ (ShowsBlock bare) nodes blocks) (unadorned : bare) :
    List.Forall₂ ShowsNode nodes blocks.flatten := by
  induction shown with
  | nil => exact .nil
  | cons block _ ih =>
      obtain ⟨line, members, rfl, shows, none⟩ := block
      rw [none unadorned]
      exact .cons shows ih

theorem forall_mem_right {items : List α} {lines : List β} {related : α → β → Prop}
    {holds : β → Prop} (pairs : List.Forall₂ related items lines)
    (each : ∀ item line, related item line → holds line) : ∀ line ∈ lines, holds line := by
  induction pairs with
  | nil => simp
  | cons pair _ ih => exact List.forall_mem_cons.mpr ⟨each _ _ pair, ih⟩

theorem Mode.Draws.oneLine (draws : mode.Draws graph bare markup blocks edgeLines)
    (unadorned : bare) :
    ∀ line ∈ mode.heading :: (blocks.flatten ++ edgeLines), OneLine line.toList := by
  have heading : OneLine mode.heading.toList := by
    refine Unmarked.oneLine ?_
    cases mode <;> decide
  have nodes := forall_mem_right (showsNode_flatten draws.nodes unadorned)
    fun _ _ shows => shows.1
  have edges := forall_mem_right draws.edges fun _ _ shows => shows.1
  exact List.forall_mem_cons.mpr ⟨heading, List.forall_mem_append.mpr ⟨nodes, edges⟩⟩

/-- Whatever the names and labels of a graph hold, a drawn diagram is its heading and one line for
each item. In the line of an item stand the quotes and colons of the markup and no others, so a
caption ends where the markup ends it. The members of a snapshot, which only class diagrams show,
may add lines behind those of the nodes. -/
theorem rendered_line_by_line (drawn : render graph mode snapshot = .ok markup) :
    ∃ blocks edgeLines,
      mode.Draws graph (mode ≠ .classes ∨ snapshot = none) markup blocks edgeLines ∧
      (mode ≠ .classes ∨ snapshot = none →
        splitText '\n' markup = mode.heading :: (blocks.flatten ++ edgeLines) ++ [""] ∧
        (∀ line ∈ mode.heading :: (blocks.flatten ++ edgeLines), OneLine line.toList) ∧
        (blocks.flatten ++ edgeLines).length =
          (mode.shownNodes graph).length + (mode.shownEdges graph).length) := by
  obtain ⟨blocks, edgeLines, draws⟩ := exists_drawing drawn
  refine ⟨blocks, edgeLines, draws, fun unadorned => ?_⟩
  have oneLine := draws.oneLine unadorned
  refine ⟨?_, oneLine, ?_⟩
  · rw [draws.text]
    exact splitText_joinLines fun line member lineBreak => by
      simpa [isLineBreak] using oneLine line member _ lineBreak
  · rw [List.length_append, ← (showsNode_flatten draws.nodes unadorned).length_eq,
      ← draws.edges.length_eq]

end Drawings

def quarrel : Graph :=
  { nodes := ["a::B\"\n:", "c"]
    edges :=
      [{ source := "a::B\"\n:", target := "c", kind := .contains, label := "x\"\n:y"
         cardinality := some .one }]
    unresolvedCalls := 0, duplicates := [] }

theorem rendered_line_by_line_of_quarrel :
    let markup := "classDiagram\n  class a__B[\"B#quot; #58;\"]\n  class c[\"c\"]\n" ++
      "  a__B \"1\" *-- \"1\" c : x#quot; #58;y\n"
    render quarrel .classes none = .ok markup ∧
      ∃ (blocks : List (List String)) (edgeLines : List String),
        splitText '\n' markup = "classDiagram" :: (blocks.flatten ++ edgeLines) ++ [""] ∧
        List.Forall₂ Mode.classes.ShowsEdge quarrel.edges edgeLines ∧
        (blocks.flatten ++ edgeLines).length = 3 := by
  intro markup
  have drawn : render quarrel .classes none = .ok markup := by decide +kernel
  obtain ⟨blocks, edgeLines, draws, lines⟩ := rendered_line_by_line drawn
  obtain ⟨split, _, count⟩ := lines (.inr rfl)
  exact ⟨drawn, blocks, edgeLines, split, draws.edges, count⟩

end CrateAtlas.Diagram
