import CrateAtlas.Proofs.Mermaid.Flowchart

/-!
How a formatted diagram is laid out: what stands in front of the first header line, that line, what
stands behind it, and the style statements of a flowchart. Main statement: formatting neither loses
nor invents a line, and it looks at nothing but what the lines hold.
-/

namespace CrateAtlas.Mermaid

open Text OrderedMap

section Blocks

def beginsBlock (raw : List Char) : Bool :=
  !isComment (trim raw) && opensBlock (trim raw)

def endsBlock (raw : List Char) : Bool :=
  !isComment (trim raw) && closesBlock (trim raw)

def levelOf (outer : Nat) (raw : List Char) : Nat :=
  if endsBlock raw then outer - 1 else outer

def openBehind (outer : Nat) (raw : List Char) : Nat :=
  if beginsBlock raw then levelOf outer raw + 1 else levelOf outer raw

/-- Lines indented by the blocks around them, and by `base` levels more. -/
def laidOut (base : Nat) : Nat → List (List Char) → List (List Char)
  | _, [] => []
  | outer, raw :: rest =>
      (indentation (base + levelOf outer raw) ++ trim raw) :: laidOut base (openBehind outer raw) rest

theorem map_trim_laidOut (base outer : Nat) (lines : List (List Char)) :
    (laidOut base outer lines).map trim = lines.map trim := by
  induction lines generalizing outer with
  | nil => rfl
  | cons raw rest ih =>
      rw [laidOut, List.map_cons, List.map_cons, trim_indentation, trim_trim, ih]

theorem contentsOf_laidOut (base outer : Nat) (lines : List (List Char)) :
    contentsOf (laidOut base outer lines) = contentsOf lines := by
  rw [contentsOf, map_trim_laidOut, contentsOf]

end Blocks

section Placing

variable {state : FormatState} {raw : List Char} {lines : List (List Char)}

def FormatState.base (state : FormatState) : Nat :=
  if state.headerSeen then 1 else 0

theorem formatLine_placed (filled : trim raw ≠ [])
    (headed : state.headerSeen ∨ isHeader (trim raw) = false)
    (drawn : state.flowchart = false ∨ isStyleStatement (trim raw) = false) :
    formatLine state raw =
      { state with
        body := (indentation (state.base + levelOf state.openBlocks raw) ++ trim raw) :: state.body
        openBlocks := openBehind state.openBlocks raw } := by
  have noHeader : (!state.headerSeen && isHeader (trim raw)) = false := by
    rcases headed with seen | other
    · simp [seen]
    · simp [other]
  have stays : (state.flowchart && isStyleStatement (trim raw)) = false := by
    rcases drawn with plain | other
    · simp [plain]
    · simp [other]
  simp only [formatLine, List.isEmpty_eq_false_iff.mpr filled, noHeader, stays, Bool.false_eq_true,
    if_false]
  rfl

theorem foldl_placed (trimmed : ∀ line ∈ lines, trim line = line ∧ line ≠ [])
    (headed : state.headerSeen ∨ ∀ line ∈ lines, isHeader line = false)
    (drawn : state.flowchart = false ∨ ∀ line ∈ lines, isStyleStatement line = false) :
    lines.foldl formatLine state =
      { state with
        body := (laidOut state.base state.openBlocks lines).reverse ++ state.body
        openBlocks := lines.foldl openBehind state.openBlocks } := by
  induction lines generalizing state with
  | nil => rfl
  | cons line rest ih =>
      obtain ⟨same, filled⟩ := trimmed line List.mem_cons_self
      have placed : formatLine state line = _ := formatLine_placed (by rwa [same])
        (headed.imp_right fun none => by rw [same]; exact none line List.mem_cons_self)
        (drawn.imp_right fun none => by rw [same]; exact none line List.mem_cons_self)
      have others := @ih (formatLine state line)
        (fun other member => trimmed other (List.mem_cons_of_mem line member))
        (by
          rw [placed]
          exact headed.imp_right fun none other member => none other (List.mem_cons_of_mem line member))
        (by
          rw [placed]
          exact drawn.imp_right fun none other member => none other (List.mem_cons_of_mem line member))
      rw [List.foldl_cons, others, placed]
      simp [laidOut, FormatState.base]

theorem foldl_contentsOf (state : FormatState) (lines : List (List Char)) :
    (contentsOf lines).foldl formatLine state = lines.foldl formatLine state := by
  induction lines generalizing state with
  | nil => rfl
  | cons raw rest ih =>
      rw [contentsOf_cons, List.foldl_cons]
      by_cases blank : trim raw = []
      · rw [if_pos blank, ih, formatLine_of_blank blank]
      · rw [if_neg blank, List.foldl_cons, formatLine_trim, ih]

theorem formatLines_contentsOf (lines : List (List Char)) :
    formatLines (contentsOf lines) = formatLines lines := by
  rw [formatLines_eq, foldl_contentsOf, ← formatLines_eq]

end Placing

section Sections

variable {front behind : List (List Char)} {header : List Char}

theorem formatLines_headless (trimmed : ∀ line ∈ front, trim line = line ∧ line ≠ [])
    (early : ∀ line ∈ front, isHeader line = false) :
    formatLines front = laidOut 0 0 front := by
  rw [formatLines_eq, foldl_placed trimmed (.inr early) (.inl rfl)]
  simp [FormatState.base, behindBlank, settled, distinct, sortBy]

def headedBy (front : List (List Char)) (header : List Char) : FormatState :=
  { body := header :: (laidOut 0 0 front).reverse
    headerSeen := true
    flowchart := isFlowchart header
    openBlocks := front.foldl openBehind 0 }

theorem foldl_header (trimmed : ∀ line ∈ front ++ [header], trim line = line ∧ line ≠ [])
    (early : ∀ line ∈ front, isHeader line = false) (first : isHeader header) :
    (front ++ [header]).foldl formatLine {} = headedBy front header := by
  obtain ⟨same, filled⟩ := trimmed header (by simp)
  have before : front.foldl formatLine {} = _ := foldl_placed
    (fun line member => trimmed line (List.mem_append_left _ member)) (.inr early) (.inl rfl)
  rw [List.foldl_append, before]
  simp [formatLine, same, filled, first, headedBy, FormatState.base]

theorem formatLines_headed
    (trimmed : ∀ line ∈ front ++ header :: behind, trim line = line ∧ line ≠ [])
    (early : ∀ line ∈ front, isHeader line = false) (first : isHeader header) :
    formatLines (front ++ header :: behind) =
      (laidOut 0 0 front ++ header ::
        laidOut 1 (front.foldl openBehind 0)
          (behind.filter fun line => !(isFlowchart header && isStyleStatement line))) ++
        behindBlank ((settled (behind.filter fun line =>
          isFlowchart header && isStyleStatement line)).map (indentation 1 ++ ·)) := by
  have whole : front ++ header :: behind = (front ++ [header]) ++ behind := by simp
  rw [whole] at trimmed ⊢
  have trimmedBehind : ∀ line ∈ behind, trim line = line ∧ line ≠ [] :=
    fun line member => trimmed line (List.mem_append_right _ member)
  have opening := foldl_header (fun line member => trimmed line (List.mem_append_left _ member))
    early first
  have base : (headedBy front header).base = 1 := rfl
  rw [formatLines_eq, List.foldl_append, opening]
  cases kind : isFlowchart header with
  | false =>
      rw [foldl_placed trimmedBehind (.inl rfl) (.inl kind), base]
      simp [headedBy, settled, distinct, sortBy, behindBlank]
  | true =>
      have opened : (headedBy front header).Opened := ⟨rfl, kind⟩
      have drawn : ∀ line ∈ drawnOf behind, isStyleStatement line = false :=
        fun line member => (mem_drawnOf.mp member).2
      have trimmedDrawn : ∀ line ∈ drawnOf behind, trim line = line ∧ line ≠ [] :=
        fun line member => trimmed_of_mem_contentsOf (mem_drawnOf.mp member).1
      rw [opened.foldl, foldl_placed trimmedDrawn (.inl rfl) (.inr drawn), base]
      simp [headedBy, drawnOf, stylesOf, contentsOf_of_trimmed trimmedBehind]

end Sections

section Kept

variable {contents front behind : List (List Char)} {header : List Char}

/-- The lines that keep their places: all up to the first header line, and behind the header of a
flowchart those that are no style statements. -/
def stayingLines : List (List Char) → List (List Char)
  | [] => []
  | line :: rest =>
      if isHeader line then
        line :: rest.filter fun other => !(isFlowchart line && isStyleStatement other)
      else line :: stayingLines rest

/-- The style statements behind the first header line, when it is a flowchart's. -/
def movedStyles : List (List Char) → List (List Char)
  | [] => []
  | line :: rest =>
      if isHeader line then rest.filter fun other => isFlowchart line && isStyleStatement other
      else movedStyles rest

theorem exists_sections (contents : List (List Char)) :
    (∀ line ∈ contents, isHeader line = false) ∨
      ∃ front header behind, contents = front ++ header :: behind ∧
        (∀ line ∈ front, isHeader line = false) ∧ isHeader header := by
  induction contents with
  | nil => exact .inl (by simp)
  | cons line rest ih =>
      cases first : isHeader line with
      | true => exact .inr ⟨[], line, rest, rfl, by simp, first⟩
      | false =>
          rcases ih with none | ⟨front, header, behind, rfl, early, here⟩
          · exact .inl (List.forall_mem_cons.mpr ⟨first, none⟩)
          · exact .inr ⟨line :: front, header, behind, rfl,
              List.forall_mem_cons.mpr ⟨first, early⟩, here⟩

theorem stayingLines_headless (none : ∀ line ∈ contents, isHeader line = false) :
    stayingLines contents = contents ∧ movedStyles contents = [] := by
  induction contents with
  | nil => exact ⟨rfl, rfl⟩
  | cons line rest ih =>
      obtain ⟨here, others⟩ := List.forall_mem_cons.mp none
      obtain ⟨kept, moved⟩ := ih others
      simp [stayingLines, movedStyles, here, kept, moved]

theorem stayingLines_headed (early : ∀ line ∈ front, isHeader line = false) (first : isHeader header) :
    stayingLines (front ++ header :: behind) =
        front ++ header ::
          behind.filter (fun line => !(isFlowchart header && isStyleStatement line)) ∧
      movedStyles (front ++ header :: behind) =
        behind.filter fun line => isFlowchart header && isStyleStatement line := by
  induction front with
  | nil => simp [stayingLines, movedStyles, first]
  | cons line rest ih =>
      obtain ⟨here, others⟩ := List.forall_mem_cons.mp early
      obtain ⟨kept, moved⟩ := ih others
      simp [stayingLines, movedStyles, here, kept, moved]

theorem style_of_mem_movedStyles {statement : List Char} (member : statement ∈ movedStyles contents) :
    statement ∈ contents ∧ isStyleStatement statement := by
  rcases exists_sections contents with none | ⟨front, header, behind, rfl, early, first⟩
  · rw [(stayingLines_headless none).2] at member
    simp at member
  · rw [(stayingLines_headed early first).2, List.mem_filter, Bool.and_eq_true] at member
    exact ⟨by simp [member.1], member.2.2⟩

theorem contentsOf_formatLines (lines : List (List Char)) :
    contentsOf (formatLines lines) =
      stayingLines (contentsOf lines) ++ settled (movedStyles (contentsOf lines)) := by
  have trimmed : ∀ line ∈ contentsOf lines, trim line = line ∧ line ≠ [] :=
    fun _ => trimmed_of_mem_contentsOf
  have moved : ∀ style ∈ settled (movedStyles (contentsOf lines)), trim style = style ∧ style ≠ [] :=
    fun style member => trimmed style (style_of_mem_movedStyles (mem_settled.mp member)).1
  rw [← formatLines_contentsOf]
  rcases exists_sections (contentsOf lines) with none | ⟨front, header, behind, whole, early, first⟩
  · obtain ⟨kept, styles⟩ := stayingLines_headless none
    rw [formatLines_headless trimmed none, contentsOf_laidOut, contentsOf_of_trimmed trimmed, kept,
      styles]
    exact (List.append_nil _).symm
  · rw [whole] at trimmed moved ⊢
    obtain ⟨kept, styles⟩ := @stayingLines_headed front behind header early first
    obtain ⟨same, filled⟩ := trimmed header (by simp)
    rw [styles] at moved
    rw [formatLines_headed trimmed early first, kept, styles, contentsOf_append, contentsOf_append,
      contentsOf_cons, same, if_neg filled, contentsOf_laidOut, contentsOf_laidOut,
      contentsOf_behindBlank, contentsOf_indented 1 moved, contentsOf_of_trimmed,
      contentsOf_of_trimmed]
    · exact fun line member => trimmed line (by simp [List.mem_of_mem_filter member])
    · exact fun line member => trimmed line (List.mem_append_left _ member)

end Kept

section Styles

/-- The order of style statements: by the word they start with, and then by their text. -/
def StandsBefore (left right : List Char) : Prop :=
  styleRank left < styleRank right ∨
    styleRank left = styleRank right ∧ compareUnits left right = .lt

theorem standsBefore_of_styleOrder {left right : List Char} (below : styleOrder left right = .lt) :
    StandsBefore left right := by
  rcases Ordering.then_eq_lt.mp below with words | ⟨words, texts⟩
  · exact .inl (Nat.compare_eq_lt.mp words)
  · exact .inr ⟨Nat.compare_eq_eq.mp words, texts⟩

theorem pairwise_settled (styles : List (List Char)) : (settled styles).Pairwise StandsBefore :=
  (increasing_sortBy styleOrder (nodup_distinct styles) fun _ _ _ _ => eq_of_styleOrder).imp
    standsBefore_of_styleOrder

theorem styleRank_word {statement : List Char} (style : isStyleStatement statement) :
    ∃ word, styleWords[styleRank statement]? = some word ∧ (afterKeyword? word statement).isSome := by
  cases found : styleWords.findIdx? fun word => (afterKeyword? word statement).isSome with
  | none =>
      rw [List.findIdx?_eq_none_iff] at found
      obtain ⟨word, known, starts⟩ := List.any_eq_true.mp style
      rw [found word known] at starts
      simp at starts
  | some rank =>
      obtain ⟨inside, starts, _⟩ := List.findIdx?_eq_some_iff_getElem.mp found
      refine ⟨styleWords[rank], ?_, starts⟩
      rw [styleRank, found, Option.getD_some, List.getElem?_eq_getElem inside]

end Styles

/-- A formatted text holds the lines of the text in their order, but for the style statements behind
the header of a flowchart: these come last, each of them once and in their order. Nothing but what
the lines hold is looked at. -/
theorem format_keeps_lines (text : String) :
    let contents := contentsOf (linesOf text)
    (∃ tail, contentsOf (linesOf (format text)) = stayingLines contents ++ tail ∧
      (∀ statement, statement ∈ tail ↔ statement ∈ movedStyles contents) ∧ tail.Nodup ∧
      tail.Pairwise StandsBefore ∧
      ∀ statement ∈ tail, ∃ word, styleWords[styleRank statement]? = some word ∧
        (afterKeyword? word statement).isSome) ∧
    ∀ other, contentsOf (linesOf other) = contents → format other = format text := by
  intro contents
  have whole : ∀ line ∈ formatLines (linesOf text), '\n' ∉ line :=
    whole_formatLines fun _ => break_free_linesOf
  refine ⟨⟨settled (movedStyles contents), ?_, fun _ => mem_settled, ?_, pairwise_settled _, ?_⟩, ?_⟩
  · rw [format_eq, contentsOf_unlines whole, contentsOf_formatLines]
  · exact (sortBy_perm styleOrder _).nodup_iff.mpr (nodup_distinct _)
  · exact fun statement member =>
      styleRank_word (style_of_mem_movedStyles (mem_settled.mp member)).2
  · intro other same
    rw [format_eq, format_eq, ← formatLines_contentsOf (linesOf other), same, formatLines_contentsOf]

-- Statements in front of the header stay, and one that is given twice comes once.
def ferry : String :=
  "style A x\ngraph LR\nclass A c\nA --> B\nclassDef c d\nclass A c"

theorem format_keeps_lines_of_ferry :
    (∃ tail, contentsOf (linesOf (format ferry)) =
        ["style A x", "graph LR", "A --> B"].map String.toList ++ tail ∧
      ∀ statement, statement ∈ tail ↔
        statement = "class A c".toList ∨ statement = "classDef c d".toList) ∧
    format (ferry ++ "\t\n\n") = format ferry := by
  have lines : contentsOf (linesOf ferry) =
      ["style A x", "graph LR", "class A c", "A --> B", "classDef c d", "class A c"].map
        String.toList := by
    decide +kernel
  have spaced : contentsOf (linesOf (ferry ++ "\t\n\n")) = contentsOf (linesOf ferry) := by
    decide +kernel
  obtain ⟨⟨tail, holds, members, _⟩, alike⟩ := format_keeps_lines ferry
  rw [lines] at holds members
  refine ⟨⟨tail, ?_, ?_⟩, alike _ spaced⟩
  · rw [holds]
    rfl
  · intro statement
    have moved : movedStyles (["style A x", "graph LR", "class A c", "A --> B", "classDef c d",
        "class A c"].map String.toList) =
          ["class A c", "classDef c d", "class A c"].map String.toList := by
      decide +kernel
    rw [members, moved]
    simp only [List.map_cons, List.map_nil, List.mem_cons, List.not_mem_nil, or_false]
    rw [or_left_comm, or_self, or_comm]

end CrateAtlas.Mermaid
