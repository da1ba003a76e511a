import CrateAtlas.Mermaid.Format
import CrateAtlas.Proofs.Maps
import CrateAtlas.Proofs.Text.Lines

/-!
What formatting does to the lines of a diagram. Main statements: formatting keeps what the lines
hold, up to their order and repeated style statements, and a formatted text is formatted already.
-/

namespace CrateAtlas.Mermaid

open Text OrderedMap

def linesOf (text : String) : List (List Char) :=
  splitOn '\n' text.toList

/-- What lines hold: each of them without the blanks at its ends, and no blank ones. -/
def contentsOf (lines : List (List Char)) : List (List Char) :=
  (lines.map trim).filter fun line => !line.isEmpty

section Lines

variable {lines : List (List Char)} {line : List Char}

theorem mem_contentsOf : line ∈ contentsOf lines ↔ line ≠ [] ∧ ∃ raw ∈ lines, trim raw = line := by
  simp only [contentsOf, List.mem_filter, List.mem_map, Bool.not_eq_true',
    List.isEmpty_eq_false_iff, and_comm]

theorem contentsOf_cons (raw : List Char) (lines : List (List Char)) :
    contentsOf (raw :: lines) =
      if trim raw = [] then contentsOf lines else trim raw :: contentsOf lines := by
  by_cases blank : trim raw = [] <;> simp [contentsOf, blank]

theorem break_free_linesOf {text : String} (member : line ∈ linesOf text) : '\n' ∉ line :=
  not_mem_of_mem_splitOn member

theorem linesOf_unlines (whole : ∀ line ∈ lines, '\n' ∉ line) :
    linesOf (unlines lines) = (if lines = [] then [[]] else lines) ++ [[]] := by
  have ending : (unlines lines).toList =
      (joinWith "\n" (lines.map String.ofList)).toList ++ ['\n'] := by
    rw [unlines, String.toList_append]
    rfl
  rw [linesOf, ending, splitOn_append_mark]
  congr 1
  split
  · rename_i nothing
    rw [nothing]
    rfl
  · rename_i some
    rw [splitOn_joinWith rfl (by simpa using some), List.map_map]
    · exact (List.map_congr_left fun line _ => String.toList_ofList).trans (List.map_id lines)
    · intro text member
      obtain ⟨line, present, rfl⟩ := List.mem_map.mp member
      rw [String.toList_ofList]
      exact whole line present

theorem mem_linesOf_unlines (whole : ∀ line ∈ lines, '\n' ∉ line)
    (member : line ∈ linesOf (unlines lines)) : line = [] ∨ line ∈ lines := by
  rw [linesOf_unlines whole] at member
  split at member
  · exact .inl (by simpa using member)
  · exact (List.mem_append.mp member).symm.imp_left List.mem_singleton.mp

theorem contentsOf_unlines (whole : ∀ line ∈ lines, '\n' ∉ line) :
    contentsOf (linesOf (unlines lines)) = contentsOf lines := by
  have nothing : trim [] = [] := rfl
  rw [linesOf_unlines whole]
  split
  · rename_i empty
    rw [empty]
    rfl
  · simp [contentsOf, nothing]

theorem trim_indentation (level : Nat) (line : List Char) :
    trim (indentation level ++ line) = trim line := by
  refine trim_blanks_append ?_ line
  intro character member
  rw [List.eq_of_mem_replicate member]
  rfl

end Lines

section Steps

variable {state : FormatState} {raw : List Char}

def FormatState.Gathers (state : FormatState) (raw : List Char) : Prop :=
  trim raw ≠ [] ∧ (state.headerSeen ∨ isHeader (trim raw) = false) ∧ state.flowchart ∧
    isStyleStatement (trim raw)

theorem formatLine_trim (state : FormatState) (raw : List Char) :
    formatLine state (trim raw) = formatLine state raw := by
  simp only [formatLine, trim_trim]

theorem formatLine_indentation (state : FormatState) (level : Nat) (line : List Char) :
    formatLine state (indentation level ++ line) = formatLine state line := by
  rw [← formatLine_trim, trim_indentation, formatLine_trim]

theorem formatLine_of_blank (blank : trim raw = []) : formatLine state raw = state := by
  simp [formatLine, blank]

theorem formatLine_of_gathers (gathers : state.Gathers raw) :
    formatLine state raw = { state with styles := state.styles ++ [trim raw] } := by
  obtain ⟨filled, later, flowchart, style⟩ := gathers
  have passed : (!state.headerSeen && isHeader (trim raw)) = false := by
    rcases later with seen | plain
    · simp [seen]
    · simp [plain]
  simp [formatLine, filled, passed, flowchart, style]

theorem not_style_of_stays (stays : ¬state.Gathers raw) (filled : trim raw ≠ [])
    (noHeader : (!state.headerSeen && isHeader (trim raw)) = false) :
    (state.flowchart && isStyleStatement (trim raw)) = false := by
  by_contra style
  rw [Bool.not_eq_false, Bool.and_eq_true] at style
  refine stays ⟨filled, ?_, style⟩
  cases seen : state.headerSeen with
  | true => exact .inl rfl
  | false => exact .inr (by simpa [seen] using noHeader)

theorem formatLine_of_stays (stays : ¬state.Gathers raw) (styles : List (List Char)) :
    formatLine { state with styles := styles } raw =
      { formatLine state raw with styles := styles } := by
  by_cases blank : trim raw = []
  · simp [formatLine, blank]
  · cases header : !state.headerSeen && isHeader (trim raw) with
    | true => simp [formatLine, blank, header]
    | false =>
        have plain := not_style_of_stays stays blank header
        simp [formatLine, blank, header, plain]

theorem step_of_stays (stays : ¬state.Gathers raw) (filled : trim raw ≠ []) :
    (state.headerSeen = false ∧ formatLine state raw =
      { state with
        body := (indentation 0 ++ trim raw) :: state.body
        headerSeen := true
        flowchart := isFlowchart (trim raw) }) ∨
      ∃ level openBlocks, formatLine state raw =
        { state with
          body := (indentation level ++ trim raw) :: state.body
          openBlocks := openBlocks } := by
  cases header : !state.headerSeen && isHeader (trim raw) with
  | true =>
      have unseen : state.headerSeen = false := by simp_all
      refine .inl ⟨unseen, ?_⟩
      simp [formatLine, filled, header, indentation]
  | false =>
      have plain := not_style_of_stays stays filled header
      right
      simp only [formatLine, List.isEmpty_eq_false_iff.mpr filled, header, plain,
        Bool.false_eq_true, if_false]
      exact ⟨_, _, rfl⟩

end Steps

section Runs

/-- What is known of a state after some lines. Running over the body once more leads to the same
state, apart from the style statements that left it. -/
structure FormatState.Reached (state : FormatState) (lines : List (List Char)) : Prop where
  reruns : state.body.reverse.foldl formatLine {} = { state with styles := [] }
  indented : ∀ line ∈ state.body, ∃ level, line = indentation level ++ trim line
  holds : (contentsOf state.body ++ state.styles).Perm (contentsOf lines)
  gathered : ∀ style ∈ state.styles, trim style = style ∧ isStyleStatement style
  flowchart : state.styles ≠ [] → state.flowchart
  header : state.flowchart → state.headerSeen

theorem reached_nothing : FormatState.Reached {} [] where
  reruns := rfl
  indented := by simp
  holds := .refl _
  gathered := by simp
  flowchart := by simp
  header := by simp

variable {state : FormatState} {lines : List (List Char)} {raw : List Char}

theorem contentsOf_append (left right : List (List Char)) :
    contentsOf (left ++ right) = contentsOf left ++ contentsOf right := by
  simp [contentsOf]

theorem FormatState.Reached.stays (reached : state.Reached lines) (filled : trim raw ≠ [])
    {next : FormatState} (level : Nat)
    (step : ∀ styles, formatLine { state with styles := styles } raw =
      { next with styles := styles })
    (body : next.body = (indentation level ++ trim raw) :: state.body)
    (styles : next.styles = state.styles) (flowchart : next.styles ≠ [] → next.flowchart)
    (header : next.flowchart → next.headerSeen) : next.Reached (lines ++ [raw]) where
  reruns := by
    rw [body, List.reverse_cons, List.foldl_append, reached.reruns, List.foldl_cons,
      formatLine_indentation, formatLine_trim, step, ← body, List.foldl_nil]
  indented line member := by
    rw [body] at member
    rcases List.mem_cons.mp member with rfl | earlier
    · exact ⟨level, by rw [trim_indentation, trim_trim]⟩
    · exact reached.indented line earlier
  holds := by
    have last : contentsOf [raw] = [trim raw] := by simp [contentsOf, filled]
    have first : contentsOf next.body = trim raw :: contentsOf state.body := by
      rw [body, contentsOf_cons, trim_indentation, trim_trim, if_neg filled]
    rw [first, styles, contentsOf_append, last, List.cons_append]
    exact (reached.holds.cons _).trans (List.perm_append_singleton _ _).symm
  gathered := by
    rw [styles]
    exact reached.gathered
  flowchart := flowchart
  header := header

theorem FormatState.Reached.step (reached : state.Reached lines) (raw : List Char) :
    (formatLine state raw).Reached (lines ++ [raw]) := by
  by_cases blank : trim raw = []
  · have nothing : contentsOf [raw] = [] := by simp [contentsOf, blank]
    rw [formatLine_of_blank blank]
    refine { reached with holds := ?_ }
    rw [contentsOf_append, nothing, List.append_nil]
    exact reached.holds
  · by_cases gathers : state.Gathers raw
    · rw [formatLine_of_gathers gathers]
      have last : contentsOf [raw] = [trim raw] := by simp [contentsOf, blank]
      obtain ⟨_, _, flowchart, style⟩ := gathers
      refine { reached with holds := ?_, gathered := ?_, flowchart := fun _ => flowchart }
      · rw [contentsOf_append, last, ← List.append_assoc]
        exact reached.holds.append_right _
      · intro line member
        rcases List.mem_append.mp member with earlier | here
        · exact reached.gathered line earlier
        · rw [List.mem_singleton.mp here]
          exact ⟨trim_trim raw, style⟩
    · have step := formatLine_of_stays gathers
      rcases step_of_stays gathers blank with ⟨unseen, next⟩ | ⟨level, openBlocks, next⟩
      · refine reached.stays blank 0 step (by rw [next]) (by rw [next]) ?_ (by simp [next])
        -- Nothing was gathered before the header.
        intro some
        have earlier : state.styles ≠ [] := by simpa [next] using some
        have seen := reached.header (reached.flowchart earlier)
        rw [unseen] at seen
        exact absurd seen (by decide)
      · refine reached.stays blank level step (by rw [next]) (by rw [next]) ?_ ?_
        · simpa [next] using reached.flowchart
        · simpa [next] using reached.header

theorem reached_foldl (lines : List (List Char)) :
    (lines.foldl formatLine {}).Reached lines := by
  induction lines using List.reverseRecOn with
  | nil => exact reached_nothing
  | append_singleton earlier raw ih =>
      rw [List.foldl_append]
      exact ih.step raw

end Runs

section Styles

instance : Std.TransCmp styleOrder := by
  have rank : Std.TransCmp fun left right : List Char =>
      compare (styleRank left) (styleRank right) := transCmp_on compare styleRank
  exact inferInstanceAs (Std.TransCmp (compareLex
    (fun left right : List Char => compare (styleRank left) (styleRank right)) compareUnits))

def settled (styles : List (List Char)) : List (List Char) :=
  sortBy styleOrder (distinct styles)

variable {styles : List (List Char)} {state : FormatState}

theorem mem_settled {style : List Char} : style ∈ settled styles ↔ style ∈ styles := by
  rw [settled, mem_sortBy, mem_distinct]

theorem settled_settled (styles : List (List Char)) :
    settled (settled styles) = settled styles := by
  have once : (settled styles).Nodup :=
    (sortBy_perm styleOrder _).nodup_iff.mpr (nodup_distinct styles)
  rw [settled, distinct_of_nodup once, settled, sortBy_sortBy]

def behindBlank (tail : List (List Char)) : List (List Char) :=
  if tail.isEmpty then [] else [] :: tail

theorem append_behindBlank (body tail : List (List Char)) :
    body ++ behindBlank tail = if tail.isEmpty then body else body ++ [] :: tail := by
  cases tail <;> simp [behindBlank]

theorem mem_behindBlank {tail : List (List Char)} {line : List Char}
    (member : line ∈ behindBlank tail) : line = [] ∨ line ∈ tail := by
  rw [behindBlank] at member
  split at member
  · simp at member
  · exact List.mem_cons.mp member

theorem contentsOf_behindBlank (tail : List (List Char)) :
    contentsOf (behindBlank tail) = contentsOf tail := by
  cases tail with
  | nil => rfl
  | cons first rest =>
      have blank : trim [] = [] := rfl
      rw [behindBlank, if_neg (by simp), contentsOf_cons, if_pos blank]

theorem foldl_behindBlank (state : FormatState) (tail : List (List Char)) :
    (behindBlank tail).foldl formatLine state = tail.foldl formatLine state := by
  cases tail with
  | nil => rfl
  | cons first rest =>
      rw [behindBlank, if_neg (by simp), List.foldl_cons, formatLine_of_blank rfl]

theorem formatLines_eq (lines : List (List Char)) :
    formatLines lines = (lines.foldl formatLine {}).body.reverse ++
      behindBlank ((settled (lines.foldl formatLine {}).styles).map (indentation 1 ++ ·)) := by
  rw [append_behindBlank, List.isEmpty_map]
  rfl

theorem contentsOf_indented {lines : List (List Char)} (level : Nat)
    (trimmed : ∀ line ∈ lines, trim line = line ∧ line ≠ []) :
    contentsOf (lines.map (indentation level ++ ·)) = lines := by
  induction lines with
  | nil => rfl
  | cons line rest ih =>
      obtain ⟨same, filled⟩ := trimmed line List.mem_cons_self
      rw [List.map_cons, contentsOf_cons, trim_indentation, same, if_neg filled,
        ih fun other member => trimmed other (List.mem_cons_of_mem line member)]

theorem foldl_gathers (header : state.headerSeen) (flowchart : styles ≠ [] → state.flowchart)
    (statements : ∀ style ∈ styles, trim style = style ∧ style ≠ [] ∧ isStyleStatement style) :
    (styles.map (indentation 1 ++ ·)).foldl formatLine state =
      { state with styles := state.styles ++ styles } := by
  induction styles generalizing state with
  | nil => simp
  | cons style rest ih =>
      obtain ⟨same, filled, statement⟩ := statements style List.mem_cons_self
      have gathers : state.Gathers style := by
        refine ⟨?_, .inl header, flowchart (by simp), ?_⟩
        · rwa [same]
        · rwa [same]
      have onward : ({ state with styles := state.styles ++ [style] } : FormatState).headerSeen :=
        header
      have others := ih onward (fun _ => flowchart (by simp))
        fun other member => statements other (List.mem_cons_of_mem style member)
      rw [List.map_cons, List.foldl_cons, formatLine_indentation, formatLine_of_gathers gathers,
        same, others]
      simp

end Styles

section Formatting

variable {lines : List (List Char)}

theorem FormatState.Reached.statements {state : FormatState} (reached : state.Reached lines) :
    ∀ style ∈ settled state.styles, trim style = style ∧ style ≠ [] ∧ isStyleStatement style := by
  intro style member
  have gathered := mem_settled.mp member
  have held := reached.holds.mem_iff.mp (List.mem_append_right _ gathered)
  obtain ⟨same, statement⟩ := reached.gathered style gathered
  exact ⟨same, (mem_contentsOf.mp held).1, statement⟩

theorem mem_contentsOf_formatLines {line : List Char} :
    line ∈ contentsOf (formatLines lines) ↔ line ∈ contentsOf lines := by
  have reached := reached_foldl lines
  have statements := reached.statements
  have body : ∀ state : FormatState, contentsOf state.body.reverse =
      (contentsOf state.body).reverse := by
    intro state
    rw [contentsOf, List.map_reverse, List.filter_reverse, contentsOf]
  rw [formatLines_eq, contentsOf_append, contentsOf_behindBlank,
    contentsOf_indented 1 fun style member => ⟨(statements style member).1,
      (statements style member).2.1⟩, body, List.mem_append, List.mem_reverse, mem_settled,
    ← List.mem_append, reached.holds.mem_iff]

theorem indented_formatLines {line : List Char} (member : line ∈ formatLines lines) :
    ∃ level, line = indentation level ++ trim line := by
  have reached := reached_foldl lines
  rw [formatLines_eq, List.mem_append, List.mem_reverse] at member
  rcases member with body | tail
  · exact reached.indented line body
  · rcases mem_behindBlank tail with rfl | style
    · exact ⟨0, rfl⟩
    · obtain ⟨statement, gathered, rfl⟩ := List.mem_map.mp style
      have same := (reached.statements statement gathered).1
      exact ⟨1, by rw [trim_indentation, same]⟩

theorem whole_formatLines (whole : ∀ line ∈ lines, '\n' ∉ line) :
    ∀ line ∈ formatLines lines, '\n' ∉ line := by
  intro line member broken
  obtain ⟨level, shape⟩ := indented_formatLines member
  rw [shape, List.mem_append] at broken
  rcases broken with blank | held
  · exact absurd (List.eq_of_mem_replicate blank) (by decide)
  · have content : trim line ∈ contentsOf (formatLines lines) :=
      mem_contentsOf.mpr ⟨List.ne_nil_of_mem held, line, member, rfl⟩
    obtain ⟨_, raw, source, same⟩ := mem_contentsOf.mp (mem_contentsOf_formatLines.mp content)
    rw [← same] at held
    exact whole raw source (mem_of_mem_trim held)

/-- Formatted lines lead to the state they came from, with the style statements settled. -/
theorem foldl_formatLines (lines : List (List Char)) :
    (formatLines lines).foldl formatLine {} =
      { lines.foldl formatLine {} with styles := settled (lines.foldl formatLine {}).styles } := by
  have reached := reached_foldl lines
  rw [formatLines_eq, List.foldl_append, reached.reruns, foldl_behindBlank]
  by_cases none : (lines.foldl formatLine {}).styles = []
  · rw [none]
    rfl
  · have flowchart := reached.flowchart none
    exact foldl_gathers (reached.header flowchart) (fun _ => flowchart) reached.statements

theorem formatLines_formatLines (lines : List (List Char)) :
    formatLines (formatLines lines) = formatLines lines := by
  rw [formatLines_eq (formatLines lines), foldl_formatLines, settled_settled, ← formatLines_eq]

theorem formatLines_unlines (whole : ∀ line ∈ lines, '\n' ∉ line) :
    formatLines (linesOf (unlines lines)) = formatLines lines := by
  have blank : ∀ state : FormatState, formatLine state [] = state :=
    fun _ => formatLine_of_blank rfl
  have same : (linesOf (unlines lines)).foldl formatLine {} = lines.foldl formatLine {} := by
    rw [linesOf_unlines whole, List.foldl_append, List.foldl_cons, List.foldl_nil, blank]
    split
    · rename_i nothing
      rw [nothing]
      rfl
    · rfl
  rw [formatLines_eq, same, ← formatLines_eq]

theorem format_eq (text : String) : format text = unlines (formatLines (linesOf text)) := rfl

/-- Formatting a formatted text changes nothing, whatever the text is. -/
theorem format_format (text : String) : format (format text) = format text := by
  have whole : ∀ line ∈ formatLines (linesOf text), '\n' ∉ line :=
    whole_formatLines fun _ => break_free_linesOf
  rw [format_eq, format_eq, formatLines_unlines whole, formatLines_formatLines]

end Formatting

end CrateAtlas.Mermaid
