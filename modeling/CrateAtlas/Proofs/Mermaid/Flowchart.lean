import CrateAtlas.Proofs.Mermaid.ClassLines

/-!
What formatting makes of a flowchart. Main statement: behind the header come the lines that are no
style statements, in their order, and then the style statements, sorted and without repetition; so
flowcharts with the same lines and the same set of style statements are formatted alike.
-/

namespace CrateAtlas.Mermaid

open Text OrderedMap

def drawnOf (lines : List (List Char)) : List (List Char) :=
  (contentsOf lines).filter fun line => !isStyleStatement line

def stylesOf (lines : List (List Char)) : List (List Char) :=
  (contentsOf lines).filter fun line => isStyleStatement line

section Contents

variable {lines left right : List (List Char)} {line : List Char}

theorem trimmed_of_mem_contentsOf (member : line ∈ contentsOf lines) :
    trim line = line ∧ line ≠ [] := by
  obtain ⟨filled, raw, _, rfl⟩ := mem_contentsOf.mp member
  exact ⟨trim_trim raw, filled⟩

theorem contentsOf_of_trimmed (trimmed : ∀ line ∈ lines, trim line = line ∧ line ≠ []) :
    contentsOf lines = lines := by
  have same := contentsOf_indented 0 trimmed
  rwa [show (indentation 0 ++ ·) = (id : List Char → List Char) from rfl, List.map_id] at same

theorem contentsOf_filter_contentsOf (keep : List Char → Bool) (lines : List (List Char)) :
    contentsOf ((contentsOf lines).filter keep) = (contentsOf lines).filter keep :=
  contentsOf_of_trimmed fun _ member => trimmed_of_mem_contentsOf (List.mem_of_mem_filter member)

theorem contentsOf_reverse (lines : List (List Char)) :
    contentsOf lines.reverse = (contentsOf lines).reverse := by
  rw [contentsOf, contentsOf, List.map_reverse, List.filter_reverse]

theorem drawnOf_cons (raw : List Char) (lines : List (List Char)) :
    drawnOf (raw :: lines) =
      if trim raw = [] ∨ isStyleStatement (trim raw) then drawnOf lines
      else trim raw :: drawnOf lines := by
  rw [drawnOf, contentsOf_cons]
  by_cases blank : trim raw = []
  · rw [if_pos blank, if_pos (.inl blank), drawnOf]
  · by_cases style : isStyleStatement (trim raw) = true
    · rw [if_neg blank, if_pos (.inr style), List.filter_cons_of_neg (by simp [style]), drawnOf]
    · rw [if_neg blank, if_neg (by simp [blank, style]),
        List.filter_cons_of_pos (by simp [style]), drawnOf]

theorem stylesOf_cons (raw : List Char) (lines : List (List Char)) :
    stylesOf (raw :: lines) =
      if isStyleStatement (trim raw) then trim raw :: stylesOf lines else stylesOf lines := by
  rw [stylesOf, contentsOf_cons]
  by_cases blank : trim raw = []
  · have plain : isStyleStatement [] = false := by decide
    rw [if_pos blank, blank, plain, if_neg (by decide), stylesOf]
  · by_cases style : isStyleStatement (trim raw) = true
    · rw [if_neg blank, if_pos style, List.filter_cons_of_pos style, stylesOf]
    · rw [if_neg blank, if_neg style, List.filter_cons_of_neg style, stylesOf]

theorem drawnOf_append (left right : List (List Char)) :
    drawnOf (left ++ right) = drawnOf left ++ drawnOf right := by
  rw [drawnOf, contentsOf_append, List.filter_append, drawnOf, drawnOf]

theorem stylesOf_append (left right : List (List Char)) :
    stylesOf (left ++ right) = stylesOf left ++ stylesOf right := by
  rw [stylesOf, contentsOf_append, List.filter_append, stylesOf, stylesOf]

theorem mem_drawnOf :
    line ∈ drawnOf lines ↔ line ∈ contentsOf lines ∧ isStyleStatement line = false := by
  simp [drawnOf]

theorem mem_stylesOf : line ∈ stylesOf lines ↔ line ∈ contentsOf lines ∧ isStyleStatement line := by
  simp [stylesOf]

theorem Prints.drawnOf {definitions : List (String × String)} {assignments : List ClassAssignment}
    (prints : Prints lines definitions assignments) : drawnOf lines = [] := by
  rw [Mermaid.drawnOf, List.filter_eq_nil_iff]
  intro line member
  obtain ⟨_, raw, source, rfl⟩ := mem_contentsOf.mp member
  simp [prints.style source]

end Contents

section Settling

theorem eq_of_styleOrder {left right : List Char} (tie : styleOrder left right = .eq) :
    left = right := by
  have units : compareUnits left right = .eq := (Ordering.then_eq_eq.mp tie).2
  have texts : compareText (String.ofList left) (String.ofList right) = .eq := by
    simpa [compareText] using units
  exact String.ofList_injective (Std.LawfulEqCmp.eq_of_compare texts)

theorem settled_congr {left right : List (List Char)} (same : ∀ style, style ∈ left ↔ style ∈ right) :
    settled left = settled right := by
  have perm : (distinct left).Perm (distinct right) := by
    rw [List.perm_ext_iff_of_nodup (nodup_distinct left) (nodup_distinct right)]
    intro style
    rw [mem_distinct, mem_distinct, same]
  exact sortBy_eq_of_perm styleOrder perm fun _ _ _ _ => eq_of_styleOrder

end Settling

section Running

variable {state : FormatState} {lines : List (List Char)} {raw : List Char}

theorem not_gathers_of_plain (plain : isStyleStatement (trim raw) = false) :
    ¬state.Gathers raw := by
  rintro ⟨_, _, _, style⟩
  rw [plain] at style
  simp at style

theorem foldl_plain (plain : ∀ raw ∈ lines, isStyleStatement (trim raw) = false)
    (styles : List (List Char)) :
    lines.foldl formatLine { state with styles := styles } =
      { lines.foldl formatLine state with styles := styles } := by
  induction lines generalizing state with
  | nil => rfl
  | cons raw rest ih =>
      have stays : ¬state.Gathers raw := not_gathers_of_plain (plain raw List.mem_cons_self)
      rw [List.foldl_cons, List.foldl_cons, formatLine_of_stays stays,
        ih fun other member => plain other (List.mem_cons_of_mem raw member)]

theorem plain_drawnOf {line : List Char} (member : line ∈ drawnOf lines) :
    isStyleStatement (trim line) = false := by
  obtain ⟨content, plain⟩ := mem_drawnOf.mp member
  rwa [(trimmed_of_mem_contentsOf content).1]

structure FormatState.Opened (state : FormatState) : Prop where
  header : state.headerSeen
  flowchart : state.flowchart

theorem FormatState.Opened.step (opened : state.Opened) (raw : List Char) :
    (formatLine state raw).Opened := by
  obtain ⟨header, flowchart⟩ := opened
  by_cases blank : trim raw = []
  · rw [formatLine_of_blank blank]
    exact ⟨header, flowchart⟩
  · by_cases gathers : state.Gathers raw
    · rw [formatLine_of_gathers gathers]
      exact ⟨header, flowchart⟩
    · rcases step_of_stays gathers blank with ⟨unseen, _⟩ | ⟨level, openBlocks, next⟩
      · rw [header] at unseen
        simp at unseen
      · rw [next]
        exact ⟨header, flowchart⟩

theorem FormatState.Opened.foldl (opened : state.Opened) (lines : List (List Char)) :
    lines.foldl formatLine state =
      { (drawnOf lines).foldl formatLine state with styles := state.styles ++ stylesOf lines } := by
  induction lines generalizing state with
  | nil => simp [drawnOf, stylesOf, contentsOf]
  | cons raw rest ih =>
      rw [List.foldl_cons, ih (opened.step raw), drawnOf_cons, stylesOf_cons]
      by_cases blank : trim raw = []
      · have plain : isStyleStatement [] = false := by decide
        rw [formatLine_of_blank blank, if_pos (.inl blank), blank, plain, if_neg (by decide)]
      · cases style : isStyleStatement (trim raw) with
        | true =>
            have gathers : state.Gathers raw :=
              ⟨blank, .inl opened.header, opened.flowchart, style⟩
            rw [formatLine_of_gathers gathers, foldl_plain fun _ => plain_drawnOf,
              if_pos (.inr rfl), if_pos rfl]
            simp
        | false =>
            have stays : ¬state.Gathers raw := not_gathers_of_plain style
            have kept : (formatLine state raw).styles = state.styles := by
              rw [show formatLine state raw = { formatLine state raw with styles := state.styles } from
                formatLine_of_stays stays state.styles]
            rw [kept, if_neg (by simp [blank]), if_neg (by decide), List.foldl_cons,
              formatLine_trim]

theorem contentsOf_body (opened : state.Opened)
    (plain : ∀ raw ∈ lines, isStyleStatement (trim raw) = false) :
    contentsOf (lines.foldl formatLine state).body.reverse =
      contentsOf state.body.reverse ++ contentsOf lines := by
  induction lines generalizing state with
  | nil => simp [contentsOf]
  | cons raw rest ih =>
      have others := ih (opened.step raw) fun other member =>
        plain other (List.mem_cons_of_mem raw member)
      rw [List.foldl_cons, others, contentsOf_cons]
      by_cases blank : trim raw = []
      · rw [formatLine_of_blank blank, if_pos blank]
      · have stays : ¬state.Gathers raw := not_gathers_of_plain (plain raw List.mem_cons_self)
        rcases step_of_stays stays blank with ⟨unseen, _⟩ | ⟨level, openBlocks, next⟩
        · rw [opened.header] at unseen
          simp at unseen
        · rw [next, if_neg blank, contentsOf_reverse, contentsOf_cons, trim_indentation, trim_trim,
            if_neg blank, List.reverse_cons, contentsOf_reverse, List.append_assoc]
          rfl

end Running

section Flowcharts

variable {header : List Char} {left right lines : List (List Char)}

def openedBy (header : List Char) : FormatState :=
  { body := [trim header], headerSeen := true, flowchart := true }

theorem formatLine_header (flowchart : isFlowchart (trim header)) :
    formatLine {} header = openedBy header := by
  have filled := ne_nil_of_flowchart flowchart
  have first := isHeader_of_isFlowchart flowchart
  simp [formatLine, filled, first, flowchart, openedBy]

theorem foldl_flowchart (flowchart : isFlowchart (trim header)) (lines : List (List Char)) :
    (header :: lines).foldl formatLine {} =
      { (drawnOf lines).foldl formatLine (openedBy header) with styles := stylesOf lines } := by
  have opened : (openedBy header).Opened := ⟨rfl, rfl⟩
  rw [List.foldl_cons, formatLine_header flowchart, opened.foldl]
  rfl

theorem formatLines_congr (flowchart : isFlowchart (trim header))
    (drawn : drawnOf left = drawnOf right)
    (styles : ∀ style, style ∈ stylesOf left ↔ style ∈ stylesOf right) :
    formatLines (header :: left) = formatLines (header :: right) := by
  rw [formatLines_eq, formatLines_eq, foldl_flowchart flowchart, foldl_flowchart flowchart, drawn,
    settled_congr styles]

/-- A formatted flowchart holds its header, its drawn lines and its style statements, in this
order. -/
theorem contentsOf_flowchart (flowchart : isFlowchart (trim header)) (lines : List (List Char)) :
    contentsOf (formatLines (header :: lines)) =
      trim header :: (drawnOf lines ++ settled (stylesOf lines)) := by
  have trimmed : ∀ style ∈ settled (stylesOf lines), trim style = style ∧ style ≠ [] :=
    fun style member => trimmed_of_mem_contentsOf (mem_stylesOf.mp (mem_settled.mp member)).1
  have opened : (openedBy header).Opened := ⟨rfl, rfl⟩
  have filled := ne_nil_of_flowchart flowchart
  have first : contentsOf (openedBy header).body.reverse = [trim header] := by
    simp [openedBy, contentsOf, trim_trim, filled]
  rw [formatLines_eq, foldl_flowchart flowchart, contentsOf_append, contentsOf_behindBlank,
    contentsOf_indented 1 trimmed, contentsOf_body opened fun _ => plain_drawnOf, first, drawnOf,
    contentsOf_filter_contentsOf]
  rfl

end Flowcharts

end CrateAtlas.Mermaid
