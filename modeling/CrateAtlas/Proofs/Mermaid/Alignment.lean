import CrateAtlas.Proofs.Mermaid.Layout

/-!
The blocks of a formatted diagram are aligned. Main statement: behind the header the end of a block
stands below its beginning, all lines between them stand deeper, and lines outside of all blocks have
one level of indentation.
-/

namespace CrateAtlas.Mermaid

open Text

def leading (line : List Char) : Nat :=
  (line.takeWhile (· = ' ')).length

/-- Lines in which every block that begins ends again, and nothing else ends. -/
inductive Matched : List (List Char) → Prop
  | nil : Matched []
  | line {raw : List Char} {rest : List (List Char)} (plain : beginsBlock raw = false)
      (open_ : endsBlock raw = false) (behind : Matched rest) : Matched (raw :: rest)
  | block {opening closing : List Char} {inner rest : List (List Char)}
      (begins : beginsBlock opening) (inside : Matched inner) (ends : endsBlock closing)
      (behind : Matched rest) : Matched (opening :: (inner ++ closing :: rest))

/-- Lines behind which no block is open. An end that closes nothing is a line like any other. -/
inductive NoneOpen : List (List Char) → Prop
  | nil : NoneOpen []
  | line {raw : List Char} {rest : List (List Char)} (plain : beginsBlock raw = false)
      (behind : NoneOpen rest) : NoneOpen (raw :: rest)
  | block {opening closing : List Char} {inner rest : List (List Char)}
      (begins : beginsBlock opening) (inside : Matched inner) (ends : endsBlock closing)
      (behind : NoneOpen rest) : NoneOpen (opening :: (inner ++ closing :: rest))

section Depth

variable {raw : List Char} {lines inner : List (List Char)} {outer : Nat}

theorem not_begins_of_ends (ends : endsBlock raw) : beginsBlock raw = false := by
  rw [endsBlock, Bool.and_eq_true, closesBlock, Bool.or_eq_true, isEnd, decide_eq_true_eq,
    decide_eq_true_eq] at ends
  obtain ⟨_, word | brace⟩ := ends
  · rw [beginsBlock, word]
    rfl
  · rw [beginsBlock, brace]
    rfl

theorem openBehind_of_begins (begins : beginsBlock raw) (outer : Nat) :
    levelOf outer raw = outer ∧ openBehind outer raw = outer + 1 := by
  have open_ : endsBlock raw = false := by
    by_contra ends
    rw [not_begins_of_ends (by simpa using ends)] at begins
    simp at begins
  simp [openBehind, levelOf, begins, open_]

theorem openBehind_of_ends (ends : endsBlock raw) (outer : Nat) :
    levelOf outer raw = outer - 1 ∧ openBehind outer raw = outer - 1 := by
  simp [openBehind, levelOf, not_begins_of_ends ends, ends]

theorem openBehind_of_plain (plain : beginsBlock raw = false) (open_ : endsBlock raw = false)
    (outer : Nat) : levelOf outer raw = outer ∧ openBehind outer raw = outer := by
  simp [openBehind, levelOf, plain, open_]

theorem Matched.foldl_openBehind (matched : Matched inner) (outer : Nat) :
    inner.foldl openBehind outer = outer := by
  induction matched generalizing outer with
  | nil => rfl
  | line plain open_ _ ih => rw [List.foldl_cons, (openBehind_of_plain plain open_ outer).2, ih]
  | block begins _ ends _ within behind =>
      rw [List.foldl_cons, (openBehind_of_begins begins outer).2, List.foldl_append, within,
        List.foldl_cons, (openBehind_of_ends ends _).2, Nat.add_sub_cancel, behind]

theorem NoneOpen.foldl_openBehind (closed : NoneOpen lines) : lines.foldl openBehind 0 = 0 := by
  induction closed with
  | nil => rfl
  | @line raw _ plain _ ih =>
      have none : openBehind 0 raw = 0 := by
        rw [openBehind, plain, if_neg Bool.false_ne_true, levelOf, Nat.zero_sub, ite_self]
      rw [List.foldl_cons, none, ih]
  | block begins inside ends _ behind =>
      rw [List.foldl_cons, (openBehind_of_begins begins 0).2, List.foldl_append, inside.foldl_openBehind,
        List.foldl_cons, (openBehind_of_ends ends _).2, behind]

theorem exists_matched (closes : lines.foldl openBehind (outer + 1) ≤ outer) :
    ∃ inner closing rest, lines = inner ++ closing :: rest ∧ Matched inner ∧ endsBlock closing := by
  induction length : lines.length using Nat.strong_induction_on generalizing lines outer with
  | _ size ih =>
    subst length
    cases lines with
    | nil => exact absurd closes (Nat.not_succ_le_self outer)
    | cons raw others =>
        rw [List.foldl_cons] at closes
        cases begins : beginsBlock raw with
        | true =>
            rw [(openBehind_of_begins begins _).2] at closes
            -- The end of this block comes first, then the one that was asked for.
            obtain ⟨within, first, behind, rfl, inside, ends⟩ :=
              ih others.length (by simp) (closes.trans (Nat.le_succ outer)) rfl
            rw [List.foldl_append, inside.foldl_openBehind, List.foldl_cons,
              (openBehind_of_ends ends _).2, Nat.add_sub_cancel] at closes
            obtain ⟨inner, closing, rest, rfl, matched, last⟩ :=
              ih behind.length (by simp; omega) closes rfl
            exact ⟨raw :: (within ++ first :: inner), closing, rest, by simp,
              .block begins inside ends matched, last⟩
        | false =>
            cases ends : endsBlock raw with
            | true => exact ⟨[], raw, others, rfl, .nil, ends⟩
            | false =>
                rw [(openBehind_of_plain begins ends _).2] at closes
                obtain ⟨inner, closing, rest, rfl, matched, last⟩ :=
                  ih others.length (by simp) closes rfl
                exact ⟨raw :: inner, closing, rest, rfl, .line begins ends matched, last⟩

theorem noneOpen_iff : NoneOpen lines ↔ lines.foldl openBehind 0 = 0 := by
  refine ⟨NoneOpen.foldl_openBehind, ?_⟩
  intro none
  induction length : lines.length using Nat.strong_induction_on generalizing lines with
  | _ size ih =>
    subst length
    cases lines with
    | nil => exact .nil
    | cons raw others =>
        rw [List.foldl_cons] at none
        cases begins : beginsBlock raw with
        | true =>
            rw [(openBehind_of_begins begins 0).2] at none
            obtain ⟨inner, closing, rest, rfl, inside, ends⟩ := exists_matched none.le
            rw [List.foldl_append, inside.foldl_openBehind, List.foldl_cons,
              (openBehind_of_ends ends _).2] at none
            exact .block begins inside ends (ih rest.length (by simp; omega) none rfl)
        | false =>
            have still : openBehind 0 raw = 0 := by
              rw [openBehind, begins, if_neg Bool.false_ne_true, levelOf, Nat.zero_sub, ite_self]
            rw [still] at none
            exact .line begins (ih others.length (by simp) none rfl)

theorem openBehind_congr {other : List Char} (same : trim raw = trim other) (outer : Nat) :
    levelOf outer raw = levelOf outer other ∧ openBehind outer raw = openBehind outer other := by
  have begins : beginsBlock raw = beginsBlock other := by rw [beginsBlock, same, beginsBlock]
  have ends : endsBlock raw = endsBlock other := by rw [endsBlock, same, endsBlock]
  simp only [openBehind, levelOf, begins, ends, and_self]

theorem foldl_openBehind_congr {others : List (List Char)} (same : lines.map trim = others.map trim)
    (outer : Nat) : lines.foldl openBehind outer = others.foldl openBehind outer := by
  have along (lines : List (List Char)) (outer : Nat) :
      (lines.map trim).foldl openBehind outer = lines.foldl openBehind outer := by
    rw [List.foldl_map]
    congr 1
    funext outer raw
    exact (openBehind_congr (trim_trim raw) outer).2
  rw [← along lines, same, along]

end Depth

section Laid

variable {base outer : Nat} {left right inner lines : List (List Char)} {raw : List Char}

/-- Every line has four spaces for each block around it, and for each of `base` levels more. -/
def Laid (base : Nat) : Nat → List (List Char) → Prop
  | _, [] => True
  | outer, line :: rest =>
      leading line = 4 * (base + levelOf outer line) ∧ Laid base (openBehind outer line) rest

theorem leading_indentation (level : Nat) (filled : trim raw ≠ []) :
    leading (indentation level ++ trim raw) = 4 * level := by
  have stops : (trim raw).takeWhile (· = ' ') = [] := by
    cases shape : trim raw with
    | nil => exact absurd shape filled
    | cons first rest =>
        have visible : isBlank first = false := (trimmed_trim raw).head first (by simp [shape])
        refine List.takeWhile_cons_of_neg ?_
        rw [decide_eq_true_eq]
        rintro rfl
        exact absurd visible (by decide)
  rw [leading, indentation, List.takeWhile_append_of_pos (by simp), stops, List.append_nil,
    List.length_replicate]

theorem laid_laidOut (filled : ∀ line ∈ lines, trim line ≠ []) :
    Laid base outer (laidOut base outer lines) := by
  induction lines generalizing outer with
  | nil => trivial
  | cons raw rest ih =>
      obtain ⟨here, others⟩ := List.forall_mem_cons.mp filled
      have same : trim (indentation (base + levelOf outer raw) ++ trim raw) = trim raw := by
        rw [trim_indentation, trim_trim]
      obtain ⟨level, behind⟩ := openBehind_congr same outer
      rw [laidOut, Laid, level, behind]
      exact ⟨leading_indentation _ here, ih others⟩

theorem laid_append :
    Laid base outer (left ++ right) ↔
      Laid base outer left ∧ Laid base (left.foldl openBehind outer) right := by
  induction left generalizing outer with
  | nil => simp [Laid]
  | cons line rest ih => rw [List.cons_append, Laid, Laid, ih, List.foldl_cons, and_assoc]

theorem Matched.le_leading (matched : Matched inner) (laid : Laid base outer inner) :
    ∀ line ∈ inner, 4 * (base + outer) ≤ leading line := by
  induction matched generalizing outer with
  | nil => simp
  | @line raw rest plain open_ _ ih =>
      obtain ⟨level, behind⟩ := openBehind_of_plain plain open_ outer
      rw [Laid, level, behind] at laid
      exact List.forall_mem_cons.mpr ⟨laid.1.ge, ih laid.2⟩
  | @block opening closing inner rest begins inside ends _ within later =>
      obtain ⟨openingLevel, deeper⟩ := openBehind_of_begins begins outer
      obtain ⟨closingLevel, back⟩ := openBehind_of_ends ends (outer + 1)
      rw [Laid, openingLevel, deeper, laid_append, inside.foldl_openBehind, Laid, closingLevel, back,
        Nat.add_sub_cancel] at laid
      obtain ⟨first, deep, last, behind⟩ := laid
      refine List.forall_mem_cons.mpr ⟨first.ge, List.forall_mem_append.mpr ⟨?_,
        List.forall_mem_cons.mpr ⟨last.ge, later behind⟩⟩⟩
      intro line member
      have bound := within deep line member
      omega

theorem Matched.aligned {opening closing : List Char} {after : List (List Char)}
    (begins : beginsBlock opening) (inside : Matched inner) (ends : endsBlock closing)
    (laid : Laid base outer (opening :: (inner ++ closing :: after))) :
    leading opening = 4 * (base + outer) ∧ leading closing = 4 * (base + outer) ∧
      ∀ line ∈ inner, 4 * (base + outer) + 4 ≤ leading line := by
  obtain ⟨openingLevel, deeper⟩ := openBehind_of_begins begins outer
  obtain ⟨closingLevel, _⟩ := openBehind_of_ends ends (outer + 1)
  rw [Laid, openingLevel, deeper, laid_append, inside.foldl_openBehind, Laid, closingLevel,
    Nat.add_sub_cancel] at laid
  obtain ⟨first, deep, last, _⟩ := laid
  refine ⟨first, last, ?_⟩
  intro line member
  have bound := inside.le_leading deep line member
  omega

/-- The level of a line is zero exactly outside of all open blocks, where an end stands outside of the
block that it closes. -/
theorem level_eq_zero_iff {line : List Char} {before : List (List Char)} :
    levelOf (before.foldl openBehind 0) line = 0 ↔
      NoneOpen before ∨ NoneOpen (before ++ [line]) := by
  rw [noneOpen_iff, noneOpen_iff, List.foldl_append, List.foldl_cons, List.foldl_nil]
  cases ends : endsBlock line with
  | true =>
      obtain ⟨level, behind⟩ := openBehind_of_ends ends (before.foldl openBehind 0)
      rw [level, behind]
      omega
  | false =>
      rw [levelOf, ends, if_neg Bool.false_ne_true, openBehind, levelOf, ends,
        if_neg Bool.false_ne_true]
      split <;> omega

end Laid

section Sections

variable {front others behind later : List (List Char)} {header first : List Char}

theorem sections_unique (same : front ++ header :: behind = others ++ first :: later)
    (early : ∀ line ∈ front, isHeader (trim line) = false) (begins : isHeader (trim header))
    (othersEarly : ∀ line ∈ others, isHeader (trim line) = false) (starts : isHeader (trim first)) :
    front = others ∧ behind = later := by
  induction front generalizing others with
  | nil =>
      cases others with
      | nil => exact ⟨rfl, (List.cons.inj same).2⟩
      | cons line rest =>
          obtain ⟨rfl, _⟩ := List.cons.inj same
          rw [othersEarly header List.mem_cons_self] at begins
          simp at begins
  | cons line rest ih =>
      cases others with
      | nil =>
          obtain ⟨rfl, _⟩ := List.cons.inj same
          rw [early line List.mem_cons_self] at starts
          simp at starts
      | cons other more =>
          obtain ⟨rfl, tails⟩ := List.cons.inj same
          obtain ⟨rfl, rfl⟩ := ih tails (fun line member => early line (by simp [member]))
            fun line member => othersEarly line (by simp [member])
          exact ⟨rfl, rfl⟩

theorem exists_body (lines : List (List Char)) :
    ∃ body tail, formatLines lines = body ++ tail ∧
      body.map trim = stayingLines (contentsOf lines) ∧
      ∀ front header behind, body = front ++ header :: behind →
        (∀ line ∈ front, isHeader (trim line) = false) → isHeader (trim header) →
        Laid 1 (front.foldl openBehind 0) behind := by
  have trimmed : ∀ line ∈ contentsOf lines, trim line = line ∧ line ≠ [] :=
    fun _ => trimmed_of_mem_contentsOf
  have untouched : ∀ kept : List (List Char), (∀ line ∈ kept, line ∈ contentsOf lines) →
      kept.map trim = kept := fun kept held =>
    (List.map_congr_left fun line member => (trimmed line (held line member)).1).trans
      (List.map_id kept)
  rw [← formatLines_contentsOf]
  rcases exists_sections (contentsOf lines) with none | ⟨front, header, behind, whole, early, first⟩
  · refine ⟨laidOut 0 0 (contentsOf lines), [], ?_, ?_, ?_⟩
    · rw [formatLines_headless trimmed none, List.append_nil]
    · rw [map_trim_laidOut, untouched _ fun _ held => held, (stayingLines_headless none).1]
    · intro front header behind sections _ begins
      have held : trim header ∈ (laidOut 0 0 (contentsOf lines)).map trim :=
        List.mem_map_of_mem (by simp [sections])
      rw [map_trim_laidOut, untouched _ fun _ held => held] at held
      rw [none _ held] at begins
      simp at begins
  · rw [whole] at trimmed untouched ⊢
    let kept := behind.filter fun line => !(isFlowchart header && isStyleStatement line)
    have frontSame : front.map trim = front := untouched front fun line member => by simp [member]
    have keptSame : kept.map trim = kept :=
      untouched kept fun line member => by simp [List.mem_of_mem_filter member]
    obtain ⟨headerSame, _⟩ := trimmed header (by simp)
    refine ⟨laidOut 0 0 front ++ header :: laidOut 1 (front.foldl openBehind 0) kept, _,
      formatLines_headed trimmed early first, ?_, ?_⟩
    · rw [List.map_append, List.map_cons, map_trim_laidOut, map_trim_laidOut, frontSame, keptSame,
        headerSame, (stayingLines_headed early first).1]
    · intro others found later sections othersEarly begins
      have laidEarly : ∀ line ∈ laidOut 0 0 front, isHeader (trim line) = false := by
        intro line member
        have held := List.mem_map_of_mem (f := trim) member
        rw [map_trim_laidOut, frontSame] at held
        exact early _ held
      obtain ⟨rfl, rfl⟩ := sections_unique sections laidEarly (by rwa [headerSame]) othersEarly begins
      rw [foldl_openBehind_congr (map_trim_laidOut 0 0 front)]
      refine laid_laidOut fun line member => ?_
      obtain ⟨same, filled⟩ := trimmed line (by simp [List.mem_of_mem_filter member])
      rwa [same]

end Sections

/-- Blocks of a formatted text match like brackets, and behind the header they are aligned: the end of
a block is indented as its beginning, and every line between them by four spaces more at least. The
lines outside of all open blocks, and no others, are indented by four spaces. -/
theorem format_aligns_blocks (text : String) :
    ∃ body tail, linesOf (format text) = body ++ tail ∧
      body.map trim = stayingLines (contentsOf (linesOf text)) ∧
      ∀ front header behind, body = front ++ header :: behind →
        (∀ line ∈ front, isHeader (trim line) = false) → isHeader (trim header) →
        (∀ before opening inner closing after,
          behind = before ++ opening :: (inner ++ closing :: after) →
          beginsBlock opening → Matched inner → endsBlock closing →
          leading closing = leading opening ∧
            ∀ line ∈ inner, leading opening + 4 ≤ leading line) ∧
        ∀ before line after, behind = before ++ line :: after →
          (leading line = 4 ↔ NoneOpen (front ++ before) ∨ NoneOpen (front ++ before ++ [line])) := by
  have whole : ∀ line ∈ formatLines (linesOf text), '\n' ∉ line :=
    whole_formatLines fun _ => break_free_linesOf
  obtain ⟨body, tail, formatted, kept, laid⟩ := exists_body (linesOf text)
  have ends : ∃ rest, linesOf (format text) = body ++ rest := by
    rw [format_eq, linesOf_unlines whole, formatted]
    split
    · rename_i nothing
      exact ⟨[[], []], by rw [(List.append_eq_nil_iff.mp nothing).1]; rfl⟩
    · exact ⟨tail ++ [[]], List.append_assoc _ _ _⟩
  obtain ⟨rest, split⟩ := ends
  refine ⟨body, rest, split, kept, ?_⟩
  intro front header behind sections early first
  have level := laid front header behind sections early first
  constructor
  · rintro before opening inner closing after rfl begins inside ends
    rw [laid_append] at level
    obtain ⟨openingAt, closingAt, deeper⟩ := inside.aligned begins ends level.2
    rw [openingAt, closingAt]
    exact ⟨rfl, deeper⟩
  · rintro before line after rfl
    rw [laid_append, ← List.foldl_append, Laid] at level
    rw [level.2.1, ← level_eq_zero_iff]
    omega

-- An end in front of all blocks closes nothing, and a brace may close a subgraph.
def yard : String := "graph LR\nend\nsubgraph A\nx\n\x7d\ny"

def yardBody : List (List Char) :=
  ["graph LR", "    end", "    subgraph A", "        x", "    \x7d", "    y"].map String.toList

theorem format_aligns_blocks_of_yard :
    linesOf (format yard) = yardBody ++ [[]] ∧
      leading "    \x7d".toList = leading "    subgraph A".toList ∧
      leading "    subgraph A".toList + 4 ≤ leading "        x".toList ∧
      leading "    y".toList = 4 := by
  have lines : linesOf (format yard) = yardBody ++ [[]] := by decide +kernel
  have keeps : (stayingLines (contentsOf (linesOf yard))).length = yardBody.length := by decide +kernel
  obtain ⟨body, tail, formatted, kept, aligned⟩ := format_aligns_blocks yard
  have same : body = yardBody := by
    refine (List.append_inj (formatted.symm.trans lines) ?_).1
    rw [← keeps, ← kept, List.length_map]
  obtain ⟨pairs, outside⟩ := aligned [] _ _ same (by simp) (by decide +kernel)
  have inner : Matched ["        x".toList] := .line (by decide +kernel) (by decide +kernel) .nil
  have block := pairs ["    end".toList] "    subgraph A".toList ["        x".toList]
    "    \x7d".toList ["    y".toList] rfl (by decide +kernel) inner (by decide +kernel)
  have closed : NoneOpen (["    end".toList] ++
      "    subgraph A".toList :: (["        x".toList] ++ "    \x7d".toList :: [])) :=
    .line (by decide +kernel) (.block (by decide +kernel) inner (by decide +kernel) .nil)
  exact ⟨lines, block.1, block.2 _ List.mem_cons_self,
    (outside _ "    y".toList [] rfl).mpr (.inl closed)⟩

end CrateAtlas.Mermaid
