import CrateAtlas.Text.Scan
import Mathlib.Data.List.DropRight

/-!
Texts taken apart at a mark and put together again, and texts without the blanks at their ends.
Main statements: splitting and joining undo each other, and trimming a text a second time, or after
blanks are added at its ends, gives what trimming it once gives.
-/

namespace CrateAtlas.Text

theorem splitOn_of_not_mem {mark : Char} {text : List Char} (free : mark ∉ text) :
    splitOn mark text = [text] := by
  induction text with
  | nil => rfl
  | cons character rest ih =>
      have different : character ≠ mark := fun same => free (by simp [same])
      have others : mark ∉ rest := fun member => free (by simp [member])
      rw [splitOn, if_neg different, ih others]

theorem splitOn_append {mark : Char} {tail : List Char} (free : mark ∉ tail) (text : List Char) :
    ∃ front last, splitOn mark text = front ++ [last] ∧
      splitOn mark (text ++ tail) = front ++ [last ++ tail] := by
  induction text with
  | nil => exact ⟨[], [], rfl, splitOn_of_not_mem free⟩
  | cons character rest ih =>
      obtain ⟨front, last, short, long⟩ := ih
      simp only [List.cons_append, splitOn, short, long]
      by_cases same : character = mark
      · exact ⟨[] :: front, last, by simp [same], by simp [same]⟩
      · cases front with
        | nil => exact ⟨[], character :: last, by simp [same], by simp [same]⟩
        | cons piece pieces =>
            exact ⟨(character :: piece) :: pieces, last, by simp [same], by simp [same]⟩

theorem splitOn_ne_nil (mark : Char) (text : List Char) : splitOn mark text ≠ [] := by
  obtain ⟨front, last, short, _⟩ := splitOn_append (List.not_mem_nil (a := mark)) text
  simp [short]

theorem intercalate_splitOn (mark : Char) (text : List Char) :
    [mark].intercalate (splitOn mark text) = text := by
  induction text with
  | nil => rfl
  | cons character rest ih =>
      cases pieces : splitOn mark rest with
      | nil => exact absurd pieces (splitOn_ne_nil mark rest)
      | cons piece others =>
          rw [pieces] at ih
          simp only [splitOn, pieces]
          by_cases same : character = mark
          · rw [if_pos same, List.intercalate_cons_cons, ih, same]
            rfl
          · rw [if_neg same]
            cases others with
            | nil => simpa using ih
            | cons _ _ =>
                rw [List.intercalate_cons_cons] at ih ⊢
                rw [← ih]
                rfl

theorem splitOn_append_mark (mark : Char) (text rest : List Char) :
    splitOn mark (text ++ mark :: rest) = splitOn mark text ++ splitOn mark rest := by
  induction text with
  | nil => simp [splitOn]
  | cons character others ih =>
      simp only [List.cons_append, splitOn, ih]
      by_cases same : character = mark
      · simp [same]
      · cases pieces : splitOn mark others with
        | nil => exact absurd pieces (splitOn_ne_nil mark others)
        | cons piece pieces => simp [same]

theorem not_mem_of_mem_splitOn {mark : Char} {text piece : List Char}
    (member : piece ∈ splitOn mark text) : mark ∉ piece := by
  induction text generalizing piece with
  | nil => simp_all [splitOn]
  | cons character rest ih =>
      simp only [splitOn] at member
      split at member
      · rcases List.mem_cons.mp member with rfl | later
        · exact List.not_mem_nil
        · exact ih later
      · rename_i different
        cases pieces : splitOn mark rest with
        | nil => exact absurd pieces (splitOn_ne_nil mark rest)
        | cons first others =>
            rw [pieces] at member ih
            rcases List.mem_cons.mp member with rfl | later
            · have free := ih List.mem_cons_self
              simp [free, Ne.symm different]
            · exact ih (List.mem_cons_of_mem first later)

theorem exists_splitOn_cons (mark : Char) (text : List Char) :
    ∃ first others, splitOn mark text = first :: others ∧ first <+: text := by
  induction text with
  | nil => exact ⟨[], [], rfl, List.nil_prefix⟩
  | cons character rest ih =>
      obtain ⟨first, others, pieces, lead⟩ := ih
      simp only [splitOn, pieces]
      split
      · exact ⟨[], first :: others, rfl, List.nil_prefix⟩
      · exact ⟨character :: first, others, rfl, (List.prefix_cons_inj character).mpr lead⟩

theorem infix_of_mem_splitOn {mark : Char} {text piece : List Char}
    (member : piece ∈ splitOn mark text) : piece <:+: text := by
  induction text generalizing piece with
  | nil => simp_all [splitOn]
  | cons character rest ih =>
      obtain ⟨first, others, pieces, lead⟩ := exists_splitOn_cons mark rest
      have deeper : ∀ inner ∈ splitOn mark rest, inner <:+: character :: rest := fun inner held =>
        (ih held).trans (List.suffix_cons character rest).isInfix
      simp only [splitOn, pieces] at member deeper
      split at member
      · rcases List.mem_cons.mp member with rfl | later
        · exact List.nil_infix
        · exact deeper piece later
      · rcases List.mem_cons.mp member with rfl | later
        · exact ((List.prefix_cons_inj character).mpr lead).isInfix
        · exact deeper piece (List.mem_cons_of_mem first later)

theorem splitText_injective (mark : Char) : Function.Injective (splitText mark) := by
  intro left right same
  have pieces : splitOn mark left.toList = splitOn mark right.toList :=
    List.map_injective_iff.mpr (fun _ _ => String.ofList_inj.mp) same
  apply String.toList_injective
  rw [← intercalate_splitOn mark left.toList, pieces, intercalate_splitOn]

theorem splitText_append {mark : Char} {separator : String} (single : separator.toList = [mark])
    (left right : String) :
    splitText mark (left ++ separator ++ right) = splitText mark left ++ splitText mark right := by
  have characters : (left ++ separator ++ right).toList = left.toList ++ mark :: right.toList := by
    simp [single]
  rw [splitText, characters, splitOn_append_mark, List.map_append]
  rfl

theorem joinWith_cons {texts : List String} (more : texts ≠ []) (separator text : String) :
    joinWith separator (text :: texts) = text ++ separator ++ joinWith separator texts := by
  cases texts with
  | nil => exact absurd rfl more
  | cons _ _ => rfl

theorem toList_joinWith (separator first : String) (rest : List String) :
    (joinWith separator (first :: rest)).toList =
      first.toList ++ rest.flatMap fun text => separator.toList ++ text.toList := by
  induction rest generalizing first with
  | nil => simp [joinWith]
  | cons second more ih =>
      rw [joinWith_cons (by simp), String.toList_append, String.toList_append, ih,
        List.flatMap_cons, List.append_assoc, List.append_assoc]

theorem splitOn_joinWith {mark : Char} {separator : String} (single : separator.toList = [mark])
    {texts : List String} (filled : texts ≠ []) (whole : ∀ text ∈ texts, mark ∉ text.toList) :
    splitOn mark (joinWith separator texts).toList = texts.map String.toList := by
  induction texts with
  | nil => exact absurd rfl filled
  | cons text rest ih =>
      have first : splitOn mark text.toList = [text.toList] :=
        splitOn_of_not_mem (whole text List.mem_cons_self)
      by_cases more : rest = []
      · subst more
        exact first
      · have others := ih more fun other member => whole other (List.mem_cons_of_mem text member)
        rw [joinWith_cons more, String.toList_append, String.toList_append, single,
          List.append_assoc, List.singleton_append, splitOn_append_mark, first, others]
        rfl

theorem splitText_joinLines {lines : List String} (free : ∀ line ∈ lines, '\n' ∉ line.toList) :
    splitText '\n' (joinLines lines) = lines ++ [""] := by
  induction lines with
  | nil => rfl
  | cons line rest ih =>
      have first : joinLines (line :: rest) = line ++ "\n" ++ joinLines rest := by
        simp [joinLines]
      obtain ⟨here, others⟩ := List.forall_mem_cons.mp free
      rw [first, splitText_append rfl, ih others, splitText, splitOn_of_not_mem here]
      simp

theorem joinWith_append {left right : List String} (leftFilled : left ≠ [])
    (rightFilled : right ≠ []) (separator : String) :
    joinWith separator (left ++ right) =
      joinWith separator left ++ separator ++ joinWith separator right := by
  induction left with
  | nil => exact absurd rfl leftFilled
  | cons text rest ih =>
      by_cases more : rest = []
      · subst more
        exact joinWith_cons rightFilled separator text
      · have filled : rest ++ right ≠ [] := by simp [more]
        rw [List.cons_append, joinWith_cons filled, joinWith_cons more, ih more]
        simp only [String.append_assoc]

theorem not_mem_of_mem_splitText {text piece : String} (member : piece ∈ splitText '/' text) :
    '/' ∉ piece.toList := by
  obtain ⟨characters, present, rfl⟩ := List.mem_map.mp member
  simpa using not_mem_of_mem_splitOn present

theorem splitText_ne_nil (mark : Char) (text : String) : splitText mark text ≠ [] := by
  simp [splitText, splitOn_ne_nil]

section Parts

variable {lead part : String} {mark : Char} {front text rest : List Char}

theorem startsWith_iff : startsWith lead text ↔ lead.toList <+: text :=
  List.isPrefixOf_iff_prefix

theorem afterLead?_eq_some : afterLead? lead text = some rest ↔ text = lead.toList ++ rest := by
  rw [afterLead?]
  constructor
  · intro found
    split at found
    · rename_i starts
      obtain ⟨tail, rfl⟩ := startsWith_iff.mp starts
      rw [List.drop_left] at found
      rw [Option.some.inj found]
    · simp at found
  · rintro rfl
    rw [if_pos (startsWith_iff.mpr (List.prefix_append _ _)), List.drop_left]

theorem cutAt?_of_not_mem (free : mark ∉ text) : cutAt? mark text = none := by
  induction text with
  | nil => rfl
  | cons character others ih =>
      rw [List.mem_cons, not_or] at free
      rw [cutAt?, if_neg (Ne.symm free.1), ih free.2]
      rfl

theorem cutAt?_append (free : mark ∉ front) (rest : List Char) :
    cutAt? mark (front ++ mark :: rest) = some (front, rest) := by
  induction front with
  | nil => simp [cutAt?]
  | cons character others ih =>
      rw [List.mem_cons, not_or] at free
      rw [List.cons_append, cutAt?, if_neg (Ne.symm free.1), ih free.2]
      rfl

theorem hasPart_iff :
    hasPart part text ↔ part.toList <:+: text := by
  induction text with
  | nil => simp [hasPart]
  | cons first rest ih =>
      rw [hasPart, Bool.or_eq_true, startsWith_iff, ih, List.infix_cons_iff]

end Parts

section Trimming

variable {text blanks : List Char}

/-- A text that neither begins nor ends with a blank. -/
structure Trimmed (text : List Char) : Prop where
  head : ∀ character ∈ text.head?, isBlank character = false
  last : ∀ character ∈ text.getLast?, isBlank character = false

theorem trimEnd_eq_rdropWhile (text : List Char) : trimEnd text = text.rdropWhile isBlank := rfl

theorem trimStart_of_head (head : ∀ character ∈ text.head?, isBlank character = false) :
    trimStart text = text := by
  cases text with
  | nil => rfl
  | cons first rest => exact List.dropWhile_cons_of_neg (by simp [head first rfl])

theorem trimEnd_of_last (last : ∀ character ∈ text.getLast?, isBlank character = false) :
    trimEnd text = text := by
  rw [trimEnd, ← trimStart, trimStart_of_head, List.reverse_reverse]
  simpa using last

theorem head_trimStart (text : List Char) :
    ∀ character ∈ (trimStart text).head?, isBlank character = false := by
  intro character first
  have stopped := List.head?_dropWhile_not isBlank text
  rw [trimStart] at first
  rw [Option.mem_def.mp first] at stopped
  exact stopped

theorem trimmed_trim (text : List Char) : Trimmed (trim text) where
  head := by
    intro character first
    obtain ⟨kept, cut⟩ := List.head?_eq_some_iff.mp first
    obtain ⟨rest, whole⟩ := List.rdropWhile_prefix isBlank (l := trimStart text)
    refine head_trimStart text character ?_
    rw [← whole, ← trimEnd_eq_rdropWhile, ← trim, cut]
    rfl
  last := by
    intro character final
    have last : (trim text).getLast? = (trimStart (trimStart text).reverse).head? := by
      rw [trim, trimEnd, List.getLast?_reverse]
      rfl
    rw [last] at final
    exact head_trimStart _ character final

theorem trim_of_trimmed (trimmed : Trimmed text) : trim text = text := by
  rw [trim, trimStart_of_head trimmed.head, trimEnd_of_last trimmed.last]

theorem trimmed_iff : Trimmed text ↔ trim text = text :=
  ⟨trim_of_trimmed, fun same => same ▸ trimmed_trim text⟩

theorem trim_trim (text : List Char) : trim (trim text) = trim text :=
  trim_of_trimmed (trimmed_trim text)

theorem trim_blanks_append (blank : ∀ character ∈ blanks, isBlank character) (text : List Char) :
    trim (blanks ++ text) = trim text := by
  rw [trim, trimStart, List.dropWhile_append_of_pos blank]
  rfl

theorem trimEnd_append_blanks (blank : ∀ character ∈ blanks, isBlank character)
    (text : List Char) : trimEnd (text ++ blanks) = trimEnd text := by
  rw [trimEnd, List.reverse_append, List.dropWhile_append_of_pos]
  · rfl
  · intro character member
    exact blank character (List.mem_reverse.mp member)

theorem trim_append_blanks (blank : ∀ character ∈ blanks, isBlank character) (text : List Char) :
    trim (text ++ blanks) = trim text := by
  rw [trim, trimStart, List.dropWhile_append]
  split
  · rename_i nothing
    rw [List.isEmpty_iff] at nothing
    rw [trim, trimStart, nothing, List.dropWhile_eq_nil_iff.mpr blank]
  · exact trimEnd_append_blanks blank _

theorem trim_trimEnd (text : List Char) : trim (trimEnd text) = trim text := by
  have blank : ∀ character ∈ List.rtakeWhile isBlank text, isBlank character :=
    fun character member => List.mem_rtakeWhile_imp member
  have whole : trimEnd text ++ text.rtakeWhile isBlank = text :=
    List.rdropWhile_append_rtakeWhile
  rw [← trim_append_blanks blank (trimEnd text), whole]

theorem mem_of_mem_trim {character : Char} (member : character ∈ trim text) : character ∈ text := by
  have kept := (List.rdropWhile_prefix isBlank (l := trimStart text)).subset member
  exact (List.dropWhile_suffix isBlank).subset kept

theorem exists_blanks_trim (text : List Char) :
    ∃ lead tail, text = lead ++ (trim text ++ tail) ∧ (∀ character ∈ lead, isBlank character) ∧
      ∀ character ∈ tail, isBlank character := by
  refine ⟨text.takeWhile isBlank, (trimStart text).rtakeWhile isBlank, ?_,
    fun _ => List.mem_takeWhile_imp, fun _ => List.mem_rtakeWhile_imp⟩
  rw [trim, trimEnd_eq_rdropWhile, List.rdropWhile_append_rtakeWhile, trimStart,
    List.takeWhile_append_dropWhile]

theorem trimStart_append (head : ∀ character ∈ text.head?, isBlank character = false)
    (front : List Char) : trimStart (front ++ text) = trimStart front ++ text := by
  rw [trimStart, List.dropWhile_append]
  split
  · rename_i nothing
    rw [trimStart, List.isEmpty_iff.mp nothing, ← trimStart, trimStart_of_head head]
    rfl
  · rfl

theorem trimEnd_append_of_last (last : ∀ character ∈ text.getLast?, isBlank character = false)
    (tail : List Char) : trimEnd (text ++ tail) = text ++ trimEnd tail := by
  rw [trimEnd, List.reverse_append, ← trimStart, trimStart_append (by simpa using last),
    List.reverse_append, List.reverse_reverse]
  rfl

theorem mem_getLast?_of_trimStart {character : Char}
    (final : character ∈ (trimStart text).getLast?) : character ∈ text.getLast? := by
  obtain ⟨lead, whole⟩ := List.dropWhile_suffix (l := text) isBlank
  rw [← whole, List.getLast?_append]
  exact Option.or_eq_some_iff.mpr (.inl final)

theorem mem_head?_of_trimEnd {character : Char}
    (first : character ∈ (trimEnd text).head?) : character ∈ text.head? := by
  obtain ⟨rest, whole⟩ := List.rdropWhile_prefix (l := text) isBlank
  rw [← whole, List.head?_append]
  exact Option.or_eq_some_iff.mpr (.inl first)

theorem trimEnd_ne_nil {first : Char} (head : text.head? = some first)
    (plain : isBlank first = false) : trimEnd text ≠ [] := by
  rw [trimEnd_eq_rdropWhile, ne_eq, List.rdropWhile_eq_nil_iff]
  intro blank
  have marked := blank first (List.mem_of_head? head)
  rw [plain] at marked
  simp at marked

theorem trimEnd_append (filled : trimEnd text ≠ []) (front : List Char) :
    trimEnd (front ++ text) = front ++ trimEnd text := by
  rw [trimEnd, List.reverse_append, List.dropWhile_append, if_neg, List.reverse_append,
    List.reverse_reverse]
  · rfl
  · intro nothing
    apply filled
    rw [trimEnd, List.isEmpty_iff.mp nothing, List.reverse_nil]

end Trimming

end CrateAtlas.Text
