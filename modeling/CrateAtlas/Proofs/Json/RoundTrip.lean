import CrateAtlas.Json
import CrateAtlas.Proofs.Maps

/-!
Reading back printed documents. Main statement: a document without numbers whose records name
every member once is what the reader makes of its pretty text.
-/

namespace CrateAtlas.Json

section Spaces

def Blank (text : List Char) : Prop :=
  ∀ character ∈ text, isSpace character

theorem skipSpace_append {lead : List Char} (blank : Blank lead) (text : List Char) :
    skipSpace (lead ++ text) = skipSpace text := by
  induction lead with
  | nil => rfl
  | cons first rest ih =>
      have spaced := blank first (by simp)
      have others : Blank rest := fun character member => blank character (by simp [member])
      rw [List.cons_append, skipSpace, List.dropWhile_cons_of_pos spaced]
      exact ih others

theorem skipSpace_of_blank {text : List Char} (blank : Blank text) : skipSpace text = [] := by
  have skipped := skipSpace_append blank []
  rwa [List.append_nil] at skipped

theorem skipSpace_cons {first : Char} (solid : isSpace first = false) (rest : List Char) :
    skipSpace (first :: rest) = first :: rest := by
  rw [skipSpace, List.dropWhile_cons_of_neg (by simp [solid])]

def newLine (indent : String) : List Char :=
  '\n' :: indent.toList

theorem blank_newLine {indent : String} (blank : Blank indent.toList) :
    Blank (newLine indent) := by
  intro character member
  rcases List.mem_cons.mp member with rfl | inside
  · rfl
  · exact blank character inside

theorem length_newLine (indent : String) :
    (newLine indent).length = indent.toList.length + 1 := rfl

theorem blank_deeper {indent : String} (blank : Blank indent.toList) :
    Blank (indent ++ "  ").toList := by
  intro character member
  rw [String.toList_append] at member
  rcases List.mem_append.mp member with inside | added
  · exact blank character inside
  · have space : character = ' ' := by simpa using added
    rw [space]
    rfl

end Spaces

section Texts

theorem hexNumber?_control (code : Nat) (control : code < 0x20) :
    hexNumber? ['0', '0', hexDigit (code / 16), hexDigit (code % 16)] = some code := by
  revert code
  decide

theorem readText_escapeChar (read : List Char) (character : Char) (rest : List Char) :
    readText none read (escapeChar character ++ rest) =
      readText none (character :: read) rest := by
  unfold escapeChar
  split
  · rfl
  · rfl
  · rfl
  · rfl
  · rfl
  · rename_i notQuote notSlash _ _ _
    dsimp only
    split
    · rename_i code
      have backspace : character = Char.ofNat 8 := by rw [← code, Char.ofNat_toNat]
      rw [backspace]
      rfl
    · split
      · rename_i code
        have formFeed : character = Char.ofNat 12 := by rw [← code, Char.ofNat_toNat]
        rw [formFeed]
        rfl
      · split
        · rename_i control
          have high : isHighSurrogate character.toNat = false := by
            simp only [isHighSurrogate, Bool.and_eq_false_iff, decide_eq_false_iff_not]
            omega
          have same : characterOf character.toNat = character := by
            have basic : ¬(0xD800 ≤ character.toNat ∧ character.toNat < 0xE000) := by omega
            simp [characterOf, basic, Char.ofNat_toNat]
          simp only [List.cons_append, List.nil_append]
          rw [readText]
          simp only [hexNumber?_control _ control, high, same]
          rfl
        · rename_i visible
          have notEscape : character ≠ '\\' := notSlash
          rw [List.singleton_append, readText]
          · simp [visible, notEscape, settle]
          · exact notQuote
          · exact fun _ _ _ _ _ same _ => notSlash same
          · exact fun _ _ same _ => notSlash same

theorem readText_escaped (read text rest : List Char) :
    readText none read (text.flatMap escapeChar ++ '"' :: rest) =
      some (String.ofList (read.reverse ++ text), rest) := by
  induction text generalizing read with
  | nil => simp [readText, settle]
  | cons first others ih =>
      rw [List.flatMap_cons, List.append_assoc, readText_escapeChar, ih]
      simp

theorem readText_quote (text : String) (rest : List Char) :
    ∃ inside, (quote text).toList ++ rest = '"' :: inside ∧
      readText none [] inside = some (text, rest) := by
  refine ⟨text.toList.flatMap escapeChar ++ '"' :: rest, ?_, ?_⟩
  · simp [quote]
  · rw [readText_escaped]
    simp

end Texts

mutual

/-- A document without numbers in which no record names a member twice. -/
def Textual : Json → Prop
  | .null => True
  | .bool _ => True
  | .number _ => False
  | .string _ => True
  | .list items => TextualItems items
  | .record members => (OrderedMap.keys members).Nodup ∧ TextualMembers members

def TextualItems : List Json → Prop
  | [] => True
  | item :: items => Textual item ∧ TextualItems items

def TextualMembers : List (String × Json) → Prop
  | [] => True
  | (_, value) :: members => Textual value ∧ TextualMembers members

end

section Values

theorem readValue_skipSpace {lead : List Char} (blank : Blank lead) (fuel : Nat)
    (text : List Char) : readValue fuel (lead ++ text) = readValue fuel text := by
  cases fuel with
  | zero => rfl
  | succ fuel => rw [readValue, readValue, skipSpace_append blank]

theorem readValue_space (fuel : Nat) (text : List Char) :
    readValue fuel (' ' :: text) = readValue fuel text := by
  have blank : Blank [' '] := by simp [Blank, isSpace]
  exact readValue_skipSpace blank fuel text

theorem fresh_of_distinct {name : String} {value : Json} {before after : List (String × Json)}
    (distinct : (OrderedMap.keys (before ++ (name, value) :: after)).Nodup) :
    name ∉ OrderedMap.keys before := by
  rw [OrderedMap.keys_append, OrderedMap.keys_cons, List.nodup_append] at distinct
  intro member
  exact distinct.2.2 name member name (by simp) rfl

theorem head?_pretty {document : Json} (textual : Textual document) (indent : String) :
    ∃ first, (pretty indent document).toList.head? = some first ∧
      isSpace first = false ∧ first ≠ ']' := by
  cases document with
  | null => exact ⟨'n', by simp [pretty], rfl, by decide⟩
  | bool value =>
      cases value with
      | false => exact ⟨'f', by simp [pretty], rfl, by decide⟩
      | true => exact ⟨'t', by simp [pretty], rfl, by decide⟩
  | number value => exact textual.elim
  | string value => exact ⟨'"', by simp [pretty, quote], rfl, by decide⟩
  | list items => cases items <;> exact ⟨'[', by simp [pretty], rfl, by decide⟩
  | record members => cases members <;> exact ⟨'\x7b', by simp [pretty], rfl, by decide⟩

theorem skipSpace_pretty {document : Json} (textual : Textual document) (indent : String)
    (rest : List Char) :
    skipSpace ((pretty indent document).toList ++ rest) =
      (pretty indent document).toList ++ rest := by
  obtain ⟨first, head, solid, _⟩ := head?_pretty textual indent
  obtain ⟨tail, text⟩ := List.head?_eq_some_iff.mp head
  rw [text, List.cons_append, skipSpace_cons solid]

def itemsText (indent : String) (items : List Json) : List Char :=
  '\n' :: (Text.joinWith ",\n" (prettyItems indent items)).toList

def membersText (indent : String) (members : List (String × Json)) : List Char :=
  '\n' :: (Text.joinWith ",\n" (prettyMembers indent members)).toList

theorem itemsText_singleton (indent : String) (item : Json) :
    itemsText indent [item] = newLine indent ++ (pretty indent item).toList := by
  simp [itemsText, prettyItems, newLine, Text.joinWith]

theorem itemsText_cons (indent : String) (item next : Json) (items : List Json) :
    itemsText indent (item :: next :: items) =
      newLine indent ++ ((pretty indent item).toList ++
        ',' :: itemsText indent (next :: items)) := by
  simp [itemsText, prettyItems, newLine, Text.joinWith]

theorem membersText_singleton (indent name : String) (value : Json) :
    membersText indent [(name, value)] =
      newLine indent ++ ((quote name).toList ++
        (':' :: ' ' :: (pretty indent value).toList)) := by
  simp [membersText, prettyMembers, newLine, Text.joinWith]

theorem membersText_cons (indent name : String) (value : Json) (next : String × Json)
    (members : List (String × Json)) :
    membersText indent ((name, value) :: next :: members) =
      newLine indent ++ ((quote name).toList ++
        (':' :: ' ' :: ((pretty indent value).toList ++
          ',' :: membersText indent (next :: members)))) := by
  simp [membersText, prettyMembers, newLine, Text.joinWith]

theorem skipSpace_itemsText {item : Json} (textual : Textual item) {indent : String}
    (blank : Blank indent.toList) (items : List Json) (rest : List Char) :
    ∃ first tail, skipSpace (itemsText indent (item :: items) ++ rest) = first :: tail ∧
      first ≠ ']' := by
  obtain ⟨first, head, _, solid⟩ := head?_pretty textual indent
  obtain ⟨tail, text⟩ := List.head?_eq_some_iff.mp head
  cases items with
  | nil =>
      refine ⟨first, tail ++ rest, ?_, solid⟩
      rw [itemsText_singleton, List.append_assoc, skipSpace_append (blank_newLine blank),
        skipSpace_pretty textual, text, List.cons_append]
  | cons next items =>
      refine ⟨first, tail ++ (',' :: itemsText indent (next :: items) ++ rest), ?_, solid⟩
      rw [itemsText_cons, List.append_assoc, skipSpace_append (blank_newLine blank),
        List.append_assoc, skipSpace_pretty textual, text, List.cons_append]

theorem skipSpace_membersText {indent : String} (blank : Blank indent.toList)
    (member : String × Json) (members : List (String × Json)) (rest : List Char) :
    ∃ tail, skipSpace (membersText indent (member :: members) ++ rest) = '"' :: tail := by
  obtain ⟨name, value⟩ := member
  cases members with
  | nil =>
      rw [membersText_singleton, List.append_assoc, skipSpace_append (blank_newLine blank)]
      exact ⟨_, by simp only [quote, String.toList_ofList, List.cons_append]; rfl⟩
  | cons next members =>
      rw [membersText_cons, List.append_assoc, skipSpace_append (blank_newLine blank)]
      exact ⟨_, by simp only [quote, String.toList_ofList, List.cons_append]; rfl⟩

/-- With that much fuel, every document that is short enough is read back. -/
def ValuesReturn (fuel : Nat) : Prop :=
  ∀ document, Textual document → ∀ indent : String, Blank indent.toList →
    (pretty indent document).toList.length ≤ fuel →
      ∀ rest, readValue fuel ((pretty indent document).toList ++ rest) = some (document, rest)

def ItemsReturn (fuel : Nat) : Prop :=
  ∀ item items, TextualItems (item :: items) → ∀ indent : String, Blank indent.toList →
    (itemsText indent (item :: items)).length ≤ fuel → ∀ close, Blank close →
      ∀ rest, readItems fuel (itemsText indent (item :: items) ++ (close ++ ']' :: rest)) =
        some (item :: items, rest)

def MembersReturn (fuel : Nat) : Prop :=
  ∀ member members, TextualMembers (member :: members) →
    ∀ before, (OrderedMap.keys (before ++ member :: members)).Nodup →
      ∀ indent : String, Blank indent.toList →
        (membersText indent (member :: members)).length ≤ fuel → ∀ close, Blank close →
          ∀ rest, readMembers fuel before
            (membersText indent (member :: members) ++ (close ++ '\x7d' :: rest)) =
              some (before ++ member :: members, rest)

theorem valuesReturn_succ {fuel : Nat} (itemsReturn : ItemsReturn fuel)
    (membersReturn : MembersReturn fuel) : ValuesReturn (fuel + 1) := by
  intro document textual indent blank enough rest
  cases document with
  | null => simp [pretty, readValue, skipSpace_cons, isSpace]
  | bool value => cases value <;> simp [pretty, readValue, skipSpace_cons, isSpace]
  | number value => exact textual.elim
  | string value =>
      obtain ⟨inside, text, read⟩ := readText_quote value rest
      rw [pretty, text, readValue, skipSpace_cons rfl]
      simp [read]
  | list items =>
      cases items with
      | nil => simp [pretty, readValue, skipSpace_cons, isSpace]
      | cons item items =>
          have text : (pretty indent (.list (item :: items))).toList ++ rest =
              '[' :: (itemsText (indent ++ "  ") (item :: items) ++
                (newLine indent ++ ']' :: rest)) := by
            simp [pretty, itemsText, newLine]
          have length : (itemsText (indent ++ "  ") (item :: items)).length ≤ fuel := by
            have whole := congrArg List.length text
            simp only [List.length_append, List.length_cons] at whole
            omega
          have read := itemsReturn item items textual (indent ++ "  ") (blank_deeper blank) length
            (newLine indent) (blank_newLine blank) rest
          obtain ⟨first, tail, inner, opens⟩ := skipSpace_itemsText textual.1
            (blank_deeper blank) items (newLine indent ++ ']' :: rest)
          rw [text, readValue, skipSpace_cons rfl]
          simp only [inner, read]
          split
          · rename_i closes
            exact absurd (List.cons.inj closes).1 opens
          · rfl
  | record members =>
      cases members with
      | nil => simp [pretty, readValue, skipSpace_cons, isSpace]
      | cons member members =>
          have text : (pretty indent (.record (member :: members))).toList ++ rest =
              '\x7b' :: (membersText (indent ++ "  ") (member :: members) ++
                (newLine indent ++ '\x7d' :: rest)) := by
            simp [pretty, membersText, newLine]
          have length : (membersText (indent ++ "  ") (member :: members)).length ≤ fuel := by
            have whole := congrArg List.length text
            simp only [List.length_append, List.length_cons] at whole
            omega
          have read := membersReturn member members textual.2 [] textual.1 (indent ++ "  ")
            (blank_deeper blank) length (newLine indent) (blank_newLine blank) rest
          obtain ⟨tail, inner⟩ := skipSpace_membersText (blank_deeper blank) member members
            (newLine indent ++ '\x7d' :: rest)
          rw [text, readValue, skipSpace_cons rfl]
          simp only [inner, read]
          rfl

theorem itemsReturn_succ {fuel : Nat} (valuesReturn : ValuesReturn fuel)
    (itemsReturn : ItemsReturn fuel) : ItemsReturn (fuel + 1) := by
  intro item items textual indent blank enough close closeBlank rest
  cases items with
  | nil =>
      rw [itemsText_singleton] at enough ⊢
      simp only [List.length_append, length_newLine] at enough
      have read := valuesReturn item textual.1 indent blank (by omega) (close ++ ']' :: rest)
      rw [List.append_assoc, readItems, readValue_skipSpace (blank_newLine blank), read]
      dsimp only
      rw [skipSpace_append closeBlank, skipSpace_cons rfl]
      rfl
  | cons next items =>
      rw [itemsText_cons] at enough ⊢
      simp only [List.length_append, List.length_cons, length_newLine] at enough
      have read := valuesReturn item textual.1 indent blank (by omega)
        (',' :: (itemsText indent (next :: items) ++ (close ++ ']' :: rest)))
      have others := itemsReturn next items textual.2 indent blank (by omega) close closeBlank rest
      rw [List.append_assoc, List.append_assoc, List.cons_append, readItems,
        readValue_skipSpace (blank_newLine blank), read]
      dsimp only
      rw [skipSpace_cons rfl]
      simp only [others]
      rfl

theorem membersReturn_succ {fuel : Nat} (valuesReturn : ValuesReturn fuel)
    (membersReturn : MembersReturn fuel) : MembersReturn (fuel + 1) := by
  rintro ⟨name, value⟩ members textual before distinct indent blank enough close closeBlank rest
  have stored := OrderedMap.put_of_fresh (fresh_of_distinct distinct) value
  cases members with
  | nil =>
      rw [membersText_singleton] at enough ⊢
      simp only [List.length_append, List.length_cons, length_newLine] at enough
      have read := valuesReturn value textual.1 indent blank (by omega) (close ++ '\x7d' :: rest)
      obtain ⟨inside, text, named⟩ := readText_quote name
        (':' :: ' ' :: ((pretty indent value).toList ++ (close ++ '\x7d' :: rest)))
      simp only [List.append_assoc, List.cons_append]
      rw [readMembers, skipSpace_append (blank_newLine blank), text, skipSpace_cons rfl]
      simp only [named]
      rw [skipSpace_cons rfl]
      simp only [readValue_space, read, stored]
      rw [skipSpace_append closeBlank, skipSpace_cons rfl]
      rfl
  | cons next members =>
      rw [membersText_cons] at enough ⊢
      simp only [List.length_append, List.length_cons, length_newLine] at enough
      have read := valuesReturn value textual.1 indent blank (by omega)
        (',' :: (membersText indent (next :: members) ++ (close ++ '\x7d' :: rest)))
      obtain ⟨inside, text, named⟩ := readText_quote name
        (':' :: ' ' :: ((pretty indent value).toList ++
          ',' :: (membersText indent (next :: members) ++ (close ++ '\x7d' :: rest))))
      have others := membersReturn next members textual.2 (before ++ [(name, value)])
        (by simpa using distinct) indent blank (by omega) close closeBlank rest
      simp only [List.append_assoc, List.cons_append]
      rw [readMembers, skipSpace_append (blank_newLine blank), text, skipSpace_cons rfl]
      simp only [named]
      rw [skipSpace_cons rfl]
      simp only [readValue_space, read, stored]
      rw [skipSpace_cons rfl]
      simp only [others, List.append_assoc, List.cons_append, List.nil_append]

/-- The reader spends one unit of fuel on a step and every step reads a character. -/
theorem reads_back (fuel : Nat) : ValuesReturn fuel ∧ ItemsReturn fuel ∧ MembersReturn fuel := by
  induction fuel with
  | zero =>
      refine ⟨?_, ?_, ?_⟩
      · intro document textual indent _ enough
        obtain ⟨first, head, _⟩ := head?_pretty textual indent
        obtain ⟨tail, text⟩ := List.head?_eq_some_iff.mp head
        simp [text] at enough
      · intro item items _ indent _ enough
        simp [itemsText] at enough
      · intro member members _ before _ indent _ enough
        simp [membersText] at enough
  | succ fuel ih =>
      obtain ⟨values, items, members⟩ := ih
      exact ⟨valuesReturn_succ items members, itemsReturn_succ values items,
        membersReturn_succ values members⟩

end Values

theorem parse_pretty {document : Json} (textual : Textual document) {tail : String}
    (blank : Blank tail.toList) : parse (pretty "" document ++ tail) = .ok document := by
  have enough : (pretty "" document).toList.length ≤
      (pretty "" document ++ tail).toList.length + 1 := by
    rw [String.toList_append, List.length_append]
    omega
  have read := (reads_back _).1 document textual "" (by simp [Blank]) enough tail.toList
  rw [← String.toList_append] at read
  simp only [parse, read, skipSpace_of_blank blank]

section Equality

mutual

def same : Json → Json → Bool
  | .null, .null => true
  | .bool left, .bool right => left = right
  | .number left, .number right => left = right
  | .string left, .string right => left = right
  | .list left, .list right => sameItems left right
  | .record left, .record right => sameMembers left right
  | _, _ => false

def sameItems : List Json → List Json → Bool
  | [], [] => true
  | left :: lefts, right :: rights => same left right && sameItems lefts rights
  | _, _ => false

def sameMembers : List (String × Json) → List (String × Json) → Bool
  | [], [] => true
  | (name, left) :: lefts, (other, right) :: rights =>
      name = other && same left right && sameMembers lefts rights
  | _, _ => false

end

mutual

theorem same_iff (left right : Json) : same left right ↔ left = right := by
  cases left with
  | list items => cases right <;> simp [same, sameItems_iff items]
  | record members => cases right <;> simp [same, sameMembers_iff members]
  | _ => cases right <;> simp [same]

theorem sameItems_iff (left right : List Json) : sameItems left right ↔ left = right := by
  cases left with
  | nil => cases right <;> simp [sameItems]
  | cons item items =>
      cases right with
      | nil => simp [sameItems]
      | cons other others => simp [sameItems, same_iff item, sameItems_iff items]

theorem sameMembers_iff (left right : List (String × Json)) :
    sameMembers left right ↔ left = right := by
  cases left with
  | nil => cases right <;> simp [sameMembers]
  | cons member members =>
      obtain ⟨name, value⟩ := member
      cases right with
      | nil => simp [sameMembers]
      | cons other others =>
          simp [sameMembers, same_iff value, sameMembers_iff members, Prod.ext_iff]

end

instance : DecidableEq Json := fun left right => decidable_of_iff _ (same_iff left right)

end Equality

end CrateAtlas.Json
