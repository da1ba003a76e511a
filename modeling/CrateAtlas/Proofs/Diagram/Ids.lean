import CrateAtlas.Diagram.Markup
import CrateAtlas.Proofs.Attempts
import CrateAtlas.Proofs.Maps
import CrateAtlas.Proofs.ModulePath
import Mathlib.Data.List.TakeWhile

/-!
Diagram ids. An id spells a qualified name in word characters, and so two names may share one.
Main statements: the names of legible segments have ids of their own, and the nodes of a graph
get their ids unless two of them share one.
-/

namespace CrateAtlas.ModulePath

open CrateAtlas.Text

theorem sanitizeComponent_eq_intercalate {text : List Char}
    (words : ∀ segment ∈ segmentsOf text, ∀ character ∈ segment, isWordChar character) :
    sanitizeComponent text = ['_', '_'].intercalate (segmentsOf text) := by
  fun_induction segmentsOf text with
  | case1 => rfl
  | case2 rest ih =>
      have spelled : sanitizeComponent (':' :: ':' :: rest) =
          '_' :: '_' :: sanitizeComponent rest := by
        simp [sanitizeComponent, replaceChars, isWordChar, isWordStart, isAsciiLetter, isAsciiDigit]
      rw [spelled, ih fun segment member => words segment (List.mem_cons_of_mem _ member)]
      cases pieces : segmentsOf rest with
      | nil => exact absurd pieces (segmentsOf_ne_nil rest)
      | cons segment segments =>
          rw [List.intercalate_cons_cons]
          rfl
  | case3 character rest _ none => exact absurd none (segmentsOf_ne_nil rest)
  | case4 character rest _ segment segments pieces ih =>
      have first : isWordChar character :=
        words _ List.mem_cons_self character List.mem_cons_self
      rw [sanitizeComponent_cons_word first, intercalate_cons_head, ih, pieces]
      intro other member
      rw [pieces] at member
      rcases List.mem_cons.mp member with rfl | later
      · exact fun inner here => words _ List.mem_cons_self inner (List.mem_cons_of_mem _ here)
      · exact words other (List.mem_cons_of_mem _ later)

end CrateAtlas.ModulePath

namespace CrateAtlas.Diagram

open CrateAtlas.Text CrateAtlas.ModulePath OrderedMap

/-- A text in which every underscore has another character behind it. -/
def Spaced : List Char → Prop
  | [] => True
  | first :: rest => (first = '_' → rest.head?.any (· ≠ '_')) ∧ Spaced rest

instance Spaced.decidable : (text : List Char) → Decidable (Spaced text)
  | [] => .isTrue trivial
  | first :: rest =>
      have := Spaced.decidable rest
      inferInstanceAs (Decidable ((first = '_' → rest.head?.any (· ≠ '_')) ∧ Spaced rest))

section Spaced

variable {text rest others : List Char}

theorem Spaced.eq_nil (spaced : Spaced text) (same : text ++ rest = '_' :: '_' :: others) :
    text = [] := by
  cases text with
  | nil => rfl
  | cons first more =>
      obtain ⟨rfl, tail⟩ := List.cons.inj same
      have behind := spaced.1 rfl
      cases more with
      | nil => simp at behind
      | cons second _ =>
          obtain ⟨rfl, _⟩ := List.cons.inj tail
          simp at behind

theorem Spaced.of_append {lead : List Char} (spaced : Spaced (lead ++ text)) : Spaced text := by
  induction lead with
  | nil => exact spaced
  | cons first more ih => exact ih spaced.2

theorem Spaced.not_mark : ¬Spaced (text ++ '_' :: '_' :: rest) := by
  intro spaced
  have behind := spaced.of_append.1 rfl
  simp at behind

theorem Spaced.getLast?_ne (spaced : Spaced text) : text.getLast? ≠ some '_' := by
  intro last
  obtain ⟨front, rfl⟩ := List.getLast?_eq_some_iff.mp last
  have behind := spaced.of_append.1 rfl
  simp at behind

theorem Spaced.mark_inj {left right : List Char} (leftSpaced : Spaced left)
    (rightSpaced : Spaced right)
    (same : left ++ '_' :: '_' :: rest = right ++ '_' :: '_' :: others) :
    left = right ∧ rest = others := by
  -- Both texts end at their first two underscores in a row, since neither holds such a pair.
  induction left generalizing right with
  | nil =>
      obtain rfl := rightSpaced.eq_nil same.symm
      simpa using same
  | cons first more ih =>
      cases right with
      | nil => exact absurd (leftSpaced.eq_nil same) (List.cons_ne_nil first more)
      | cons second tail =>
          obtain ⟨rfl, behind⟩ := List.cons.inj same
          obtain ⟨rfl, later⟩ := ih leftSpaced.2 rightSpaced.2 behind
          exact ⟨rfl, later⟩

theorem intercalate_marks (first second : List Char) (segments : List (List Char)) :
    ['_', '_'].intercalate (first :: second :: segments) =
      first ++ '_' :: '_' :: ['_', '_'].intercalate (second :: segments) := by
  rw [List.intercalate_cons_cons, List.append_assoc]
  rfl

theorem Spaced.intercalate_inj {left right : List (List Char)} (leftSome : left ≠ [])
    (rightSome : right ≠ []) (leftSpaced : ∀ segment ∈ left, Spaced segment)
    (rightSpaced : ∀ segment ∈ right, Spaced segment)
    (same : ['_', '_'].intercalate left = ['_', '_'].intercalate right) : left = right := by
  induction left generalizing right with
  | nil => exact absurd rfl leftSome
  | cons first more ih =>
      cases right with
      | nil => exact absurd rfl rightSome
      | cons other tail =>
          have firstSpaced := leftSpaced first List.mem_cons_self
          have otherSpaced := rightSpaced other List.mem_cons_self
          cases more with
          | nil =>
              cases tail with
              | nil => simpa using same
              | cons third back =>
                  rw [List.intercalate_singleton, intercalate_marks] at same
                  subst same
                  exact absurd firstSpaced Spaced.not_mark
          | cons second back =>
              cases tail with
              | nil =>
                  rw [List.intercalate_singleton, intercalate_marks] at same
                  subst same
                  exact absurd otherSpaced Spaced.not_mark
              | cons third last =>
                  rw [intercalate_marks, intercalate_marks] at same
                  obtain ⟨rfl, behind⟩ := firstSpaced.mark_inj otherSpaced same
                  rw [ih (List.cons_ne_nil _ _) (List.cons_ne_nil _ _)
                    (fun segment member => leftSpaced segment (List.mem_cons_of_mem _ member))
                    (fun segment member => rightSpaced segment (List.mem_cons_of_mem _ member))
                    behind]

end Spaced

/-- A segment that an id spells as it is and that stays apart from its neighbours in the id. -/
def LegibleSegment (segment : List Char) : Prop :=
  segment ≠ [] ∧ (∀ character ∈ segment, isWordChar character) ∧ Spaced segment

instance (segment : List Char) : Decidable (LegibleSegment segment) :=
  -- `List.all` walks the segment; an instance for the inner quantifier may try every character.
  decidable_of_iff (segment ≠ [] ∧ segment.all isWordChar ∧ Spaced segment)
    (by rw [LegibleSegment, List.all_eq_true])

def Legible (name : String) : Prop :=
  ∀ segment ∈ segmentsOf name.toList, LegibleSegment segment

instance (name : String) : Decidable (Legible name) :=
  inferInstanceAs (Decidable (∀ segment ∈ segmentsOf name.toList, LegibleSegment segment))

def StartsWithLetter (name : String) : Prop :=
  name.toList.head?.any isAsciiLetter

section Ids

variable {name : String}

theorem word_of_letter {character : Char} (letter : isAsciiLetter character) :
    isWordChar character ∧ character ≠ '_' := by
  constructor
  · simp [isWordChar, isWordStart, letter]
  · rintro rfl
    revert letter
    decide

theorem head_sanitizeComponent (starts : StartsWithLetter name) :
    ∃ first rest, sanitizeComponent name.toList = first :: rest ∧ first ≠ '_' := by
  unfold StartsWithLetter at starts
  cases text : name.toList with
  | nil => simp [text] at starts
  | cons first rest =>
      rw [text] at starts
      obtain ⟨word, other⟩ := word_of_letter (by simpa using starts)
      exact ⟨first, _, sanitizeComponent_cons_word word rest, other⟩

theorem sanitizeId_ne_empty (starts : StartsWithLetter name) : sanitizeId name ≠ "" := by
  obtain ⟨first, rest, spelled, other⟩ := head_sanitizeComponent starts
  intro empty
  have nothing : stripUnderscores (first :: rest) = [] := by
    have same := congrArg String.toList empty
    rwa [sanitizeId, String.toList_ofList, spelled] at same
  rw [stripUnderscores, List.dropWhile_cons_of_neg (by simpa using other),
    List.reverse_eq_nil_iff, List.dropWhile_eq_nil_iff] at nothing
  exact other (by simpa using nothing first (by simp))

theorem dropUnderscores_eq {text : List Char} (head : text.head? ≠ some '_') :
    text.dropWhile (· = '_') = text := by
  cases text with
  | nil => rfl
  | cons first rest => exact List.dropWhile_cons_of_neg (by simpa using head)

theorem stripUnderscores_eq {text : List Char} (head : text.head? ≠ some '_')
    (last : text.getLast? ≠ some '_') : stripUnderscores text = text := by
  rw [← List.head?_reverse] at last
  rw [stripUnderscores, dropUnderscores_eq head, dropUnderscores_eq last, List.reverse_reverse]

theorem getLast?_intercalate {segments : List (List Char)}
    (legible : ∀ segment ∈ segments, LegibleSegment segment) :
    (['_', '_'].intercalate segments).getLast? ≠ some '_' := by
  induction segments with
  | nil => simp [List.intercalate]
  | cons first rest ih =>
      cases rest with
      | nil =>
          rw [List.intercalate_singleton]
          exact (legible first List.mem_cons_self).2.2.getLast?_ne
      | cons second more =>
          have tail := ih fun segment member => legible segment (List.mem_cons_of_mem _ member)
          have filled : ['_', '_'].intercalate (second :: more) ≠ [] := by
            obtain ⟨character, text, rfl⟩ := List.exists_cons_of_ne_nil (legible second (by simp)).1
            rw [intercalate_cons_head]
            exact List.cons_ne_nil _ _
          rwa [List.intercalate_cons_cons, List.getLast?_append_of_ne_nil _ filled]

theorem sanitizeId_eq_intercalate (starts : StartsWithLetter name) (legible : Legible name) :
    (sanitizeId name).toList = ['_', '_'].intercalate (segmentsOf name.toList) := by
  have spelled : sanitizeComponent name.toList = ['_', '_'].intercalate (segmentsOf name.toList) :=
    sanitizeComponent_eq_intercalate fun segment member => (legible segment member).2.1
  obtain ⟨first, rest, head, other⟩ := head_sanitizeComponent starts
  rw [sanitizeId, String.toList_ofList, stripUnderscores_eq]
  · exact spelled
  · simpa [head] using other
  · rw [spelled]
    exact getLast?_intercalate legible

theorem sanitizeId_inj {other : String} (starts : StartsWithLetter name) (legible : Legible name)
    (otherStarts : StartsWithLetter other) (otherLegible : Legible other)
    (same : sanitizeId name = sanitizeId other) : name = other := by
  have segments : segmentsOf name.toList = segmentsOf other.toList := by
    refine Spaced.intercalate_inj (segmentsOf_ne_nil _) (segmentsOf_ne_nil _)
      (fun segment member => (legible segment member).2.2)
      (fun segment member => (otherLegible segment member).2.2) ?_
    rw [← sanitizeId_eq_intercalate starts legible,
      ← sanitizeId_eq_intercalate otherStarts otherLegible, same]
  apply String.toList_injective
  rw [← intercalate_segmentsOf name.toList, segments, intercalate_segmentsOf]

end Ids

def OwnIds (nodes : List String) : Prop :=
  ∀ first ∈ nodes, ∀ second ∈ nodes, sanitizeId first = sanitizeId second → first = second

/-- The failure names two of the nodes, which share an id. -/
def Clash (nodes : List String) (failure : Failure) : Prop :=
  ∃ first ∈ nodes, ∃ second ∈ nodes, first ≠ second ∧ sanitizeId first = sanitizeId second ∧
    failure = .markup
      ("Types " ++ first ++ " and " ++ second ++ " both map to diagram id " ++ sanitizeId second)

/-- An attempt that succeeds when the nodes have ids of their own, and else fails with two of them
that share an id. -/
inductive Decides (nodes : List String) : Except Failure α → Prop where
  | accepts (own : OwnIds nodes) (value : α) : Decides nodes (.ok value)
  | refuses {failure : Failure} (clash : Clash nodes failure) : Decides nodes (.error failure)

section Decides

variable {nodes : List String} {attempt : Except Failure α}

theorem ownIds_of_legible (starts : ∀ node ∈ nodes, StartsWithLetter node)
    (legible : ∀ node ∈ nodes, Legible node) : OwnIds nodes :=
  fun first firstMember second secondMember =>
    sanitizeId_inj (starts first firstMember) (legible first firstMember)
      (starts second secondMember) (legible second secondMember)

theorem Decides.of_mem_iff {others : List String} (same : ∀ node, node ∈ nodes ↔ node ∈ others)
    (decides : Decides nodes attempt) : Decides others attempt := by
  cases decides with
  | accepts own value =>
      refine .accepts ?_ value
      intro first firstMember second secondMember
      exact own first ((same first).mpr firstMember) second ((same second).mpr secondMember)
  | refuses clash =>
      obtain ⟨first, firstMember, second, secondMember, different⟩ := clash
      exact .refuses
        ⟨first, (same first).mp firstMember, second, (same second).mp secondMember, different⟩

theorem Decides.bind {next : α → Except Failure β} (decides : Decides nodes attempt)
    (succeeds : ∀ value, attempt = .ok value → ∃ result, next value = .ok result) :
    Decides nodes (attempt >>= next) := by
  cases decides with
  | accepts own value =>
      obtain ⟨result, done⟩ := succeeds value rfl
      change Decides nodes (next value)
      rw [done]
      exact .accepts own result
  | refuses clash => exact .refuses clash

theorem Decides.ok_iff (decides : Decides nodes attempt) :
    (∃ value, attempt = .ok value) ↔ OwnIds nodes := by
  cases decides with
  | accepts own value => exact iff_of_true ⟨value, rfl⟩ own
  | refuses clash =>
      obtain ⟨first, firstMember, second, secondMember, different, same, _⟩ := clash
      refine iff_of_false (by simp) fun own => ?_
      exact different (own first firstMember second secondMember same)

theorem Decides.clash {failure : Failure} (decides : Decides nodes attempt)
    (failed : attempt = .error failure) : Clash nodes failure := by
  cases decides with
  | accepts => simp at failed
  | refuses clash => exact Except.error.inj failed ▸ clash

end Decides

section Nodes

variable {ids : List (String × String)} {nodes : List String}

theorem ownIds_put (own : OwnIds (keys ids)) (spelled : ∀ entry ∈ ids, entry.2 = sanitizeId entry.1)
    {node : String}
    (free : ids.find? (fun entry => entry.2 = sanitizeId node && entry.1 ≠ node) = none) :
    OwnIds (keys (put node (sanitizeId node) ids)) := by
  have unshared : ∀ other ∈ keys ids, sanitizeId other = sanitizeId node → other = node := by
    intro other member same
    obtain ⟨entry, stored, rfl⟩ := List.mem_map.mp member
    have tested := List.find?_eq_none.mp free entry stored
    simp only [Bool.and_eq_true, decide_eq_true_eq, not_and, not_not] at tested
    exact tested ((spelled entry stored).trans same)
  intro first firstMember second secondMember same
  rcases mem_keys_put.mp firstMember with firstStored | rfl
  · rcases mem_keys_put.mp secondMember with secondStored | rfl
    · exact own first firstStored second secondStored same
    · exact unshared first firstStored same
  · rcases mem_keys_put.mp secondMember with secondStored | rfl
    · exact (unshared second secondStored same.symm).symm
    · rfl

theorem spelled_put (spelled : ∀ entry ∈ ids, entry.2 = sanitizeId entry.1) (node : String) :
    ∀ entry ∈ put node (sanitizeId node) ids, entry.2 = sanitizeId entry.1 := by
  intro entry member
  rcases mem_of_mem_put member with stored | rfl
  · exact spelled entry stored
  · rfl

/-- Nodes get their ids one after another, as long as none of them has the id of another. -/
theorem nodeIds_decides (own : OwnIds (keys ids))
    (spelled : ∀ entry ∈ ids, entry.2 = sanitizeId entry.1)
    (filled : ∀ node ∈ nodes, sanitizeId node ≠ "") :
    Decides (keys ids ++ nodes) (nodeIds ids nodes) := by
  -- The nodes before this one have their ids, and these are their own.
  induction nodes generalizing ids with
  | nil =>
      rw [List.append_nil]
      exact .accepts own ids
  | cons node rest ih =>
      simp only [nodeIds, if_neg (filled node List.mem_cons_self)]
      split
      · rename_i owner id taken
        have tested := List.find?_some taken
        simp only [Bool.and_eq_true, decide_eq_true_eq] at tested
        have member := List.mem_of_find?_eq_some taken
        refine .refuses ⟨owner, ?_, node, by simp, tested.2, ?_, rfl⟩
        · exact List.mem_append_left _ (List.mem_map_of_mem member)
        · exact (spelled _ member).symm.trans tested.1
      · rename_i free
        refine (ih (ownIds_put own spelled free) (spelled_put spelled node)
          fun other member => filled other (List.mem_cons_of_mem node member)).of_mem_iff ?_
        intro name
        simp only [List.mem_append, mem_keys_put, List.mem_cons, or_assoc]

theorem nodeIds_cons_eq_ok {node : String} {assigned : List (String × String)} :
    nodeIds ids (node :: nodes) = .ok assigned ↔
      sanitizeId node ≠ "" ∧
        ids.find? (fun entry => entry.2 = sanitizeId node && entry.1 ≠ node) = none ∧
        nodeIds (put node (sanitizeId node) ids) nodes = .ok assigned := by
  simp only [nodeIds]
  split
  · rename_i empty
    simp [empty]
  · rename_i filled
    split
    · rename_i taken
      rw [taken]
      simp
    · rename_i free
      rw [free]
      simp [filled]

theorem mem_keys_nodeIds {assigned : List (String × String)}
    (done : nodeIds ids nodes = .ok assigned) {name : String} :
    name ∈ keys assigned ↔ name ∈ keys ids ∨ name ∈ nodes := by
  induction nodes generalizing ids with
  | nil =>
      obtain rfl := Except.ok.inj done
      simp
  | cons node rest ih =>
      obtain ⟨_, _, others⟩ := nodeIds_cons_eq_ok.mp done
      rw [ih others, mem_keys_put, or_assoc, List.mem_cons]

theorem filled_of_nodeIds {assigned : List (String × String)}
    (done : nodeIds ids nodes = .ok assigned) : ∀ node ∈ nodes, sanitizeId node ≠ "" := by
  induction nodes generalizing ids with
  | nil => exact fun node member => absurd member List.not_mem_nil
  | cons first rest ih =>
      obtain ⟨filled, _, others⟩ := nodeIds_cons_eq_ok.mp done
      intro node member
      rcases List.mem_cons.mp member with rfl | later
      · exact filled
      · exact ih others node later

theorem spelled_of_nodeIds (spelled : ∀ entry ∈ ids, entry.2 = sanitizeId entry.1)
    {assigned : List (String × String)} (done : nodeIds ids nodes = .ok assigned) :
    ∀ entry ∈ assigned, entry.2 = sanitizeId entry.1 := by
  induction nodes generalizing ids with
  | nil =>
      obtain rfl := Except.ok.inj done
      exact spelled
  | cons node rest ih =>
      obtain ⟨_, _, others⟩ := nodeIds_cons_eq_ok.mp done
      exact ih (spelled_put spelled node) others

theorem checkEndpoint_eq_ok (edge : Edge) {endpoint : String} :
    checkEndpoint ids edge endpoint = .ok () ↔ endpoint ∈ keys ids := by
  rw [mem_keys_iff_isSome, checkEndpoint, has]
  split
  · rename_i known
    simp [known]
  · rename_i unknown
    simp [unknown]

theorem checkEdges_eq_ok {edges : List Edge} :
    checkEdges ids edges = .ok () ↔
      ∀ edge ∈ edges, edge.source ∈ keys ids ∧ edge.target ∈ keys ids := by
  induction edges with
  | nil => simp [checkEdges]
  | cons edge rest ih =>
      rw [List.forall_mem_cons, ← ih, ← checkEndpoint_eq_ok edge, ← checkEndpoint_eq_ok edge]
      constructor
      · intro checked
        obtain ⟨_, source, behind⟩ := bind_eq_ok.mp checked
        obtain ⟨_, target, others⟩ := bind_eq_ok.mp behind
        exact ⟨⟨source, target⟩, others⟩
      · rintro ⟨⟨source, target⟩, others⟩
        exact bind_eq_ok.mpr ⟨(), source, bind_eq_ok.mpr ⟨(), target, others⟩⟩

theorem idOf_ok {node : String} (known : node ∈ keys ids) : ∃ id, idOf ids node = .ok id := by
  obtain ⟨id, found⟩ := mem_keys_iff.mp known
  exact ⟨id, by rw [idOf, found]⟩

end Nodes

end CrateAtlas.Diagram
