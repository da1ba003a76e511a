import CrateAtlas.Text.Order
import Mathlib.Data.List.Sort

/-!
The order of texts is a linear order, and sorting by a transitive order rearranges a list into
that order. Main statements: permuted lists sort alike when ties are equal, and a search for
the first answer is not disturbed by sorting when exchanged members give no different answers.
-/

namespace CrateAtlas.Text

theorem toNat_lt_codeSpace (character : Char) : character.toNat < 0x110000 := by
  have valid := character.valid
  simp only [UInt32.isValidChar, Nat.isValidChar] at valid
  change character.val.toNat < _
  omega

theorem unitRank_injective : Function.Injective unitRank := by
  intro left right same
  apply Char.toNat_inj.mp
  have leftBound := toNat_lt_codeSpace left
  have rightBound := toNat_lt_codeSpace right
  simp only [unitRank] at same
  split at same <;> split at same <;> omega

theorem compareUnits_eq_compareLex (left right : List Char) :
    compareUnits left right = List.compareLex (compareOn unitRank) left right := by
  induction left generalizing right with
  | nil => cases right <;> rfl
  | cons first rest ih =>
      cases right with
      | nil => rfl
      | cons other others =>
          rw [List.compareLex_cons_cons, compareUnits, ih]
          rfl

instance : Std.LawfulEqCmp (compareOn unitRank) where
  eq_of_compare same := unitRank_injective (Std.LawfulEqOrd.eq_of_compare same)

instance : Std.TransCmp compareUnits where
  eq_swap {left right} := by
    rw [compareUnits_eq_compareLex, compareUnits_eq_compareLex]
    exact Std.OrientedCmp.eq_swap
  isLE_trans {first second third} below above := by
    rw [compareUnits_eq_compareLex] at below above ⊢
    exact Std.TransCmp.isLE_trans below above

theorem transCmp_on (order : β → β → Ordering) [Std.TransCmp order] (key : α → β) :
    Std.TransCmp fun left right => order (key left) (key right) where
  eq_swap := Std.OrientedCmp.eq_swap
  isLE_trans := Std.TransCmp.isLE_trans

instance : Std.TransCmp compareText :=
  transCmp_on compareUnits String.toList

instance : Std.LawfulEqCmp compareText where
  compare_self := Std.ReflCmp.compare_self
  eq_of_compare {left right} same := by
    rw [compareText, compareUnits_eq_compareLex] at same
    exact String.toList_injective (Std.LawfulEqCmp.eq_of_compare same)

section Sorting

variable {α : Type u} (order : α → α → Ordering)

theorem insertSorted_eq_orderedInsert (value : α) (list : List α) :
    insertSorted order value list =
      list.orderedInsert (fun left right => (order left right).isLE) value := by
  induction list with
  | nil => rfl
  | cons first rest ih => simp only [insertSorted, List.orderedInsert_cons, ih]

theorem sortBy_eq_insertionSort (list : List α) :
    sortBy order list = list.insertionSort fun left right => (order left right).isLE := by
  induction list with
  | nil => rfl
  | cons first rest ih =>
      rw [sortBy, ih, insertSorted_eq_orderedInsert, List.insertionSort_cons]

theorem sortBy_perm (list : List α) : (sortBy order list).Perm list := by
  rw [sortBy_eq_insertionSort]
  exact List.perm_insertionSort _ list

@[simp] theorem mem_sortBy {list : List α} {value : α} :
    value ∈ sortBy order list ↔ value ∈ list :=
  (sortBy_perm order list).mem_iff

def Sorted (list : List α) : Prop :=
  list.Pairwise fun left right => (order left right).isLE

theorem sortBy_of_sorted {list : List α} (sorted : Sorted order list) :
    sortBy order list = list := by
  rw [sortBy_eq_insertionSort]
  exact List.Pairwise.insertionSort_eq sorted

theorem insertSorted_map (key : β → α) (value : β) (list : List β) :
    insertSorted order (key value) (list.map key) =
      (insertSorted (fun left right => order (key left) (key right)) value list).map key := by
  induction list with
  | nil => rfl
  | cons first rest ih =>
      simp only [List.map_cons, insertSorted]
      split
      · rfl
      · rw [ih, List.map_cons]

theorem sortBy_map (key : β → α) (list : List β) :
    sortBy order (list.map key) =
      (sortBy (fun left right => order (key left) (key right)) list).map key := by
  induction list with
  | nil => rfl
  | cons first rest ih => rw [List.map_cons, sortBy, ih, insertSorted_map, sortBy]

theorem map_sortBy_map (normal : α → α) {list : List α}
    (idempotent : ∀ value ∈ list, normal (normal value) = normal value) :
    (sortBy order (list.map normal)).map normal = sortBy order (list.map normal) := by
  refine (List.map_congr_left ?_).trans (List.map_id _)
  intro value member
  obtain ⟨original, present, rfl⟩ := List.mem_map.mp ((mem_sortBy order).mp member)
  exact idempotent original present

variable [Std.TransCmp order]

theorem sorted_sortBy (list : List α) : Sorted order (sortBy order list) := by
  have total : Std.Total fun left right => (order left right).isLE = true :=
    ⟨fun left right => by
      have swapped : order left right = (order right left).swap := Std.OrientedCmp.eq_swap
      cases comparison : order right left <;> simp_all⟩
  have transitive : IsTrans α fun left right => (order left right).isLE = true :=
    ⟨fun _ _ _ => Std.TransCmp.isLE_trans⟩
  rw [sortBy_eq_insertionSort]
  exact List.pairwise_insertionSort _ list

theorem sortBy_sortBy (list : List α) : sortBy order (sortBy order list) = sortBy order list :=
  sortBy_of_sorted order (sorted_sortBy order list)

theorem sortBy_map_sortBy (normal : α → α) {list : List α}
    (idempotent : ∀ value ∈ list, normal (normal value) = normal value) :
    sortBy order ((sortBy order (list.map normal)).map normal) =
      sortBy order (list.map normal) := by
  rw [map_sortBy_map order normal idempotent, sortBy_sortBy]

theorem sortBy_eq_of_perm {left right : List α} (perm : left.Perm right)
    (ties : ∀ first ∈ left, ∀ second ∈ left, order first second = .eq → first = second) :
    sortBy order left = sortBy order right := by
  have sortedPerm : (sortBy order left).Perm (sortBy order right) :=
    (sortBy_perm order left).trans (perm.trans (sortBy_perm order right).symm)
  refine sortedPerm.eq_of_pairwise ?_ (sorted_sortBy order left) (sorted_sortBy order right)
  intro first second firstMember secondMember below above
  have firstLeft : first ∈ left := (mem_sortBy order).mp firstMember
  have secondLeft : second ∈ left := perm.mem_iff.mpr ((mem_sortBy order).mp secondMember)
  exact ties first firstLeft second secondLeft (Std.OrientedCmp.isLE_antisymm below above)

theorem increasing_sortBy {list : List α} (distinct : list.Nodup)
    (ties : ∀ first ∈ list, ∀ second ∈ list, order first second = .eq → first = second) :
    (sortBy order list).Pairwise fun left right => order left right = .lt := by
  have sorted := sorted_sortBy order list
  have apart : (sortBy order list).Nodup := (sortBy_perm order list).nodup_iff.mpr distinct
  refine (sorted.and apart).imp_of_mem ?_
  rintro left right leftMember rightMember ⟨below, different⟩
  rw [mem_sortBy] at leftMember rightMember
  cases comparison : order left right with
  | lt => rfl
  | eq => exact absurd (ties left leftMember right rightMember comparison) different
  | gt => simp [comparison] at below

end Sorting

/-- Two searches do not contradict each other: at most one answer comes out of them. -/
def Compatible (left right : Option β) : Prop :=
  left = none ∨ right = none ∨ left = right

theorem findSome?_insertSorted (order : α → α → Ordering) (find : α → Option β) (value : α)
    (list : List α)
    (compatible : ∀ other ∈ list, order value other = .gt →
      Compatible (find value) (find other)) :
    (insertSorted order value list).findSome? find = (value :: list).findSome? find := by
  induction list with
  | nil => rfl
  | cons first rest ih =>
      simp only [insertSorted]
      split
      · rfl
      · rename_i above
        have exchanged : order value first = .gt := by
          cases comparison : order value first <;> simp_all
        have tail := ih fun other member => compatible other (by simp [member])
        simp only [List.findSome?_cons, tail]
        rcases compatible first (by simp) exchanged with missing | missing | same
        · simp [missing]
        · simp [missing]
        · rw [same]

/-- A search for the first answer gives the same in a list and in its sorted form when no two
members that sorting exchanges have different answers. -/
theorem findSome?_sortBy (order : α → α → Ordering) (find : α → Option β) (list : List α)
    (compatible : list.Pairwise fun earlier later => order earlier later = .gt →
      Compatible (find earlier) (find later)) :
    (sortBy order list).findSome? find = list.findSome? find := by
  induction list with
  | nil => rfl
  | cons first rest ih =>
      obtain ⟨firstCompatible, restCompatible⟩ := List.pairwise_cons.mp compatible
      rw [sortBy, findSome?_insertSorted order find first, List.findSome?_cons,
        List.findSome?_cons, ih restCompatible]
      intro other member
      exact firstCompatible other ((mem_sortBy order).mp member)

theorem findSome?_congr {find search : α → Option β} {list : List α}
    (agree : ∀ value ∈ list, find value = search value) :
    list.findSome? find = list.findSome? search := by
  induction list with
  | nil => rfl
  | cons first rest ih =>
      rw [List.findSome?_cons, List.findSome?_cons, agree first List.mem_cons_self,
        ih fun value member => agree value (List.mem_cons_of_mem first member)]

theorem findSome?_filter (find : α → Option β) (keep : α → Bool) (list : List α) :
    (list.filter keep).findSome? find =
      list.findSome? fun value => if keep value then find value else none := by
  induction list with
  | nil => rfl
  | cons first rest ih =>
      rw [List.filter_cons, List.findSome?_cons]
      split
      · rw [List.findSome?_cons, ih]
      · exact ih

theorem findSome?_flatMap (find : β → Option γ) (parts : α → List β) (list : List α) :
    (list.flatMap parts).findSome? find =
      list.findSome? fun value => (parts value).findSome? find := by
  induction list with
  | nil => rfl
  | cons first rest ih =>
      rw [List.flatMap_cons, List.findSome?_append, List.findSome?_cons, ih]
      cases (parts first).findSome? find <;> rfl

theorem findSome?_filter_sortBy (order : α → α → Ordering) (find : α → Option β)
    (keep : α → Bool) (list : List α)
    (compatible : list.Pairwise fun earlier later => order earlier later = .gt →
      keep earlier → keep later → Compatible (find earlier) (find later)) :
    ((sortBy order list).filter keep).findSome? find = (list.filter keep).findSome? find := by
  rw [findSome?_filter, findSome?_filter]
  apply findSome?_sortBy
  refine compatible.imp ?_
  intro earlier later agree exchanged
  split
  · rename_i keepEarlier
    split
    · rename_i keepLater
      exact agree exchanged keepEarlier keepLater
    · exact .inr (.inl rfl)
  · exact .inl rfl

theorem map_find?_eq_findSome? (test : α → Bool) (value : α → β) (list : List α) :
    (list.find? test).map value = (list.filter test).findSome? (some ∘ value) := by
  induction list with
  | nil => rfl
  | cons first rest ih =>
      rw [List.find?_cons, List.filter_cons]
      cases test first with
      | true => rfl
      | false => exact ih

theorem filter_sortBy_of_length_le_one (order : α → α → Ordering) {keep : α → Bool}
    {list : List α} (few : (list.filter keep).length ≤ 1) :
    (sortBy order list).filter keep = list.filter keep := by
  have perm : ((sortBy order list).filter keep).Perm (list.filter keep) :=
    (sortBy_perm order list).filter keep
  match kept : list.filter keep with
  | [] => rwa [kept, List.perm_nil] at perm
  | [only] => rwa [kept, List.perm_singleton] at perm
  | _ :: _ :: _ => simp [kept] at few

/-- Texts in increasing order, each of them once. -/
def Ascending (texts : List String) : Prop :=
  texts.Pairwise fun left right => compareText left right = .lt

theorem Ascending.nodup {texts : List String} (ascending : Ascending texts) : texts.Nodup := by
  refine List.Pairwise.imp ?_ ascending
  intro left right below same
  have equal : compareText left right = .eq := by
    rw [same]
    exact Std.ReflCmp.compare_self
  simp [equal] at below

theorem ascending_of_sorted {texts : List String} (sorted : Sorted compareText texts)
    (distinct : texts.Nodup) : Ascending texts := by
  refine (sorted.and distinct).imp ?_
  rintro left right ⟨below, different⟩
  cases comparison : compareText left right with
  | lt => rfl
  | eq => exact absurd (Std.LawfulEqCmp.eq_of_compare comparison) different
  | gt => simp [comparison] at below

theorem ascending_sortTexts {texts : List String} (distinct : texts.Nodup) :
    Ascending (sortTexts texts) :=
  ascending_of_sorted (sorted_sortBy compareText texts)
    ((sortBy_perm compareText texts).nodup_iff.mpr distinct)

theorem Ascending.eq_of_mem_iff {left right : List String} (leftAscending : Ascending left)
    (rightAscending : Ascending right) (same : ∀ text, text ∈ left ↔ text ∈ right) :
    left = right := by
  have perm : left.Perm right :=
    (List.perm_ext_iff_of_nodup leftAscending.nodup rightAscending.nodup).mpr same
  refine perm.eq_of_pairwise ?_ leftAscending rightAscending
  intro first second _ _ below above
  have swapped : compareText first second = (compareText second first).swap :=
    Std.OrientedCmp.eq_swap
  simp [below, above] at swapped

theorem compareUnits_append (lead left right : List Char) :
    compareUnits (lead ++ left) (lead ++ right) = compareUnits left right := by
  induction lead with
  | nil => rfl
  | cons first rest ih =>
      have tied : compare (unitRank first) (unitRank first) = .eq := Std.ReflCmp.compare_self
      rw [List.cons_append, List.cons_append, compareUnits, tied, ih]
      rfl

theorem Ascending.map_append {texts : List String} (ascending : Ascending texts)
    (lead : String) : Ascending (texts.map (lead ++ ·)) := by
  refine List.pairwise_map.mpr (List.Pairwise.imp ?_ ascending)
  intro left right below
  rw [compareText, String.toList_append, String.toList_append, compareUnits_append]
  exact below

@[simp] theorem mem_sortTexts {texts : List String} {text : String} :
    text ∈ sortTexts texts ↔ text ∈ texts :=
  mem_sortBy compareText

theorem sortTexts_eq_of_perm {left right : List String} (perm : left.Perm right) :
    sortTexts left = sortTexts right :=
  sortBy_eq_of_perm compareText perm fun _ _ _ _ same => Std.LawfulEqCmp.eq_of_compare same

theorem sortTexts_filter (keep : String → Bool) (texts : List String) :
    sortTexts (texts.filter keep) = (sortTexts texts).filter keep := by
  have sorted : Sorted compareText ((sortTexts texts).filter keep) :=
    (sorted_sortBy compareText texts).filter keep
  have perm : (texts.filter keep).Perm ((sortTexts texts).filter keep) :=
    ((sortBy_perm compareText texts).filter keep).symm
  rw [sortTexts_eq_of_perm perm]
  exact sortBy_of_sorted compareText sorted

end CrateAtlas.Text
