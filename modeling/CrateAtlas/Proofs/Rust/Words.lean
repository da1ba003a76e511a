import CrateAtlas.Proofs.ProperNames
import CrateAtlas.Rust.Grammar.Item
import Mathlib.Data.List.TakeDrop

/-!
Words of source texts: all of them are proper names, and so are those of the items that a text
declares.
-/

namespace CrateAtlas.Rust

def Token.Proper (token : Token) : Prop :=
  token.kind = .word → ProperName token.text

namespace Token

theorem takeWhile_wordTail_proper (text : List Char) :
    '\x00' ∉ text.takeWhile isWordTail := by
  intro member
  have tail := List.all_eq_true.mp List.all_takeWhile _ member
  revert tail
  decide

theorem readTick_not_word (text : List Char) : (readTick text).1 ≠ .word := by
  unfold readTick
  split <;> simp

theorem readWord_proper (text : List Char) (word : (readWord text).1 = .word) :
    '\x00' ∉ (readWord text).2.1 := by
  have plain := takeWhile_wordTail_proper text
  unfold readWord at word ⊢
  dsimp only at word ⊢
  split at word
  · simp at word
  · simp at word
  · simp at word
  · simp at word
  · simp at word
  · simp at word
  · rename_i character body _ _ _
    split
    · have raw := takeWhile_wordTail_proper (character :: body)
      simp only [List.mem_append, List.mem_cons, not_or]
      exact ⟨plain, by decide, raw⟩
    · exact plain
  · exact plain

theorem readToken_proper (isIndex : Bool) (first : Char) (rest : List Char)
    (word : (readToken isIndex first rest).1 = .word) :
    '\x00' ∉ (readToken isIndex first rest).2.1 := by
  unfold readToken at word ⊢
  split
  · rename_i head
    rw [if_pos head] at word
    exact readWord_proper _ word
  · rename_i head
    rw [if_neg head] at word
    split at word
    · simp at word
    · split at word
      · simp at word
      · split at word
        · exact absurd word (readTick_not_word rest)
        · simp at word

theorem readAll_proper (fuel row points : Nat) (text : List Char) :
    ∀ token ∈ readAll fuel row points text, token.Proper := by
  induction fuel generalizing row points text with
  | zero => simp [readAll]
  | succ fuel ih =>
      simp only [readAll]
      split
      · simp
      · rename_i first rest _
        intro token member
        rcases List.mem_cons.mp member with rfl | later
        · intro word
          exact properName_ofList (readToken_proper (points = 1) first rest word)
        · exact ih _ _ _ token later

theorem ofSource_proper (source : String) : ∀ token ∈ ofSource source, token.Proper :=
  readAll_proper _ _ _ _

end Token

namespace Tree

def ProperWords (trees : List Tree) : Prop :=
  ∀ token ∈ tokensOf trees, token.Proper

theorem mem_tokensOf {token : Token} {trees : List Tree} :
    token ∈ tokensOf trees ↔ ∃ tree ∈ trees, token ∈ tokens tree := by
  induction trees with
  | nil => simp [tokensOf]
  | cons first rest ih => simp [tokensOf, ih]

theorem ProperWords.of_subset {part trees : List Tree} (proper : ProperWords trees)
    (subset : part ⊆ trees) : ProperWords part := by
  intro token member
  obtain ⟨tree, treeMember, found⟩ := mem_tokensOf.mp member
  exact proper token (mem_tokensOf.mpr ⟨tree, subset treeMember, found⟩)

theorem properWords_cons {first : Tree} {rest : List Tree} :
    ProperWords (first :: rest) ↔ ProperWords [first] ∧ ProperWords rest := by
  simp only [ProperWords, mem_tokensOf, List.mem_cons, List.not_mem_nil, or_false]
  constructor
  · intro proper
    refine ⟨?_, ?_⟩
    · rintro token ⟨tree, rfl, member⟩
      exact proper token ⟨tree, .inl rfl, member⟩
    · rintro token ⟨tree, later, member⟩
      exact proper token ⟨tree, .inr later, member⟩
  · rintro ⟨firstProper, restProper⟩ token ⟨tree, rfl | later, member⟩
    · exact firstProper token ⟨tree, rfl, member⟩
    · exact restProper token ⟨tree, later, member⟩

theorem properWords_group {opener closer : Token} {inside : List Tree} :
    ProperWords [.group opener inside closer] ↔
      opener.Proper ∧ ProperWords inside ∧ closer.Proper := by
  simp only [ProperWords, tokensOf, tokens, List.append_nil, List.mem_append, List.mem_cons,
    List.not_mem_nil, or_false]
  constructor
  · intro proper
    exact ⟨proper opener (.inl (.inl rfl)), fun token member => proper token (.inl (.inr member)),
      proper closer (.inr rfl)⟩
  · rintro ⟨openerProper, insideProper, closerProper⟩ token ((rfl | member) | rfl)
    · exact openerProper
    · exact insideProper token member
    · exact closerProper

theorem groupTokens_proper {tokens : List Token} {opened : List (Token × List Tree)}
    {read trees : List Tree} (tokensProper : ∀ token ∈ tokens, token.Proper)
    (readProper : ProperWords read)
    (openedProper : ∀ entry ∈ opened, entry.1.Proper ∧ ProperWords entry.2)
    (grouped : groupTokens opened read tokens = some trees) : ProperWords trees := by
  -- On the tokens that are still to be read; the trees on the stack stay proper throughout.
  induction tokens generalizing opened read with
  | nil =>
      simp only [groupTokens] at grouped
      split at grouped
      · obtain rfl := Option.some.inj grouped
        exact readProper.of_subset fun _ member => List.mem_reverse.mp member
      · simp at grouped
  | cons first rest ih =>
      have firstProper := tokensProper first (by simp)
      have restProper : ∀ token ∈ rest, token.Proper := fun token member =>
        tokensProper token (by simp [member])
      simp only [groupTokens] at grouped
      split at grouped
      · refine ih restProper (by simp [ProperWords, tokensOf]) ?_ grouped
        intro entry member
        rcases List.mem_cons.mp member with rfl | outer
        · exact ⟨firstProper, readProper⟩
        · exact openedProper entry outer
      · split at grouped
        · refine ih restProper ?_ openedProper grouped
          have leafProper : ProperWords [.leaf first] := by
            simpa [ProperWords, tokensOf, Tree.tokens] using firstProper
          exact properWords_cons.mpr ⟨leafProper, readProper⟩
        · simp at grouped
        · rename_i opening opener before outer _
          obtain ⟨openerProper, beforeProper⟩ := openedProper (opener, before) (by simp)
          split at grouped
          · refine ih restProper (properWords_cons.mpr ⟨properWords_group.mpr ⟨openerProper, ?_,
              firstProper⟩, beforeProper⟩) ?_ grouped
            · exact readProper.of_subset fun _ member => List.mem_reverse.mp member
            · exact fun entry member => openedProper entry (by simp [member])
          · simp at grouped

end Tree

namespace Tree

theorem dropAttributes_subset (trees : List Tree) : dropAttributes trees ⊆ trees := by
  fun_induction dropAttributes trees with
  | case1 first second third rest _ ih =>
      intro tree member
      exact List.mem_cons_of_mem _ (List.mem_cons_of_mem _ (ih member))
  | case2 first second third rest _ _ ih =>
      intro tree member
      exact List.mem_cons_of_mem _ (List.mem_cons_of_mem _ (List.mem_cons_of_mem _ (ih member)))
  | case3 => exact List.Subset.refl _
  | case4 => exact List.nil_subset _
  | case5 => exact List.Subset.refl _
  | case6 => exact List.Subset.refl _

theorem cutOutside_append (test : Tree → Bool) (depth : Nat) (previous : Option Tree)
    (trees : List Tree) :
    (cutOutside test depth previous trees).1 ++ (cutOutside test depth previous trees).2 =
      trees := by
  induction trees generalizing depth previous with
  | nil => rfl
  | cons first rest ih =>
      simp only [cutOutside]
      split
      · rfl
      · rw [List.cons_append, ih]

end Tree

namespace Item

open CrateAtlas.Rust.Tree

theorem takeVisibility_subset (trees : List Tree) : (takeVisibility trees).2 ⊆ trees := by
  cases trees with
  | nil => exact List.nil_subset _
  | cons first rest =>
      simp only [takeVisibility]
      split
      · cases rest with
        | nil => exact List.nil_subset _
        | cons second tail =>
            dsimp only
            split <;> intro tree member <;> simp_all
      · split <;> intro tree member <;> simp_all

theorem takeModifiers_subset (trees : List Tree) : (takeModifiers trees).2 ⊆ trees := by
  fun_induction takeModifiers trees with
  | case1 => exact List.nil_subset _
  | case2 => exact List.Subset.refl _
  | case3 first second rest =>
      intro tree member
      exact List.mem_cons_of_mem _ (List.mem_cons_of_mem _ member)
  | case4 first second rest _ _ modifiers tail taken ih =>
      rw [taken] at ih
      intro tree member
      exact List.mem_cons_of_mem _ (ih member)
  | case5 => exact List.Subset.refl _

theorem cutHead_append (keyword : String) (trees : List Tree) :
    (cutHead keyword trees).1 ++ (cutHead keyword trees).2 = trees := by
  have spanned : ∀ test : Tree → Bool, (trees.span test).1 ++ (trees.span test).2 = trees := by
    intro test
    rw [List.span_eq_takeWhile_dropWhile]
    exact List.takeWhile_append_dropWhile
  unfold cutHead
  split
  · exact spanned _
  · exact spanned _
  · exact spanned _
  · exact spanned _
  · exact spanned _
  · exact cutOutside_append _ 0 none trees

def Within (item : Item) (trees : List Tree) : Prop :=
  item.head ⊆ trees ∧ item.finish.toList ⊆ trees

theorem Within.mono {item : Item} {part trees : List Tree} (within : item.Within part)
    (subset : part ⊆ trees) : item.Within trees :=
  ⟨List.Subset.trans within.1 subset, List.Subset.trans within.2 subset⟩

theorem take?_within {trees rest : List Tree} {item : Item}
    (taken : take? trees = some (item, rest)) : item.Within trees ∧ rest ⊆ trees := by
  simp only [take?] at taken
  split at taken
  · simp at taken
  · rename_i keyword behind modified
    have subset : behind ⊆ trees := by
      have whole := List.Subset.trans (takeModifiers_subset (takeVisibility trees).2)
        (takeVisibility_subset trees)
      rw [modified] at whole
      exact List.Subset.trans (List.subset_cons_self _ _) whole
    split at taken
    · simp at taken
    · rename_i word _
      split at taken
      · obtain ⟨rfl, rfl⟩ := Prod.mk.inj (Option.some.inj taken)
        have parts := cutHead_append word behind
        have head : (cutHead word behind).1 ⊆ behind := by
          conv_rhs => rw [← parts]
          exact List.subset_append_left _ _
        have tail : (cutHead word behind).2 ⊆ behind := by
          conv_rhs => rw [← parts]
          exact List.subset_append_right _ _
        refine ⟨⟨List.Subset.trans head subset, ?_⟩, ?_⟩
        · intro tree member
          exact subset (tail (List.mem_of_mem_head? (by simpa using member)))
        · exact List.Subset.trans (List.Subset.trans (List.tail_sublist _).subset tail) subset
      · simp at taken

end Item

open CrateAtlas.Rust.Tree in
theorem Piece.listFrom_within {fuel : Nat} {trees : List Tree} {item : Item}
    (member : Piece.item item ∈ listFrom fuel trees) : item.Within trees := by
  induction fuel generalizing trees with
  | zero => simp [listFrom] at member
  | succ fuel ih =>
      have kept := dropAttributes_subset trees
      simp only [listFrom, List.mem_cons, reduceCtorEq, false_or] at member
      split at member
      · simp at member
      · rename_i first rest found
        rw [found] at kept member
        split at member
        · rename_i next tail taken
          obtain ⟨within, subset⟩ := Item.take?_within taken
          rcases List.mem_cons.mp member with same | later
          · obtain rfl := Piece.item.inj same
            exact within.mono kept
          · exact (ih later).mono (List.Subset.trans subset kept)
        · simp only [List.mem_cons, reduceCtorEq, false_or] at member
          exact (ih member).mono (List.Subset.trans (List.subset_cons_self _ _) kept)

namespace Item

open CrateAtlas.Rust.Tree

def Proper (item : Item) : Prop :=
  ProperWords item.head ∧ ProperWords item.finish.toList

theorem proper_of_mem_list {trees : List Tree} (proper : ProperWords trees) {item : Item}
    (member : Piece.item item ∈ Piece.list trees) : item.Proper :=
  ⟨proper.of_subset (Piece.listFrom_within member).1,
    proper.of_subset (Piece.listFrom_within member).2⟩

theorem Proper.word {item : Item} (proper : item.Proper) {token : Token}
    (member : .leaf token ∈ item.head) (word : token.kind = .word) : ProperName token.text :=
  proper.1 token (mem_tokensOf.mpr ⟨_, member, by simp [tokens]⟩) word

theorem Proper.body {item : Item} (proper : item.Proper) {finish : Tree}
    (ends : item.finish = some finish) {inside : List Tree} (braces : finish.braces? = some inside) :
    ProperWords inside := by
  have wordsProper := proper.2
  rw [ends] at wordsProper
  cases finish with
  | leaf => simp [braces?, inside?] at braces
  | group opener trees closer =>
      simp only [braces?, inside?] at braces
      split at braces
      · obtain rfl := Option.some.inj braces
        exact (properWords_group.mp wordsProper).2.1
      · simp at braces

end Item

end CrateAtlas.Rust
