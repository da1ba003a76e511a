import CrateAtlas.Files.Path
import CrateAtlas.Proofs.Text.Lines

/-!
Where path texts lead. Main statements: a straight path text, whose segments are plain names that
no point leads, goes straight down from any place, and different straight texts end at different
paths; any text that leads below a place does so by names of files.
-/

namespace CrateAtlas

namespace Path

/-- A relative path text in normal form, without names that start with a point. -/
def Straight (text : String) : Prop :=
  ∀ segment ∈ Text.splitText '/' text,
    segment ≠ "" ∧ Text.startsWith "." segment.toList = false

instance (text : String) : Decidable (Straight text) := by
  unfold Straight
  infer_instance

theorem startsWith_points {name : List Char} (plain : Text.startsWith "." name = false) :
    Text.startsWith ".." name = false := by
  cases name with
  | nil => rfl
  | cons character rest => simp_all [Text.startsWith, List.isPrefixOf]

/-- A name that a file or folder can have. -/
structure IsName (name : String) : Prop where
  filled : name ≠ ""
  notHere : name ≠ "."
  notUp : name ≠ ".."
  whole : '/' ∉ name.toList

theorem isName_iff {name : String} :
    IsName name ↔ name ≠ "" ∧ name ≠ "." ∧ name ≠ ".." ∧ '/' ∉ name.toList :=
  ⟨fun isName => ⟨isName.filled, isName.notHere, isName.notUp, isName.whole⟩,
    fun ⟨filled, notHere, notUp, whole⟩ => ⟨filled, notHere, notUp, whole⟩⟩

instance (name : String) : Decidable (IsName name) :=
  decidable_of_iff _ isName_iff.symm

theorem Straight.isName {text : String} (straight : Straight text) :
    ∀ segment ∈ Text.splitText '/' text, IsName segment := by
  intro segment member
  obtain ⟨filled, plain⟩ := straight segment member
  refine ⟨filled, ?_, ?_, Text.not_mem_of_mem_splitText member⟩
  · rintro rfl
    simp [Text.startsWith] at plain
  · rintro rfl
    simp [Text.startsWith] at plain

theorem follow_name {name : String} (isName : IsName name) (names : List String) :
    follow names name = names ++ [name] := by
  simp [follow, isName.filled, isName.notHere, isName.notUp]

theorem foldl_follow {segments : List String} (areNames : ∀ segment ∈ segments, IsName segment)
    (names : List String) : segments.foldl follow names = names ++ segments := by
  induction segments generalizing names with
  | nil => simp
  | cons segment rest ih =>
      rw [List.foldl_cons, follow_name (areNames segment List.mem_cons_self),
        ih fun other member => areNames other (List.mem_cons_of_mem segment member),
        List.append_assoc]
      rfl

theorem descend_of_isName {text : String} (areNames : ∀ segment ∈ Text.splitText '/' text,
    IsName segment) (place : Path) :
    place.descend text = ⟨place.names ++ Text.splitText '/' text⟩ := by
  rw [descend, foldl_follow areNames]

theorem descend_straight {text : String} (straight : Straight text) (place : Path) :
    place.descend text = ⟨place.names ++ Text.splitText '/' text⟩ :=
  descend_of_isName straight.isName place

theorem descend_injective {place : Path} {left right : String} (leftStraight : Straight left)
    (rightStraight : Straight right) (same : place.descend left = place.descend right) :
    left = right := by
  rw [descend_straight leftStraight, descend_straight rightStraight] at same
  exact Text.splitText_injective '/' (List.append_cancel_left (congrArg Path.names same))

theorem resolve_of_isName {text : String} (areNames : ∀ segment ∈ Text.splitText '/' text,
    IsName segment) (place : Path) : place.resolve text = place.descend text := by
  rw [resolve, if_neg]
  -- behind a slash in front the first segment would be empty
  intro slash
  obtain ⟨rest, written⟩ := List.isPrefixOf_iff_prefix.mp slash
  have first : "" ∈ Text.splitText '/' text := by
    rw [Text.splitText, ← written]
    simp [Text.splitOn]
  exact (areNames "" first).filled rfl

theorem resolve_straight {text : String} (straight : Straight text) (place : Path) :
    place.resolve text = place.descend text :=
  resolve_of_isName straight.isName place

theorem Straight.append {text tail : String} (straight : Straight text)
    (free : '/' ∉ tail.toList) : Straight (text ++ tail) := by
  obtain ⟨front, last, short, long⟩ := Text.splitOn_append free text.toList
  have segments : ∀ piece ∈ front ++ [last],
      String.ofList piece ≠ "" ∧ Text.startsWith "." piece = false := by
    intro piece member
    have plain := straight (String.ofList piece)
      (by rw [Text.splitText, short]; exact List.mem_map_of_mem member)
    simpa using plain
  intro segment member
  rw [Text.splitText, String.toList_append, long, List.map_append, List.mem_append] at member
  rcases member with member | member
  · obtain ⟨piece, present, rfl⟩ := List.mem_map.mp member
    simpa using segments piece (by simp [present])
  · obtain rfl := List.mem_singleton.mp member
    have lastPlain := segments last (by simp)
    cases last with
    | nil => simp at lastPlain
    | cons character rest =>
        refine ⟨by simp [String.ofList_eq_empty_iff], ?_⟩
        simpa [Text.startsWith, List.isPrefixOf] using lastPlain.2

theorem below?_append (place : Path) (names : List String) :
    below? place ⟨place.names ++ names⟩ = some names := by
  simp [below?]

theorem below?_eq_some {place path : Path} {names : List String} :
    below? place path = some names ↔ path = ⟨place.names ++ names⟩ := by
  constructor
  · intro found
    rw [below?] at found
    split at found
    · rename_i leads
      obtain ⟨rest, written⟩ := List.isPrefixOf_iff_prefix.mp leads
      obtain rfl := Option.some.inj found
      rw [← written, List.drop_left, written]
    · simp at found
  · rintro rfl
    exact below?_append place names

theorem foldl_follow_split {segments : List String}
    (whole : ∀ segment ∈ segments, '/' ∉ segment.toList) (names : List String) :
    ∃ kept added, segments.foldl follow names = kept ++ added ∧ kept <+: names ∧
      ∀ name ∈ added, IsName name := by
  induction segments using List.reverseRecOn with
  | nil => exact ⟨names, [], by simp, List.prefix_rfl, by simp⟩
  | append_singleton earlier segment ih =>
      obtain ⟨kept, added, followed, leads, named⟩ :=
        ih fun other member => whole other (List.mem_append_left _ member)
      rw [List.foldl_append, followed, List.foldl_cons, List.foldl_nil]
      by_cases stays : segment = "" ∨ segment = "."
      · exact ⟨kept, added, by rw [follow, if_pos stays], leads, named⟩
      · by_cases up : segment = ".."
        · rw [follow, if_neg stays, if_pos up]
          by_cases back : added = []
          · exact ⟨kept.dropLast, [], by simp [back], (List.dropLast_prefix kept).trans leads, by simp⟩
          · refine ⟨kept, added.dropLast, List.dropLast_append_of_ne_nil back, leads, ?_⟩
            exact fun name member => named name ((List.dropLast_subset added) member)
        · have isName : IsName segment :=
            ⟨fun empty => stays (.inl empty), fun here => stays (.inr here), up, whole segment (by simp)⟩
          refine ⟨kept, added ++ [segment], ?_, leads, fun name member => ?_⟩
          · rw [follow_name isName, List.append_assoc]
          · rcases List.mem_append.mp member with before | last
            · exact named name before
            · exact List.mem_singleton.mp last ▸ isName

theorem resolve_split (place : Path) (text : String) :
    ∃ kept added, (place.resolve text).names = kept ++ added ∧ kept <+: place.names ∧
      ∀ name ∈ added, IsName name := by
  have whole : ∀ segment ∈ Text.splitText '/' text, '/' ∉ segment.toList :=
    fun _ => Text.not_mem_of_mem_splitText
  rw [resolve]
  split
  · obtain ⟨kept, added, followed, leads, named⟩ := foldl_follow_split whole root.names
    exact ⟨kept, added, followed, leads.trans (List.nil_prefix), named⟩
  · exact foldl_follow_split whole place.names

theorem isName_of_resolve {place : Path} {text : String} {names : List String}
    (leads : place.resolve text = ⟨place.names ++ names⟩) : ∀ name ∈ names, IsName name := by
  obtain ⟨kept, added, split, ⟨rest, whole⟩, named⟩ := resolve_split place text
  rw [leads, ← whole, List.append_assoc] at split
  have inside : rest ++ names = added := List.append_cancel_left split
  intro name member
  exact named name (inside ▸ List.mem_append_right rest member)

theorem render_concat (front : List String) (last : String) :
    ∃ before, render ⟨front ++ [last]⟩ = before ++ last := by
  refine ⟨String.join (front.map fun name => "/" ++ name) ++ "/", ?_⟩
  rw [render]
  split
  · rename_i none
    simp at none
  · simp [String.join_append, String.append_assoc]

theorem render_resolve {text name : String} {segments : List String} (isName : IsName name)
    (split : Text.splitText '/' text = segments ++ [name]) (place : Path) :
    ∃ before, (place.resolve text).render = before ++ name := by
  have descends (start : Path) :
      start.descend text = ⟨segments.foldl follow start.names ++ [name]⟩ := by
    rw [descend, split, List.foldl_append, List.foldl_cons, List.foldl_nil, follow_name isName]
  rw [resolve]
  split
  · exact descends root ▸ render_concat _ name
  · exact descends place ▸ render_concat _ name

theorem mem_ancestors {path above : Path} :
    above ∈ path.ancestors ↔ above.names <+: path.names ∧ above ≠ path := by
  simp only [ancestors, List.mem_map, List.mem_range]
  constructor
  · rintro ⟨count, below, rfl⟩
    refine ⟨List.take_prefix count path.names, fun same => ?_⟩
    have lengths := congrArg (fun path : Path => path.names.length) same
    simp only [List.length_take] at lengths
    omega
  · rintro ⟨leads, different⟩
    refine ⟨above.names.length, ?_, ?_⟩
    · refine Nat.lt_of_le_of_ne leads.length_le fun same => different ?_
      exact congrArg Path.mk (leads.eq_of_length same)
    · exact congrArg Path.mk (List.prefix_iff_eq_take.mp leads).symm

theorem ancestors_split {path above : Path} (member : above ∈ path.ancestors) :
    ∃ rest, path.ancestors = above.ancestors ++ above :: rest := by
  obtain ⟨⟨names, written⟩, different⟩ := mem_ancestors.mp member
  obtain ⟨⟩ | ⟨name, rest⟩ := names
  · refine absurd (congrArg Path.mk ?_) different
    simpa using written
  · have length : path.names.length = above.names.length + (rest.length + 1) := by
      simp [← written]
    have upper : (List.range above.names.length).map
        (fun count => (⟨path.names.take count⟩ : Path)) = above.ancestors := by
      refine List.map_congr_left fun count below => ?_
      rw [← written, List.take_append_of_le_length (Nat.le_of_lt (List.mem_range.mp below))]
    have here : (⟨path.names.take above.names.length⟩ : Path) = above := by
      rw [← written, List.take_left]
    rw [ancestors, length, List.range_add, List.map_append, upper, List.range_succ_eq_map,
      List.map_cons, List.map_cons, Nat.add_zero, here]
    exact ⟨_, rfl⟩

theorem mem_ancestors_child (place : Path) (name : String) :
    place ∈ (place.child name).ancestors := by
  refine mem_ancestors.mpr ⟨List.prefix_append _ _, fun same => ?_⟩
  have lengths := congrArg (fun path : Path => path.names.length) same
  simp [child] at lengths

end Path

end CrateAtlas
