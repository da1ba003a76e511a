import CrateAtlas.Diagram.Render
import CrateAtlas.Proofs.Extracted
import CrateAtlas.Proofs.Text.Blanks
import CrateAtlas.Proofs.TypeText.Split

/-!
Signatures of functions and what class diagrams show of them. Main statement: the parameters of a
method are shown one by one without its receiver, unless a parenthesis stands in the generic
parameters; then the types in these parentheses are shown for the parameters.
-/

namespace CrateAtlas.Diagram

open Text TypeText

section Search

variable {front inner rest text : List Char}

/-- The letters of the keyword with a blank behind them, at the end of another word or not. -/
def HoldsKeyword (text : List Char) : Prop :=
  ∃ blank, isBlank blank ∧ ['f', 'n', blank] <:+: text

theorem fromFnKeyword?_skip {inWord : Bool} {character : Char}
    (other : ∀ next tail, character = 'f' → rest = 'n' :: next :: tail → isBlank next = false) :
    fromFnKeyword? inWord (character :: rest) = fromFnKeyword? (isWordChar character) rest := by
  rw [fromFnKeyword?.eq_def]
  refine if_neg ?_
  split
  · rename_i next tail
    simp [other next tail rfl rfl]
  · exact Bool.false_ne_true

theorem fromFnKeyword?_append {qualifiers : List Char} {inWord : Bool} {blank : Char}
    (unkeyed : ¬HoldsKeyword qualifiers)
    (apart : ∀ last ∈ qualifiers.getLast?, isWordChar last = false)
    (start : qualifiers = [] → inWord = false) (gap : isBlank blank) (rest : List Char) :
    fromFnKeyword? inWord (qualifiers ++ 'f' :: 'n' :: blank :: rest) =
      some ('f' :: 'n' :: blank :: rest) := by
  induction qualifiers generalizing inWord with
  | nil => simp [fromFnKeyword?, start rfl, gap]
  | cons character others ih =>
      have deeper : ¬HoldsKeyword others := fun ⟨blank, isBlank, held⟩ =>
        unkeyed ⟨blank, isBlank, held.trans (List.suffix_cons character others).isInfix⟩
      rw [List.cons_append, fromFnKeyword?_skip]
      · refine ih deeper ?_ ?_
        · intro last final
          exact apart last (by simp [List.getLast?_cons, Option.mem_def.mp final])
        · rintro rfl
          exact apart character rfl
      · -- the blank would have to be the `f` of the keyword or stand among the qualifiers
        rintro next tail rfl shape
        obtain ⟨second, more, rfl⟩ : ∃ second more, others = second :: more :=
          List.exists_cons_of_ne_nil (by rintro rfl; simp at shape)
        obtain ⟨rfl, behind⟩ := List.cons.inj shape
        cases more with
        | nil =>
            obtain ⟨rfl, -⟩ := List.cons.inj behind
            decide
        | cons third others =>
            obtain ⟨rfl, -⟩ := List.cons.inj behind
            by_contra blank
            exact unkeyed ⟨third, by simpa using blank, [], others, rfl⟩

theorem partner?_eq_parenthesis {character : Char} :
    partner? character = some ')' ↔ character = '(' := by
  constructor
  · intro found
    unfold partner? at found
    split at found <;> simp_all
  · rintro rfl
    rfl

theorem closeParentheses?_append {awaited : List Char} {previous : Option Char}
    (paired : isPaired awaited previous text) (read rest : List Char) :
    closeParentheses? (awaited.count ')') read (text ++ rest) =
      closeParentheses? 0 (text.reverse ++ read) rest := by
  induction text generalizing awaited previous read with
  | nil =>
      rw [isPaired, List.isEmpty_iff] at paired
      subst paired
      rfl
  | cons character others ih =>
      rw [List.cons_append, closeParentheses?.eq_def, List.reverse_cons, List.append_assoc]
      dsimp only
      obtain ⟨closer, opens, inner⟩ | ⟨opensNot, closes, outer, rfl, inner⟩ |
        ⟨opensNot, closesNot, _, inner⟩ := isPaired_cases paired
      · have deeper := ih inner (character :: read)
        by_cases parenthesis : character = '('
        · subst parenthesis
          obtain rfl := Option.some.inj opens
          rw [List.count_cons_self] at deeper
          exact deeper
        · have other : closer ≠ ')' := by
            rintro rfl
            exact parenthesis (partner?_eq_parenthesis.mp opens)
          have notClosing : character ≠ ')' := by
            rintro rfl
            simp [partner?] at opens
          rw [List.count_cons_of_ne other] at deeper
          rw [if_neg parenthesis, if_neg notClosing]
          exact deeper
      · have deeper := ih inner (character :: read)
        rw [if_neg fun same => by simp [same, partner?] at opensNot]
        by_cases parenthesis : character = ')'
        · subst parenthesis
          rw [if_pos rfl, List.count_cons_self]
          exact deeper
        · rw [if_neg parenthesis, List.count_cons_of_ne parenthesis]
          exact deeper
      · rw [if_neg fun same => by simp [same, partner?] at opensNot,
          if_neg fun same => by simp [same, isCloser] at closesNot]
        exact ih inner (character :: read)

theorem closeParentheses?_intercalate {pieces : List (List Char)}
    (paired : ∀ piece ∈ pieces, isPaired [] none piece) (read rest : List Char) :
    closeParentheses? 0 read ([','].intercalate pieces ++ ')' :: rest) =
      some (read.reverse ++ [','].intercalate pieces) := by
  induction pieces generalizing read with
  | nil => simp [closeParentheses?]
  | cons piece others ih =>
      obtain ⟨here, deeper⟩ := List.forall_mem_cons.mp paired
      have passed := closeParentheses?_append here read
      rw [List.count_nil] at passed
      cases others with
      | nil =>
          rw [List.intercalate_singleton, passed]
          simp [closeParentheses?]
      | cons second more =>
          rw [List.intercalate_cons_cons, List.append_assoc, List.append_assoc, passed,
            List.singleton_append, closeParentheses?, if_neg (by decide), if_neg (by decide),
            ih deeper]
          simp

/-- The list that is read is the first one in parentheses behind the keyword. -/
theorem parameterList_eq {qualifiers : List Char} {blank : Char} {pieces : List (List Char)}
    (unkeyed : ¬HoldsKeyword qualifiers)
    (apart : ∀ last ∈ qualifiers.getLast?, isWordChar last = false) (gap : isBlank blank)
    (free : '(' ∉ front) (paired : ∀ piece ∈ pieces, isPaired [] none piece) (rest : List Char) :
    parameterList (qualifiers ++ 'f' :: 'n' :: blank :: (front ++ '(' ::
        ([','].intercalate pieces ++ ')' :: rest))) =
      (pieces.map trim).filter (· ≠ []) := by
  have open_free : '(' ∉ 'f' :: 'n' :: blank :: front := by
    have other : '(' ≠ blank := by
      rintro rfl
      simp [isBlank] at gap
    simp [free, other]
  rw [parameterList, fromFnKeyword?_append unkeyed apart (fun _ => rfl) gap, Option.getD_some,
    ← List.cons_append, ← List.cons_append, ← List.cons_append, cutAt?_append open_free]
  dsimp only
  rw [closeParentheses?_intercalate paired]
  exact splitTopLevelChars_paired paired

end Search

section Receivers

def Blank (text : List Char) : Prop :=
  ∀ character ∈ text, isBlank character

def Lettered (text : List Char) : Prop :=
  ∀ character ∈ text, isWordChar character

instance (text : List Char) : Decidable (Blank text) :=
  List.decidableBAll _ text

instance (text : List Char) : Decidable (Lettered text) :=
  List.decidableBAll _ text

/-- The text `self` or `mut self`. -/
inductive OwnReceiver : List Char → Prop
  | plain : OwnReceiver "self".toList
  | mutable {gap} (filled : gap ≠ []) (blank : Blank gap) :
      OwnReceiver ("mut".toList ++ gap ++ "self".toList)

/-- What a function takes for its receiver: by value, by reference, or by reference with a
lifetime. -/
inductive Receiver : List Char → Prop
  | own {text} (own : OwnReceiver text) : Receiver text
  | borrowed {gap text} (blank : Blank gap) (own : OwnReceiver text) :
      Receiver ('&' :: (gap ++ text))
  | outliving {gap word space text} (blank : Blank gap) (named : word ≠ [])
      (spelled : Lettered word) (filled : space ≠ [])
      (spaced : Blank space) (own : OwnReceiver text) :
      Receiver ('&' :: (gap ++ '\'' :: (word ++ (space ++ text))))

variable {text : List Char}

theorem trimStart_append_blank {gap : List Char} (blank : Blank gap) (text : List Char) :
    trimStart (gap ++ text) = trimStart text := by
  rw [trimStart, List.dropWhile_append_of_pos blank]
  rfl

theorem OwnReceiver.starts (own : OwnReceiver text) :
    ∃ first rest, text = first :: rest ∧ (first = 's' ∨ first = 'm') := by
  cases own with
  | plain => exact ⟨'s', _, rfl, .inl rfl⟩
  | mutable => exact ⟨'m', _, rfl, .inr rfl⟩

theorem OwnReceiver.trimStart (own : OwnReceiver text) : trimStart text = text := by
  obtain ⟨first, rest, rfl, rfl | rfl⟩ := own.starts
  · exact trimStart_of_head (by simp [isBlank])
  · exact trimStart_of_head (by simp [isBlank])

theorem OwnReceiver.dropReceiverMut (own : OwnReceiver text) :
    dropReceiverMut text = "self".toList := by
  cases own with
  | plain => decide
  | mutable filled blank =>
      rename_i gap
      obtain ⟨next, more, rfl⟩ := List.exists_cons_of_ne_nil filled
      rw [Diagram.dropReceiverMut, List.append_assoc, afterLead?_eq_some.mpr rfl,
        List.cons_append]
      dsimp only
      rw [if_pos (blank next List.mem_cons_self), ← List.cons_append, trimStart_append_blank blank]
      decide

theorem OwnReceiver.dropReceiverLifetime (own : OwnReceiver text) :
    dropReceiverLifetime text = text := by
  obtain ⟨first, rest, rfl, rfl | rfl⟩ := own.starts
  · rfl
  · rfl

theorem isReceiver_of_receiver (receiver : Receiver text) : isReceiver text = true := by
  rw [isReceiver, decide_eq_true_eq]
  cases receiver with
  | own own =>
      have unborrowed : dropReceiverReference text = text := by
        obtain ⟨first, rest, rfl, rfl | rfl⟩ := own.starts
        · rfl
        · rfl
      rw [unborrowed, own.dropReceiverLifetime, own.dropReceiverMut]
  | borrowed blank own =>
      rw [dropReceiverReference, trimStart_append_blank blank, own.trimStart,
        own.dropReceiverLifetime, own.dropReceiverMut]
  | outliving blank named spelled filled spaced own =>
      rename_i gap word space own'
      obtain ⟨first, letters, rfl⟩ := List.exists_cons_of_ne_nil named
      obtain ⟨next, more, rfl⟩ := List.exists_cons_of_ne_nil filled
      have wide := spaced next List.mem_cons_self
      have stops : isWordChar next = false := by
        have noName := isNameChar_of_isBlank wide
        rw [isNameChar, Bool.or_eq_false_iff] at noName
        exact noName.1
      have letter : isWordChar first = true := spelled first List.mem_cons_self
      have bare : dropReceiverLifetime ('\'' :: (first :: letters ++ (next :: more ++ own'))) =
          own' := by
        rw [dropReceiverLifetime, List.dropWhile_append_of_pos spelled, List.cons_append,
          List.cons_append, List.dropWhile_cons_of_neg (by simp [stops])]
        simp only [List.head?_cons, letter, wide, Bool.and_self, if_true]
        rw [← List.cons_append, trimStart_append_blank spaced, own.trimStart]
      rw [dropReceiverReference, trimStart_append_blank blank,
        trimStart_of_head (by simp [isBlank]), bare, own.dropReceiverMut]

theorem OwnReceiver.letters (own : OwnReceiver text) :
    ∀ character ∈ text, isWordChar character ∨ isBlank character := by
  have ownLetters : Lettered "self".toList := by decide
  have mutLetters : Lettered "mut".toList := by decide
  cases own with
  | plain => exact fun character member => .inl (ownLetters character member)
  | mutable _ blank =>
      intro character member
      rcases List.mem_append.mp member with inFront | inSelf
      · rcases List.mem_append.mp inFront with inMut | inGap
        · exact .inl (mutLetters character inMut)
        · exact .inr (blank character inGap)
      · exact .inl (ownLetters character inSelf)

theorem Receiver.letters (receiver : Receiver text) :
    ∀ character ∈ text,
      isWordChar character ∨ isBlank character ∨ character = '&' ∨ character = '\'' := by
  cases receiver with
  | own own => exact fun character member => (own.letters character member).imp_right .inl
  | borrowed blank own =>
      intro character member
      rcases List.mem_cons.mp member with rfl | member
      · exact .inr (.inr (.inl rfl))
      rcases List.mem_append.mp member with inGap | inOwn
      · exact .inr (.inl (blank character inGap))
      · exact (own.letters character inOwn).imp_right .inl
  | outliving blank _ spelled _ spaced own =>
      intro character member
      rcases List.mem_cons.mp member with rfl | member
      · exact .inr (.inr (.inl rfl))
      rcases List.mem_append.mp member with inGap | member
      · exact .inr (.inl (blank character inGap))
      rcases List.mem_cons.mp member with rfl | member
      · exact .inr (.inr (.inr rfl))
      rcases List.mem_append.mp member with inWord | member
      · exact .inl (spelled character inWord)
      rcases List.mem_append.mp member with inSpace | inOwn
      · exact .inr (.inl (spaced character inSpace))
      · exact (own.letters character inOwn).imp_right .inl

theorem isPaired_of_letters (letters : ∀ character ∈ text,
      isWordChar character ∨ isBlank character ∨ character = '&' ∨ character = '\'') :
    isPaired [] none text := by
  refine isPaired_of_free fun character member => ?_
  have others : ['<', '>', '(', ')', '[', ']', '\x7b', '\x7d', '-', ','].all (fun bracket =>
      ¬(isWordChar bracket ∨ isBlank bracket ∨ bracket = '&' ∨ bracket = '\'')) := by
    decide
  have free : character ∉ ['<', '>', '(', ')', '[', ']', '\x7b', '\x7d', '-', ','] := by
    intro bracket
    have other := List.all_eq_true.mp others character bracket
    exact of_decide_eq_true other (letters character member)
  simp only [List.mem_cons, List.not_mem_nil, or_false, not_or] at free
  simp [IsSeparator, isOpener, isCloser, free]

theorem isPaired_of_trim {piece : List Char} (receiver : Receiver (trim piece)) :
    isPaired [] none piece := by
  obtain ⟨lead, tail, whole, leadBlank, tailBlank⟩ := exists_blanks_trim piece
  refine isPaired_of_letters fun character member => ?_
  rw [whole] at member
  rcases List.mem_append.mp member with inLead | member
  · exact .inr (.inl (leadBlank character inLead))
  rcases List.mem_append.mp member with inside | inTail
  · exact receiver.letters character inside
  · exact .inr (.inl (tailBlank character inTail))

end Receivers

section Functions

/-- A named parameter with the blanks around its name and its type. -/
structure Parameter where
  name : List Char
  type : List Char
  unmarked : ':' ∉ name
  paired : isPaired [] none (name ++ ':' :: type)

def Parameter.text (parameter : Parameter) : List Char :=
  parameter.name ++ ':' :: parameter.type

def Parameter.entry (parameter : Parameter) : String :=
  escapeText (String.ofList (trim parameter.name) ++ " " ++ String.ofList (trim parameter.type))

theorem Parameter.trim_text (parameter : Parameter) :
    trim parameter.text = trimStart parameter.name ++ ':' :: trimEnd parameter.type := by
  have colon : ∀ character ∈ ([':'] : List Char).getLast?, isBlank character = false := by
    simp [isBlank]
  rw [Parameter.text, trim, trimStart_append (by simp [isBlank]),
    ← List.singleton_append, ← List.append_assoc, trimEnd_append_of_last (by simp [isBlank])]
  simp

theorem mem_dropWhile {text : List Char} {test : Char → Bool} {character : Char}
    (kept : test character = false) (member : character ∈ text) :
    character ∈ text.dropWhile test := by
  rw [← List.takeWhile_append_dropWhile (p := test) (l := text)] at member
  rcases List.mem_append.mp member with dropped | behind
  · simp [List.mem_takeWhile_imp dropped] at kept
  · exact behind

section Colons

variable {text : List Char} (member : ':' ∈ text)
include member

theorem colon_mem_dropReceiverReference : ':' ∈ dropReceiverReference text := by
  unfold dropReceiverReference
  split
  · exact mem_dropWhile (by decide) (List.mem_of_ne_of_mem (by decide) member)
  · exact member

theorem colon_mem_dropReceiverLifetime : ':' ∈ dropReceiverLifetime text := by
  unfold dropReceiverLifetime
  split
  · have behind := List.mem_of_ne_of_mem (by decide) member
    dsimp only
    split
    · split
      · exact mem_dropWhile (by decide) (mem_dropWhile (by decide) behind)
      · exact member
    · exact member
  · exact member

theorem colon_mem_dropReceiverMut : ':' ∈ dropReceiverMut text := by
  unfold dropReceiverMut
  split
  · rename_i next rest found
    split
    · rw [afterLead?_eq_some.mp found, List.mem_append] at member
      exact mem_dropWhile (by decide) (member.resolve_left (by decide))
    · exact member
  · exact member

theorem isReceiver_of_colon : isReceiver text = false := by
  have left := colon_mem_dropReceiverMut
    (colon_mem_dropReceiverLifetime (colon_mem_dropReceiverReference member))
  rw [isReceiver, decide_eq_false_iff_not]
  intro same
  rw [same] at left
  exact absurd left (by decide)

end Colons

theorem Parameter.formatParameter_trim (parameter : Parameter) :
    formatParameter (trim parameter.text) = trim parameter.name ++ ' ' :: trim parameter.type := by
  have unmarked : ':' ∉ trimStart parameter.name := fun member =>
    parameter.unmarked ((List.dropWhile_suffix isBlank).subset member)
  have trimmed : trim (trimStart parameter.name) = trim parameter.name := by
    rw [trim, trimStart_of_head (head_trimStart _), ← trim]
  rw [parameter.trim_text, formatParameter, cutAt?_append unmarked]
  simp only [trimmed, trim_trimEnd]

def entriesOf (pieces : List (List Char)) : List String :=
  (((pieces.map trim).filter (· ≠ [])).filter fun piece => !isReceiver piece).map fun piece =>
    String.ofList (escapeMember (formatParameter piece))

theorem entriesOf_append (left right : List (List Char)) :
    entriesOf (left ++ right) = entriesOf left ++ entriesOf right := by
  simp [entriesOf]

theorem entriesOf_blank {piece : List Char} (blank : Blank piece) : entriesOf [piece] = [] := by
  have nothing : trim piece = [] := by
    rw [trim, trimStart, List.dropWhile_eq_nil_iff.mpr blank]
    rfl
  simp [entriesOf, nothing]

theorem entriesOf_receiver {piece : List Char} (receiver : Receiver (trim piece)) :
    entriesOf [piece] = [] := by
  simp [entriesOf, isReceiver_of_receiver receiver, List.filter_cons]

theorem entriesOf_parameters (parameters : List Parameter) :
    entriesOf (parameters.map Parameter.text) = parameters.map Parameter.entry := by
  induction parameters with
  | nil => rfl
  | cons parameter rest ih =>
      have colon : ':' ∈ trim parameter.text := by simp [parameter.trim_text]
      have filled : trim parameter.text ≠ [] := List.ne_nil_of_mem colon
      rw [List.map_cons, ← List.singleton_append, entriesOf_append, ih, List.map_cons]
      simp [entriesOf, filled, isReceiver_of_colon colon, parameter.formatParameter_trim,
        Parameter.entry, escapeText]

/-- The text of a function up to its body: what stands in front of the keyword, the name, the generic
parameters, the receiver and the parameters with a comma behind the last of them or not, and the
result and conditions behind the list. -/
structure FunctionText where
  qualifiers : List Char
  gap : List Char
  name : List Char
  generics : List Char
  receiver : Option (List Char)
  parameters : List Parameter
  trailing : Option (List Char)
  rest : List Char
  unkeyed : ¬HoldsKeyword qualifiers
  apart : ∀ last ∈ qualifiers.getLast?, isWordChar last = false
  spaced : gap ≠ [] ∧ Blank gap
  named : '(' ∉ name
  receives : ∀ piece ∈ receiver, Receiver (trim piece)
  ends : ∀ piece ∈ trailing, Blank piece

namespace FunctionText

variable (function : FunctionText)

def pieces : List (List Char) :=
  function.receiver.toList ++ function.parameters.map Parameter.text ++ function.trailing.toList

def text : List Char :=
  function.qualifiers ++ "fn".toList ++ function.gap ++ function.name ++ function.generics ++
    '(' :: ([','].intercalate function.pieces ++ ')' :: function.rest)

theorem entriesOf_pieces : entriesOf function.pieces = function.parameters.map Parameter.entry := by
  have receiver : entriesOf function.receiver.toList = [] := by
    cases given : function.receiver with
    | none => rfl
    | some piece => exact entriesOf_receiver (function.receives piece given)
  have trailing : entriesOf function.trailing.toList = [] := by
    cases given : function.trailing with
    | none => rfl
    | some piece => exact entriesOf_blank (function.ends piece given)
  rw [pieces, entriesOf_append, entriesOf_append, receiver, trailing, entriesOf_parameters]
  simp

theorem paired_of_mem_pieces {piece : List Char} (member : piece ∈ function.pieces) :
    isPaired [] none piece := by
  rcases List.mem_append.mp member with inFront | inTrailing
  · rcases List.mem_append.mp inFront with inReceiver | inParameters
    · exact isPaired_of_trim (function.receives piece (Option.mem_toList.mp inReceiver))
    · obtain ⟨parameter, _, rfl⟩ := List.mem_map.mp inParameters
      exact parameter.paired
  · have blank := function.ends piece (Option.mem_toList.mp inTrailing)
    exact isPaired_of_letters fun character inside => .inr (.inl (blank character inside))

end FunctionText

/-- A method as a class diagram shows it, with these entries for its parameters. -/
def shownMethod (method : Method) (entries : List String) : String :=
  visibilityMarker method.visibility ++ method.name ++ "(" ++ joinWith ", " entries ++ ")" ++
    match Resolver.named method.returnType with
    | some type => " " ++ escapeText type
    | none => ""

/-- The pieces of the first list in parentheses behind the name are shown. -/
theorem formatMethod_eq {method : Method} (function : FunctionText) {front rest : List Char}
    {pieces : List (List Char)} (free : '(' ∉ front)
    (paired : ∀ piece ∈ pieces, isPaired [] none piece)
    (recorded : method.signature.toList = function.qualifiers ++ "fn".toList ++ function.gap ++
      function.name ++ front ++ '(' :: ([','].intercalate pieces ++ ')' :: rest)) :
    formatMethod method = shownMethod method (entriesOf pieces) := by
  obtain ⟨blank, more, spaced⟩ := List.exists_cons_of_ne_nil function.spaced.1
  have gap := function.spaced.2
  rw [spaced] at gap
  obtain ⟨here, others⟩ := List.forall_mem_cons.mp gap
  have unopened : '(' ∉ more := fun member => absurd (others _ member) (by decide)
  have closed : '(' ∉ more ++ function.name ++ front := by
    simp [unopened, function.named, free]
  have shape : method.signature.toList = function.qualifiers ++ 'f' :: 'n' :: blank ::
      (more ++ function.name ++ front ++ '(' :: ([','].intercalate pieces ++ ')' :: rest)) := by
    rw [recorded, spaced]
    simp
  rw [formatMethod, shape, parameterList_eq function.unkeyed function.apart here closed paired]
  rfl

/-- A method lists the parameters of its function in their order, each with its type, and leaves the
receiver out. Parentheses among the generic parameters, as in bounds on closures, are taken for
the list: then the types in the first of them are listed, whatever the parameters are. -/
theorem formatMethod_lists_parameters (method : Method) (function : FunctionText)
    (recorded : method.signature.toList = function.text) :
    ('(' ∉ function.generics →
      formatMethod method = shownMethod method (function.parameters.map Parameter.entry)) ∧
    ∀ front bounds behind,
      function.generics = front ++ '(' :: ([','].intercalate bounds ++ ')' :: behind) →
      '(' ∉ front → (∀ bound ∈ bounds, isPaired [] none bound) →
      formatMethod method = shownMethod method (entriesOf bounds) := by
  constructor
  · intro free
    rw [← function.entriesOf_pieces]
    exact formatMethod_eq function free (fun _ => function.paired_of_mem_pieces) recorded
  · intro front bounds behind generics free paired
    have shape : method.signature.toList = function.qualifiers ++ "fn".toList ++ function.gap ++
        function.name ++ front ++ '(' :: ([','].intercalate bounds ++ ')' ::
          (behind ++ '(' :: ([','].intercalate function.pieces ++ ')' :: function.rest))) := by
      rw [recorded, FunctionText.text, generics]
      simp
    exact formatMethod_eq function free paired shape

end Functions

section Ferry

def methodsIn (source : String) : List Method :=
  (Extraction.snapshotOf 0 "" [("src/lib.rs", source)]).units.flatMap fun unit =>
    unit.impls.flatMap ImplBlock.methods

def loading : String :=
  "impl Ferry \x7b pub(crate) fn load<T: Into<u8>>(&'a mut self, " ++
    "deck: Vec<(u8, T)>, check: fn(&str) -> bool,) -> Result<(), E> where T: Copy \x7b\x7d \x7d"

def deck : Parameter where
  name := " deck".toList
  type := " Vec<(u8, T)>".toList
  unmarked := by decide
  paired := by decide +kernel

def check : Parameter where
  name := " check".toList
  type := " fn(&str) -> bool".toList
  unmarked := by decide
  paired := by decide +kernel

def loadText : FunctionText where
  qualifiers := "pub(crate) ".toList
  gap := " ".toList
  name := "load".toList
  generics := "<T: Into<u8>>".toList
  receiver := some "&'a mut self".toList
  parameters := [deck, check]
  trailing := some []
  rest := " -> Result<(), E> where T: Copy".toList
  unkeyed := fun ⟨_, _, held⟩ =>
    (by decide : 'f' ∉ "pub(crate) ".toList) (held.subset List.mem_cons_self)
  apart := by
    intro last final
    obtain rfl : ' ' = last := Option.some.inj final
    decide
  spaced := ⟨by decide, by decide⟩
  named := by decide
  receives := by
    intro piece given
    obtain rfl := Option.mem_some_iff.mp given
    have shape : trim "&'a mut self".toList =
        '&' :: ([] ++ '\'' :: (['a'] ++ ([' '] ++ ("mut".toList ++ [' '] ++ "self".toList)))) := by
      decide
    rw [shape]
    exact .outliving (by decide) (by decide) (by decide) (by decide) (by decide)
      (.mutable (by decide) (by decide))
  ends := by simp [Blank]

theorem formatMethod_lists_parameters_of_load :
    ∃ method, methodsIn loading = [method] ∧ method.signature.toList = loadText.text ∧
      formatMethod method =
        shownMethod method ["deck Vec~(u8, T)~", "check fn(&str) -~ bool"] := by
  have signatures : (methodsIn loading).map (fun method => method.signature.toList) =
      [loadText.text] := by
    decide +kernel
  obtain ⟨method, found, recorded⟩ := List.map_eq_singleton_iff.mp signatures
  have entries : loadText.parameters.map Parameter.entry =
      ["deck Vec~(u8, T)~", "check fn(&str) -~ bool"] := by
    decide +kernel
  have listed := (formatMethod_lists_parameters method loadText recorded).1 (by decide)
  rw [entries] at listed
  exact ⟨method, found, recorded, listed⟩

def applying : String :=
  "impl Ferry \x7b fn apply<F: Fn(u32)>(f: F, x: u8) \x7b\x7d \x7d"

def applyText : FunctionText where
  qualifiers := []
  gap := " ".toList
  name := "apply".toList
  generics := "<F: Fn(u32)>".toList
  receiver := none
  parameters :=
    [{ name := "f".toList, type := " F".toList, unmarked := by decide, paired := by decide },
      { name := " x".toList, type := " u8".toList, unmarked := by decide, paired := by decide }]
  trailing := none
  rest := []
  unkeyed := fun ⟨_, _, held⟩ => absurd (held.subset List.mem_cons_self) List.not_mem_nil
  apart := by simp
  spaced := ⟨by decide, by decide⟩
  named := by decide
  receives := by simp
  ends := by simp

/-- The type in the bound of `F` is shown for the parameters `f` and `x`. -/
theorem formatMethod_lists_bound_of_apply :
    ∃ method, methodsIn applying = [method] ∧ method.signature.toList = applyText.text ∧
      shownMethod method (applyText.parameters.map Parameter.entry) = "-apply(f F, x u8)" ∧
      formatMethod method = "-apply(u32)" := by
  have signatures : (methodsIn applying).map (fun method => (method.signature.toList,
        shownMethod method (applyText.parameters.map Parameter.entry), formatMethod method)) =
      [(applyText.text, "-apply(f F, x u8)", "-apply(u32)")] := by
    decide +kernel
  obtain ⟨method, found, facts⟩ := List.map_eq_singleton_iff.mp signatures
  simp only [Prod.mk.injEq] at facts
  exact ⟨method, found, facts⟩

end Ferry

end CrateAtlas.Diagram
