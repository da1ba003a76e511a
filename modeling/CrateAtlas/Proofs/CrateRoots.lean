import CrateAtlas.Proofs.ModulePath
import CrateAtlas.Proofs.Rust.Contents
import CrateAtlas.Rust.Reader

/-!
Crate roots of files. Main statement: the path of a file fixes its crate root, its module path lies
below that root, and so do the types that are read from it; files with different roots therefore
share no qualified name.
-/

namespace CrateAtlas.ModulePath

open CrateAtlas.Text

section Roots

variable {root path name : String}

/-- The path is the root itself or goes on behind it. -/
def BelowRoot (root path : String) : Prop :=
  path = root ∨ ∃ rest, path = root ++ "::" ++ rest

/-- The crate roots: of the library, of the main binary, and of the other binaries by name. -/
inductive IsRoot : String → Prop
  | library : IsRoot "crate"
  | main : IsRoot "main"
  | binary {name : String} (free : ':' ∉ name.toList) : IsRoot ("bin::" ++ name)

theorem IsRoot.ne_empty (isRoot : IsRoot root) : root ≠ "" := by
  cases isRoot with
  | library => decide
  | main => decide
  | binary free => simp

theorem bin_append (name : String) : "bin::" ++ name = "bin" ++ "::" ++ name := rfl

theorem IsRoot.crateRoot_below (isRoot : IsRoot root) (below : BelowRoot root path) :
    crateRoot path = root := by
  cases isRoot with
  | library =>
      rcases below with rfl | ⟨rest, rfl⟩
      · decide
      · rw [crateRoot, segments_append (by decide)]
        rfl
  | main =>
      rcases below with rfl | ⟨rest, rfl⟩
      · decide
      · rw [crateRoot, segments_append (by decide)]
        rfl
  | @binary name free =>
      rcases below with rfl | ⟨rest, rfl⟩
      · rw [crateRoot, bin_append, segments_append (by decide), segments_of_free free]
        rfl
      · have shape : "bin::" ++ name ++ "::" ++ rest =
            "bin" ++ "::" ++ (name ++ "::" ++ rest) := by
          rw [bin_append]
          simp only [String.append_assoc]
        rw [shape, crateRoot, segments_append (by decide), segments_append free]
        rfl

theorem BelowRoot.joinWith (below : BelowRoot root path) (names : List String) :
    BelowRoot root (joinWith "::" (path :: names)) := by
  cases names with
  | nil => exact below
  | cons first others =>
      rcases below with rfl | ⟨rest, rfl⟩
      · exact .inr ⟨_, rfl⟩
      · refine .inr ⟨rest ++ "::" ++ Text.joinWith "::" (first :: others), ?_⟩
        simp [Text.joinWith, String.append_assoc]

theorem BelowRoot.join (below : BelowRoot root path) (filled : root ≠ "") (names : List String) :
    BelowRoot root (join (path :: names)) := by
  have started : path ≠ "" := by
    rcases below with rfl | ⟨rest, rfl⟩
    · exact filled
    · simp
  rw [ModulePath.join, List.filter_cons_of_pos (by simpa using started)]
  exact below.joinWith _

theorem join_binary (filled : name ≠ "") (names : List String) :
    join ("bin" :: name :: names) = join (("bin::" ++ name) :: names) := by
  rw [join, join, List.filter_cons_of_pos (by simp),
    List.filter_cons_of_pos (by simpa using filled), List.filter_cons_of_pos (by simp)]
  cases names.filter (· ≠ "") <;> rfl

end Roots

section Components

variable {text : List Char} {word : String}

def isSeparator (character : Char) : Bool :=
  character = '/' || character = '\\'

/-- What stands between the separators of a path, of either kind, once the ending of a source file
is off; components that lead nowhere are left out. -/
def pieces (path : String) : List String :=
  let bare := if ".rs".toList <:+ path.toList then path.toList.rdrop 3 else path.toList
  ((bare.splitOnP isSeparator).map String.ofList).filter fun component =>
    component ≠ "" && component ≠ "."

def locate (path : String) : List String :=
  if (pieces path).head? = some "src" then (pieces path).tail else pieces path

def sanitized (component : String) : String :=
  String.ofList (sanitizeComponent component.toList)

def slashed (text : List Char) : List Char :=
  text.map fun character => if character = '\\' then '/' else character

theorem slash_of_separator {character : Char} :
    (if character = '\\' then '/' else character) = '/' ↔ isSeparator character := by
  by_cases backslash : character = '\\' <;> simp [isSeparator, backslash]

theorem splitOn_slashed (text : List Char) :
    splitOn '/' (slashed text) = text.splitOnP isSeparator := by
  induction text with
  | nil => rfl
  | cons character rest ih =>
      rw [slashed, List.map_cons, ← slashed, splitOn, ih,
        List.splitOnP_cons_eq_if_modifyHead]
      simp only [slash_of_separator]
      split
      · rfl
      · rename_i inside
        have kept : (if character = '\\' then '/' else character) = character := by
          rw [if_neg]
          rintro rfl
          exact inside rfl
        rw [kept]
        obtain ⟨piece, others, cut⟩ :=
          List.exists_cons_of_ne_nil (List.splitOnP_ne_nil isSeparator rest)
        rw [cut]
        rfl

theorem slashed_of_free (free : '/' ∉ slashed text) : slashed text = text := by
  refine (List.map_congr_left ?_).trans (List.map_id text)
  intro character member
  rw [id, if_neg]
  rintro rfl
  exact free (List.mem_map.mpr ⟨'\\', member, rfl⟩)

theorem withoutSuffix_slashed (text : List Char) :
    withoutSuffix ".rs" (slashed text) =
      slashed (if ".rs".toList <:+ text then text.rdrop 3 else text) := by
  have ends : endsWith ".rs" (slashed text) ↔ ".rs".toList <:+ text := by
    rw [endsWith, List.isSuffixOf_iff_suffix]
    constructor
    · intro suffix
      obtain ⟨tail, whole, spelled⟩ := List.suffix_map_iff.mp suffix
      have same : slashed tail = tail := by
        apply slashed_of_free
        rw [slashed, ← spelled]
        decide
      rwa [spelled, ← slashed, same]
    · intro suffix
      have mapped : slashed ".rs".toList <:+ slashed text := suffix.map _
      exact mapped
  rw [withoutSuffix]
  simp only [ends]
  split
  · simp [slashed, List.rdrop, List.map_take]
  · rfl

theorem components_eq (path : String) : components path = (pieces path).map sanitized := by
  have slashes : path.toList.map (fun character => if character = '\\' then '/' else character) =
      slashed path.toList := rfl
  simp only [components, pieces, slashes]
  rw [withoutSuffix_slashed, splitOn_slashed, List.filter_map, List.map_map]
  have kept : (fun component : String => component ≠ "" && component ≠ ".") ∘ String.ofList =
      fun piece => decide (piece ≠ [] ∧ piece ≠ ['.']) := by
    funext piece
    have empty : String.ofList piece = "" ↔ piece = [] := String.ofList_eq_empty_iff
    have point : String.ofList piece = "." ↔ piece = ['.'] := String.ofList_inj
    simp only [Function.comp_apply, ne_eq, empty, point, Bool.decide_and]
  rw [kept]
  refine List.map_congr_left ?_
  intro piece _
  rw [Function.comp_apply, Function.comp_apply, sanitized, String.toList_ofList]

theorem sanitized_eq_iff {component : String} (free : '_' ∉ word.toList)
    (kept : sanitized word = word) : sanitized component = word ↔ component = word := by
  constructor
  · rintro rfl
    rw [sanitized, String.toList_ofList] at free
    rw [sanitized, sanitizeComponent_of_free free, String.ofList_toList]
  · rintro rfl
    exact kept

theorem ofFile_eq (path : String) : ofFile path = ofComponents ((locate path).map sanitized) := by
  have source {component : String} : sanitized component = "src" ↔ component = "src" :=
    sanitized_eq_iff (by decide) (by decide)
  rw [ofFile, components_eq, locate]
  cases pieces path with
  | nil => rfl
  | cons first rest =>
      by_cases isSource : first = "src"
      · subst isSource
        rfl
      · have other := mt source.mp isSource
        rw [if_neg (by simpa using isSource), List.map_cons]
        split
        · rename_i same
          exact absurd (List.cons.inj same).1 other
        · rfl

end Components

section Files

variable {names : List String}

def rootOf : List String → String
  | ["main"] => "main"
  | "bin" :: name :: _ => "bin::" ++ name
  | _ => "crate"

theorem isRoot_rootOf (free : ∀ name ∈ names, ':' ∉ name.toList) : IsRoot (rootOf names) := by
  unfold rootOf
  split
  · exact .main
  · rename_i name rest
    exact .binary (free name (by simp))
  · exact .library

theorem belowRoot_ofComponents (filled : "" ∉ names) :
    BelowRoot (rootOf names) (ofComponents names) := by
  unfold ofComponents
  split
  · exact .inl rfl
  · rename_i name rest
    rw [join_binary fun empty => filled (by simp [empty])]
    exact BelowRoot.join (.inl rfl) (by simp [rootOf]) _
  · exact .inl rfl
  · rename_i notMain notBinary _
    have library : rootOf names = "crate" := by
      unfold rootOf
      split
      · exact absurd rfl notMain
      · exact absurd rfl (notBinary _ _)
      · rfl
    rw [library]
    exact BelowRoot.joinWith (.inl rfl) _

theorem free_sanitized (component : String) : ':' ∉ (sanitized component).toList := by
  rw [sanitized, String.toList_ofList]
  intro member
  exact absurd (isWordChar_of_mem_sanitizeComponent member) (by decide)

theorem filled_sanitized {component : String} (filled : component ≠ "") :
    sanitized component ≠ "" := by
  obtain ⟨first, rest, shape⟩ :=
    List.exists_cons_of_ne_nil (mt String.toList_eq_nil_iff.mp filled)
  intro empty
  have nothing : sanitizeComponent component.toList = [] := by
    rwa [sanitized, String.ofList_eq_empty_iff] at empty
  rw [shape, sanitizeComponent, replaceChars, List.flatMap_cons, List.append_eq_nil_iff] at nothing
  obtain ⟨here, _⟩ := nothing
  by_cases word : isWordChar first = true
  · simp [word] at here
  · by_cases basic : first.toNat < 0x10000 <;> simp [word, basic] at here

theorem filled_of_mem_locate {path component : String} (member : component ∈ locate path) :
    component ≠ "" := by
  have among : component ∈ pieces path := by
    rw [locate] at member
    split at member
    · exact List.mem_of_mem_tail member
    · exact member
  rw [pieces] at among
  have kept := List.of_mem_filter among
  simp only [Bool.and_eq_true, decide_eq_true_eq] at kept
  exact kept.1

/-- The crate root of a file, by the components of its path. -/
def rootOfFile (path : String) : String :=
  rootOf ((locate path).map sanitized)

theorem isRoot_rootOfFile (path : String) : IsRoot (rootOfFile path) := by
  refine isRoot_rootOf ?_
  intro name member
  obtain ⟨component, _, rfl⟩ := List.mem_map.mp member
  exact free_sanitized component

theorem belowRoot_ofFile (path : String) : BelowRoot (rootOfFile path) (ofFile path) := by
  rw [ofFile_eq]
  refine belowRoot_ofComponents ?_
  intro member
  obtain ⟨component, located, empty⟩ := List.mem_map.mp member
  exact filled_sanitized (filled_of_mem_locate located) empty

theorem crateRoot_ofFile (path : String) : crateRoot (ofFile path) = rootOfFile path :=
  (isRoot_rootOfFile path).crateRoot_below (belowRoot_ofFile path)

theorem binary_ne (name : String) : "main" ≠ "bin::" ++ name ∧ "crate" ≠ "bin::" ++ name := by
  constructor <;> intro same <;>
  · have first := congrArg (fun text => text.toList.head?) same
    simp at first

theorem rootOf_eq_main : rootOf names = "main" ↔ names = ["main"] := by
  unfold rootOf
  split
  · simp
  · rename_i name rest
    exact iff_of_false (binary_ne name).1.symm (by simp)
  · rename_i notMain _
    exact iff_of_false (by decide) notMain

theorem rootOf_eq_binary {binary : String} :
    rootOf names = "bin::" ++ binary ↔ ∃ rest, names = "bin" :: binary :: rest := by
  unfold rootOf
  split
  · exact iff_of_false (binary_ne binary).1 (by simp)
  · rename_i name rest
    simp
  · rename_i notBinary
    refine iff_of_false (binary_ne binary).2 ?_
    rintro ⟨rest, same⟩
    exact notBinary _ _ same

theorem rootOf_eq_library :
    rootOf names = "crate" ↔
      names ≠ ["main"] ∧ ¬∃ binary rest, names = "bin" :: binary :: rest := by
  simp only [ne_eq, ← rootOf_eq_main, ← rootOf_eq_binary]
  constructor
  · intro library
    rw [library]
    exact ⟨by decide, fun ⟨binary, same⟩ => (binary_ne binary).2 same⟩
  · rintro ⟨notMain, notBinary⟩
    unfold rootOf at notMain notBinary ⊢
    split
    · simp at notMain
    · rename_i name rest
      exact absurd ⟨name, rfl⟩ notBinary
    · rfl

theorem map_sanitized_eq_main {components : List String} :
    components.map sanitized = ["main"] ↔ components = ["main"] := by
  have main {component : String} : sanitized component = "main" ↔ component = "main" :=
    sanitized_eq_iff (by decide) (by decide)
  cases components with
  | nil => simp
  | cons first rest => simp [main]

theorem map_sanitized_eq_binary {components : List String} {binary : String} :
    (∃ rest, components.map sanitized = "bin" :: binary :: rest) ↔
      ∃ name rest, components = "bin" :: name :: rest ∧ binary = sanitized name := by
  have bin {component : String} : sanitized component = "bin" ↔ component = "bin" :=
    sanitized_eq_iff (by decide) (by decide)
  match components with
  | [] => simp
  | [first] => simp
  | first :: second :: rest => simp [bin, eq_comm (a := binary)]

theorem handedOn_belowRoot {root : String} (filled : root ≠ "") :
    Rust.HandedOn (fun _ => True) (BelowRoot root) :=
  fun _ name below _ => below.join filled [name]

theorem belowRoot_of_read {path : String} {tree : Rust.SyntaxNode} {unit : SourceUnit}
    (read : Rust.sourceUnitOf path (ofFile path) tree = .ok unit) :
    ∀ type ∈ unit.types, BelowRoot (rootOfFile path) type.qualifiedName :=
  Rust.sourceUnitOf_named (handedOn_belowRoot (isRoot_rootOfFile path).ne_empty)
    (belowRoot_ofFile path) (fun _ _ _ _ => trivial) read

/-- The components of its path fix the crate root of a file, and its module path is that root or
lies below it. Two files with different roots share no qualified name, however deep in inline
modules their types are declared. -/
theorem crate_roots_apart (path : String) :
    (crateRoot (ofFile path) = "main" ↔ locate path = ["main"]) ∧
      (∀ binary, crateRoot (ofFile path) = "bin::" ++ binary ↔
        ∃ name rest, locate path = "bin" :: name :: rest ∧ binary = sanitized name) ∧
      (crateRoot (ofFile path) = "crate" ↔
        locate path ≠ ["main"] ∧ ¬∃ name rest, locate path = "bin" :: name :: rest) ∧
      BelowRoot (crateRoot (ofFile path)) (ofFile path) ∧
      ∀ other, crateRoot (ofFile path) ≠ crateRoot (ofFile other) →
        ∀ tree otherTree unit otherUnit, Rust.sourceUnitOf path (ofFile path) tree = .ok unit →
          Rust.sourceUnitOf other (ofFile other) otherTree = .ok otherUnit →
          ∀ type ∈ unit.types, ∀ otherType ∈ otherUnit.types,
            type.qualifiedName ≠ otherType.qualifiedName := by
  simp only [crateRoot_ofFile]
  refine ⟨?_, ?_, ?_, belowRoot_ofFile path, ?_⟩
  · rw [rootOfFile, rootOf_eq_main, map_sanitized_eq_main]
  · intro binary
    rw [rootOfFile, rootOf_eq_binary, map_sanitized_eq_binary]
  · rw [rootOfFile, rootOf_eq_library, ne_eq, map_sanitized_eq_main]
    simp only [map_sanitized_eq_binary]
    simp
  · intro other apart tree otherTree unit otherUnit read otherRead type member otherType
      otherMember same
    have below := belowRoot_of_read read type member
    rw [same] at below
    apply apart
    rw [← (isRoot_rootOfFile path).crateRoot_below below,
      (isRoot_rootOfFile other).crateRoot_below (belowRoot_of_read otherRead otherType otherMember)]

def serverSource : String :=
  "struct Server; mod net \x7b mod tcp \x7b struct Server; \x7d \x7d"

def typeNames (unit : SourceUnit) : List String :=
  unit.types.map TypeDefinition.qualifiedName

theorem crate_roots_apart_of_tool :
    let path := ".\\src\\bin\\tool-kit\\main.rs"
    let other := "src/net.rs"
    locate path = ["bin", "tool-kit", "main"] ∧ crateRoot (ofFile path) = "bin::tool_kit" ∧
      crateRoot (ofFile other) = "crate" ∧
      ∃ unit otherUnit, Rust.sourceUnitAt path serverSource = .ok unit ∧
        Rust.sourceUnitAt other serverSource = .ok otherUnit ∧
        typeNames unit = ["bin::tool_kit::Server", "bin::tool_kit::net::tcp::Server"] ∧
        typeNames otherUnit = ["crate::net::Server", "crate::net::net::tcp::Server"] ∧
        ∀ type ∈ unit.types, ∀ otherType ∈ otherUnit.types,
          type.qualifiedName ≠ otherType.qualifiedName := by
  intro path other
  have facts : locate path = ["bin", "tool-kit", "main"] ∧
      crateRoot (ofFile path) = "bin::tool_kit" ∧ crateRoot (ofFile other) = "crate" ∧
      (Rust.sourceUnitAt path serverSource).toOption.map typeNames =
        some ["bin::tool_kit::Server", "bin::tool_kit::net::tcp::Server"] ∧
      (Rust.sourceUnitAt other serverSource).toOption.map typeNames =
        some ["crate::net::Server", "crate::net::net::tcp::Server"] := by
    decide +kernel
  obtain ⟨located, root, otherRoot, names, otherNames⟩ := facts
  cases read : Rust.sourceUnitAt path serverSource with
  | error failure => simp [read, Except.toOption] at names
  | ok unit =>
      cases otherRead : Rust.sourceUnitAt other serverSource with
      | error failure => simp [otherRead, Except.toOption] at otherNames
      | ok otherUnit =>
          rw [read] at names
          rw [otherRead] at otherNames
          have apart : crateRoot (ofFile path) ≠ crateRoot (ofFile other) := by
            rw [root, otherRoot]
            decide
          have differ := (crate_roots_apart path).2.2.2.2 other apart _ _ unit otherUnit read otherRead
          exact ⟨located, root, otherRoot, unit, otherUnit, rfl, rfl, Option.some.inj names,
            Option.some.inj otherNames, differ⟩

end Files

end CrateAtlas.ModulePath
