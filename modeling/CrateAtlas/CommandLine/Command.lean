import CrateAtlas.CommandLine.Arguments
import CrateAtlas.Config
import CrateAtlas.Diagram.Render

/-!
The commands, with the arguments and flags that each of them takes.
-/

namespace CrateAtlas.CommandLine

structure StoredDiagram where
  mode : Diagram.Mode
  fileName : String
  view : Bool
  deriving DecidableEq, Repr

inductive Verb where
  | architecture
  | diff
  | diagram
  | view
  | stored (diagram : StoredDiagram)
  | traits (light : Bool) (fileName : String)
  | lint
  | clean
  | split
  | merge
  deriving DecidableEq, Repr

/-- An argument that stands for itself; one that is not needed may be left out. -/
structure Argument where
  name : String
  needed : Bool
  deriving DecidableEq, Repr

structure Command where
  name : String
  verb : Verb
  arguments : List Argument
  flags : List Flag
  deriving DecidableEq, Repr

structure Request where
  verb : Verb
  operands : List String
  values : List (String × String)
  deriving DecidableEq, Repr

namespace Request

def text? (request : Request) (flag : String) : Option String :=
  (request.values.filter fun entry => entry.1 = flag).getLast?.map Prod.snd

def filled? (request : Request) (flag : String) : Option String :=
  (request.text? flag).filter (· ≠ "")

def texts? (request : Request) (flag : String) : Option (List String) :=
  match (request.values.filter fun entry => entry.1 = flag).map Prod.snd with
  | [] => none
  | values => some values

def has (request : Request) (flag : String) : Bool :=
  (request.text? flag).isSome

def operand (request : Request) (place : Nat) (fallback : String) : String :=
  request.operands[place]?.getD fallback

def choice? (request : Request) (flag : String) (all : List α) (label : α → String) : Option α :=
  (request.text? flag).bind fun text => all.find? fun candidate => label candidate = text

end Request

def needed (name : String) : Argument := { name := name, needed := true }

def configFlag : Flag := ⟨some 'c', "config", .text "path"⟩

def verboseFlag : Flag := ⟨none, "verbose", .absent⟩

def formatFlag : Flag := ⟨none, "format", .choice "format" (ImageFormat.all.map ImageFormat.label)⟩

def themeFlag : Flag := ⟨none, "theme", .choice "theme" (Theme.all.map Theme.label)⟩

def storedFlags (view : Bool) : List Flag :=
  [⟨none, "snapshot", .text "dir"⟩, ⟨none, "out-dir", .text "dir"⟩,
    ⟨none, "focus", .text "type"⟩, ⟨none, "depth", .depth "n"⟩, configFlag] ++
    (if view then [formatFlag, themeFlag] else [])

def storedCommand (name : String) (diagram : StoredDiagram) : Command :=
  { name := name
    verb := .stored diagram
    arguments := []
    flags := storedFlags diagram.view }

def traitCommand (name : String) (light : Bool) (fileName : String) : Command :=
  { name := name
    verb := .traits light fileName
    arguments := []
    flags := [⟨none, "snapshot", .text "dir"⟩, ⟨none, "out-dir", .text "dir"⟩, configFlag] }

def fileCommand (name : String) (verb : Verb) (argument : String) (flags : List Flag) : Command :=
  { name := name, verb := verb, arguments := [needed argument], flags := flags }

def commands : List Command :=
  [ { name := "architecture"
      verb := .architecture
      arguments := [{ name := "dir", needed := false }]
      flags :=
        [⟨some 'o', "output", .text "path"⟩, configFlag, ⟨none, "include", .texts "patterns"⟩,
          ⟨none, "exclude", .texts "patterns"⟩, verboseFlag] },
    { name := "diff"
      verb := .diff
      arguments := [needed "dir1", needed "dir2"]
      flags :=
        [⟨none, "methods", .absent⟩, ⟨none, "json", .absent⟩,
          ⟨some 'o', "output", .text "file"⟩] },
    { name := "diagram"
      verb := .diagram
      arguments := [needed "target"]
      flags :=
        [⟨none, "mode", .choice "mode" (Diagram.Mode.all.map Diagram.Mode.label)⟩, formatFlag,
          configFlag, verboseFlag] },
    { name := "view"
      verb := .view
      arguments := [needed "target"]
      flags := [formatFlag, themeFlag, configFlag] },
    storedCommand "connections" ⟨.connections, "connections", false⟩,
    storedCommand "state_diagram" ⟨.state, "state_diagram", false⟩,
    storedCommand "class_diagram" ⟨.classes, "class_diagram", false⟩,
    storedCommand "view_class_diagram" ⟨.classes, "class_diagram", true⟩,
    storedCommand "view_connections" ⟨.connections, "connections", true⟩,
    traitCommand "generate_mermaid" false "traits",
    traitCommand "generate_light_mermaid" true "traits_light",
    fileCommand "lint_mermaid" .lint "file" [⟨some 'i', "in-place", .absent⟩],
    fileCommand "clean_mermaid" .clean "file" [],
    fileCommand "split_mermaid" .split "file" [],
    fileCommand "merge_mermaids" .merge "dir" [] ]

def versionFlag : Flag := ⟨some 'V', "version", .absent⟩

def asksForHelp (arguments : List String) : Bool :=
  arguments.any fun argument => argument = "-h" || argument = "--help"

def missing? : List Argument → List String → Option String
  | [], _ => none
  | argument :: arguments, [] =>
      if argument.needed then some argument.name else missing? arguments []
  | _ :: arguments, _ :: operands => missing? arguments operands

/-- What a command is asked to do, with the operands in front of its first flag and the
arguments from there on. -/
def Command.request (command : Command) (operands arguments : List String) :
    Except Refusal Request := do
  let sifted ← siftAll command.flags arguments
  let operands := operands ++ sifted.operands
  if asksForHelp sifted.unknown then throw .help
  match sifted.unknown with
  | text :: _ => throw (.unknownFlag text)
  | [] =>
      match missing? command.arguments operands with
      | some name => throw (.missingArgument name)
      | none => return Request.mk command.verb operands sifted.values

def Request.ofArguments (arguments : List String) : Except Refusal Request := do
  let sifted ← siftAll [versionFlag] arguments
  if !sifted.values.isEmpty then throw .version
  match sifted.operands with
  | name :: operands =>
      match commands.find? fun command => command.name = name with
      | some command => command.request operands sifted.unknown
      | none =>
          if name = "help" || asksForHelp sifted.unknown then throw .help
          else throw (.unknownCommand name)
  | [] =>
      match sifted.unknown with
      | [] => throw .help
      | text :: _ =>
          if asksForHelp sifted.unknown then throw .help else throw (.unknownFlag text)

end CrateAtlas.CommandLine
