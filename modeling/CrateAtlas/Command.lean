import CrateAtlas.Failure
import CrateAtlas.Files.Tree
import CrateAtlas.Json

/-!
Commands that make images of diagrams, how they can fail, and what is reported then. A missing
command goes before one that ran out of time, and that before any other failure.
-/

namespace CrateAtlas

structure Invocation where
  command : String
  arguments : List String
  timeout : Int
  deriving DecidableEq, Repr

structure CommandOutput where
  output : String
  errors : String
  deriving DecidableEq, Repr

inductive CommandFault where
  -- Already worded by the runner.
  | worded (detail errorOutput : String)
  -- An error with a code, a mark that it was stopped, and its error output; what is absent is
  -- null.
  | error (code stopped errorOutput : Json)
  /-- Any value that is no error, by what it answers when it is asked for its words: these, or a
  failure of its own. -/
  | value (words : Except Failure String)

abbrev Runner := Invocation → StateM FileTree (Except CommandFault CommandOutput)

/-- The name of the wording that all records share; a member of this name takes its place and
words nothing. -/
def Json.wording : String := "toString"

mutual

def Json.plainText? : Json → Option String
  | .null => some "null"
  | .bool value => some (if value then "true" else "false")
  | .number value => some value.render
  | .string value => some value
  | .list items => (Json.plainItems? items).map (Text.joinWith ",")
  | .record members =>
      if (members.map Prod.fst).contains Json.wording then none else some "[object Object]"

def Json.plainItems? : List Json → Option (List String)
  | [] => some []
  | .null :: items => (Json.plainItems? items).map ("" :: ·)
  | item :: items =>
      (Json.plainText? item).bind fun text => (Json.plainItems? items).map (text :: ·)

end

def Json.words (thrown : Json) : Except Failure String :=
  match thrown.plainText? with
  | some text => .ok text
  | none => .error .wordless

def CommandFault.failure (invocation : Invocation) : CommandFault → Failure
  | .worded detail errorOutput => .backend detail errorOutput
  | .value (.ok text) => .backend (invocation.command ++ " failed: " ++ text) ""
  | .value (.error failure) => failure
  | .error code stopped errorOutput =>
      let errors :=
        match errorOutput with
        | .string errors => errors
        | _ => ""
      match code, stopped with
      | .string "ENOENT", _ =>
          .backend
            (invocation.command ++
              " not found; install @mermaid-js/mermaid-cli or set render.command") ""
      | _, .bool true =>
          .backend (invocation.command ++ " timed out after " ++
            (Number.ofInt invocation.timeout).render ++ "ms") errors
      | _, _ => .backend (invocation.command ++ " failed") errors

end CrateAtlas
