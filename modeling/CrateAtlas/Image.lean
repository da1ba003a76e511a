import CrateAtlas.Command
import CrateAtlas.Config
import CrateAtlas.Files.Task

/-!
Images of diagrams. The markup goes through a folder of its own, which is gone again however
the command ends.
-/

namespace CrateAtlas.Image

def themed (markup : String) (theme : Theme) : String :=
  if Text.startsWith "%%\x7binit" (Text.trimStart markup.toList) then markup
  else "%%\x7binit: \x7b\"theme\": \"" ++ theme.label ++ "\"\x7d\x7d%%\n" ++ markup

structure Job where
  markup : String
  scratch : Path
  output : Path
  settings : ImageSettings

/-- What a command was called with, and the text of its input file at that time. -/
structure Call where
  invocation : Invocation
  input : Option String

structure Attempt where
  call : Option Call
  outcome : Except Failure Path

def Job.input (job : Job) : Path := job.scratch.child "diagram.mmd"

def optionalArgument (flag : String) (value : Option String) : List String :=
  match value with
  | none | some "" => []
  | some value => [flag, value]

def Job.invocation (job : Job) : Invocation :=
  { command := job.settings.command
    arguments :=
      ["-i", job.input.render, "-o", job.output.render] ++
        optionalArgument "-c" job.settings.configFile ++
        optionalArgument "-C" job.settings.styleFile
    timeout := job.settings.timeout }

def prepare (settings : ImageSettings) (scratch markup folder : Path) : FileTask Job := do
  let text ← FileTask.read markup
  FileTask.makeFolders folder
  FileTask.makeFolders scratch
  let output := folder.descend (markup.stem ".mmd" ++ "." ++ settings.format.label)
  return Job.mk (themed text settings.theme) scratch output settings

def Job.carryOut (runner : Runner) (job : Job) : StateM FileTree Attempt := do
  match ← (FileTask.write job.input job.markup).run with
  | .error failure => return { call := none, outcome := .error failure }
  | .ok () =>
      let seen ← get
      let call := { invocation := job.invocation, input := (seen.read job.input).toOption }
      match ← runner job.invocation with
      | .ok _ => return { call := some call, outcome := .ok job.output }
      | .error fault =>
          return { call := some call, outcome := .error (fault.failure job.invocation) }

def attempt (runner : Runner) (settings : ImageSettings) (scratch markup folder : Path) :
    StateM FileTree Attempt := do
  match ← (prepare settings scratch markup folder).run with
  | .error failure => return { call := none, outcome := .error failure }
  | .ok job =>
      let attempt ← job.carryOut runner
      modify (·.removeAll scratch)
      return attempt

def render (runner : Runner) (settings : ImageSettings) (scratch markup folder : Path) :
    FileTask Path := do
  let attempt ← (attempt runner settings scratch markup folder : StateM FileTree Attempt)
  FileTask.ofExcept attempt.outcome

end CrateAtlas.Image
