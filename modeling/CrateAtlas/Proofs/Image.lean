import CrateAtlas.Image
import CrateAtlas.Proofs.Command
import CrateAtlas.Proofs.Files.Task
import CrateAtlas.Proofs.Files.Tree

/-!
What becomes of an image. Main statement: however the runner answers, it saw the themed markup and
the scratch folder is gone in the end; the image is there exactly if the runner succeeded, and any
other answer is reported as a failure of the command, unless it is a value without words.
-/

namespace CrateAtlas

namespace Image

open FileTask

variable {runner : Runner} {settings : ImageSettings} {scratch markup folder : Path}
  {tree seen : FileTree} {text : String}

def imagePath (settings : ImageSettings) (markup folder : Path) : Path :=
  folder.descend (markup.stem ".mmd" ++ "." ++ settings.format.label)

/-- The markup can be read, the folders can be made, and so can the input of the runner, which then
sees the tree `seen`. -/
structure Ready (settings : ImageSettings) (scratch markup folder : Path) (tree : FileTree)
    (text : String) (seen : FileTree) : Prop where
  reads : tree.read markup = .ok text
  makes : ∃ first second, tree.makeFolders folder = .ok first ∧
    first.makeFolders scratch = .ok second ∧
    second.write (scratch.child "diagram.mmd") (themed text settings.theme) = .ok seen

def jobOf (settings : ImageSettings) (scratch markup folder : Path) (text : String) : Job :=
  { markup := themed text settings.theme
    scratch := scratch
    output := imagePath settings markup folder
    settings := settings }

theorem Ready.prepared (ready : Ready settings scratch markup folder tree text seen) :
    ∃ middle, Does (prepare settings scratch markup folder) tree
        (jobOf settings scratch markup folder text) middle ∧
      Does (FileTask.write (scratch.child "diagram.mmd") (themed text settings.theme)) middle ()
        seen := by
  obtain ⟨reads, first, second, made, madeScratch, written⟩ := ready
  refine ⟨second, ?_, does_change.mpr written⟩
  simp only [prepare, does_bind]
  exact ⟨text, tree, does_look.mpr ⟨reads, rfl⟩, (), first, does_change.mpr made, (), second,
    does_change.mpr madeScratch, does_pure.mpr ⟨rfl, rfl⟩⟩

theorem run_of_does {α : Type} {task : FileTask α} {before after : FileTree} {value : α}
    (does : Does task before value after) :
    ExceptT.run task before = (.ok value, after) := does

def Job.report (job : Job) : Except CommandFault CommandOutput → Except Failure Path
  | .ok _ => .ok job.output
  | .error fault => .error (fault.failure job.invocation)

theorem Job.report_eq_ok {job : Job} {answer : Except CommandFault CommandOutput} {image : Path} :
    job.report answer = .ok image ↔ image = job.output ∧ answer.isOk := by
  cases answer with
  | ok output => simp [Job.report, Except.isOk, Except.toBool, eq_comm]
  | error fault => simp [Job.report, Except.isOk, Except.toBool]

theorem Job.report_error {job : Job} {fault : CommandFault} :
    ((∀ failure, ¬LosesWords fault failure) →
      ∃ detail errors, Reported job.invocation fault detail errors ∧
        job.report (.error fault) = .error (.backend detail errors)) ∧
    ∀ failure, LosesWords fault failure → job.report (.error fault) = .error failure := by
  constructor
  · intro worded
    obtain ⟨detail, errors, reported⟩ := exists_reported job.invocation worded
    exact ⟨detail, errors, reported, congrArg Except.error reported.failure_eq⟩
  · intro failure lost
    exact congrArg Except.error (failure_of_losesWords lost)

theorem Job.carryOut_eq (runner : Runner) (job : Job) {middle : FileTree}
    (written : Does (FileTask.write job.input job.markup) middle () seen) :
    job.carryOut runner middle =
      ({ call := some { invocation := job.invocation, input := (seen.read job.input).toOption }
         outcome := job.report (runner job.invocation seen).1 },
        (runner job.invocation seen).2) := by
  simp only [Job.carryOut, bind, StateT.bind, run_of_does written]
  dsimp only [get, getThe, MonadStateOf.get, StateT.get, pure]
  rcases runner job.invocation seen with ⟨fault | output, left⟩ <;> rfl

theorem attempt_eq (runner : Runner) {middle : FileTree} {job : Job}
    (prepared : Does (prepare settings scratch markup folder) tree job middle) :
    attempt runner settings scratch markup folder tree =
      ((job.carryOut runner middle).1, (job.carryOut runner middle).2.removeAll scratch) := by
  simp only [attempt, bind, StateT.bind, run_of_does prepared]
  rfl

theorem outcome_liftM {α : Type} (action : StateM FileTree α) (tree : FileTree) :
    outcome (liftM action) tree = (.ok (action tree).1, (action tree).2) := rfl

theorem outcome_render {made : Attempt} {after : FileTree}
    (done : attempt runner settings scratch markup folder tree = (made, after)) :
    outcome (render runner settings scratch markup folder) tree = (made.outcome, after) := by
  rw [render, outcome_bind, outcome_liftM, done]
  exact outcome_ofExcept made.outcome after

/-- The call reads the markup from one file and puts the image into another. -/
structure Serves (invocation : Invocation) (settings : ImageSettings) (input image : Path) :
    Prop where
  command : invocation.command = settings.command
  timeout : invocation.timeout = settings.timeout
  files : ["-i", input.render, "-o", image.render] <+: invocation.arguments

theorem Job.serves (job : Job) :
    Serves job.invocation job.settings job.input job.output := by
  refine ⟨rfl, rfl, ?_⟩
  rw [Job.invocation, List.append_assoc]
  exact List.prefix_append _ _

/-- Whatever the runner answers and does to the files, it saw the themed markup, and nothing is left
of the scratch folder. The image is there exactly if it succeeded; every fault is reported as one of
the command, except a value that fails to find its words: that failure comes through. -/
theorem attempt_ends {place : Path} {name : String}
    (ready : Ready settings (place.child name) markup folder tree text seen) (runner : Runner) :
    ∃ call attempt after,
      Image.attempt runner settings (place.child name) markup folder tree = (attempt, after) ∧
      outcome (render runner settings (place.child name) markup folder) tree =
        (attempt.outcome, after) ∧
      (∀ path : Path, (place.child name).names <+: path.names → after.node? path = none) ∧
      seen.read ((place.child name).child "diagram.mmd") = .ok (themed text settings.theme) ∧
      attempt.call = some call ∧ call.input = some (themed text settings.theme) ∧
      Serves call.invocation settings ((place.child name).child "diagram.mmd")
        (imagePath settings markup folder) ∧
      (∀ image, attempt.outcome = .ok image ↔
        image = imagePath settings markup folder ∧ (runner call.invocation seen).1.isOk) ∧
      ∀ fault, (runner call.invocation seen).1 = .error fault →
        ((∀ failure, ¬LosesWords fault failure) →
          ∃ detail errors, Reported call.invocation fault detail errors ∧
            attempt.outcome = .error (.backend detail errors)) ∧
        ∀ failure, LosesWords fault failure → attempt.outcome = .error failure := by
  obtain ⟨middle, prepared, written⟩ := ready.prepared
  have done := attempt_eq runner prepared
  rw [Job.carryOut_eq runner (jobOf settings (place.child name) markup folder text) written] at done
  have read := FileTree.read_of_write (does_change.mp written)
  refine ⟨_, _, _, done, outcome_render done, ?_, read, rfl, ?_, Job.serves _, ?_, ?_⟩
  · intro path below
    refine FileTree.node?_removeAll below fun same => ?_
    simp [Path.child, Path.root] at same
  · exact congrArg Except.toOption read
  · exact fun image => Job.report_eq_ok
  · intro fault answered
    dsimp only at answered ⊢
    rw [answered]
    exact Job.report_error

def market : FileTree :=
  ⟨[(⟨["stall.mmd"]⟩, .file "graph LR\n"), (⟨["tmp"]⟩, .folder)]⟩

def marketWithInput : FileTree :=
  ⟨market.nodes ++ [(⟨["out"]⟩, .folder), (⟨["tmp", "run"]⟩, .folder),
    (⟨["tmp", "run", "diagram.mmd"]⟩, .file (themed "graph LR\n" .plain))]⟩

theorem ready_market :
    Ready .standard (Path.child ⟨["tmp"]⟩ "run") ⟨["stall.mmd"]⟩ ⟨["out"]⟩ market "graph LR\n"
      marketWithInput := by
  refine ⟨by decide +kernel, ⟨market.nodes ++ [(⟨["out"]⟩, .folder)]⟩,
    ⟨market.nodes ++ [(⟨["out"]⟩, .folder), (⟨["tmp", "run"]⟩, .folder)]⟩, ?_, ?_, ?_⟩
  · decide +kernel
  · decide +kernel
  · decide +kernel

def tardy : Runner := fun _ tree =>
  (.error (.error .null (.bool true) (.string "late\n")),
    ⟨tree.nodes ++ [(⟨["tmp", "run", "trace.log"]⟩, .file "")]⟩)

theorem attempt_ends_tardy :
    Ready .standard (Path.child ⟨["tmp"]⟩ "run") ⟨["stall.mmd"]⟩ ⟨["out"]⟩ market "graph LR\n"
      marketWithInput ∧
    ∃ attempt after,
      Image.attempt tardy .standard (Path.child ⟨["tmp"]⟩ "run") ⟨["stall.mmd"]⟩ ⟨["out"]⟩ market =
        (attempt, after) ∧
      after.node? ⟨["tmp", "run", "trace.log"]⟩ = none ∧
      attempt.outcome = .error (.backend "mmdc timed out after 60000ms" "late\n") := by
  refine ⟨ready_market, ?_⟩
  obtain ⟨call, attempt, after, done, -, gone, -, -, -, serves, -, faulty⟩ :=
    attempt_ends ready_market tardy
  obtain ⟨detail, errors, reported, outcome⟩ := (faulty _ rfl).1 nofun
  refine ⟨attempt, after, done, gone _ (by decide), ?_⟩
  cases reported with
  | stopped =>
      rw [outcome, serves.command, serves.timeout]
      rfl
  | failed _ _ _ _ notStopped => exact absurd rfl notStopped

def speechless : Runner := fun _ =>
  return .error (.value (Json.words (.record [("toString", .null)])))

theorem attempt_without_words :
    Ready .standard (Path.child ⟨["tmp"]⟩ "run") ⟨["stall.mmd"]⟩ ⟨["out"]⟩ market "graph LR\n"
      marketWithInput ∧
    ¬∃ detail errors, (Image.attempt speechless .standard (Path.child ⟨["tmp"]⟩ "run")
      ⟨["stall.mmd"]⟩ ⟨["out"]⟩ market).1.outcome = .error (.backend detail errors) := by
  refine ⟨ready_market, ?_⟩
  rintro ⟨detail, errors, outcome⟩
  have wordless : (Image.attempt speechless .standard (Path.child ⟨["tmp"]⟩ "run")
      ⟨["stall.mmd"]⟩ ⟨["out"]⟩ market).1.outcome = .error .wordless := by decide +kernel
  rw [wordless] at outcome
  exact absurd outcome nofun

end Image

end CrateAtlas
