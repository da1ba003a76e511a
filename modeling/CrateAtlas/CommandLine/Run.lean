import CrateAtlas.CommandLine.Command
import CrateAtlas.CommandLine.Session
import CrateAtlas.Config.Search
import CrateAtlas.Diagram.Traits
import CrateAtlas.Diff.Document
import CrateAtlas.Diff.Report
import CrateAtlas.Extraction
import CrateAtlas.Graph.Build
import CrateAtlas.Graph.Focus
import CrateAtlas.Mermaid.Clean
import CrateAtlas.Mermaid.Split
import CrateAtlas.Store

/-!
What the commands do and say.
-/

namespace CrateAtlas.CommandLine

open SessionTask

def configFor (setting : Setting) (request : Request) (folder : Path) : SessionTask Config :=
  files (Config.choose setting.place folder (request.text? "config"))

def problems (extraction : Extraction) (verbose : Bool) : List String :=
  (extraction.snapshot.duplicates.map fun duplicate => "Warning: " ++ duplicate.message) ++
    match extraction.skipped with
    | [] => []
    | skipped =>
        if verbose then
          "Skipped files:" :: skipped.map fun file => "  " ++ file.filePath ++ ": " ++ file.reason
        else
          ["Warning: " ++ toString skipped.length ++
            " file(s) skipped; rerun with --verbose for details"]

def extraction (setting : Setting) (config : Config) (folder : Path)
    (included excluded : List String) : SessionTask Extraction :=
  files (Extraction.run setting.find
    { folder := folder
      included := included
      excluded := excluded
      concurrency := config.concurrency
      sizeLimit := config.sizeLimit })

def architecture (setting : Setting) (request : Request) : SessionTask Unit := do
  let folder := setting.place.resolve (request.operand 0 ".")
  sayAll ["Extracting architecture from " ++ folder.render ++ "...", ""]
  let config ← configFor setting request folder
  let store := folder.resolve ((request.text? "output").getD config.snapshotFolder)
  let extraction ← extraction setting config folder ((request.texts? "include").getD config.included)
    ((request.texts? "exclude").getD config.excluded)
  let _ ← files (Store.write setting.format extraction.snapshot store)
  let snapshot := extraction.snapshot
  let typeCount := (snapshot.units.flatMap SourceUnit.types).length
  sayAll
    [ "Extraction complete!", "",
      "  Total files:   " ++ toString extraction.totalFiles,
      "  Extracted:     " ++ toString snapshot.units.length,
      "  Skipped:       " ++ toString extraction.skipped.length,
      "  Types:         " ++ toString typeCount,
      "  Duplicates:    " ++ toString snapshot.duplicates.length,
      "  Duration:      " ++ setting.elapsed ++ "ms",
      "  Snapshot:      " ++ store.render, "" ]
  warnAll (problems extraction (request.has "verbose"))

def skippedWarnings (folder : String) (duplicates : List DuplicateType) : List String :=
  duplicates.map fun duplicate =>
    "Warning: " ++ folder ++ ": " ++ duplicate.message ++ "; left out of the diff"

def diff (setting : Setting) (request : Request) : SessionTask Unit := do
  let before := request.operand 0 ""
  let after := request.operand 1 ""
  let granularity := if request.has "methods" then Diff.Granularity.method else .type
  let result ← files (Store.compare setting.format setting.find setting.place before
    after granularity)
  warnAll (skippedWarnings before result.skippedBefore)
  warnAll (skippedWarnings after result.skippedAfter)
  let report :=
    if request.has "json" then result.document.pretty "" else Diff.report result
  match request.filled? "output" with
  | none => say report
  | some output =>
      let path := setting.place.resolve output
      files (FileTask.place path (report ++ "\n"))
      say ("Diff written: " ++ path.render)

structure DiagramPlan where
  snapshot : Snapshot
  mode : Diagram.Mode
  name : String
  folder : Path
  focus : Option String
  depth : Int

def writeDiagram (config : Config) (plan : DiagramPlan) : SessionTask Path := do
  let built ← MonadExcept.ofExcept (plan.snapshot.buildGraph config.allowDuplicates)
  let graph ←
    match plan.focus with
    | some focus => MonadExcept.ofExcept (built.focused focus plan.depth)
    | none => pure built
  if !graph.duplicates.isEmpty then
    warn ("Warning: duplicate types left out of the diagram: " ++
      Text.joinWith ", " graph.duplicates)
  let markup ← MonadExcept.ofExcept (Diagram.render graph plan.mode (some plan.snapshot))
  let path := plan.folder.descend (plan.name ++ ".mmd")
  files do
    FileTask.makeFolders plan.folder
    FileTask.write path markup
  sayAll
    [ "Diagram written: " ++ path.render,
      "  Types:       " ++ toString graph.nodes.length,
      "  Edges:       " ++ toString graph.edges.length,
      "  Unresolved:  " ++ toString graph.unresolvedCalls ++ " call(s)" ]
  return path

def writeImage (setting : Setting) (request : Request) (config : Config) (markup folder : Path) :
    SessionTask Unit := do
  let format := request.choice? "format" ImageFormat.all ImageFormat.label
  let theme := request.choice? "theme" Theme.all Theme.label
  let settings :=
    { config.images with
      format := format.getD config.images.format
      theme := theme.getD config.images.theme }
  let path ← files (Image.render setting.runner settings setting.scratch markup folder)
  say ("Image written: " ++ path.render)

def fileSnapshot (folder file : Path) : FileTask Snapshot := do
  let content ← FileTask.read file
  let unit ← FileTask.ofExcept (Rust.sourceUnitAt (folder.wayTo file) content)
  return (Snapshot.create folder.render [unit]).resolveCallTargets

def diagram (setting : Setting) (request : Request) : SessionTask Unit := do
  let target := setting.place.resolve (request.operand 0 "")
  let isFolder ← files (FileTask.look (·.isFolder target))
  let folder := if isFolder then target else setting.place
  let config ← configFor setting request folder
  let snapshot ←
    if isFolder then
      let extraction ← extraction setting config folder config.included config.excluded
      warnAll (problems extraction (request.has "verbose"))
      pure extraction.snapshot
    else files (fileSnapshot folder target)
  let mode := request.choice? "mode" Diagram.Mode.all Diagram.Mode.label
  let markup ← writeDiagram config
    { snapshot := snapshot
      mode := mode.getD .classes
      name := target.stem ".rs"
      folder := folder.resolve config.diagramFolder
      focus := none
      depth := 1 }
  if request.has "format" then
    writeImage setting request config markup (folder.resolve config.imageFolder)

def imageFolder (setting : Setting) (config : Config) : Path :=
  setting.place.resolve config.imageFolder

def view (setting : Setting) (request : Request) : SessionTask Unit := do
  let target := request.operand 0 ""
  let config ← configFor setting request setting.place
  let markup :=
    if Text.endsWith ".mmd" target.toList then setting.place.resolve target
    else (setting.place.resolve config.diagramFolder).resolve (Path.nameIn ".rs" target ++ ".mmd")
  if !(← files (FileTask.has markup)) then
    throw (.plain ("Diagram not found: " ++ markup.render ++ ". Run `archscope diagram` first."))
  writeImage setting request config markup (imageFolder setting config)

def storedSnapshot (setting : Setting) (request : Request) (config : Config) : SessionTask Snapshot :=
  files (Store.read setting.format setting.find (setting.place.resolve
    ((request.text? "snapshot").getD config.snapshotFolder)))

def diagramFolder (setting : Setting) (request : Request) (config : Config) : Path :=
  setting.place.resolve ((request.text? "out-dir").getD config.diagramFolder)

def storedDiagram (setting : Setting) (request : Request) (stored : StoredDiagram) :
    SessionTask Unit := do
  let config ← configFor setting request setting.place
  let snapshot ← storedSnapshot setting request config
  let depth := ((request.text? "depth").bind depth?).map Number.whole
  let markup ← writeDiagram config
    { snapshot := snapshot
      mode := stored.mode
      name := stored.fileName
      folder := diagramFolder setting request config
      focus := request.filled? "focus"
      depth := depth.getD 1 }
  if stored.view then
    writeImage setting request config markup (imageFolder setting config)

def traitDiagram (setting : Setting) (request : Request) (light : Bool) (fileName : String) :
    SessionTask Unit := do
  let config ← configFor setting request setting.place
  let snapshot ← storedSnapshot setting request config
  let markup ← MonadExcept.ofExcept (Diagram.renderTraits snapshot light)
  let folder := diagramFolder setting request config
  let path := folder.child (fileName ++ ".mmd")
  files do
    FileTask.makeFolders folder
    FileTask.write path markup
  say ("Diagram written: " ++ path.render)

def lint (setting : Setting) (request : Request) : SessionTask Unit := do
  let path := setting.place.resolve (request.operand 0 "")
  let formatted := Mermaid.format (← files (FileTask.read path))
  if request.has "in-place" then
    files (FileTask.write path formatted)
    say ("File formatted in place: " ++ path.render)
  else
    let target := path.marked "_formatted"
    files (FileTask.write target formatted)
    say ("Formatted file written: " ++ target.render)

def clean (setting : Setting) (request : Request) : SessionTask Unit := do
  let path := setting.place.resolve (request.operand 0 "")
  let cleaned := Mermaid.clean (← files (FileTask.read path))
  let target := path.marked "_clean"
  files (FileTask.write target cleaned)
  say ("Cleaned file written: " ++ target.render)

def split (setting : Setting) (request : Request) : SessionTask Unit := do
  let path := setting.place.resolve (request.operand 0 "")
  let parts ← MonadExcept.ofExcept (Mermaid.split (← files (FileTask.read path)))
  if parts.isEmpty then throw (.plain ("No subgraphs found in " ++ path.render))
  let extension := path.extension
  let folder := path.parent.descend (path.stem extension)
  files do
    FileTask.makeFolders folder
    parts.forM fun part =>
      FileTask.write (folder.descend (Mermaid.sanitizeFileName part.name ++ extension)) part.markup
  say ("Split into " ++ toString parts.length ++ " file(s): " ++ folder.render)

def diagrams : FileSearch :=
  { patterns := ["*.\x7bmmd,mermaid\x7d"], ignored := [], dots := false }

def merge (setting : Setting) (request : Request) : SessionTask Unit := do
  let folder := setting.place.resolve (request.operand 0 "")
  let names ← files (FileTask.ask fun tree => setting.find.inOrder diagrams tree folder)
  if names.isEmpty then throw (.plain ("No Mermaid files found in " ++ folder.render))
  let texts ← names.mapM fun name => files (FileTask.read (folder.descend name))
  let target := folder.parent.descend (folder.name ++ ".mmd")
  files (FileTask.write target (Mermaid.merge texts))
  say ("Merged " ++ toString names.length ++ " file(s) into " ++ target.render)

def carryOut (setting : Setting) (request : Request) : SessionTask Unit :=
  match request.verb with
  | .architecture => architecture setting request
  | .diff => diff setting request
  | .diagram => diagram setting request
  | .view => view setting request
  | .stored stored => storedDiagram setting request stored
  | .traits light fileName => traitDiagram setting request light fileName
  | .lint => lint setting request
  | .clean => clean setting request
  | .split => split setting request
  | .merge => merge setting request

def version : String := "0.1.0"

structure Result where
  tree : FileTree
  output : String
  errors : String
  status : Nat

def run (setting : Setting) (arguments : List String) (tree : FileTree) : Result :=
  match Request.ofArguments arguments with
  | .error .version => { tree := tree, output := version ++ "\n", errors := "", status := 0 }
  | .error .help => { tree := tree, output := "", errors := "", status := 0 }
  | .error refusal =>
      { tree := tree, output := "", errors := refusal.message ++ "\n", status := 1 }
  | .ok request =>
      let start : Session := { tree := tree, output := "", errors := "" }
      match StateT.run (ExceptT.run (carryOut setting request)) start with
      | (.ok (), session) =>
          { tree := session.tree
            output := session.output
            errors := session.errors
            status := 0 }
      | (.error failure, session) =>
          { tree := session.tree
            output := session.output
            errors := session.errors ++ "Error: " ++ failure.message ++ "\n"
            status := 1 }

end CrateAtlas.CommandLine
