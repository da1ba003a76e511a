import CrateAtlas.Failure
import CrateAtlas.Json.Check

/-!
Configurations: their defaults, and the check of the documents that they are read from.
-/

namespace CrateAtlas

inductive ImageFormat where
  | svg
  | png
  | pdf
  deriving DecidableEq, Repr

inductive Theme where
  | plain
  | neutral
  | dark
  | forest
  deriving DecidableEq, Repr

def ImageFormat.label : ImageFormat → String
  | .svg => "svg"
  | .png => "png"
  | .pdf => "pdf"

def ImageFormat.all : List ImageFormat := [.svg, .png, .pdf]

def Theme.label : Theme → String
  | .plain => "default"
  | .neutral => "neutral"
  | .dark => "dark"
  | .forest => "forest"

def Theme.all : List Theme := [.plain, .neutral, .dark, .forest]

structure ImageSettings where
  command : String
  format : ImageFormat
  theme : Theme
  timeout : Int
  configFile : Option String
  styleFile : Option String
  deriving DecidableEq, Repr

structure Config where
  included : List String
  excluded : List String
  snapshotFolder : String
  diagramFolder : String
  imageFolder : String
  sizeLimit : Int
  concurrency : Int
  allowDuplicates : Bool
  images : ImageSettings
  deriving DecidableEq, Repr

def ImageSettings.standard : ImageSettings :=
  { command := "mmdc"
    format := .svg
    theme := .plain
    timeout := 60000
    configFile := none
    styleFile := none }

namespace Config

def standard : Config :=
  { included := ["**/*.rs"]
    excluded := ["**/target/**", "**/.git/**", "**/node_modules/**"]
    snapshotFolder := "architecture"
    diagramFolder := "diagrams"
    imageFolder := "visuals"
    sizeLimit := 1048576
    concurrency := 8
    allowDuplicates := false
    images := .standard }

open Json

def section? (part : Part) (name : String) : Part :=
  let found := part.member name
  match found.value with
  | none => { found with value := some (.record []) }
  | some _ => found

def checkImages : Part → Checked ImageSettings :=
  checkRecord fun part =>
    let standard := ImageSettings.standard
    ImageSettings.mk <$>
      checkDefault standard.command checkText (part.member "command") <*>
      checkDefault standard.format (checkChoice ImageFormat.all ImageFormat.label)
        (part.member "format") <*>
      checkDefault standard.theme (checkChoice Theme.all Theme.label) (part.member "theme") <*>
      checkDefault standard.timeout (checkWhole 1 none) (part.member "timeoutMs") <*>
      checkTextIfAny (part.member "configFile") <*> checkTextIfAny (part.member "cssFile")

def checkFolders : Part → Checked (String × String × String) :=
  checkRecord fun part =>
    (fun snapshots diagrams images => (snapshots, diagrams, images)) <$>
      checkDefault standard.snapshotFolder checkText (part.member "snapshotDir") <*>
      checkDefault standard.diagramFolder checkText (part.member "diagramDir") <*>
      checkDefault standard.imageFolder checkText (part.member "imageDir")

def check : Part → Checked Config :=
  checkRecord fun part =>
    (fun included excluded folders sizeLimit concurrency allowDuplicates images =>
      { included := included
        excluded := excluded
        snapshotFolder := folders.1
        diagramFolder := folders.2.1
        imageFolder := folders.2.2
        sizeLimit := sizeLimit
        concurrency := concurrency
        allowDuplicates := allowDuplicates
        images := images }) <$>
      checkDefault standard.included (checkList checkText) (part.member "include") <*>
      checkDefault standard.excluded (checkList checkText) (part.member "exclude") <*>
      checkFolders (section? part "output") <*>
      checkRecord (fun part =>
        checkDefault standard.sizeLimit (checkWhole 0 none) (part.member "maxFileSize"))
        (section? part "parser") <*>
      checkRecord (fun part =>
        checkDefault standard.concurrency (checkWhole 1 (some 64)) (part.member "concurrency"))
        (section? part "extraction") <*>
      checkRecord (fun part =>
        checkDefault standard.allowDuplicates checkTruth (part.member "allowDuplicates"))
        (section? part "graph") <*>
      checkImages (section? part "render")

def ofDocument (document : Json) : Except Failure Config :=
  match run check document with
  | .passed config => .ok config
  | .failed issues =>
      .error (.plain ("Invalid configuration:\n" ++ Text.joinWith "\n" (issues.map fun issue =>
        "  - " ++ issue.place ++ ": " ++ issue.message)))

def optionalMember (name : String) : Option String → List (String × Json)
  | some value => [(name, .string value)]
  | none => []

def document (config : Config) : Json :=
  let images := config.images
  .record
    [("include", .ofTexts config.included), ("exclude", .ofTexts config.excluded),
      ("output", .record
        [("snapshotDir", .string config.snapshotFolder),
          ("diagramDir", .string config.diagramFolder), ("imageDir", .string config.imageFolder)]),
      ("parser", .record [("maxFileSize", .ofInt config.sizeLimit)]),
      ("extraction", .record [("concurrency", .ofInt config.concurrency)]),
      ("graph", .record [("allowDuplicates", .bool config.allowDuplicates)]),
      ("render", .record
        ([("command", .string images.command), ("format", .string images.format.label),
          ("theme", .string images.theme.label), ("timeoutMs", .ofInt images.timeout)] ++
          optionalMember "configFile" images.configFile ++
          optionalMember "cssFile" images.styleFile))]

end Config

end CrateAtlas
