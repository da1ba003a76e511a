import CrateAtlas.Artifact
import CrateAtlas.Diff
import CrateAtlas.Files.Finder
import CrateAtlas.Store.Manifest

/-!
Stores: folders with one artifact for every unit of a snapshot, and a manifest that lists
them. Writing replaces the artifacts of the manifest that it finds and touches nothing else.
-/

namespace CrateAtlas.Store

def removeListed (store : Path) (entries : List String) : FileTask Unit :=
  entries.forM fun entry =>
    match Manifest.place? store entry with
    | some path => FileTask.remove path
    | none => pure ()

def writeUnit (format : Json.Format) (store : Path) (unit : SourceUnit) : FileTask Path := do
  let path := store.descend (artifactName unit.filePath)
  FileTask.place path (Artifact.print format unit)
  return path

def write (format : Json.Format) (snapshot : Snapshot) (store : Path) : FileTask (List Path) := do
  FileTask.makeFolders store
  let listed ← Manifest.load store
  removeListed store (listed.getD [])
  let units := Text.sortBy Snapshot.byFilePath snapshot.units
  let paths ← units.mapM (writeUnit format store)
  FileTask.write (store.child Manifest.fileName)
    (Manifest.print (units.map fun unit => artifactName unit.filePath))
  return paths

def readUnit (format : Json.Format) (store : Path) (entry : String) : FileTask SourceUnit := do
  match Manifest.place? store entry with
  | none =>
      throw (.snapshotFormat (store.child Manifest.fileName).render
        ("invalid artifact path " ++ entry))
  | some path =>
      match (← get).read path with
      | .error fault => throw (.snapshotFormat path.render fault.message)
      | .ok content => FileTask.ofExcept (Artifact.parse format path.render content)

def repeatedPath? : List String → List String → Option String
  | _, [] => none
  | seen, path :: paths =>
      if seen.contains path then some path else repeatedPath? (path :: seen) paths

def allArtifacts : FileSearch :=
  { patterns := ["**/*" ++ artifactExtension], ignored := [], dots := true }

/-- Reads the snapshot that a folder holds: the artifacts of its manifest, or all that it has
where there is no manifest. -/
def read (format : Json.Format) (find : Finder) (store : Path) : FileTask Snapshot := do
  match (← get).isFolder store with
  | .error fault => throw (.snapshotFormat store.render fault.message)
  | .ok false => throw (.snapshotFormat store.render "not a directory")
  | .ok true =>
      let entries ←
        match ← Manifest.load store with
        | some entries => pure (Text.sortTexts entries)
        | none => FileTask.ask fun tree => find.inOrder allArtifacts tree store
      let units ← entries.mapM (readUnit format store)
      match repeatedPath? [] (units.map SourceUnit.filePath) with
      | some path =>
          throw (.snapshotFormat store.render
            ("source file " ++ path ++ " is described twice"))
      | none => return Snapshot.create store.render units

def readNamed (format : Json.Format) (find : Finder) (place : Path) (folder : String) :
    FileTask Snapshot :=
  tryCatch (read format find (place.resolve folder)) fun failure =>
    throw (.incomparable folder failure.message)

def compare (format : Json.Format) (find : Finder) (place : Path) (before after : String)
    (granularity : Diff.Granularity) : FileTask Diff.Result := do
  let first ← readNamed format find place before
  let second ← readNamed format find place after
  return Diff.compare first second granularity

end CrateAtlas.Store
