import CrateAtlas.Architecture
import CrateAtlas.Json
import CrateAtlas.ModulePath
import CrateAtlas.Record
import CrateAtlas.TypeText.References
import CrateAtlas.Snapshot.Canonical
import CrateAtlas.Graph.Build
import CrateAtlas.Graph.Focus
import CrateAtlas.Diagram.Render
import CrateAtlas.Diagram.Traits
import CrateAtlas.Mermaid.Clean
import CrateAtlas.Mermaid.Split
import CrateAtlas.Artifact
import CrateAtlas.Config
import CrateAtlas.Diff.Document
import CrateAtlas.Diff.Report
import CrateAtlas.Store.Manifest
import CrateAtlas.Rust.Reader
import CrateAtlas.Files.Task
import CrateAtlas.WorkPool
import CrateAtlas.Files.Search
import CrateAtlas.Config.Search
import CrateAtlas.Extraction
import CrateAtlas.Image
import CrateAtlas.Command.BuiltIn
import CrateAtlas.CommandLine.Run
import CrateAtlas.Main
import CrateAtlas.Proofs.Maps
import CrateAtlas.Proofs.Registry
import CrateAtlas.Proofs.Declarations
import CrateAtlas.Proofs.WorkPool
import CrateAtlas.Proofs.Diff.Entities
import CrateAtlas.Proofs.Diff.Partition
import CrateAtlas.Proofs.Canonical.Edges
import CrateAtlas.Proofs.Canonical.Graph
import CrateAtlas.Proofs.Canonical.Rearranged
import CrateAtlas.Proofs.Diff.Changes
import CrateAtlas.Proofs.Diff.Granularity
import CrateAtlas.Proofs.Diff.MethodKeys
import CrateAtlas.Proofs.Diff.Mirror
import CrateAtlas.Proofs.Diff.Reordered
import CrateAtlas.Proofs.Artifact
import CrateAtlas.Proofs.Store.Writes
import CrateAtlas.Proofs.Graph.Build
import CrateAtlas.Proofs.Graph.Focus
import CrateAtlas.Proofs.CallTargets
import CrateAtlas.Proofs.SkippedFiles
import CrateAtlas.Proofs.Diagram.Drawable
import CrateAtlas.Proofs.Diff.Retouched
import CrateAtlas.Proofs.Mermaid.Clean
import CrateAtlas.Proofs.Mermaid.Split
import CrateAtlas.Proofs.Mermaid.PartNames
import CrateAtlas.Proofs.Mermaid.Rejoin
import CrateAtlas.Proofs.Store.Containment
import CrateAtlas.Proofs.Mermaid.Alignment
import CrateAtlas.Proofs.Diagram.Captions
import CrateAtlas.Proofs.Diagram.Signature
import CrateAtlas.Proofs.Mermaid.Unclosed
import CrateAtlas.Proofs.Mermaid.Cleaned
import CrateAtlas.Proofs.TypeText.TypePath
import CrateAtlas.Proofs.TypeText.References
import CrateAtlas.Proofs.CrateRoots
import CrateAtlas.Proofs.ImportChains
import CrateAtlas.Proofs.Rust.Delimiters
import CrateAtlas.Proofs.Rust.UseGroups
import CrateAtlas.Proofs.Config.Search
import CrateAtlas.Proofs.Image
import CrateAtlas.Proofs.TypeText.Joined
import CrateAtlas.Proofs.Diff.Respaced
