import SketchApk.Machine.Basic
import SketchApk.Main
import SketchApk.Proofs.Build.Clearing
import SketchApk.Proofs.Build.Confinement
import SketchApk.Proofs.Build.Environment
import SketchApk.Proofs.Build.Events
import SketchApk.Proofs.Build.Privacy
import SketchApk.Proofs.Build.Rebuild
import SketchApk.Proofs.Build.Renewal
import SketchApk.Proofs.Build.Replacement
import SketchApk.Proofs.Build.Report
import SketchApk.Proofs.Build.Secret
import SketchApk.Proofs.Build.Statistics
import SketchApk.Proofs.Build.StopRequest
import SketchApk.Proofs.Config.Lines
import SketchApk.Proofs.Config.Resaving
import SketchApk.Proofs.File.Branch
import SketchApk.Proofs.Plan.Creating
import SketchApk.Proofs.Plan.Directories
import SketchApk.Proofs.Project.Anchoring
import SketchApk.Proofs.Project.AppName
import SketchApk.Proofs.Project.Declaration
import SketchApk.Proofs.Project.Filling
import SketchApk.Proofs.Project.Fresh
import SketchApk.Proofs.Project.Launch
import SketchApk.Proofs.Project.Prepared
import SketchApk.Proofs.Project.Regeneration
import SketchApk.Proofs.Project.Sources
import SketchApk.Proofs.Project.Steps
import SketchApk.Proofs.Project.Template
import SketchApk.Proofs.Sketch.Passes
import SketchApk.Proofs.Sketch.Returns
import SketchApk.Proofs.Stage.Bundling
import SketchApk.Proofs.Stage.Collecting
import SketchApk.Proofs.Stage.KeyMaterial
import SketchApk.Proofs.Stage.SourceList
