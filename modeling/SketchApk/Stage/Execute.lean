import SketchApk.Stage.Basic
import SketchApk.Stage.Classes
import SketchApk.Stage.Package
import SketchApk.Stage.Resources
import SketchApk.Stage.Signature

/-!
# Executing a stage

Every stage is an attempt that is given the package of the stages before it.
-/

namespace SketchApk.Stage

/-- Execute a stage. -/
def execute (context : StageContext) (package : Option Path) : Stage → Attempt StageOutput
  | clean => removeIntermediates context package
  | compileResources => runCompileResources context package
  | linkResources => runLinkResources context package
  | compileSources => runCompileSources context package
  | convertBytecode => runConvertBytecode context package
  | packageResources => runPackageResources context package
  | optimize => runOptimize context package
  | align => runAlign context package
  | sign => runSign context package

end SketchApk.Stage
