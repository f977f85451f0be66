import SketchApk.Proofs.Stage.Package
import SketchApk.Proofs.Stage.Work

/-!
# The calls of stages

Each stage that calls a tool calls one that the checks before the build have looked for. The last
three stages have a package written from the package of the stages before them.

## Main definitions

* `Stage.tool?` : the tool that a stage calls.
* `Stage.calling` : the enabled stages that call a tool, in order.
* `Stage.IsCall` : the calls of a stage, given the package of the stages before it.

## Main statements

* `Stage.isCall_of_mem_agenda` : the agenda of a stage consists of such calls.
* `Stage.mem_requiredTools_iff` : the tools that a build needs are the ones that its stages call.
-/

namespace SketchApk.Stage

/-- The tool that a stage calls, if it calls one. -/
def tool? (config : BuildConfig) : Stage → Option Tool
  | compileResources | linkResources | optimize => some .aapt2
  | compileSources => some .javac
  | convertBytecode => some (if config.shrinkEnabled then .r8 else .d8)
  | align => some .zipalign
  | sign => some .apksigner
  | clean | packageResources => none

/-- The first argument, if it tells a tool what to do. -/
def task? : Stage → Option String
  | compileResources => some "compile"
  | linkResources => some "link"
  | optimize => some "optimize"
  | sign => some "sign"
  | _ => none

/-- The enabled stages that call a tool, in order. -/
def calling (config : BuildConfig) : List Stage :=
  [compileResources, linkResources, compileSources, convertBytecode] ++
    (if config.optimizeEnabled then [optimize] else []) ++
    (if config.alignEnabled then [align] else []) ++
    (if config.signEnabled then [sign] else [])

/-- The tools that a build needs are the ones that its enabled stages call. -/
theorem mem_requiredTools_iff {config : BuildConfig} {tool : Tool} :
    tool ∈ Preflight.requiredTools config ↔ ∃ stage ∈ calling config, stage.tool? config = some tool := by
  constructor
  · intro htool
    simp only [Preflight.requiredTools, List.mem_append, List.mem_cons, List.not_mem_nil,
      or_false] at htool
    rcases htool with ((rfl | rfl | rfl) | htool) | htool
    · exact ⟨compileResources, by simp [calling], rfl⟩
    · exact ⟨compileSources, by simp [calling], rfl⟩
    · exact ⟨convertBytecode, by simp [calling], rfl⟩
    · split at htool
      · obtain rfl := List.mem_singleton.mp htool
        exact ⟨align, by simp [calling, *], rfl⟩
      · cases htool
    · split at htool
      · obtain rfl := List.mem_singleton.mp htool
        exact ⟨sign, by simp [calling, *], rfl⟩
      · cases htool
  · rintro ⟨stage, hstage, htool⟩
    cases stage <;> cases htool <;> simp_all [calling, Preflight.requiredTools]

/-- The arguments with which a stage has a package written from another package. -/
inductive Rewrites (config : BuildConfig) (input output : Path) : Stage → List String → Prop
  | optimize : Rewrites config input output optimize ["optimize", "-o", output.text, input.text]
  | align : Rewrites config input output align ["-p", "-f", "4", input.text, output.text]
  | sign (keys : List String) :
      Rewrites config input output sign
        (["sign", "--min-sdk-version", BuildConfig.numberValue config.minSdk, "--out",
          output.text] ++ keys ++ [input.text])

variable (context : StageContext) (package : Option Path)

/-- The calls of a stage, given the package of the stages before it. -/
structure IsCall (stage : Stage) (invocation : Invocation) : Prop where
  /-- The program is the tool of the stage. -/
  program : ∃ tool, stage.tool? context.config = some tool ∧
    invocation.program = context.toolchain.path tool
  /-- The first argument tells a tool that has several uses what to do. -/
  task : stage.task?.toList <+: invocation.arguments
  /-- The last three stages have their own package written from the package before them. -/
  rewrites : stage = optimize ∨ stage = align ∨ stage = sign → ∃ input output,
    package = some input ∧ stage.ownPackage? context.layout = some output ∧
      Rewrites context.config input output stage invocation.arguments

/-- The agenda of a stage consists of such calls. -/
theorem isCall_of_mem_agenda {stage : Stage} {described : Invocation → Prop}
    {invocation : Invocation} (h : described ∈ stage.agenda context package)
    (hcall : described invocation) : stage.IsCall context package invocation := by
  cases stage with
  | clean | packageResources => cases h
  | compileResources | linkResources =>
    obtain rfl := List.mem_singleton.mp h
    obtain rfl := hcall
    exact ⟨⟨_, rfl, rfl⟩, ⟨_, rfl⟩, by simp⟩
  | compileSources | convertBytecode =>
    obtain rfl := List.mem_singleton.mp h
    obtain ⟨_, rfl⟩ := hcall
    exact ⟨⟨_, rfl, rfl⟩, List.nil_prefix, by simp⟩
  | optimize =>
    obtain ⟨input, hinput, rfl⟩ := List.mem_map.mp h
    obtain rfl := hcall
    exact ⟨⟨_, rfl, rfl⟩, ⟨_, rfl⟩, fun _ =>
      ⟨input, _, Option.mem_toList.mp hinput, rfl, .optimize⟩⟩
  | align =>
    obtain ⟨input, hinput, rfl⟩ := List.mem_map.mp h
    obtain rfl := hcall
    exact ⟨⟨_, rfl, rfl⟩, List.nil_prefix, fun _ =>
      ⟨input, _, Option.mem_toList.mp hinput, rfl, .align⟩⟩
  | sign =>
    obtain ⟨input, hinput, rfl⟩ := List.mem_map.mp h
    obtain ⟨use, rfl⟩ := hcall
    exact ⟨⟨_, rfl, rfl⟩, ⟨_, rfl⟩, fun _ =>
      ⟨input, _, Option.mem_toList.mp hinput, rfl, .sign use.arguments⟩⟩

end SketchApk.Stage
