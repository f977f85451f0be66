import SketchApk.Proofs.Build.Stop
import SketchApk.Proofs.Path.Name
import SketchApk.Proofs.Stage.Call

/-!
# Tools and packages of a build

The enabled stages of a build call their tools in order, and a build that succeeds has called all of
them. Each of the stages that write a package hands its own package over to the next one, and the
package of the last one is the package of the build.

The report about a build takes the place of whatever has its name. If that is a link on the way to
the package, then the package is no longer where it was.

## Main definitions

* `Builder.agenda` : the calls that stages make, given the package of the stages before them.
* `Builder.packageOf`, `Builder.packageBefore` : the packages that stages write.
* `Builder.HandsOver` : what is known about the tools and the package of a build.

## Main statements

* `Builder.Course.isCall` : the stages make their calls in order.
* `Builder.Course.has` : the package of a course exists at its end.
* `Builder.runClaimed_handsOver` : tools and packages of every build.
-/

namespace SketchApk

open Plan Request

namespace Builder

variable (builder : Builder) {config : BuildConfig}

/-! ### Calls -/

variable (config) in
/-- The calls that stages make, given the package of the stages before them. -/
def agenda : Option Path → List Stage → List (Invocation → Prop)
  | _, [] => []
  | package, stage :: rest =>
    if stage.isEnabled config then
      stage.agenda ⟨config, builder.toolchain⟩ package ++
        agenda ((stage.ownPackage? config.layout).or package) rest
    else agenda package rest

theorem agenda_cons {stage : Stage} (henabled : stage.isEnabled config = true)
    (package : Option Path) (rest : List Stage) :
    builder.agenda config package (stage :: rest) =
      stage.agenda ⟨config, builder.toolchain⟩ package ++
        builder.agenda config ((stage.ownPackage? config.layout).or package) rest := by
  rw [agenda, if_pos henabled]

/-- The turn of a stage makes the calls of the stage. -/
theorem calls_of_ends_turn {package : Option Path} {stage : Stage} {turn : History}
    {result : Except Fault StageOutput} {elapsed : Nat}
    (h : (builder.turn config package stage).Ends turn (result, elapsed)) :
    ∃ done rest, stage.agenda ⟨config, builder.toolchain⟩ package = done ++ rest ∧
      List.Forall₂ (fun described invocation => described invocation) done turn.calls ∧
      (rest = [] ∨ ∃ fault, result = .error fault) := by
  obtain ⟨started, ended, work, rfl, hwork⟩ := builder.ends_turn h
  have hcalls := (Stage.works_execute ⟨config, builder.toolchain⟩ package stage).calls hwork
  simpa [History.calls_append, History.calls_cons, invocation?] using hcalls

theorem package_of_ends_turn {package : Option Path} {stage : Stage} {turn : History}
    {output : StageOutput} {elapsed : Nat}
    (h : (builder.turn config package stage).Ends turn (.ok output, elapsed)) :
    output.package = (stage.ownPackage? config.layout).or package := by
  obtain ⟨started, ended, work, rfl, hwork⟩ := builder.ends_turn h
  exact (Stage.ensures_execute ⟨config, builder.toolchain⟩ package stage).of_ends hwork

/-- A turn makes the first calls of a course. -/
theorem exists_of_turn {package : Option Path} {stage : Stage} {turn : History}
    {result : Except Fault StageOutput} {elapsed : Nat} (henabled : stage.isEnabled config = true)
    (h : (builder.turn config package stage).Ends turn (result, elapsed)) (stages : List Stage) :
    ∃ done rest, builder.agenda config package (stage :: stages) = done ++ rest ∧
      List.Forall₂ (fun described invocation => described invocation) done turn.calls := by
  obtain ⟨done, rest, hdone, hcalls, -⟩ := builder.calls_of_ends_turn h
  exact ⟨done, rest ++ _, by rw [builder.agenda_cons henabled, hdone, List.append_assoc], hcalls⟩

variable {builder} in
/-- A course calls the tools of the enabled stages in order, and all of them if it ends with a
success. -/
theorem Course.calls {package : Option Path} {stages : List Stage} {history : History}
    {run : BuildRun} (h : builder.Course config package stages history run) :
    ∃ done rest, builder.agenda config package stages = done ++ rest ∧
      List.Forall₂ (fun described invocation => described invocation) done history.calls ∧
      (run.outcome.isSuccess = true → rest = []) := by
  induction h with
  | stopped package stages =>
    exact ⟨[], _, rfl, .nil, fun hsuccess => by cases hsuccess⟩
  | finished package => exact ⟨[], [], rfl, .nil, fun _ => rfl⟩
  | skipped hdisabled hrest ih =>
    obtain ⟨done, rest, hagenda, hdone, hsuccess⟩ := ih
    refine ⟨done, rest, ?_, hdone, hsuccess⟩
    rw [agenda, hdisabled, if_neg Bool.false_ne_true, hagenda]
  | @completed package stage stages turn output elapsed history run henabled hturn hrest ih =>
    obtain ⟨done, rest, hagenda, hdone, hsuccess⟩ := ih
    obtain ⟨first, remaining, hfirst, hcalls, hremaining⟩ := builder.calls_of_ends_turn hturn
    obtain rfl : remaining = [] := hremaining.resolve_right fun ⟨_, hfault⟩ => by cases hfault
    refine ⟨first ++ done, rest, ?_, ?_, hsuccess⟩
    · rw [builder.agenda_cons henabled, hfirst, ← builder.package_of_ends_turn hturn, hagenda,
        List.append_nil, List.append_assoc]
    · rw [History.calls_check, History.calls_append]
      exact List.rel_append hcalls hdone
  | interrupted henabled hturn hstop =>
    obtain ⟨done, rest, hagenda, hdone⟩ := builder.exists_of_turn henabled hturn _
    exact ⟨done, rest, hagenda, by simpa using hdone, fun hsuccess => by cases hsuccess⟩
  | failed henabled hturn hfault =>
    obtain ⟨done, rest, hagenda, hdone⟩ := builder.exists_of_turn henabled hturn _
    exact ⟨done, rest, hagenda, by simpa using hdone, fun hsuccess => by cases hsuccess⟩

/-! ### Packages -/

variable (config) in
/-- The package behind some stages, given the package before them. -/
def packageBehind : Option Path → List Stage → Option Path
  | package, [] => package
  | package, stage :: rest =>
    if stage.isEnabled config then packageBehind ((stage.ownPackage? config.layout).or package) rest
    else packageBehind package rest

variable {builder} in
/-- A course that succeeds ends with the package behind its stages. -/
theorem Course.package_eq {package : Option Path} {stages : List Stage} {history : History}
    {run : BuildRun} {path : Path} (h : builder.Course config package stages history run)
    (hsuccess : run.outcome = .success path) : packageBehind config package stages = some path := by
  induction h with
  | stopped | interrupted | failed => cases hsuccess
  | finished package =>
    cases package with
    | none => cases hsuccess
    | some package =>
      cases hsuccess
      rfl
  | skipped hdisabled hrest ih =>
    rw [packageBehind, hdisabled, if_neg Bool.false_ne_true]
    exact ih hsuccess
  | completed henabled hturn hrest ih =>
    rw [packageBehind, if_pos henabled, ← builder.package_of_ends_turn hturn]
    exact ih hsuccess

/-- The package that a stage writes exists behind its turn. -/
theorem has_of_ends_turn {place : Location} {files last : FileSystem} {package : Option Path}
    {stage : Stage} {turn : History} {output : StageOutput} {elapsed : Nat} {path : Path}
    (h : (builder.turn config package stage).Ends turn (.ok output, elapsed))
    (hfiles : FileSystem.Evolves place files turn last)
    (howns : stage.ownPackage? config.layout = some path) : last.Has place path := by
  obtain ⟨started, ended, work, rfl, hwork⟩ := builder.ends_turn h
  obtain ⟨first, -, hrest⟩ := hfiles.exists_of_append
  obtain ⟨middle, hmiddle, hlast⟩ := (hrest.of_leavesFiles trivial).exists_of_append
  obtain rfl : last = middle := hlast.eq_of_leavesFiles (by simp [LeavesFiles])
  exact (Stage.leaves_execute ⟨config, builder.toolchain⟩ package stage howns).of_ends hwork hmiddle

variable {builder} in
/-- The package of a course that succeeds exists at its end, if once a stage has written a package
all further stages do so. -/
theorem Course.has {place : Location} {files last : FileSystem} {package : Option Path}
    {stages : List Stage} {history : History} {run : BuildRun} {path : Path}
    (h : builder.Course config package stages history run)
    (hfiles : FileSystem.Evolves place files history last)
    (hsuccess : run.outcome = .success path)
    (horder : stages.Pairwise fun stage later =>
      stage.leavesPackage = true → later.leavesPackage = true)
    (hfresh : package = none ∨ ∀ stage ∈ stages, stage.leavesPackage = true)
    (hhas : ∀ package', package = some package' → files.Has place package') :
    last.Has place path := by
  induction h generalizing files with
  | stopped | interrupted | failed => cases hsuccess
  | finished package =>
    obtain rfl : last = files := hfiles.eq_of_leavesFiles (by simp [Exchange.check, LeavesFiles])
    cases package with
    | none => cases hsuccess
    | some package =>
      cases hsuccess
      exact hhas path rfl
  | skipped hdisabled hrest ih =>
    refine ih (hfiles.of_leavesFiles trivial) hsuccess (List.pairwise_cons.mp horder).2 ?_ hhas
    exact hfresh.imp_right fun hall => (List.forall_mem_cons.mp hall).2
  | @completed package stage stages turn output elapsed history run henabled hturn hrest ih =>
    obtain ⟨middle, hmiddle, hlast⟩ := (hfiles.of_leavesFiles trivial).exists_of_append
    obtain ⟨hlater, horder⟩ := List.pairwise_cons.mp horder
    have hpackage := builder.package_of_ends_turn hturn
    cases howns : stage.ownPackage? config.layout with
    | some own =>
      have hleaves : stage.leavesPackage = true := by
        rw [← Stage.isSome_ownPackage? config.layout, howns, Option.isSome_some]
      rw [howns, Option.some_or] at hpackage
      refine ih hlast hsuccess horder (.inr fun later hmem => hlater later hmem hleaves) ?_
      rintro _ hsome
      obtain rfl := Option.some.inj (hpackage.symm.trans hsome)
      exact builder.has_of_ends_turn hturn hmiddle howns
    | none =>
      have hleaves : ¬stage.leavesPackage = true := by
        rw [← Stage.isSome_ownPackage? config.layout, howns, Option.isSome_none]
        exact Bool.false_ne_true
      obtain rfl : package = none :=
        hfresh.resolve_right fun hall => hleaves (List.forall_mem_cons.mp hall).1
      rw [howns, Option.none_or] at hpackage
      exact ih hlast hsuccess horder (.inl hpackage) fun _ hsome => by simp [hpackage] at hsome

/-! ### All stages -/

/-- The package that the last enabled stage among some writes. -/
def packageOf (config : BuildConfig) (stages : List Stage) : Option Path :=
  ((stages.filter (·.isEnabled config)).filterMap (·.ownPackage? config.layout)).getLast?

/-- The package that the nearest enabled stage before a stage writes. -/
def packageBefore (config : BuildConfig) (stage : Stage) : Option Path :=
  packageOf config (Stage.all.takeWhile (· ≠ stage))

/-- The package behind some stages is the one that the last of them writes, if one of them writes a
package. -/
theorem packageBehind_eq (package : Option Path) (stages : List Stage) :
    packageBehind config package stages = (packageOf config stages).or package := by
  induction stages generalizing package with
  | nil => rfl
  | cons stage rest ih =>
    rw [packageBehind]
    split
    · rw [ih, packageOf, packageOf, List.filter_cons_of_pos ‹_›, List.filterMap_cons]
      cases stage.ownPackage? config.layout with
      | none => rw [Option.none_or]
      | some own =>
        rw [List.getLast?_cons]
        cases ((rest.filter _).filterMap _).getLast? <;> rfl
    · rw [ih, packageOf, packageOf, List.filter_cons_of_neg ‹_›]

/-- The packages that the stages of a build write have one name. -/
theorem fileName?_of_packageOf {stages : List Stage} {package : Path}
    (h : packageOf config stages = some package) :
    ∃ name, package.fileName? = some name ∧
      config.layout.unsignedPackage.fileName? = some name := by
  have hname : config.layout.packageFileName.toList =
      (config.appPackage.toList ++ ['.', 'a', 'p']) ++ ['k'] := by
    simp [BuildConfig.layout, BuildLayout.of]
  obtain ⟨name, hname⟩ := Path.exists_fileName?_div hname (by decide) (by decide)
  refine ⟨name, ?_, hname _⟩
  obtain ⟨stage, -, howns⟩ := List.mem_filterMap.mp (List.mem_of_getLast? h)
  cases stage <;> cases howns <;> exact hname _

variable (config) in
/-- The calls of a stage of a build. -/
def IsCall (stage : Stage) : Invocation → Prop :=
  stage.IsCall ⟨config, builder.toolchain⟩ (packageBefore config stage)

/-- The calls of all stages are the calls of those that call a tool. -/
theorem agenda_all : builder.agenda config none Stage.all = (Stage.calling config).flatMap fun stage =>
    stage.agenda ⟨config, builder.toolchain⟩ (packageBefore config stage) := by
  cases hoptimize : config.optimizeEnabled <;> cases halign : config.alignEnabled <;>
    cases hsign : config.signEnabled <;>
    simp [agenda, Stage.all, Stage.isEnabled, Stage.calling, Stage.agenda, packageBefore, packageOf,
      Stage.ownPackage?, List.takeWhile, *]

theorem exists_packageBefore {stage : Stage}
    (h : .packageResources ∈ Stage.all.takeWhile (· ≠ stage)) :
    ∃ package, packageBefore config stage = some package := by
  have hmem : config.layout.unsignedPackage ∈
      ((Stage.all.takeWhile (· ≠ stage)).filter (·.isEnabled config)).filterMap
        (·.ownPackage? config.layout) :=
    List.mem_filterMap.mpr ⟨_, List.mem_filter.mpr ⟨h, rfl⟩, rfl⟩
  exact Option.isSome_iff_exists.mp (List.getLast?_isSome.mpr (List.ne_nil_of_mem hmem))

/-- Each stage that calls a tool makes one call. -/
theorem exists_agenda_eq {stage : Stage} (h : stage ∈ Stage.calling config) :
    ∃ described, stage.agenda ⟨config, builder.toolchain⟩ (packageBefore config stage) =
      [described] := by
  cases stage with
  | clean | packageResources => simp [Stage.calling] at h
  | compileResources | linkResources | compileSources | convertBytecode => exact ⟨_, rfl⟩
  | optimize =>
    obtain ⟨package, hpackage⟩ : ∃ package, packageBefore config .optimize = some package :=
      exists_packageBefore (by decide)
    exact ⟨_, by rw [hpackage]; rfl⟩
  | align =>
    obtain ⟨package, hpackage⟩ : ∃ package, packageBefore config .align = some package :=
      exists_packageBefore (by decide)
    exact ⟨_, by rw [hpackage]; rfl⟩
  | sign =>
    obtain ⟨package, hpackage⟩ : ∃ package, packageBefore config .sign = some package :=
      exists_packageBefore (by decide)
    exact ⟨_, by rw [hpackage]; rfl⟩

variable (config) in
/-- The agenda of a build consists of one call for each of the stages that call a tool. -/
theorem forall₂_agenda : List.Forall₂
    (fun stage described => ∀ invocation, described invocation →
      builder.IsCall config stage invocation)
    (Stage.calling config) (builder.agenda config none Stage.all) := by
  rw [agenda_all]
  suffices h : ∀ stages : List Stage, (∀ stage ∈ stages, stage ∈ Stage.calling config) →
      List.Forall₂
        (fun stage described => ∀ invocation, described invocation →
          builder.IsCall config stage invocation) stages
        (stages.flatMap fun stage =>
          stage.agenda ⟨config, builder.toolchain⟩ (packageBefore config stage)) from
    h _ fun _ hmem => hmem
  intro stages hstages
  induction stages with
  | nil => exact .nil
  | cons stage rest ih =>
    obtain ⟨hstage, hrest⟩ := List.forall_mem_cons.mp hstages
    obtain ⟨described, hdescribed⟩ := builder.exists_agenda_eq hstage
    rw [List.flatMap_cons, hdescribed]
    refine .cons (fun invocation => ?_) (ih hrest)
    exact Stage.isCall_of_mem_agenda _ _ (hdescribed ▸ List.mem_singleton_self described)

/-! ### The package behind the report -/

/-- The requests with which a report is written. -/
def Reports (config : BuildConfig) (request : Request) : Prop :=
  request.Adds ∨ ∃ source, request = .file (.rename source config.layout.report)

theorem reports_of_reportRun {runId startedAt : String} {run : BuildRun} {history : History}
    (h : (reportRun runId startedAt config run).Ends history ()) :
    ∀ entry ∈ history, Reports config entry.request := by
  have hkind : (reportRun runId startedAt config run).Only (Reports config) := by
    refine only_reportRun (fun _ => .inl trivial) (.inl trivial) (.inl trivial) ?_
      (fun _ _ => .inl trivial) (fun source => .inr ⟨source, rfl⟩) _ _ _
    exact only_makeDirectories (fun _ => .inl trivial) fun _ => .inl trivial
  exact fun entry hmem => hkind.request_of_mem h hmem

theorem leavesFiles_of_closing {run : BuildRun} {history : History}
    (h : (builder.closing run).Ends history ()) :
    ∀ entry ∈ history, entry.request.LeavesFiles := by
  exact fun entry hmem => ((builder.only_closing run).request_of_mem h hmem).leavesFiles

/-! ### The build -/

/-- Entries of lists that are related one by one. -/
theorem exists_of_forall₂ {α β : Type} {related : α → β → Prop} {entries : List α}
    {others : List β} (h : List.Forall₂ related entries others) :
    ∀ entry ∈ entries, ∃ other ∈ others, related entry other := by
  induction h with
  | nil => simp
  | cons hhead _ ih =>
    refine List.forall_mem_cons.mpr ⟨⟨_, List.mem_cons_self, hhead⟩, fun entry hentry => ?_⟩
    obtain ⟨other, hother, hrelated⟩ := ih entry hentry
    exact ⟨other, List.mem_cons_of_mem _ hother, hrelated⟩

/-- Calls that meet their descriptions are calls of the stages that they are described for. -/
theorem isCall_of_described {stages : List Stage} {described : List (Invocation → Prop)}
    {calls : List Invocation}
    (h : List.Forall₂ (fun stage described => ∀ invocation, described invocation →
      builder.IsCall config stage invocation) stages described)
    (hcalls : List.Forall₂ (fun described invocation => described invocation) described calls) :
    List.Forall₂ (builder.IsCall config) stages calls := by
  induction h generalizing calls with
  | nil =>
    cases hcalls
    exact .nil
  | cons hhead _ ih =>
    cases hcalls with
    | cons hcall hrest => exact .cons (hhead _ hcall) (ih hrest)

/-- What is known about the tools and the package of a build, which begins with some files and ends
with others. -/
structure HandsOver (config : BuildConfig) (place : Location) (files last : FileSystem)
    (history : History) (run : BuildRun) : Prop where
  /-- The enabled stages that call a tool make their calls in order, up to some point. If the build
  succeeds, all of them do. -/
  calls : ∃ done rest, Stage.calling config = done ++ rest ∧
    List.Forall₂ (builder.IsCall config) done history.calls ∧
      (run.outcome.isSuccess = true → rest = [])
  /-- Each tool that is called has been looked for before. -/
  required : ∀ invocation ∈ history.calls, ∃ tool ∈ Preflight.requiredTools config,
    invocation.program = builder.toolchain.path tool
  /-- If the build succeeds, each tool that has been looked for is called. -/
  complete : run.outcome.isSuccess = true → ∀ tool ∈ Preflight.requiredTools config,
    ∃ invocation ∈ history.calls, invocation.program = builder.toolchain.path tool
  /-- The package of a build is the one that its last enabled stage writes. It has the name of the
  package that is not signed. -/
  package : ∀ package, run.outcome = .success package →
    packageOf config Stage.all = some package ∧
      ∃ name, package.fileName? = some name ∧
        config.layout.unsignedPackage.fileName? = some name
  /-- The package exists at the end, or it existed up to the moment when the report was renamed, and
  has been reached through the name of the report or the temporary one. -/
  package_has : ∀ package, run.outcome = .success package → last.Has place package ∨
    ∃ front temporary back middle,
      history = front ++ ⟨.file (.rename temporary config.layout.report), .ok ()⟩ :: back ∧
        FileSystem.Evolves place files front middle ∧ middle.Has place package ∧
        ¬(middle.without place [temporary, config.layout.report]).Has place package

variable {builder} in
/-- The calls of a course of all stages. -/
theorem Course.isCall {history : History} {run : BuildRun}
    (h : builder.Course config none Stage.all history run) :
    ∃ done rest, Stage.calling config = done ++ rest ∧
      List.Forall₂ (builder.IsCall config) done history.calls ∧
        (run.outcome.isSuccess = true → rest = []) := by
  obtain ⟨described, remaining, hagenda, hcalls, hsuccess⟩ := h.calls
  have hall := builder.forall₂_agenda config
  rw [hagenda] at hall
  refine ⟨_, _, (List.take_append_drop described.length _).symm, ?_, fun houtcome => ?_⟩
  · exact builder.isCall_of_described (List.forall₂_take_append _ _ _ hall) hcalls
  · have hrest := List.forall₂_drop_append _ _ _ hall
    rw [hsuccess houtcome] at hrest
    exact List.forall₂_nil_right_iff.mp hrest

variable {builder} in
/-- The package of a course of all stages exists at its end. -/
theorem Course.has_all {place : Location} {files last : FileSystem} {history : History}
    {run : BuildRun} {package : Path} (h : builder.Course config none Stage.all history run)
    (hfiles : FileSystem.Evolves place files history last)
    (hsuccess : run.outcome = .success package) : last.Has place package :=
  h.has hfiles hsuccess (by decide) (.inl rfl) fun _ hsome => by cases hsome

/-- Tools and packages of a build. -/
theorem runClaimed_handsOver {place : Location} {files last : FileSystem} {history : History}
    {run : BuildRun} (h : (builder.runClaimed config).Ends history run)
    (hfiles : FileSystem.Evolves place files history last) :
    builder.HandsOver config place files last history run := by
  have hcalls : ∃ done rest, Stage.calling config = done ++ rest ∧
      List.Forall₂ (builder.IsCall config) done history.calls ∧
        (run.outcome.isSuccess = true → rest = []) := by
    cases builder.claimed_of_ends h with
    | rejected hopening hchecks hclosing =>
      refine ⟨[], _, rfl, ?_, fun hsuccess => by cases hsuccess⟩
      simp [builder.only_opening.calls_eq_nil hopening fun _ => id,
        (isQuiet_validate _ _).calls_eq_nil hchecks fun _ => id,
        (builder.only_closing _).calls_eq_nil hclosing fun _ => id]
    | executed hopening hchecks hstages hreport hclosing =>
      rw [Claimed.calls_eq hopening hchecks hreport hclosing]
      exact hstages.isCall
  obtain ⟨done, rest, hcalling, hdone, hrest⟩ := hcalls
  refine ⟨⟨done, rest, hcalling, hdone, hrest⟩, fun invocation hinvocation => ?_,
    fun hsuccess tool htool => ?_, fun package hsuccess => ?_, fun package hsuccess => ?_⟩
  · obtain ⟨stage, hstage, hcall⟩ := exists_of_forall₂ hdone.flip invocation hinvocation
    obtain ⟨tool, htool, hprogram⟩ := hcall.program
    refine ⟨tool, Stage.mem_requiredTools_iff.mpr ⟨stage, ?_, htool⟩, hprogram⟩
    rw [hcalling]
    exact List.mem_append_left rest hstage
  · obtain ⟨stage, hstage, hstageTool⟩ := Stage.mem_requiredTools_iff.mp htool
    rw [hcalling, hrest hsuccess, List.append_nil] at hstage
    obtain ⟨invocation, hinvocation, hcall⟩ := exists_of_forall₂ hdone stage hstage
    obtain ⟨tool', htool', hprogram⟩ := hcall.program
    obtain rfl := Option.some.inj (hstageTool.symm.trans htool')
    exact ⟨invocation, hinvocation, hprogram⟩
  · cases builder.claimed_of_ends h with
    | rejected => cases hsuccess
    | executed _ _ hstages _ _ =>
      have hpackage := hstages.package_eq hsuccess
      rw [packageBehind_eq, Option.or_none] at hpackage
      exact ⟨hpackage, fileName?_of_packageOf hpackage⟩
  · cases builder.claimed_of_ends h with
    | rejected => cases hsuccess
    | @executed opening checks stages report closing ids run hopening hchecks hstages hreport
        hclosing =>
      obtain ⟨opened, hopened, hfiles⟩ := hfiles.exists_of_append
      obtain ⟨checked, hchecked, hfiles⟩ := hfiles.exists_of_append
      obtain ⟨staged, hstaged, hfiles⟩ := hfiles.exists_of_append
      obtain ⟨reported, hreported, hclosed⟩ := hfiles.exists_of_append
      obtain rfl := hclosed.eq_of_leavesFiles (builder.leavesFiles_of_closing hclosing)
      have hhas := hstages.has_all hstaged hsuccess
      rcases hreported.has_or_exists hhas (reports_of_reportRun hreport) with hlast |
        ⟨front, source, back, middle, rfl, hfront, hmiddle, hlost⟩
      · exact .inl hlast
      · refine .inr ⟨opening ++ (checks ++ (stages ++ front)), source, back ++ closing, middle,
          by simp, hopened.append (hchecked.append (hstaged.append hfront)), hmiddle, hlost⟩

/-! ### Examples -/

/-- The files that tools write in the build directory. -/
def written : List (Location × Content) :=
  [(["compiled_res", "resources.zip"], .empty), (["gen", "resources.ap_"], .ofArchive .empty),
    (["gen", "R.java"], .empty), (["classes", "R.class"], .empty),
    (["dex", "classes.dex"], .empty), (["optimized", "com.example.app.apk"], .empty),
    (["aligned", "com.example.app.apk"], .empty)]

/-- A world in which every tool writes these files and succeeds. -/
def busyWorld : World where
  place := []
  tools _ files := (.ok ⟨some 0, "", ""⟩, written.foldl (fun changed entry =>
    changed.put ("d" :: entry.1) (.file Mode.newFile entry.2)) files)

/-- A build that succeeds hands its package from stage to stage. -/
theorem handsOver_sample :
    ((sampleBuilder.runClaimed sampleConfig).run (busyWorld.answer false) sampleFiles).1.outcome =
        .success ⟨"/d/aligned/com.example.app.apk"⟩ ∧
      sampleBuilder.HandsOver sampleConfig [] sampleFiles
        ((sampleBuilder.runClaimed sampleConfig).run (busyWorld.answer false) sampleFiles).2
        ((sampleBuilder.runClaimed sampleConfig).history (busyWorld.answer false) sampleFiles)
        ((sampleBuilder.runClaimed sampleConfig).run (busyWorld.answer false) sampleFiles).1 :=
  ⟨by decide +kernel, runClaimed_handsOver sampleBuilder (ends_run _ _ _)
    (busyWorld.evolves_history false _ sampleFiles)⟩

/-- A configuration whose package is reached through the name of the report. -/
def crossedConfig : BuildConfig :=
  { sampleConfig with
    appPackage := "../build-report.json/x"
    optimizeEnabled := false
    alignEnabled := false }

/-- Files in which the name of the report is a link to a directory. -/
def crossedFiles : FileSystem :=
  (sampleFiles.put ["e"] (.directory 0o755)).put ["d", "build-report.json"] (.link ⟨"/e"⟩)

/-- The report of a build may take away its package: when the name of the report is a link on the
way to the package, the report takes the place of the link. -/
theorem not_has_crossed :
    ((sampleBuilder.runClaimed crossedConfig).run (busyWorld.answer false) crossedFiles).1.outcome =
        .success ⟨"/d/package/../build-report.json/x.apk"⟩ ∧
      ¬((sampleBuilder.runClaimed crossedConfig).run (busyWorld.answer false) crossedFiles).2.Has
        busyWorld.place ⟨"/d/package/../build-report.json/x.apk"⟩ := by
  have hrun : ((sampleBuilder.runClaimed crossedConfig).run (busyWorld.answer false)
          crossedFiles).1.outcome = .success ⟨"/d/package/../build-report.json/x.apk"⟩ ∧
      (((sampleBuilder.runClaimed crossedConfig).run (busyWorld.answer false)
        crossedFiles).2.inspect busyWorld.place
          ⟨"/d/package/../build-report.json/x.apk"⟩).toBool = false := by
    decide +kernel
  refine ⟨hrun.1, fun ⟨inspection, hinspect⟩ => ?_⟩
  rw [hinspect] at hrun
  cases hrun.2

end Builder

end SketchApk
