import SketchApk.Proofs.Build.Handover
import SketchApk.Proofs.Build.Preflight
import SketchApk.Proofs.Build.Run
import SketchApk.Proofs.File.Variant
import SketchApk.Proofs.Plan.Enactment
import SketchApk.Proofs.Stage.Cleaning
import SketchApk.Proofs.Stage.Work

/-!
# Building again

A build begins by removing what an earlier one has left in the build directory. If the checks and
this stage succeed, the build does not depend on what was left: in file systems that differ in
leftovers alone it tells the same events, calls the same tools with the same files, has the same
outcome and the same statistics but for times, and leaves the same files but for the name of the
build and the times in the report.

## Main definitions

* `FileSystem.SameUpToReports` : the same files but for the name and the times in a report.
* `Builder.DifferInLeftovers` : two file systems that differ in what an earlier build has left.

## Main statements

* `Builder.alike_runStages_of_eq` : stages do the same when they begin with the same files.
* `Builder.alikeWhen_clean` : the first stage leaves the same files when it succeeds.
* `Builder.agrees_of_differInLeftovers` : a build does not depend on leftovers.
-/

namespace SketchApk

open Plan Request FileSystem

/-- The record of a stage without its time. -/
def StageRecord.untimed (record : StageRecord) : StageRecord :=
  { record with elapsed := 0 }

/-- What a build leaves, without the times of its stages. -/
def BuildRun.untimed (run : BuildRun) : BuildRun :=
  { run with statistics := run.statistics.map StageRecord.untimed }

/-- A report without the name of the build and without any times. -/
def RunReport.untimed (report : RunReport) : RunReport :=
  { report with
    runId := "", startedAt := "", finishedAt := ""
    stages := report.stages.map StageRecord.untimed }

namespace Builder

variable {builder : Builder} {config : BuildConfig} {world : World} {process : Nat}

theorem alike_announce {related : FileSystem → FileSystem → Prop} (event : BuildEvent) :
    world.Alike process related related (fun _ _ => True) (builder.announce event)
      (builder.announce event) :=
  .forM _ fun _ => .ask trivial

theorem alike_turn_of_eq (package : Option Path) (stage : Stage) :
    world.Alike process Eq Eq (fun result result' => result.1 = result'.1)
      (builder.turn config package stage) (builder.turn config package stage) := by
  refine (alike_announce _).bind fun _ _ _ => ?_
  have hclock : Request.clock.IsIdle := trivial
  refine World.Alike.bind (.ask hclock) fun started started' _ => ?_
  have hstage := Stage.works_execute ⟨config, builder.toolchain⟩ package stage
  refine World.Alike.bind (.of_isWork hstage.only) fun result _ hresult => ?_
  exact World.Alike.bind (.ask hclock) fun ended ended' _ => .done hresult fun _ _ => id

theorem alike_runFailed (stage : Stage) (elapsed elapsed' : Nat) (fault : Fault) :
    world.Alike process Eq Eq (fun run run' => run.untimed = run'.untimed)
      (runFailed stage elapsed fault) (runFailed stage elapsed' fault) := by
  refine World.Alike.ask_isStopRequested.bind fun asked asked' hasked => ?_
  obtain ⟨rfl, rfl⟩ := hasked
  split <;> exact .done rfl fun _ _ => id

theorem untimed_record {record record' : StageRecord} {run run' : BuildRun}
    (h : record.untimed = record'.untimed) (hrun : run.untimed = run'.untimed) :
    (run.record record).untimed = (run'.record record').untimed := by
  obtain ⟨houtcome, hstatistics⟩ := BuildRun.mk.inj hrun
  simp only [BuildRun.untimed, BuildRun.record, List.map_cons, h, houtcome, hstatistics]

/-- Stages do the same when they begin with the same files. -/
theorem alike_runStages_of_eq (package : Option Path) (stages : List Stage) :
    world.Alike process Eq Eq (fun run run' => run.untimed = run'.untimed)
      (builder.runStages config package stages) (builder.runStages config package stages) := by
  induction stages generalizing package with
  | nil =>
    refine World.Alike.ask_isStopRequested.bind fun asked asked' hasked => ?_
    obtain ⟨rfl, rfl⟩ := hasked
    exact .done rfl fun _ _ => id
  | cons stage rest ih =>
    refine World.Alike.ask_isStopRequested.bind fun asked asked' hasked => ?_
    obtain ⟨rfl, rfl⟩ := hasked
    simp only [Bool.false_eq_true, if_false]
    split
    · refine (alike_turn_of_eq package stage).bind fun ⟨result, elapsed⟩ ⟨result', elapsed'⟩ hresult => ?_
      obtain rfl : result = result' := hresult
      cases result with
      | ok output =>
        exact (ih output.package).bind fun run run' hrun =>
          .done (untimed_record rfl hrun) fun _ _ => id
      | error fault => exact alike_runFailed stage elapsed elapsed' fault
    · exact (ih package).bind fun run run' hrun => .done (untimed_record rfl hrun) fun _ _ => id

end Builder

/-- The file systems are the same, except that a report in one may have another name of the build or
other times in the other one. -/
def FileSystem.SameUpToReports (files other : FileSystem) : Prop :=
  ∃ report report' : RunReport, report.untimed = report'.untimed ∧
    Variant (.ofText report.text) (.ofText report'.text) files other

/-- There is something at the same places. -/
theorem FileSystem.SameUpToReports.isSome_eq {files other : FileSystem}
    (h : files.SameUpToReports other) (place : Location) :
    (files.get? place).isSome = (other.get? place).isSome := by
  obtain ⟨report, report', -, hvariant⟩ := h
  rcases hvariant place with heq | ⟨mode, hfile, hfile'⟩
  · rw [heq]
  · rw [hfile, hfile', Option.isSome_some, Option.isSome_some]

namespace RunReport

variable {config : BuildConfig} {world : World} {process : Nat}

theorem sameUpToReports_refl (files : FileSystem) : files.SameUpToReports files :=
  ⟨⟨"", "", "", .stopped, [], none⟩, _, rfl, .refl _ _ files⟩

/-- The reports about two builds that are the same but for times are so as well. -/
theorem alike_of {run run' : BuildRun} (h : run.untimed = run'.untimed)
    (runId startedAt runId' startedAt' : String) :
    world.Alike process Eq Eq
      (Attempt.Likewise fun report report' => report.untimed = report'.untimed)
      (RunReport.of runId startedAt run).run (RunReport.of runId' startedAt' run').run := by
  obtain ⟨houtcome, hstatistics⟩ := BuildRun.mk.inj h
  have hrest (package : Option PackageReport) :
      world.Alike process Eq Eq
        (Attempt.Likewise fun report report' => report.untimed = report'.untimed) (do
          let finished ← Attempt.always (ask .calendar)
          return ⟨runId, startedAt, Moment.stamp finished, run'.outcome, run.statistics, package⟩ :
            Attempt RunReport).run (do
          let finished ← Attempt.always (ask .calendar)
          return ⟨runId', startedAt', Moment.stamp finished, run'.outcome, run'.statistics,
            package⟩ : Attempt RunReport).run := by
    have hcalendar : Request.calendar.IsIdle := trivial
    refine (World.Alike.ask hcalendar).always.attemptBind (fun now now' _ => .done ?_ fun _ _ => id)
      (fun _ _ => trivial) fun _ _ => id
    simp only [Attempt.Likewise, untimed, hstatistics]
  rw [RunReport.of, RunReport.of, houtcome]
  split
  · refine World.Alike.attemptBind (.attempt_of_isWork ?_) (fun package _ hpackage => ?_)
      (fun _ _ => trivial) fun _ _ => id
    · exact (only_describePackage (fun _ => trivial) _).bind fun result => by
        cases result <;> exact Only.done _
    · obtain rfl : package = _ := hpackage
      exact hrest package
  · exact hrest none

/-- One of two texts is written. -/
theorem alike_writeText (path : Path) (text text' : String) :
    world.Alike (α := Except Fault Unit) process Eq (Variant (.ofText text) (.ofText text'))
      (Attempt.Likewise fun _ _ => True) (Attempt.file (.write path (.ofText text))).run
      (Attempt.file (.write path (.ofText text'))).run := by
  refine .of_isLocal (only_attemptFile trivial) (only_attemptFile trivial) ?_
  rintro files _ _ _ _ _ rfl hrun hrun'
  obtain ⟨hanswer, hwritten⟩ :=
    variant_run_write (.ofText text) (.ofText text') world.place path files
  rw [Attempt.run_file] at hrun hrun'
  obtain ⟨rfl, rfl⟩ := Prod.mk.inj hrun
  obtain ⟨rfl, rfl⟩ := Prod.mk.inj hrun'
  rw [hanswer]
  refine ⟨?_, hwritten⟩
  cases ((FileOperation.write path (.ofText text')).run world.place files).1 <;> trivial

/-- The file with the text is given another name. -/
theorem alike_rename (source target : Path) (content content' : Content) :
    world.Alike process (Variant content content') (Variant content content') (fun _ _ => True)
      (Attempt.file (.rename source target)).run (Attempt.file (.rename source target)).run := by
  refine .of_isLocal (only_attemptFile trivial) (only_attemptFile trivial) ?_
  intro files files' _ _ _ _ h hrun hrun'
  rw [Attempt.run_file] at hrun hrun'
  obtain ⟨-, rfl⟩ := Prod.mk.inj hrun
  obtain ⟨-, rfl⟩ := Prod.mk.inj hrun'
  exact ⟨trivial, h.run_rename world.place source target⟩

/-- Both reports are written to the same temporary file, which then takes the same name. -/
theorem alike_write (path : Path) {report report' : RunReport}
    (h : report.untimed = report'.untimed) :
    world.Alike process Eq SameUpToReports (fun _ _ => True) (report.write path).run
      (report'.write path).run := by
  have hsame (files other : FileSystem) (heq : files = other) : files.SameUpToReports other :=
    heq ▸ sameUpToReports_refl files
  have hvariant (files other : FileSystem)
      (hvariant : Variant (.ofText report.text) (.ofText report'.text) files other) :
      files.SameUpToReports other :=
    ⟨report, report', h, hvariant⟩
  refine World.Alike.during_any _ ?_
  rw [replaceFile, replaceFile]
  cases path.parent? with
  | none => exact .done trivial hsame
  | some parent =>
    refine World.Alike.attemptBind (.attempt_of_isWork ?_) (fun _ _ _ => ?_) (fun _ _ => trivial)
      hsame
    · exact (only_makeDirectories (fun _ => trivial) (fun _ => trivial) parent).during _
    refine World.Alike.ask_processId.always.attemptBind (fun number _ hnumber => ?_)
      (fun _ _ => trivial) hsame
    obtain rfl : number = _ := hnumber
    refine ((alike_writeText _ _ _).during _).attemptBind (fun _ _ _ => ?_) (fun _ _ => trivial)
      hvariant
    exact ((alike_rename _ _ _ _).during_any _).weaken (fun _ _ => id) hvariant fun _ _ => id

end RunReport

namespace Builder

variable {builder : Builder} {config : BuildConfig} {world : World} {process : Nat}

theorem alike_reportRun {run run' : BuildRun} (h : run.untimed = run'.untimed)
    (config : BuildConfig) (runId startedAt runId' startedAt' : String) :
    world.Alike process Eq SameUpToReports (fun _ _ => True) (reportRun runId startedAt config run)
      (reportRun runId' startedAt' config run') := by
  have hreport : world.Alike process Eq SameUpToReports (fun _ _ => True)
      (do
        let report ← RunReport.of runId startedAt run
        report.write config.layout.report : Attempt Unit).run
      (do
        let report ← RunReport.of runId' startedAt' run'
        report.write config.layout.report : Attempt Unit).run := by
    refine (RunReport.alike_of h _ _ _ _).attemptBind (fun report report' hreport => ?_)
      (fun _ _ => trivial) fun files _ heq => heq ▸ RunReport.sameUpToReports_refl files
    exact RunReport.alike_write _ hreport
  exact hreport.bind fun _ _ _ => .done trivial fun _ _ => id

/-- Whatever has run, the end of a build that has the same outcome is the same. -/
theorem alike_closing {related : FileSystem → FileSystem → Prop} {run run' : BuildRun}
    (h : run.outcome = run'.outcome) :
    world.Alike process related related (fun _ _ => True) (builder.closing run)
      (builder.closing run') := by
  have hprint {kind : Request → Prop} (hkind : ∀ text, kind (.print text))
      (statistics : Statistics) : statistics.print.Only kind :=
    only_print hkind statistics
  refine World.Alike.bind (.of_isIdle (hprint (fun _ => trivial) _) (hprint (fun _ => trivial) _)
    (hprint (fun _ => trivial) _) (hprint (fun _ => trivial) _)) fun _ _ _ => ?_
  rw [h]
  have hrelease : Request.release.IsIdle := trivial
  have hstate : (Request.setState run'.outcome.state).IsIdle := trivial
  have hfinish : world.Alike process related related (fun _ _ => True)
      (builder.finish run'.outcome) (builder.finish run'.outcome) :=
    World.Alike.bind (.ask hstate) fun _ _ _ => .forM _ fun event => alike_announce event
  exact hfinish.bind fun _ _ _ => .ask hrelease

theorem alike_opening {related : FileSystem → FileSystem → Prop} :
    world.Alike process related related (fun _ _ => True) builder.opening builder.opening := by
  have hcalendar : Request.calendar.IsIdle := trivial
  have hstate : (Request.setState .running).IsIdle := trivial
  refine World.Alike.bind (.ask hcalendar) fun _ _ _ => ?_
  refine World.Alike.ask_processId.bind fun _ _ _ => ?_
  refine World.Alike.bind (.ask hcalendar) fun _ _ _ => ?_
  refine World.Alike.bind (.ask hstate) fun _ _ _ => ?_
  exact (alike_announce _).bind fun _ _ _ => .done trivial fun _ _ => id

variable (builder config world) in
/-- The file systems are the same, or they are so without what an earlier build has left in the
build directory, which is at a place. A tool that is needed is then the same file in both, or a
leftover in both. -/
def DifferInLeftovers (place : Location) (files other : FileSystem) : Prop :=
  files = other ∨
    files.SameWithout world.place config.layout.root place BuildLayout.leftoverNames
      ((Preflight.requiredTools config).map builder.toolchain.path) other

/-- The build has checked its environment, and its first stage has removed what was left. -/
def HasCleaned (run : BuildRun) : Prop :=
  ∃ elapsed rest, run.statistics = record .clean elapsed .completed :: rest

/-- What follows a run that it does not change has cleaned only if the run has. -/
theorem HasCleaned.of_ends {α : Type} {plan : Plan α} {run value : BuildRun} {history : History}
    (h : (plan.bind fun _ => .done run).Ends history value) (hclean : HasCleaned value) :
    HasCleaned run := by
  obtain ⟨_, _, _, -, -, -, rfl⟩ := ends_bind.mp h
  exact hclean

variable {files other : FileSystem} {place : Location}

/-- When the first stage succeeds it leaves the same files. -/
theorem alikeWhen_clean (package : Option Path) :
    world.AlikeWhen process (fun result => ∃ output, result = .ok output)
      (builder.DifferInLeftovers config world place) Eq Eq
      (Stage.clean.execute ⟨config, builder.toolchain⟩ package).run
      (Stage.clean.execute ⟨config, builder.toolchain⟩ package).run := by
  have hlocal := Stage.only_removeIntermediates ⟨config, builder.toolchain⟩ package
  refine World.AlikeWhen.of_isLocal hlocal hlocal ?_
  rintro files other _ _ last last' (rfl | h) hrun hrun' ⟨output, rfl⟩ ⟨output', rfl⟩
  · rw [hrun] at hrun'
    exact Prod.mk.inj hrun'
  · obtain ⟨rfl, rfl⟩ := Stage.run_removeIntermediates_eq h.cluttered h.cluttered_other h.bare_eq
      hrun hrun'
    exact ⟨rfl, rfl⟩

/-- So does its turn. -/
theorem alikeWhen_turn (package : Option Path) :
    world.AlikeWhen process (fun result => ∃ output, result.1 = .ok output)
      (builder.DifferInLeftovers config world place) Eq (fun result result' => result.1 = result'.1)
      (builder.turn config package .clean) (builder.turn config package .clean) := by
  have hclock : Request.clock.IsIdle := trivial
  refine World.Alike.bindWhen (alike_announce _) fun _ _ _ => ?_
  refine World.Alike.bindWhen (.ask hclock) fun started started' _ => ?_
  -- The turn ends with the result of the stage.
  have hresult (started : Nat) (result : Except Fault StageOutput) (history : History)
      (value : Except Fault StageOutput × Nat)
      (h : ((ask .clock).bind fun ended : Nat => .done (result, ended - started)).Ends history
        value) : value.1 = result := by
    obtain ⟨ended, rest, rfl, rfl, rfl⟩ := ends_ask_bind.mp h
    rfl
  refine (alikeWhen_clean package).bind (fun result history value h hvalue => ?_)
    (fun result history value h hvalue => ?_) fun result result' _ _ hresults => ?_
  · exact hresult started result history value h ▸ hvalue
  · exact hresult started' result history value h ▸ hvalue
  · refine World.Alike.bindWhen (.ask hclock) fun _ _ _ => World.Alike.when ?_ _
    exact .done hresults fun _ _ => id

/-- The stages show the same when the first one succeeds, and they leave the same files. -/
theorem alikeWhen_runStages :
    world.AlikeWhen process HasCleaned (builder.DifferInLeftovers config world place) Eq
      (fun run run' => run.untimed = run'.untimed) (builder.runStages config none Stage.all)
      (builder.runStages config none Stage.all) := by
  refine World.Alike.bindWhen .ask_isStopRequested fun asked asked' hasked => ?_
  obtain ⟨rfl, rfl⟩ := hasked
  -- A stage that fails is not recorded as completed.
  have hcompleted (f : Except Fault StageOutput × Nat → Plan BuildRun)
      (hf : ∀ fault elapsed, f (.error fault, elapsed) = runFailed .clean elapsed fault)
      (value : Except Fault StageOutput × Nat) (history : History) (run : BuildRun)
      (h : (f value).Ends history run) (hclean : HasCleaned run) :
      ∃ output, value.1 = .ok output := by
    obtain ⟨fault | output, elapsed⟩ := value
    · rw [hf] at h
      obtain ⟨asked, rest, rfl, hrest⟩ := ends_ask_bind.mp h
      obtain ⟨time, records, hrecords⟩ := hclean
      split at hrest <;> obtain ⟨-, rfl⟩ := hrest <;> cases hrecords
    · exact ⟨output, rfl⟩
  refine (alikeWhen_turn none).bind (hcompleted _ fun _ _ => rfl) (hcompleted _ fun _ _ => rfl) ?_
  rintro ⟨result, elapsed⟩ ⟨result', elapsed'⟩ ⟨output, rfl⟩ ⟨output', rfl⟩ hresult
  cases hresult
  refine World.Alike.when ((alike_runStages_of_eq _ _).bind fun run run' hrun => ?_) _
  exact .done (untimed_record rfl hrun) fun _ _ => id

/-- The checks make no difference. -/
theorem alikeWhen_validate :
    world.AlikeWhen process (fun result => result = .ok ())
      (builder.DifferInLeftovers config world place)
      (builder.DifferInLeftovers config world place) Eq
      (Preflight.validate config builder.toolchain).run
      (Preflight.validate config builder.toolchain).run := by
  have hlocal := Preflight.only_validate isLocal_file config builder.toolchain
  refine World.AlikeWhen.of_isLocal hlocal hlocal ?_
  rintro files other _ _ last last' (rfl | h) hrun hrun' rfl rfl
  · rw [hrun] at hrun'
    exact ⟨rfl, .inl (Prod.mk.inj hrun').2⟩
  · exact ⟨rfl, .inr (Preflight.sameWithout_of_run_validate h hrun hrun')⟩

/-- When the checks succeed the stages follow, and the report. -/
theorem alikeWhen_runChecked (runId startedAt runId' startedAt' : String) :
    world.AlikeWhen process HasCleaned (builder.DifferInLeftovers config world place)
      SameUpToReports
      (fun run run' => run.untimed = run'.untimed) (builder.runChecked runId startedAt config)
      (builder.runChecked runId' startedAt' config) := by
  -- A build whose environment is not in order has no stages.
  have hchecked (f : Except Fault Unit → Plan BuildRun)
      (hf : ∀ fault, f (.error fault) = .done ⟨.failed (.environment fault.message), []⟩)
      (result : Except Fault Unit) (history : History) (run : BuildRun)
      (h : (f result).Ends history run) (hclean : HasCleaned run) : result = .ok () := by
    cases result with
    | ok => rfl
    | error fault =>
      rw [hf] at h
      obtain ⟨-, rfl⟩ := h
      obtain ⟨time, records, hrecords⟩ := hclean
      cases hrecords
  refine alikeWhen_validate.bind (hchecked _ fun _ => rfl) (hchecked _ fun _ => rfl) ?_
  rintro _ _ rfl rfl -
  refine alikeWhen_runStages.bind (fun _ _ _ => HasCleaned.of_ends)
    (fun _ _ _ => HasCleaned.of_ends) fun run run' _ _ hrun => ?_
  refine World.Alike.bindWhen (alike_reportRun hrun config _ _ _ _) fun _ _ _ =>
    World.Alike.when ?_ _
  exact .done hrun fun _ _ => id

/-- A build in which the first stage succeeds does not depend on what an earlier build has left. -/
theorem agrees_of_differInLeftovers {files other : FileSystem}
    (h : builder.DifferInLeftovers config world place files other)
    (first : Enactment world process (builder.runClaimed config) files)
    (second : Enactment world process (builder.runClaimed config) other)
    (hfirst : HasCleaned first.value) (hsecond : HasCleaned second.value) :
    first.Agrees (fun run run' => run.untimed = run'.untimed) SameUpToReports second := by
  suffices hwhole : world.AlikeWhen process HasCleaned
      (builder.DifferInLeftovers config world place) SameUpToReports
      (fun run run' => run.untimed = run'.untimed) (builder.runClaimed config)
      (builder.runClaimed config) from hwhole h first second hfirst hsecond
  refine World.Alike.bindWhen alike_opening fun ids ids' _ => ?_
  refine (alikeWhen_runChecked _ _ _ _).bind (fun _ _ _ => HasCleaned.of_ends)
    (fun _ _ _ => HasCleaned.of_ends) fun run run' _ _ hrun => ?_
  refine World.Alike.bindWhen (alike_closing (BuildRun.mk.inj hrun).1) fun _ _ _ =>
    World.Alike.when ?_ _
  exact .done hrun fun _ _ => id

/-! ### Examples -/

/-- Files with a class that an earlier build has left. -/
def staleFiles : FileSystem :=
  (sampleFiles.put ["d", "classes"] (.directory 0o755)).put ["d", "classes", "Stale.class"]
    (.file 0o644 .empty)

theorem isTree_sampleFiles : sampleFiles.IsTree :=
  (isTree_root.put [] "d" rfl rfl _).put [] "f" rfl rfl _

theorem isTree_staleFiles : staleFiles.IsTree :=
  (isTree_sampleFiles.put ["d"] "classes" rfl rfl _).put ["d", "classes"] "Stale.class" rfl rfl _

theorem bare_sampleFiles :
    sampleFiles.bare (entryPlaces ["d"] BuildLayout.leftoverNames) = sampleFiles :=
  isTree_sampleFiles.bare_eq_self (by decide +kernel)

theorem bare_staleFiles :
    staleFiles.bare (entryPlaces ["d"] BuildLayout.leftoverNames) = sampleFiles := by
  rw [staleFiles, bare_put (by decide), bare_put (by decide), bare_sampleFiles]

theorem get?_sampleFiles_ne_link (place : Location) (target : Path) :
    sampleFiles.get? place ≠ some (.link target) := by
  rw [sampleFiles, get?_put, get?_put, FileSystem.root, get?, Std.ExtTreeMap.getElem?_insert]
  split_ifs <;> simp

theorem get?_staleFiles_ne_link (place : Location) (target : Path) :
    staleFiles.get? place ≠ some (.link target) := by
  rw [staleFiles, get?_put, get?_put]
  split_ifs <;> simp [get?_sampleFiles_ne_link]

/-- A configuration of which two stages are skipped. -/
def briefConfig : BuildConfig :=
  { sampleConfig with
    optimizeEnabled := false
    alignEnabled := false }

theorem differInLeftovers_stale :
    sampleBuilder.DifferInLeftovers briefConfig busyWorld ["d"] staleFiles sampleFiles := by
  have hfind : sampleFiles.find [] ⟨"/d"⟩ = .ok (["d"], .directory 0o755) := rfl
  have hentry : ∀ name ∈ BuildLayout.leftoverNames, IsEntry ⟨"/d"⟩ name := by decide +kernel
  have hbare := bare_staleFiles.trans bare_sampleFiles.symm
  have hstale : staleFiles.Cluttered [] ⟨"/d"⟩ ["d"] BuildLayout.leftoverNames :=
    ⟨isTree_staleFiles, ⟨_, bare_staleFiles.symm ▸ hfind⟩, hentry,
      fun _ _ => get?_staleFiles_ne_link _⟩
  have hsample : sampleFiles.Cluttered [] ⟨"/d"⟩ ["d"] BuildLayout.leftoverNames :=
    ⟨isTree_sampleFiles, ⟨_, bare_sampleFiles.symm ▸ hfind⟩, hentry,
      fun _ _ => get?_sampleFiles_ne_link _⟩
  refine .inr ⟨hstale, hsample, hbare, ?_⟩
  intro path hpath there node there' node' hfind hfind'
  obtain ⟨tool, -, htool⟩ := List.mem_map.mp hpath
  obtain rfl : path = ⟨"/f"⟩ := by
    rw [← htool]
    cases tool <;> rfl
  have hfound : staleFiles.find [] ⟨"/f"⟩ = .ok (["f"], .file 0o755 .empty) := rfl
  have hfound' : sampleFiles.find [] ⟨"/f"⟩ = .ok (["f"], .file 0o755 .empty) := rfl
  cases hfound.symm.trans hfind
  cases hfound'.symm.trans hfind'
  exact .inl rfl

/-- A sample build, carried out by answering its requests. -/
def sampleEnactment (world : World) (config : BuildConfig) (files : FileSystem) :
    Enactment world 1 (sampleBuilder.runClaimed config) files :=
  .ofAnswers only_runClaimed files

theorem hasCleaned_of_head? {run : BuildRun}
    (h : run.statistics.head? = some (record .clean 0 .completed)) : HasCleaned run :=
  ⟨0, List.head?_eq_some_iff.mp h⟩

/-- The build of files with a leftover is that of files without it. -/
theorem agrees_stale :
    (sampleEnactment busyWorld briefConfig staleFiles).value.outcome =
        .success ⟨"/d/package/com.example.app.apk"⟩ ∧
      sampleBuilder.DifferInLeftovers briefConfig busyWorld ["d"] staleFiles sampleFiles ∧
      (sampleEnactment busyWorld briefConfig staleFiles).Agrees
        (fun run run' => run.untimed = run'.untimed) SameUpToReports
        (sampleEnactment busyWorld briefConfig sampleFiles) := by
  have hstale : (sampleEnactment busyWorld briefConfig staleFiles).value.outcome =
        .success ⟨"/d/package/com.example.app.apk"⟩ ∧
      (sampleEnactment busyWorld briefConfig staleFiles).value.statistics.head? =
        some (record .clean 0 .completed) := by
    decide +kernel
  have hsample : (sampleEnactment busyWorld briefConfig sampleFiles).value.statistics.head? =
      some (record .clean 0 .completed) := by
    decide +kernel
  exact ⟨hstale.1, differInLeftovers_stale, agrees_of_differInLeftovers differInLeftovers_stale _ _
    (hasCleaned_of_head? hstale.2) (hasCleaned_of_head? hsample)⟩

/-- A configuration whose build path leads through a directory that is removed. -/
def roundaboutConfig : BuildConfig :=
  { sampleConfig with buildPath := ⟨"/d/gen/.."⟩ }

/-- The files with that directory. -/
def roundabout (files : FileSystem) : FileSystem :=
  files.put ["d", "gen"] (.directory 0o755)

theorem roundabout_ne_link {files : FileSystem} {place : Location} {target : Path}
    (h : files.get? place ≠ some (.link target)) :
    (roundabout files).get? place ≠ some (.link target) := by
  rw [roundabout, get?_put]
  split
  · nofun
  · exact h

/-- When the build path leads through a directory that is removed, what an earlier build has left
may stay there. -/
theorem not_agrees_roundabout :
    (roundabout staleFiles).find [] roundaboutConfig.layout.root =
        .ok (["d"], .directory 0o755) ∧
      (roundabout sampleFiles).find [] roundaboutConfig.layout.root =
        .ok (["d"], .directory 0o755) ∧
      (roundabout staleFiles).bare (entryPlaces ["d"] BuildLayout.leftoverNames) =
        (roundabout sampleFiles).bare (entryPlaces ["d"] BuildLayout.leftoverNames) ∧
      (∀ place target, (roundabout staleFiles).get? place ≠ some (.link target) ∧
        (roundabout sampleFiles).get? place ≠ some (.link target)) ∧
      HasCleaned (sampleEnactment idleWorld roundaboutConfig (roundabout staleFiles)).value ∧
      HasCleaned (sampleEnactment idleWorld roundaboutConfig (roundabout sampleFiles)).value ∧
      ¬(sampleEnactment idleWorld roundaboutConfig (roundabout staleFiles)).Agrees
        (fun run run' => run.untimed = run'.untimed) SameUpToReports
        (sampleEnactment idleWorld roundaboutConfig (roundabout sampleFiles)) := by
  obtain ⟨hcleaned, hstale⟩ :
      (sampleEnactment idleWorld roundaboutConfig
        (roundabout staleFiles)).value.statistics.head? = some (record .clean 0 .completed) ∧
      ((sampleEnactment idleWorld roundaboutConfig (roundabout staleFiles)).last.get?
        ["d", "classes", "Stale.class"]).isSome = true := by
    decide +kernel
  obtain ⟨hcleaned', hnone⟩ :
      (sampleEnactment idleWorld roundaboutConfig
        (roundabout sampleFiles)).value.statistics.head? = some (record .clean 0 .completed) ∧
      ((sampleEnactment idleWorld roundaboutConfig (roundabout sampleFiles)).last.get?
        ["d", "classes", "Stale.class"]).isSome = false := by
    decide +kernel
  refine ⟨rfl, rfl, ?_, fun _ _ => ⟨roundabout_ne_link (get?_staleFiles_ne_link _ _),
    roundabout_ne_link (get?_sampleFiles_ne_link _ _)⟩, hasCleaned_of_head? hcleaned,
    hasCleaned_of_head? hcleaned', fun h => ?_⟩
  · rw [roundabout, roundabout, bare_put (by decide), bare_put (by decide), bare_staleFiles,
      bare_sampleFiles]
  · have hsome := h.last.isSome_eq ["d", "classes", "Stale.class"]
    exact Bool.false_ne_true (hnone.symm.trans (hsome.symm.trans hstale))

end Builder
end SketchApk
