import SketchApk.Build.Run
import SketchApk.Proofs.Stage.Work

/-!
# Histories of builds

The stages of a build take one of a few courses: before each stage, and behind the last one, the
build looks whether a stop is requested, and it ends there or goes on. What a build with a claim
leaves is such a course with a beginning and an end around it, unless its environment is not in
order.

The stages of a build look whether a stop is requested, tell events and read the clock, and they
work on files, on the output and with tools. A build with a claim does this between its beginning
and its end.

## Main definitions

* `Builder.announcement` : telling all listeners about an event.
* `Builder.Course` : the courses that the stages of a build can take.
* `Builder.Claimed` : the histories of a build with a claim.

## Main statements

* `Builder.course_of_ends` : the stages of a build take such a course.
* `Builder.claimed_of_ends` : the history of a build with a claim consists of such parts.
* `Builder.only_runStages` : the requests of the stages of a build.
* `Builder.only_runChecked` : the requests of a build between its beginning and its end.
-/

namespace SketchApk

open Plan Request

namespace Builder

variable (builder : Builder) {config : BuildConfig}

/-! ### Announcements -/

/-- The exchanges by which all listeners are told about an event. -/
def announcement (event : BuildEvent) : History :=
  builder.listeners.map fun listener => ⟨.deliver listener event, ()⟩

/-- All listeners together with an event that they are told about. -/
def told (event : BuildEvent) : List (Nat × BuildEvent) :=
  builder.listeners.map fun listener => (listener, event)

theorem ends_announce (event : BuildEvent) (history : History) :
    (builder.announce event).Ends history () ↔ history = builder.announcement event := by
  rw [announcement, List.map_eq_flatMap]
  exact ends_forM (fun _ _ => ends_ask) builder.listeners

@[simp] theorem deliveries_announcement (event : BuildEvent) :
    (builder.announcement event).deliveries = builder.told event := by
  rw [announcement, told, History.deliveries, List.filterMap_map, ← List.filterMap_eq_map]
  rfl

@[simp] theorem calls_announcement (event : BuildEvent) :
    (builder.announcement event).calls = [] := by
  simp [announcement, History.calls, invocation?]

theorem only_announce (event : BuildEvent) : (builder.announce event).Only IsIdle :=
  Only.forM _ fun _ _ => Only.ask trivial

/-! ### Stages -/

/-- The turn of a stage is its announcement and its execution between two looks at the clock. -/
theorem ends_turn {package : Option Path} {stage : Stage} {history : History}
    {result : Except Fault StageOutput} {elapsed : Nat}
    (h : (builder.turn config package stage).Ends history (result, elapsed)) :
    ∃ started ended work, history = builder.announcement (.progress stage.label stage.percent) ++
        ⟨.clock, started⟩ :: (work ++ [⟨.clock, ended⟩]) ∧
      (stage.execute ⟨config, builder.toolchain⟩ package).run.Ends work result := by
  obtain ⟨first, ⟨⟩, second, rfl, hfirst, htimed⟩ := ends_bind.mp h
  obtain ⟨started, third, rfl, hthird⟩ := ends_ask_bind.mp htimed
  obtain ⟨work, value, fourth, rfl, hwork, hfourth⟩ := ends_bind.mp hthird
  obtain ⟨ended, fifth, rfl, rfl, hvalue⟩ := ends_ask_bind.mp hfourth
  cases hvalue
  exact ⟨started, ended, work, by rw [(builder.ends_announce _ _).mp hfirst], hwork⟩

variable (config) in
/-- The courses that stages can take, beginning with the package of the stages before them. -/
inductive Course : Option Path → List Stage → History → BuildRun → Prop
  | stopped (package : Option Path) (stages : List Stage) :
      Course package stages [.check true] ⟨.stopped, []⟩
  | finished (package : Option Path) : Course package [] [.check false] ⟨outcomeOf package, []⟩
  | skipped {package stage rest history run} (hdisabled : stage.isEnabled config = false)
      (hrest : Course package rest history run) :
      Course package (stage :: rest) (.check false :: history)
        (run.record (record stage 0 .skipped))
  | completed {package stage rest turn output elapsed history run}
      (henabled : stage.isEnabled config = true)
      (hturn : (builder.turn config package stage).Ends turn (.ok output, elapsed))
      (hrest : Course output.package rest history run) :
      Course package (stage :: rest) (.check false :: (turn ++ history))
        (run.record (record stage elapsed .completed))
  | interrupted {package stage rest turn fault elapsed asked}
      (henabled : stage.isEnabled config = true)
      (hturn : (builder.turn config package stage).Ends turn (.error fault, elapsed))
      (hstop : asked = true ∨ fault.isInterruption = true) :
      Course package (stage :: rest) (.check false :: (turn ++ [.check asked]))
        ⟨.stopped, [record stage elapsed .interrupted]⟩
  | failed {package stage rest turn fault elapsed}
      (henabled : stage.isEnabled config = true)
      (hturn : (builder.turn config package stage).Ends turn (.error fault, elapsed))
      (hfault : fault.isInterruption = false) :
      Course package (stage :: rest) (.check false :: (turn ++ [.check false]))
        ⟨.failed (.stage stage.name fault.message), [record stage elapsed .failed]⟩

/-- A stage that has failed is the last one, as interrupted or as failed. -/
theorem course_of_ends_runFailed {package : Option Path} {stage : Stage} {rest : List Stage}
    {turn history : History} {fault : Fault} {elapsed : Nat} {run : BuildRun}
    (henabled : stage.isEnabled config = true)
    (hturn : (builder.turn config package stage).Ends turn (.error fault, elapsed))
    (h : (runFailed stage elapsed fault).Ends history run) :
    builder.Course config package (stage :: rest) (.check false :: (turn ++ history)) run := by
  obtain ⟨asked, history, rfl, hhistory⟩ := ends_ask_bind.mp h
  cases hstop : asked || fault.isInterruption with
  | true =>
    simp only [hstop, if_true] at hhistory
    obtain ⟨rfl, rfl⟩ := hhistory
    exact .interrupted henabled hturn (by simpa using hstop)
  | false =>
    simp only [hstop, Bool.false_eq_true, if_false] at hhistory
    obtain ⟨rfl, rfl⟩ := hhistory
    obtain ⟨rfl, hfault⟩ := Bool.or_eq_false_iff.mp hstop
    exact .failed henabled hturn hfault

/-- The stages of a build take one of the courses. -/
theorem course_of_ends {package : Option Path} {stages : List Stage} {history : History}
    {run : BuildRun} (h : (builder.runStages config package stages).Ends history run) :
    builder.Course config package stages history run := by
  induction stages generalizing package history run with
  | nil =>
    obtain ⟨asked, rest, rfl, hrest⟩ := ends_ask_bind.mp h
    cases asked with
    | true =>
      obtain ⟨rfl, rfl⟩ := hrest
      exact .stopped package []
    | false =>
      obtain ⟨rfl, rfl⟩ := hrest
      exact .finished package
  | cons stage rest ih =>
    obtain ⟨asked, history, rfl, hhistory⟩ := ends_ask_bind.mp h
    cases asked with
    | true =>
      obtain ⟨rfl, rfl⟩ := hhistory
      exact .stopped package (stage :: rest)
    | false =>
      cases henabled : stage.isEnabled config with
      | false =>
        simp only [henabled, Bool.false_eq_true, if_false] at hhistory
        obtain ⟨first, run, second, rfl, hfirst, rfl, rfl⟩ := ends_bind.mp hhistory
        rw [List.append_nil]
        exact .skipped henabled (ih hfirst)
      | true =>
        simp only [henabled, Bool.false_eq_true, if_false, if_true] at hhistory
        obtain ⟨turn, ⟨result, elapsed⟩, second, rfl, hturn, hsecond⟩ := ends_bind.mp hhistory
        cases result with
        | ok output =>
          obtain ⟨first, run, second, rfl, hfirst, rfl, rfl⟩ := ends_bind.mp hsecond
          rw [List.append_nil]
          exact .completed henabled hturn (ih hfirst)
        | error fault => exact builder.course_of_ends_runFailed henabled hturn hsecond

/-! ### Beginning and end -/

/-- The exchanges at the beginning of a build. -/
theorem ends_opening {history : History} {ids : String × String}
    (h : builder.opening.Ends history ids) :
    ∃ now process started, history = ⟨.calendar, now⟩ :: ⟨.processId, process⟩ ::
      ⟨.calendar, started⟩ :: ⟨.setState .running, ()⟩ :: builder.announcement .started := by
  obtain ⟨now, first, rfl, hfirst⟩ := ends_ask_bind.mp h
  obtain ⟨process, second, rfl, hsecond⟩ := ends_ask_bind.mp hfirst
  obtain ⟨started, third, rfl, hthird⟩ := ends_ask_bind.mp hsecond
  obtain ⟨⟨⟩, fourth, rfl, hfourth⟩ := ends_ask_bind.mp hthird
  obtain ⟨told, ⟨⟩, fifth, rfl, htold, rfl, -⟩ := ends_bind.mp hfourth
  rw [(builder.ends_announce _ _).mp htold, List.append_nil]
  exact ⟨now, process, started, rfl⟩

theorem deliveries_of_opening {history : History} {ids : String × String}
    (h : builder.opening.Ends history ids) : history.deliveries = builder.told .started := by
  obtain ⟨now, process, started, rfl⟩ := builder.ends_opening h
  exact builder.deliveries_announcement .started

theorem isQuiet_validate (config : BuildConfig) (toolchain : Toolchain) :
    (Preflight.validate config toolchain).run.Only IsQuiet :=
  Preflight.only_validate (fun _ => trivial) config toolchain

theorem only_opening : builder.opening.Only IsIdle := by
  refine (Only.ask trivial).bind fun now => (Only.ask trivial).bind fun process => ?_
  refine (Only.ask trivial).bind fun started => (Only.ask trivial).bind fun _ => ?_
  exact (builder.only_announce .started).bind fun _ => Only.done _

theorem only_print {kind : Request → Prop} (hprint : ∀ text, kind (.print text))
    (statistics : Statistics) : statistics.print.Only kind :=
  Only.forM _ fun _ _ => Only.ask (hprint _)

theorem only_closing (run : BuildRun) : (builder.closing run).Only IsIdle := by
  refine (only_print (fun _ => trivial) _).bind fun _ => Only.bind ?_ fun _ => Only.ask trivial
  exact (Only.ask trivial).bind fun _ => Only.forM _ fun event _ => builder.only_announce event

theorem only_reportRun {kind : Request → Prop} {config : BuildConfig}
    (hread : ∀ path, kind (.file (.read path))) (hcalendar : kind .calendar)
    (hprocess : kind .processId) (hdirectories : ∀ path, (makeDirectories path).run.Only kind)
    (hwrite : ∀ path content, kind (.file (.write path content)))
    (hrename : ∀ temporary, kind (.file (.rename temporary config.layout.report)))
    (runId startedAt : String) (run : BuildRun) :
    (reportRun runId startedAt config run).Only kind := by
  refine Plan.Only.bind ?_ fun _ => Only.done _
  refine (RunReport.only_of hread hcalendar _ _ _).attemptBind fun report => ?_
  exact RunReport.only_write hdirectories hprocess hwrite hrename report

theorem isQuiet_reportRun (runId startedAt : String) (config : BuildConfig) (run : BuildRun) :
    (reportRun runId startedAt config run).Only IsQuiet :=
  only_reportRun (fun _ => trivial) trivial trivial (only_makeDirectories (fun _ => trivial) fun _ => trivial)
    (fun _ _ => trivial) (fun _ => trivial) runId startedAt run

/-- The exchanges at the end of a build. -/
theorem ends_closing {history : History} {run : BuildRun}
    (h : (builder.closing run).Ends history ()) :
    ∃ printed, run.statistics.print.Ends printed () ∧
      history = printed ++ ⟨.setState run.outcome.state, ()⟩ ::
        (run.outcome.events.flatMap builder.announcement ++ [⟨.release, ()⟩]) := by
  obtain ⟨printed, ⟨⟩, first, rfl, hprinted, hfirst⟩ := ends_bind.mp h
  obtain ⟨finished, ⟨⟩, second, rfl, hfinished, hsecond⟩ := ends_bind.mp hfirst
  obtain ⟨⟨⟩, told, rfl, htold⟩ := ends_ask_bind.mp hfinished
  rw [(ends_forM builder.ends_announce _).mp htold, ends_ask.mp hsecond]
  exact ⟨printed, hprinted, rfl⟩

theorem deliveries_of_closing {history : History} {run : BuildRun}
    (h : (builder.closing run).Ends history ()) :
    history.deliveries = run.outcome.events.flatMap builder.told := by
  obtain ⟨printed, hprinted, rfl⟩ := builder.ends_closing h
  have htold : History.deliveries (run.outcome.events.flatMap builder.announcement) =
      run.outcome.events.flatMap builder.told := by
    simp only [History.deliveries, List.filterMap_flatMap]
    exact congrArg (run.outcome.events.flatMap ·) (funext builder.deliveries_announcement)
  have hprint : printed.deliveries = [] :=
    (only_print isLocal_print _).deliveries_eq_nil hprinted fun _ _ => id
  simp [hprint, History.deliveries_cons, delivery?, htold]

variable (config) in
/-- The histories of a build with a claim. -/
inductive Claimed : History → BuildRun → Prop
  | rejected {opening checks closing ids fault}
      (hopening : builder.opening.Ends opening ids)
      (hchecks : (Preflight.validate config builder.toolchain).run.Ends checks (.error fault))
      (hclosing : (builder.closing ⟨.failed (.environment fault.message), []⟩).Ends closing ()) :
      Claimed (opening ++ (checks ++ closing)) ⟨.failed (.environment fault.message), []⟩
  | executed {opening checks stages report closing ids run}
      (hopening : builder.opening.Ends opening ids)
      (hchecks : (Preflight.validate config builder.toolchain).run.Ends checks (.ok ()))
      (hstages : builder.Course config none Stage.all stages run)
      (hreport : (reportRun ids.1 ids.2 config run).Ends report ())
      (hclosing : (builder.closing run).Ends closing ()) :
      Claimed (opening ++ (checks ++ (stages ++ (report ++ closing)))) run

/-- The history of a build with a claim consists of such parts. -/
theorem claimed_of_ends {history : History} {run : BuildRun}
    (h : (builder.runClaimed config).Ends history run) : builder.Claimed config history run := by
  obtain ⟨opening, ids, rest, rfl, hopening, hrest⟩ := ends_bind.mp h
  obtain ⟨checked, run, closing, rfl, hchecked, hclosing⟩ := ends_bind.mp hrest
  obtain ⟨last, ⟨⟩, nothing, rfl, hlast, rfl, rfl⟩ := ends_bind.mp hclosing
  obtain ⟨checks, result, second, rfl, hchecks, hsecond⟩ := ends_bind.mp hchecked
  cases result with
  | error fault =>
    obtain ⟨rfl, rfl⟩ := hsecond
    simpa using Claimed.rejected hopening hchecks hlast
  | ok _ =>
    obtain ⟨stages, run, third, rfl, hstages, hthird⟩ := ends_bind.mp hsecond
    obtain ⟨report, ⟨⟩, nothing, rfl, hreport, rfl, rfl⟩ := ends_bind.mp hthird
    simpa using Claimed.executed hopening hchecks (builder.course_of_ends hstages) hreport hlast

/-! ### Requests -/

section Requests

variable {kind : Request → Prop}

theorem only_announce_of (hdeliver : ∀ listener event, kind (.deliver listener event))
    (event : BuildEvent) : (builder.announce event).Only kind :=
  Only.forM _ fun listener _ => Only.ask (hdeliver listener event)

variable (hdeliver : ∀ listener event, kind (.deliver listener event))
  (hcheck : kind .isStopRequested) (hclock : kind .clock)
  (hwork : ∀ request, IsWork request → kind request)

include hdeliver hclock hwork in
theorem only_turn (package : Option Path) (stage : Stage) :
    (builder.turn config package stage).Only kind := by
  refine (builder.only_announce_of hdeliver _).bind fun _ => ?_
  refine (Only.ask hclock).bind fun started => Only.bind ?_ fun result => ?_
  · exact (Stage.works_execute _ package stage).only.mono hwork
  · exact (Only.ask hclock).bind fun ended => Only.done _

include hcheck in
theorem only_runFailed (stage : Stage) (elapsed : Nat) (fault : Fault) :
    (runFailed stage elapsed fault).Only kind := by
  refine (Only.ask hcheck).bind fun asked => ?_
  split <;> exact Only.done _

include hdeliver hcheck hclock hwork in
/-- The requests of the stages of a build. -/
theorem only_runStages (package : Option Path) (stages : List Stage) :
    (builder.runStages config package stages).Only kind := by
  induction stages generalizing package with
  | nil =>
    refine (Only.ask hcheck).bind fun asked => ?_
    split <;> exact Only.done _
  | cons stage rest ih =>
    refine (Only.ask hcheck).bind fun asked => ?_
    split
    · exact Only.done _
    · split
      · refine (builder.only_turn hdeliver hclock hwork package stage).bind fun entry => ?_
        obtain ⟨result, elapsed⟩ := entry
        cases result with
        | ok output => exact (ih output.package).bind fun _ => Only.done _
        | error fault => exact only_runFailed hcheck stage elapsed fault
      · exact (ih package).bind fun _ => Only.done _

include hdeliver hcheck hclock hwork in
/-- The requests of a build between its beginning and its end. -/
theorem only_runChecked (hcalendar : kind .calendar) (hprocess : kind .processId)
    (runId startedAt : String) : (builder.runChecked runId startedAt config).Only kind := by
  have hfile (operation : FileOperation) : kind (.file operation) := hwork _ trivial
  refine (Preflight.only_validate hfile config builder.toolchain).bind fun result => ?_
  cases result with
  | error fault => exact Only.done _
  | ok _ =>
    refine (builder.only_runStages hdeliver hcheck hclock hwork none Stage.all).bind fun run => ?_
    refine Only.bind ?_ fun _ => Only.done _
    exact only_reportRun (fun _ => hfile _) hcalendar hprocess
      (only_makeDirectories (fun _ => hfile _) fun _ => hfile _) (fun _ _ => hfile _)
      (fun _ => hfile _) _ _ _

end Requests

end Builder

end SketchApk
