import SketchApk.Proofs.Build.Run
import SketchApk.Proofs.Stage.Work

/-!
# Events of builds

All listeners of a build are told the same events: that it starts, which stages are executed, and
how it ends. A stage is announced right before it is executed. One that is skipped is not announced.

## Main definitions

* `BuildRun.protocol` : the events of a build, given the stages that it has executed.
* `Builder.HasTurn` : a stage has been executed in a history.

## Main statements

* `Builder.Course.exists_executed` : the announcements in a course.
* `Builder.Claimed.exists_executed` : what a build with a claim tells its listeners.
-/

namespace SketchApk

open Plan Request

/-- The event by which a stage is announced. -/
def Stage.announcement (stage : Stage) : BuildEvent :=
  .progress stage.label stage.percent

/-- The events with which a build ends. -/
def BuildOutcome.finale : BuildOutcome → List BuildEvent
  | success _ => [.completed true "Build completed successfully"]
  | failed error => [.error error.message, .completed false ("Build failed: " ++ error.message)]
  | stopped => [.completed false "Build stopped"]

/-- The events of a build that has executed some stages. -/
def BuildRun.protocol (executed : List Stage) (run : BuildRun) : List BuildEvent :=
  .started :: executed.map Stage.announcement ++ run.outcome.finale

theorem BuildOutcome.events_eq_finale (outcome : BuildOutcome) : outcome.events = outcome.finale :=
  match outcome with
  | success _ | failed _ | stopped => rfl

/-- The percentages of some stages in order are strictly increasing. -/
theorem Stage.pairwise_percent {stages : List Stage} (h : stages.Sublist Stage.all) :
    (stages.map Stage.percent).Pairwise (· < ·) :=
  List.Pairwise.sublist (h.map Stage.percent) (by decide)

namespace Builder

variable (builder : Builder) (config : BuildConfig)

/-- A stage is announced and executed in some part of a history. -/
def HasTurn (stage : Stage) (history : History) : Prop :=
  ∃ earlier turn later package result, history = earlier ++ (turn ++ later) ∧
    (builder.turn config package stage).Ends turn result

variable {builder config}

theorem HasTurn.append_left {stage : Stage} {history : History}
    (h : builder.HasTurn config stage history) (front : History) :
    builder.HasTurn config stage (front ++ history) := by
  obtain ⟨earlier, turn, later, package, result, rfl, hturn⟩ := h
  exact ⟨front ++ earlier, turn, later, package, result, by rw [List.append_assoc], hturn⟩

theorem HasTurn.append_right {stage : Stage} {history : History}
    (h : builder.HasTurn config stage history) (tail : History) :
    builder.HasTurn config stage (history ++ tail) := by
  obtain ⟨earlier, turn, later, package, result, rfl, hturn⟩ := h
  exact ⟨earlier, turn, later ++ tail, package, result, by simp only [List.append_assoc], hturn⟩

theorem hasTurn_of_ends {stage : Stage} {package : Option Path} {turn : History}
    {result : Except Fault StageOutput × Nat}
    (h : (builder.turn config package stage).Ends turn result) (rest : History) :
    builder.HasTurn config stage (.check false :: (turn ++ rest)) :=
  ⟨[.check false], turn, rest, package, result, rfl, h⟩

/-- During its turn a stage is announced, and nothing else is told. -/
theorem deliveries_of_turn {stage : Stage} {package : Option Path} {turn : History}
    {result : Except Fault StageOutput × Nat}
    (h : (builder.turn config package stage).Ends turn result) :
    turn.deliveries = builder.told stage.announcement := by
  obtain ⟨started, ended, work, rfl, hwork⟩ := builder.ends_turn h
  have hsilent : History.deliveries work = [] :=
    (Stage.works_execute _ package stage).only.deliveries_eq_nil hwork fun _ _ => id
  simp [History.deliveries_cons, delivery?, hsilent, Stage.announcement]

/-- The stages that are announced in a course are those that are executed in it. -/
theorem Course.exists_executed {package : Option Path} {stages : List Stage} {history : History}
    {run : BuildRun} (h : builder.Course config package stages history run) :
    ∃ executed : List Stage, executed.Sublist stages ∧
      history.deliveries = (executed.map Stage.announcement).flatMap builder.told ∧
      (run.statistics.filter (·.outcome ≠ .skipped)).map StageRecord.name =
        executed.map Stage.name ∧
      ∀ stage ∈ executed, builder.HasTurn config stage history := by
  induction h with
  | stopped package stages => exact ⟨[], List.nil_sublist stages, rfl, rfl, by simp⟩
  | finished package => exact ⟨[], List.nil_sublist [], rfl, rfl, by simp⟩
  | @skipped package stage rest history run hdisabled hrest ih =>
    obtain ⟨executed, hsublist, hdeliveries, hnames, hturns⟩ := ih
    refine ⟨executed, hsublist.cons stage, hdeliveries, ?_, fun other hother => ?_⟩
    · simpa [BuildRun.record, record] using hnames
    · exact (hturns other hother).append_left [.check false]
  | @completed package stage rest turn output elapsed history run henabled hturn hrest ih =>
    obtain ⟨executed, hsublist, hdeliveries, hnames, hturns⟩ := ih
    refine ⟨stage :: executed, hsublist.cons_cons stage, ?_, ?_, List.forall_mem_cons.mpr ⟨?_, ?_⟩⟩
    · rw [History.deliveries_check, History.deliveries_append, deliveries_of_turn hturn,
        hdeliveries, List.map_cons, List.flatMap_cons]
    · simpa [BuildRun.record, record] using hnames
    · exact hasTurn_of_ends hturn history
    · exact fun other hother => (hturns other hother).append_left (.check false :: turn)
  | @interrupted package stage rest turn fault elapsed asked henabled hturn hstop =>
    refine ⟨[stage], List.singleton_sublist.mpr List.mem_cons_self, ?_, rfl, ?_⟩
    · simp [deliveries_of_turn hturn]
    · exact List.forall_mem_singleton.mpr (hasTurn_of_ends hturn _)
  | @failed package stage rest turn fault elapsed henabled hturn hfault =>
    refine ⟨[stage], List.singleton_sublist.mpr List.mem_cons_self, ?_, rfl, ?_⟩
    · simp [deliveries_of_turn hturn]
    · exact List.forall_mem_singleton.mpr (hasTurn_of_ends hturn _)

variable (builder)

/-- A listener is told an event as often as it is registered. -/
theorem filterMap_told (event : BuildEvent) (listener : Nat) :
    (builder.told event).filterMap
        (fun entry => if entry.1 = listener then some entry.2 else none) =
      List.replicate (builder.listeners.count listener) event := by
  rw [told, List.filterMap_map]
  induction builder.listeners with
  | nil => rfl
  | cons other rest ih =>
    rw [List.filterMap_cons, ih, List.count_cons]
    by_cases hother : other = listener
    · simp [hother, List.replicate_succ]
    · simp [hother]

/-- A listener that is registered once is told each event once. -/
theorem seenBy_of_told {history : History} {events : List BuildEvent}
    (h : history.deliveries = events.flatMap builder.told) {listener : Nat}
    (hlistener : builder.listeners.count listener = 1) : history.seenBy listener = events := by
  rw [History.seenBy, h, List.filterMap_flatMap]
  simp only [filterMap_told, hlistener, List.replicate_one]
  exact List.flatMap_singleton' events

/-- What a build with a claim tells its listeners. -/
theorem Claimed.exists_executed {history : History} {run : BuildRun}
    (h : builder.Claimed config history run) :
    ∃ executed : List Stage, executed.Sublist Stage.all ∧
      history.deliveries = (run.protocol executed).flatMap builder.told ∧
      (run.statistics.filter (·.outcome ≠ .skipped)).map StageRecord.name =
        executed.map Stage.name ∧
      ∀ stage ∈ executed, builder.HasTurn config stage history := by
  cases h with
  | @rejected opening checks closing ids fault hopening hchecks hclosing =>
    refine ⟨[], List.nil_sublist Stage.all, ?_, rfl, by simp⟩
    have hchecked := (isQuiet_validate _ _).deliveries_eq_nil hchecks fun _ _ => id
    rw [History.deliveries_append, History.deliveries_append,
      builder.deliveries_of_opening hopening, hchecked, builder.deliveries_of_closing hclosing,
      BuildOutcome.events_eq_finale]
    rfl
  | @executed opening checks stages report closing ids run hopening hchecks hstages hreport
      hclosing =>
    obtain ⟨executed, hsublist, hdeliveries, hnames, hturns⟩ := hstages.exists_executed
    refine ⟨executed, hsublist, ?_, hnames, fun stage hmem => ?_⟩
    · have hchecked := (isQuiet_validate _ _).deliveries_eq_nil hchecks fun _ _ => id
      have hreported := (isQuiet_reportRun _ _ _ _).deliveries_eq_nil hreport fun _ _ => id
      simp only [History.deliveries_append, builder.deliveries_of_opening hopening, hchecked,
        hdeliveries, hreported, builder.deliveries_of_closing hclosing,
        BuildOutcome.events_eq_finale, List.nil_append, BuildRun.protocol, List.flatMap_append,
        List.flatMap_cons, List.cons_append]
    · exact (((hturns stage hmem).append_right _).append_left checks).append_left opening

/-- A build whose checks fail ends with the fault, and it has executed nothing. -/
theorem run_runClaimed_of_rejected {σ : Type}
    (answer : (request : Request) → σ → request.Answer × σ) (s : σ) {fault : Fault}
    (h : ((Preflight.validate config builder.toolchain).run.run answer
      (builder.opening.run answer s).2).1 = .error fault) :
    ((builder.runClaimed config).run answer s).1 = ⟨.failed (.environment fault.message), []⟩ := by
  rw [runClaimed, bind_eq, run_bind]
  generalize builder.opening.run answer s = opened at h ⊢
  obtain ⟨⟨runId, startedAt⟩, s⟩ := opened
  dsimp only at h ⊢
  rw [bind_eq, run_bind, bind_eq, run_bind, runChecked, bind_eq, run_bind, h]
  rfl

/-- What the listeners of a build are told, whatever its surroundings answer. All are told the same:
that the build starts, one announcement for each stage that is executed, in order, and how the build
ends. When the checks before the first stage fail, no stage is announced. -/
theorem runClaimed_protocol {σ : Type} (answer : (request : Request) → σ → request.Answer × σ)
    (s : σ) :
    ∃ executed : List Stage,
      executed.Sublist Stage.all ∧ (executed.map Stage.percent).Pairwise (· < ·) ∧
      (((builder.runClaimed config).run answer s).1.statistics.filter
        (·.outcome ≠ .skipped)).map StageRecord.name = executed.map Stage.name ∧
      (∀ stage ∈ executed,
        builder.HasTurn config stage ((builder.runClaimed config).history answer s)) ∧
      ((builder.runClaimed config).history answer s).deliveries =
        (((builder.runClaimed config).run answer s).1.protocol executed).flatMap builder.told ∧
      (∀ listener, builder.listeners.count listener = 1 →
        ((builder.runClaimed config).history answer s).seenBy listener =
          ((builder.runClaimed config).run answer s).1.protocol executed) ∧
      ∀ fault, ((Preflight.validate config builder.toolchain).run.run answer
          (builder.opening.run answer s).2).1 = .error fault →
        ((builder.runClaimed config).run answer s).1.protocol executed =
          [.started, .error (BuildError.environment fault.message).message, .completed false
            ("Build failed: " ++ (BuildError.environment fault.message).message)] := by
  obtain ⟨executed, hsublist, hdeliveries, hnames, hturns⟩ :=
    (builder.claimed_of_ends (ends_run answer (builder.runClaimed config) s)).exists_executed
  refine ⟨executed, hsublist, Stage.pairwise_percent hsublist, hnames, hturns, hdeliveries,
    fun listener => builder.seenBy_of_told hdeliveries, fun fault hfault => ?_⟩
  rw [builder.run_runClaimed_of_rejected answer s hfault] at hnames ⊢
  rw [List.map_eq_nil_iff.mp hnames.symm]
  rfl

end Builder

end SketchApk
