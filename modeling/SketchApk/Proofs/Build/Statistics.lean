import Mathlib.Data.List.Forall2
import SketchApk.Proofs.Build.Run
import SketchApk.Proofs.Stage.Package
import SketchApk.Proofs.Stage.Work

/-!
# Records and outcomes

The records of a build are those of some first stages. All but the last one tell that a stage was
completed or skipped, and the last one decides about the outcome: it is a failure or an interruption
if the build has ended early. When all stages have been completed or skipped, there is a package,
because the stage that puts it together is among those that no configuration disables.

## Main definitions

* `StageRecord.IsSettled` : the records that do not end a build.
* `BuildRun.Ending` : the records behind the settled ones, together with the outcome.

## Main statements

* `Builder.Course.exists_ending` : the records and the outcome of a course.
-/

namespace SketchApk

open Plan

/-- The stage was completed or skipped. -/
def StageRecord.IsSettled (record : StageRecord) : Prop :=
  record.outcome = .completed ∨ record.outcome = .skipped

/-- What is recorded behind the settled stages, and the outcome that goes with it. -/
inductive BuildRun.Ending : Statistics → BuildOutcome → Prop
  | stopped : Ending [] .stopped
  | finished (package : Path) : Ending [] (.success package)
  | interrupted (stage : Stage) (elapsed : Nat) :
      Ending [Builder.record stage elapsed .interrupted] .stopped
  | failed (stage : Stage) (elapsed : Nat) (detail : String) :
      Ending [Builder.record stage elapsed .failed] (.failed (.stage stage.name detail))

namespace Builder

variable {builder : Builder} {config : BuildConfig}

namespace Course

variable {package : Option Path} {stages : List Stage} {history : History} {run : BuildRun}

/-- The record is one of a stage, and it tells whether the stage is enabled. -/
def Tells (config : BuildConfig) (stage : Stage) (record : StageRecord) : Prop :=
  record.name = stage.name ∧ (record.outcome = .skipped ↔ stage.isEnabled config = false)

theorem tells_of_isEnabled {stage : Stage} {outcome : StageOutcome} (elapsed : Nat)
    (henabled : stage.isEnabled config = true) (houtcome : outcome ≠ .skipped) :
    Tells config stage (record stage elapsed outcome) :=
  ⟨rfl, by simp [record, houtcome, henabled]⟩

/-- The records are those of some first stages. -/
theorem forall₂_tells (h : builder.Course config package stages history run) :
    ∃ reached, reached <+: stages ∧ List.Forall₂ (Tells config) reached run.statistics := by
  induction h with
  | stopped package stages => exact ⟨[], List.nil_prefix, .nil⟩
  | finished package => exact ⟨[], List.nil_prefix, .nil⟩
  | @skipped package stage rest history run hdisabled hrest ih =>
    obtain ⟨reached, hreached, htells⟩ := ih
    have hstage : Tells config stage (record stage 0 .skipped) :=
      ⟨rfl, by simp [record, hdisabled]⟩
    exact ⟨stage :: reached, (List.prefix_cons_inj stage).mpr hreached, htells.cons hstage⟩
  | @completed package stage rest turn output elapsed history run henabled hturn hrest ih =>
    obtain ⟨reached, hreached, htells⟩ := ih
    have hstage : Tells config stage (record stage elapsed .completed) :=
      tells_of_isEnabled elapsed henabled (by decide)
    exact ⟨stage :: reached, (List.prefix_cons_inj stage).mpr hreached, htells.cons hstage⟩
  | @interrupted package stage rest turn fault elapsed asked henabled hturn hstop =>
    have hstage : Tells config stage (record stage elapsed .interrupted) :=
      tells_of_isEnabled elapsed henabled (by decide)
    exact ⟨[stage], List.prefix_append [stage] rest, .cons hstage .nil⟩
  | @failed package stage rest turn fault elapsed henabled hturn hfault =>
    have hstage : Tells config stage (record stage elapsed .failed) :=
      tells_of_isEnabled elapsed henabled (by decide)
    exact ⟨[stage], List.prefix_append [stage] rest, .cons hstage .nil⟩

/-- There is a package, or a stage is going to leave one. -/
def HasPackage (config : BuildConfig) (package : Option Path) (stages : List Stage) : Prop :=
  package.isSome = true ∨
    ∃ stage ∈ stages, stage.isEnabled config = true ∧ stage.leavesPackage = true

theorem hasPackage_all (config : BuildConfig) (package : Option Path) :
    HasPackage config package Stage.all :=
  .inr ⟨.packageResources, by simp [Stage.all], rfl, rfl⟩

/-- Skipping a stage loses no package. -/
theorem HasPackage.of_skipped {stage : Stage} {rest : List Stage}
    (h : HasPackage config package (stage :: rest)) (hdisabled : stage.isEnabled config = false) :
    HasPackage config package rest := by
  rcases h with h | ⟨other, hmem, henabled, hleaves⟩
  · exact .inl h
  · rcases List.mem_cons.mp hmem with rfl | hmem
    · exact absurd (hdisabled.symm.trans henabled) Bool.false_ne_true
    · exact .inr ⟨other, hmem, henabled, hleaves⟩

/-- A stage that is completed loses no package. -/
theorem HasPackage.of_completed {stage : Stage} {rest : List Stage} {turn : History}
    {output : StageOutput} {elapsed : Nat} (h : HasPackage config package (stage :: rest))
    (hturn : (builder.turn config package stage).Ends turn (.ok output, elapsed)) :
    HasPackage config output.package rest := by
  obtain ⟨started, ended, work, rfl, hwork⟩ := builder.ends_turn hturn
  have hpackage := (Stage.ensures_isSome_execute _ package stage).of_ends hwork
  rcases h with h | ⟨other, hmem, henabled, hleaves⟩
  · exact .inl (by rw [hpackage, h, Bool.true_or])
  · rcases List.mem_cons.mp hmem with rfl | hmem
    · exact .inl (by rw [hpackage, hleaves, Bool.or_true])
    · exact .inr ⟨other, hmem, henabled, hleaves⟩

/-- The records of a course are settled up to its ending. -/
theorem exists_ending (h : builder.Course config package stages history run)
    (hpackage : HasPackage config package stages) :
    ∃ settled ending, run.statistics = settled ++ ending ∧ (∀ entry ∈ settled, entry.IsSettled) ∧
      BuildRun.Ending ending run.outcome ∧
      (run.outcome.isSuccess = true → settled.length = stages.length) := by
  induction h with
  | stopped package stages =>
    exact ⟨[], [], rfl, by simp, .stopped, by simp [BuildOutcome.isSuccess]⟩
  | finished package =>
    rcases hpackage with hsome | ⟨_, hmem, -⟩
    · obtain ⟨path, rfl⟩ := Option.isSome_iff_exists.mp hsome
      exact ⟨[], [], rfl, by simp, .finished path, fun _ => rfl⟩
    · cases hmem
  | @skipped package stage rest history run hdisabled hrest ih =>
    obtain ⟨settled, ending, hrecords, hsettled, hending, hlength⟩ :=
      ih (hpackage.of_skipped hdisabled)
    refine ⟨record stage 0 .skipped :: settled, ending, ?_, ?_, hending, ?_⟩
    · rw [BuildRun.record, hrecords, List.cons_append]
    · exact List.forall_mem_cons.mpr ⟨.inr rfl, hsettled⟩
    · exact fun hsuccess => congrArg (· + 1) (hlength hsuccess)
  | @completed package stage rest turn output elapsed history run henabled hturn hrest ih =>
    obtain ⟨settled, ending, hrecords, hsettled, hending, hlength⟩ :=
      ih (hpackage.of_completed hturn)
    refine ⟨record stage elapsed .completed :: settled, ending, ?_, ?_, hending, ?_⟩
    · rw [BuildRun.record, hrecords, List.cons_append]
    · exact List.forall_mem_cons.mpr ⟨.inl rfl, hsettled⟩
    · exact fun hsuccess => congrArg (· + 1) (hlength hsuccess)
  | @interrupted package stage rest turn fault elapsed asked henabled hturn hstop =>
    exact ⟨[], _, rfl, by simp, .interrupted stage elapsed, by simp [BuildOutcome.isSuccess]⟩
  | @failed package stage rest turn fault elapsed henabled hturn hfault =>
    exact ⟨[], _, rfl, by simp, .failed stage elapsed _, by simp [BuildOutcome.isSuccess]⟩

/-- The names of the records are those of the stages. -/
theorem map_name_of_tells {reached : List Stage} {statistics : Statistics}
    (h : List.Forall₂ (Tells config) reached statistics) :
    statistics.map StageRecord.name = reached.map Stage.name := by
  induction h with
  | nil => rfl
  | cons htells _ ih => rw [List.map_cons, List.map_cons, htells.1, ih]

/-- Each record tells about the stage at its place. -/
theorem tells_of_mem_zip {reached : List Stage} {statistics : Statistics}
    (h : List.Forall₂ (Tells config) reached statistics) (hreached : reached <+: stages) :
    ∀ entry ∈ stages.zip statistics, Tells config entry.1 entry.2 := by
  induction h generalizing stages with
  | nil => simp
  | @cons stage entry reached statistics htells _ ih =>
    obtain ⟨rest, rfl⟩ := hreached
    rw [List.cons_append, List.zip_cons_cons]
    exact List.forall_mem_cons.mpr ⟨htells, ih (List.prefix_append reached rest)⟩

end Course

end Builder

/-- The records and the outcome of a build tell the same story. -/
structure BuildRun.IsConsistent (config : BuildConfig) (run : BuildRun) : Prop where
  /-- The records are those of some first stages. -/
  names_prefix : run.statistics.map StageRecord.name <+: Stage.all.map Stage.name
  /-- A stage is skipped if and only if the configuration disables it. -/
  skipped_iff : ∀ entry ∈ Stage.all.zip run.statistics,
    entry.2.outcome = .skipped ↔ entry.1.isEnabled config = false
  /-- Only the last stage can have failed, and only the last one can have been interrupted. -/
  isSettled_of_mem_dropLast : ∀ entry ∈ run.statistics.dropLast, entry.IsSettled
  /-- All stages of a success have been completed or skipped. -/
  of_isSuccess : run.outcome.isSuccess = true →
    run.statistics.length = Stage.all.length ∧ ∀ entry ∈ run.statistics, entry.IsSettled
  /-- The outcome names a stage that has failed if and only if this is the last one. -/
  failed_iff : ∀ name, (∃ detail, run.outcome = .failed (.stage name detail)) ↔
    ∃ entry, run.statistics.getLast? = some entry ∧ entry.outcome = .failed ∧ entry.name = name
  /-- A stage that was interrupted is the last one, and the build is stopped. -/
  of_interrupted : ∀ entry ∈ run.statistics, entry.outcome = .interrupted →
    run.statistics.getLast? = some entry ∧ run.outcome = .stopped
  /-- No stage has been reached when the environment is not in order. -/
  of_environment : ∀ message, run.outcome = .failed (.environment message) → run.statistics = []
  /-- When all stages have been completed or skipped, there is a package. -/
  of_isSettled : (∀ entry ∈ run.statistics, entry.IsSettled) →
    run.statistics.length = Stage.all.length → run.outcome = .stopped ∨ run.outcome.isSuccess = true

namespace BuildRun

variable {config : BuildConfig} {run : BuildRun} {settled ending : Statistics}

theorem not_isSettled_record (stage : Stage) (elapsed : Nat) {outcome : StageOutcome}
    (hcompleted : outcome ≠ .completed) (hskipped : outcome ≠ .skipped) :
    ¬ (Builder.record stage elapsed outcome).IsSettled := by
  simp [StageRecord.IsSettled, Builder.record, hcompleted, hskipped]

namespace Ending

variable {outcome : BuildOutcome}

/-- A record that is not settled is the ending. -/
theorem eq_of_not_isSettled (h : Ending ending outcome)
    (hsettled : ∀ entry ∈ settled, entry.IsSettled) {entry : StageRecord}
    (hmem : entry ∈ settled ++ ending) (hentry : ¬ entry.IsSettled) : ending = [entry] := by
  rcases List.mem_append.mp hmem with hmem | hmem
  · exact absurd (hsettled entry hmem) hentry
  · cases h with
    | stopped | finished => cases hmem
    | interrupted | failed => rw [List.mem_singleton.mp hmem]

/-- An ending has at most one record. -/
theorem isSettled_of_mem_dropLast (h : Ending ending outcome)
    (hsettled : ∀ entry ∈ settled, entry.IsSettled) {entry : StageRecord}
    (hmem : entry ∈ (settled ++ ending).dropLast) : entry.IsSettled := by
  cases h with
  | stopped | finished =>
    rw [List.append_nil] at hmem
    exact hsettled entry (List.dropLast_subset settled hmem)
  | interrupted | failed =>
    rw [List.dropLast_concat] at hmem
    exact hsettled entry hmem

/-- Nothing is recorded behind the settled stages of a success. -/
theorem eq_nil_of_isSuccess (h : Ending ending outcome) (hsuccess : outcome.isSuccess = true) :
    ending = [] := by
  cases h with
  | finished => rfl
  | stopped | interrupted | failed => cases hsuccess

/-- The outcome names the stage that has failed. -/
theorem failed_iff (h : Ending ending outcome) (hsettled : ∀ entry ∈ settled, entry.IsSettled)
    (name : String) : (∃ detail, outcome = .failed (.stage name detail)) ↔
      ∃ entry, (settled ++ ending).getLast? = some entry ∧ entry.outcome = .failed ∧
        entry.name = name := by
  cases h with
  | stopped | finished =>
    constructor
    · rintro ⟨_, ⟨⟩⟩
    · rintro ⟨entry, hlast, hfailed, -⟩
      rw [List.append_nil] at hlast
      rcases hsettled entry (List.mem_of_getLast? hlast) with h | h <;> cases hfailed.symm.trans h
  | interrupted stage elapsed => simp [Builder.record]
  | failed stage elapsed detail => simp [Builder.record]

/-- A build is stopped when a stage was interrupted. -/
theorem eq_stopped_of_interrupted {entry : StageRecord} (h : Ending [entry] outcome)
    (hentry : entry.outcome = .interrupted) : outcome = .stopped := by
  cases h with
  | interrupted => rfl
  | failed => cases hentry

/-- Without a record that is not settled, the build was stopped or has succeeded. -/
theorem of_isSettled (h : Ending ending outcome) (hall : ∀ entry ∈ ending, entry.IsSettled) :
    outcome = .stopped ∨ outcome.isSuccess = true := by
  cases h with
  | stopped => exact .inl rfl
  | finished package => exact .inr rfl
  | interrupted stage elapsed | failed stage elapsed detail =>
    exact absurd (hall _ List.mem_cons_self)
      (not_isSettled_record stage elapsed (by decide) (by decide))

end Ending

/-- Records that are settled up to an ending are consistent with the outcome. -/
theorem isConsistent_of_ending
    (hnames : run.statistics.map StageRecord.name <+: Stage.all.map Stage.name)
    (hskipped : ∀ entry ∈ Stage.all.zip run.statistics,
      entry.2.outcome = .skipped ↔ entry.1.isEnabled config = false)
    (hrecords : run.statistics = settled ++ ending) (hsettled : ∀ entry ∈ settled, entry.IsSettled)
    (hending : Ending ending run.outcome)
    (hlength : run.outcome.isSuccess = true → settled.length = Stage.all.length) :
    run.IsConsistent config where
  names_prefix := hnames
  skipped_iff := hskipped
  isSettled_of_mem_dropLast entry hmem :=
    hending.isSettled_of_mem_dropLast hsettled (hrecords ▸ hmem)
  of_isSuccess hsuccess := by
    rw [hrecords, hending.eq_nil_of_isSuccess hsuccess, List.append_nil]
    exact ⟨hlength hsuccess, hsettled⟩
  failed_iff name := hrecords ▸ hending.failed_iff hsettled name
  of_interrupted entry hmem hentry := by
    rw [hrecords] at hmem ⊢
    obtain rfl := hending.eq_of_not_isSettled hsettled hmem
      (by simp [StageRecord.IsSettled, hentry])
    exact ⟨List.getLast?_concat, hending.eq_stopped_of_interrupted hentry⟩
  of_environment message houtcome := by
    rw [houtcome] at hending
    cases hending
  of_isSettled hall _ :=
    hending.of_isSettled fun entry hmem =>
      hall entry (hrecords ▸ List.mem_append_right settled hmem)

/-- A build whose environment is not in order has no records. -/
theorem isConsistent_of_rejected (message : String) :
    BuildRun.IsConsistent config ⟨.failed (.environment message), []⟩ where
  names_prefix := List.nil_prefix
  skipped_iff := by simp
  isSettled_of_mem_dropLast := by simp
  of_isSuccess := by simp [BuildOutcome.isSuccess]
  failed_iff := by simp
  of_interrupted := by simp
  of_environment _ _ := rfl
  of_isSettled _ hlength := by simp [Stage.all] at hlength

end BuildRun

namespace Builder

variable (builder : Builder) (config : BuildConfig)

/-- The records and the outcome of a build tell the same story, whatever its surroundings answer,
and a build whose environment is not in order calls no tool. -/
theorem runClaimed_consistent {σ : Type} (answer : (request : Request) → σ → request.Answer × σ)
    (s : σ) :
    BuildRun.IsConsistent config ((builder.runClaimed config).run answer s).1 ∧
      ∀ message,
        ((builder.runClaimed config).run answer s).1.outcome = .failed (.environment message) →
          ((builder.runClaimed config).history answer s).calls = [] := by
  have hends := ends_run answer (builder.runClaimed config) s
  generalize (builder.runClaimed config).history answer s = history at hends
  generalize ((builder.runClaimed config).run answer s).1 = run at hends
  cases builder.claimed_of_ends hends with
  | @rejected opening checks closing ids fault hopening hchecks hclosing =>
    refine ⟨BuildRun.isConsistent_of_rejected _, fun message _ => ?_⟩
    rw [History.calls_append, History.calls_append,
      builder.only_opening.calls_eq_nil hopening fun _ => id,
      (isQuiet_validate _ _).calls_eq_nil hchecks fun _ => id,
      (builder.only_closing _).calls_eq_nil hclosing fun _ => id]
    rfl
  | @executed opening checks stages report closing ids run hopening hchecks hstages hreport
      hclosing =>
    obtain ⟨reached, hreached, htells⟩ := hstages.forall₂_tells
    obtain ⟨settled, ending, hrecords, hsettled, hending, hlength⟩ :=
      hstages.exists_ending (Course.hasPackage_all config none)
    have hconsistent : run.IsConsistent config := by
      refine BuildRun.isConsistent_of_ending ?_ ?_ hrecords hsettled hending hlength
      · rw [Course.map_name_of_tells htells]
        exact hreached.map Stage.name
      · exact fun entry hmem => (Course.tells_of_mem_zip htells hreached entry hmem).2
    refine ⟨hconsistent, fun message houtcome => ?_⟩
    rw [houtcome] at hending
    cases hending

end Builder

end SketchApk
