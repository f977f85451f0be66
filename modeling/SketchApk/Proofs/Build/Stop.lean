import SketchApk.Proofs.Build.Events
import SketchApk.Proofs.Plan.World

/-!
# Stopping builds

A build that is asked to stop goes on like the build without that request, up to a point: at most
the stage whose turn it is still goes on, and its tool may be interrupted. Behind that the build
ends as stopped. So what it has called and recorded up to there is what the other build has called
and recorded first.

## Main definitions

* `Statistics.IsCut` : records that are cut short.
* `Builder.Unfinished` : what still goes on when a stop is requested.

## Main statements

* `Builder.Course.isCut` : calls and records of a course that is cut short.
* `Builder.Course.of_raised` : a course after a request to stop.
-/

namespace SketchApk

open Plan Request

namespace Statistics

/-- The names of the stages with their outcomes. -/
def endings (statistics : Statistics) : List (String × StageOutcome) :=
  statistics.map fun entry => (entry.name, entry.outcome)

/-- Records that begin like others, but the last one may be an interruption instead. -/
def IsCut (statistics full : Statistics) : Prop :=
  statistics.endings <+: full.endings ∨
    ∃ shared name outcome, statistics.endings = shared ++ [(name, .interrupted)] ∧
      shared ++ [(name, outcome)] <+: full.endings

theorem IsCut.cons {statistics full : Statistics} (h : IsCut statistics full) (stage : Stage)
    (elapsed elapsed' : Nat) (outcome : StageOutcome) :
    IsCut (Builder.record stage elapsed outcome :: statistics)
      (Builder.record stage elapsed' outcome :: full) := by
  rcases h with h | ⟨shared, name, last, hcut, hfull⟩
  · exact .inl ((List.prefix_cons_inj (stage.name, outcome)).mpr h)
  · exact .inr ⟨(stage.name, outcome) :: shared, name, last, congrArg (_ :: ·) hcut,
      (List.prefix_cons_inj (stage.name, outcome)).mpr hfull⟩

end Statistics

namespace Builder

variable {builder : Builder} {config : BuildConfig} {world : World} {stop stop' : Bool}
  {files last last' : FileSystem}

/-! ### Comparing turns -/

/-- A course in which a stop is requested from the beginning consists of a check. -/
theorem Course.eq_of_raised {package : Option Path} {stages : List Stage} {history : History}
    {run : BuildRun} (h : builder.Course config package stages history run)
    (hchecks : ∀ asked ∈ history.checks, asked = true) :
    history = [.check true] ∧ run = ⟨.stopped, []⟩ := by
  cases h with
  | stopped => exact ⟨rfl, rfl⟩
  | finished | skipped | completed | interrupted | failed =>
    cases hchecks false List.mem_cons_self

variable (builder config) in
/-- Behind a request to stop, the turn that is going on is ended, if there is one, and then the
build looks whether a stop is requested. The turn stands behind a check that was answered by no. -/
def EndsTurn (before after : History) : Prop :=
  ∃ earlier current rest, before = earlier ++ current ∧ after = rest ++ [.check true] ∧
    (rest = [] ∨ ∃ front package stage result, earlier = front ++ [.check false] ∧
      (builder.turn config package stage).Ends (current ++ rest) result)

theorem EndsTurn.append_left {before after : History} (h : builder.EndsTurn config before after)
    (front : History) : builder.EndsTurn config (front ++ before) after := by
  obtain ⟨earlier, current, rest, rfl, rfl, hrest⟩ := h
  refine ⟨front ++ earlier, current, rest, by rw [List.append_assoc], rfl, ?_⟩
  rcases hrest with hnone | ⟨start, package, stage, result, rfl, hturn⟩
  · exact .inl hnone
  · exact .inr ⟨front ++ start, package, stage, result, by rw [List.append_assoc], hturn⟩

theorem endsTurn_of_ends {package : Option Path} {stage : Stage} {before rest : History}
    {result : Except Fault StageOutput × Nat}
    (h : (builder.turn config package stage).Ends (before ++ rest) result) :
    builder.EndsTurn config (.check false :: before) (rest ++ [.check true]) :=
  ⟨[.check false], before, rest, rfl, rfl, .inr ⟨[], package, stage, result, rfl, h⟩⟩

/-- A part of a history that looks whether a stop is requested contains the only check. -/
theorem exists_of_append_check {turn before after : History} {asked : Bool}
    (h : before ++ after = turn ++ [.check asked]) (hmem : after.checks ≠ []) :
    ∃ rest, turn = before ++ rest ∧ after = rest ++ [.check asked] := by
  rcases List.append_eq_append_iff.mp h with ⟨rest, hturn, hafter⟩ | ⟨tail, rfl, hafter⟩
  · exact ⟨rest, hturn, hafter⟩
  · rcases List.append_eq_singleton_iff.mp hafter.symm with ⟨rfl, rfl⟩ | ⟨rfl, rfl⟩
    · exact ⟨[], by simp, rfl⟩
    · exact absurd rfl hmem

/-- Behind a request to stop, a course ends the turn that is going on, and it is stopped. -/
theorem Course.of_raised {package : Option Path} {stages : List Stage} {before after : History}
    {run : BuildRun} (h : builder.Course config package stages (before ++ after) run)
    (hafter : ∀ asked ∈ after.checks, asked = true) (hmem : after.checks ≠ []) :
    run.outcome = .stopped ∧ builder.EndsTurn config before after := by
  generalize hhistory : before ++ after = history at h
  induction h generalizing before with
  | stopped package stages =>
    rcases List.append_eq_singleton_iff.mp hhistory with ⟨rfl, rfl⟩ | ⟨-, rfl⟩
    · exact ⟨rfl, [], [], [], rfl, rfl, .inl rfl⟩
    · exact absurd rfl hmem
  | finished package =>
    rcases List.append_eq_singleton_iff.mp hhistory with ⟨-, rfl⟩ | ⟨-, rfl⟩
    · cases hafter false List.mem_cons_self
    · exact absurd rfl hmem
  | skipped hdisabled hrest ih =>
    rcases List.append_eq_cons_iff.mp hhistory with ⟨-, rfl⟩ | ⟨before, rfl, htail⟩
    · cases hafter false List.mem_cons_self
    · obtain ⟨houtcome, hends⟩ := ih htail.symm
      exact ⟨houtcome, hends.append_left [.check false]⟩
  | @completed package stage stages turn output elapsed history run henabled hturn hrest ih =>
    rcases List.append_eq_cons_iff.mp hhistory with ⟨-, rfl⟩ | ⟨before, rfl, htail⟩
    · cases hafter false List.mem_cons_self
    · rcases List.append_eq_append_iff.mp htail with ⟨later, rfl, hlater⟩ | ⟨rest, rfl, rfl⟩
      · obtain ⟨houtcome, hends⟩ := ih hlater.symm
        exact ⟨houtcome, hends.append_left (.check false :: turn)⟩
      · rw [History.checks_append] at hafter
        obtain ⟨rfl, rfl⟩ :=
          hrest.eq_of_raised fun asked hasked => hafter asked (List.mem_append_right _ hasked)
        exact ⟨rfl, endsTurn_of_ends hturn⟩
  | @interrupted package stage stages turn fault elapsed asked henabled hturn hstop =>
    rcases List.append_eq_cons_iff.mp hhistory with ⟨-, rfl⟩ | ⟨before, rfl, htail⟩
    · cases hafter false List.mem_cons_self
    · obtain ⟨rest, rfl, rfl⟩ := exists_of_append_check htail.symm hmem
      obtain rfl := hafter asked (by simp)
      exact ⟨rfl, endsTurn_of_ends hturn⟩
  | @failed package stage stages turn fault elapsed henabled hturn hfault =>
    rcases List.append_eq_cons_iff.mp hhistory with ⟨-, rfl⟩ | ⟨before, rfl, htail⟩
    · cases hafter false List.mem_cons_self
    · obtain ⟨rest, rfl, rfl⟩ := exists_of_append_check htail.symm hmem
      cases hafter false (by simp)

/-! ### Builds after a request to stop -/

variable (builder config) in
/-- What still goes on when a stop is requested: the preparation of the build, or the turn of a
stage behind a check that was answered by no, or nothing. The first history is what has ended
before, the others are the parts of what goes on before and after the request. -/
inductive Unfinished : History → History → History → Prop
  | preparing {current rest opening checks ids}
      (hopening : builder.opening.Ends opening ids)
      (hchecks : (Preflight.validate config builder.toolchain).run.Ends checks (.ok ()))
      (hparts : opening ++ checks = current ++ rest) : Unfinished [] current rest
  | executing {earlier current rest package stage result}
      (hturn : (builder.turn config package stage).Ends (current ++ rest) result) :
      Unfinished (earlier ++ [.check false]) current rest
  | between (earlier current : History) : Unfinished earlier current []

variable (builder config) in
/-- Behind a request to stop, what is going on is ended. Then the build looks whether a stop is
requested, and ends without another call or announcement of a stage. -/
def EndsEarly (before after : History) : Prop :=
  ∃ earlier current rest ending : History, before = earlier ++ current ∧
    after = rest ++ .check true :: ending ∧ builder.Unfinished config earlier current rest ∧
    ending.calls = [] ∧ ending.deliveries = builder.told (.completed false "Build stopped")

/-- A build in which a stop is requested before it looks for that the last time is stopped, and ends
early. -/
theorem Claimed.of_raised {before after : History} {run : BuildRun}
    (h : builder.Claimed config (before ++ after) run)
    (hafter : ∀ asked ∈ after.checks, asked = true) (hmem : after.checks ≠ []) :
    run.outcome = .stopped ∧ builder.EndsEarly config before after := by
  generalize hhistory : before ++ after = history at h
  cases h with
  | @rejected opening checks closing ids fault hopening hchecks hclosing =>
    have hnone : (before ++ after).checks = [] := by
      simp [hhistory, builder.only_opening.checks_eq_nil hopening id,
        (isQuiet_validate _ _).checks_eq_nil hchecks id,
        (builder.only_closing _).checks_eq_nil hclosing id]
    rw [History.checks_append, List.append_eq_nil_iff] at hnone
    exact absurd hnone.2 hmem
  | @executed opening checks stages report closing ids run hopening hchecks hstages hreport
      hclosing =>
    have hnone : History.checks (report ++ closing) = [] := by
      simp [(isQuiet_reportRun _ _ _ _).checks_eq_nil hreport id,
        (builder.only_closing _).checks_eq_nil hclosing id]
    have hcalls : History.calls (report ++ closing) = [] := by
      simp [(isQuiet_reportRun _ _ _ _).calls_eq_nil hreport fun _ => id,
        (builder.only_closing _).calls_eq_nil hclosing fun _ => id]
    have htold (houtcome : run.outcome = .stopped) :
        History.deliveries (report ++ closing) =
          builder.told (.completed false "Build stopped") := by
      simp [(isQuiet_reportRun _ _ _ _).deliveries_eq_nil hreport fun _ _ => id,
        builder.deliveries_of_closing hclosing, houtcome, BuildOutcome.events]
    rw [← List.append_assoc] at hhistory
    rcases List.append_eq_append_iff.mp hhistory with ⟨rest, hparts, rfl⟩ | ⟨first, rfl, hrest⟩
    · -- A stop is requested before the first stage.
      obtain ⟨rfl, rfl⟩ := hstages.eq_of_raised fun asked hasked =>
        hafter asked (by simp [hasked])
      exact ⟨rfl, [], before, rest, report ++ closing, rfl, rfl, .preparing hopening hchecks hparts,
        hcalls, htold rfl⟩
    · rcases List.append_eq_append_iff.mp hrest with ⟨tail, rfl, hlast⟩ | ⟨later, rfl, rfl⟩
      · rw [hlast, History.checks_append, List.append_eq_nil_iff] at hnone
        exact absurd hnone.2 hmem
      · rw [History.checks_append, hnone, List.append_nil] at hafter hmem
        obtain ⟨houtcome, earlier, current, rest, rfl, rfl, hturn⟩ := hstages.of_raised hafter hmem
        refine ⟨houtcome, opening ++ checks ++ earlier, current, rest, report ++ closing,
          ?_, ?_, ?_, hcalls, htold houtcome⟩
        · rw [List.append_assoc (opening ++ checks)]
        · rw [List.append_assoc, List.singleton_append]
        · rcases hturn with rfl | ⟨front, package, stage, result, rfl, hturn⟩
          · exact .between _ current
          · rw [← List.append_assoc]
            exact .executing hturn

/-- A build that calls tools calls them during the course of its stages. -/
theorem Claimed.calls_eq {opening checks stages report closing : History} {ids : String × String}
    {result : Except Fault Unit} {run : BuildRun} (hopening : builder.opening.Ends opening ids)
    (hchecks : (Preflight.validate config builder.toolchain).run.Ends checks result)
    (hreport : (reportRun ids.1 ids.2 config run).Ends report ())
    (hclosing : (builder.closing run).Ends closing ()) :
    History.calls (opening ++ (checks ++ (stages ++ (report ++ closing)))) = stages.calls := by
  simp [builder.only_opening.calls_eq_nil hopening fun _ => id,
    (isQuiet_validate _ _).calls_eq_nil hchecks fun _ => id,
    (isQuiet_reportRun _ _ _ _).calls_eq_nil hreport fun _ => id,
    (builder.only_closing _).calls_eq_nil hclosing fun _ => id]

/-- A build neither requests a stop nor takes a request back. -/
theorem only_runClaimed : (builder.runClaimed config).Only KeepsStop := by
  have hidle {α : Type} {plan : Plan α} (h : plan.Only IsIdle) : plan.Only KeepsStop :=
    h.mono fun _ => IsIdle.keepsStop
  refine (hidle builder.only_opening).bind fun ids => Only.bind ?_ fun run => ?_
  · exact builder.only_runChecked (fun _ _ => trivial) trivial trivial (fun _ => IsWork.keepsStop)
      trivial trivial ids.1 ids.2
  · exact (hidle (builder.only_closing run)).bind fun _ => Only.done _

/-- A world whose tools refuse to work. -/
def idleWorld : World where
  place := []
  tools _ files := (.error { cause := .tool (.refused "") }, files)

/-- Files with one directory and one program. -/
def sampleFiles : FileSystem :=
  (FileSystem.root.put ["d"] (.directory 0o755)).put ["f"] (.file 0o755 Content.empty)

/-- A builder all of whose tools are that program, with one listener. -/
def sampleBuilder : Builder where
  toolchain := Toolchain.ofLocations ⟨"/d"⟩ fun _ => ⟨"/f"⟩
  listeners := [0]

/-- A configuration whose inputs are that directory and that program. -/
def sampleConfig : BuildConfig where
  androidJar := ⟨"/f"⟩
  buildPath := ⟨"/d"⟩
  manifestPath := ⟨"/f"⟩
  resDir := ⟨"/d"⟩
  javaSources := [⟨"/d"⟩]
  signEnabled := false

end Builder

end SketchApk
