import SketchApk.Proofs.Build.Exclusion

/-!
# Builders without a memory

Whatever threads have done with a builder, once no claim is left nothing of it has an influence on
the next build. Old requests to stop are forgotten when the builder is claimed, and a build sets the
state of the builder without ever looking at it. So in the same surroundings a builder that has been
used and a new one exchange the same requests and answers: they tell the same events, make the same
calls, and end with the same outcome and the same records.

The surroundings are all that answers the other requests of a build, with files, tools, listeners and
clocks. They know whether a stop is requested, and may request one at any time.

## Main definitions

* `Builder.Surroundings` : what surrounds a builder, and `Builder.Surroundings.answer`.
* `Builder.Status.IsLike` : two statuses that differ in what builds do not look at.
* `Builder.BuildsAsNew` : a build does what it does with a new builder.

## Main statements

* `Builder.run_of_isLike` : plans that do not look at the claim or the state do the same.
* `Builder.Sharing.Reachable.buildsAsNew` : without a claim, a builder builds like a new one.
-/

namespace SketchApk

open Plan

/-- The request looks at neither the flag that a build is in progress nor the state of the builder.
-/
def Request.IsBlind : Request → Prop
  | acquire | isBuilding | state => False
  | _ => True

theorem Request.IsWork.isBlind {request : Request} (h : request.IsWork) : request.IsBlind := by
  cases request <;> trivial

namespace Builder

variable {σ : Type}

/-- What surrounds a builder. A reaction to a request consists of the answer, whether a stop is
requested in the meantime, and the surroundings afterwards. -/
structure Surroundings (σ : Type) where
  react : (request : Request) → (isStopRequested : Bool) → σ → request.Answer × Bool × σ

namespace Surroundings

variable (surroundings : Surroundings σ)

/-- The answer to a request that is not about the builder itself. -/
def pass (request : Request) (status : Status) (s : σ) : request.Answer × Status × σ :=
  let reaction := surroundings.react request status.isStopRequested s
  (reaction.1, { status with isStopRequested := status.isStopRequested || reaction.2.1 },
    reaction.2.2)

/-- Answer requests as a builder in its surroundings does. -/
def answer : (request : Request) → Status × σ → request.Answer × Status × σ
  | .acquire, (status, s) => (!status.isBuilding, { status with isBuilding := true }, s)
  | .release, (status, s) => ((), { status with isBuilding := false }, s)
  | .isBuilding, (status, s) => (status.isBuilding, status, s)
  | .requestStop, (status, s) => ((), { status with isStopRequested := true }, s)
  | .clearStop, (status, s) => ((), { status with isStopRequested := false }, s)
  | .isStopRequested, (status, s) => (status.isStopRequested, status, s)
  | .setState state, (status, s) => ((), { status with state }, s)
  | .state, (status, s) => (status.state, status, s)
  | .deliver listener event, (status, s) =>
    let reply := surroundings.pass (.deliver listener event) status s
    ((), { reply.2.1 with told := reply.2.1.told ++ [(listener, event)] }, reply.2.2)
  | request, (status, s) => surroundings.pass request status s

end Surroundings

/-! ### What builds do not look at -/

/-- The second status has more events behind it, and may have another state. -/
structure Status.IsLike (past : List (Nat × BuildEvent)) (status used : Status) : Prop where
  isBuilding_eq : used.isBuilding = status.isBuilding
  isStopRequested_eq : used.isStopRequested = status.isStopRequested
  told_eq : used.told = past ++ status.told

variable (surroundings : Surroundings σ) {past : List (Nat × BuildEvent)} {status used : Status}

/-- A request that does not look at the difference is answered alike. -/
theorem Status.IsLike.answer (h : status.IsLike past used) {request : Request}
    (hblind : request.IsBlind) (s : σ) :
    ∃ reply after later last, surroundings.answer request (status, s) = (reply, after, last) ∧
      surroundings.answer request (used, s) = (reply, later, last) ∧ after.IsLike past later := by
  obtain ⟨hbuilding, hstop, htold⟩ := h
  have hpass (request : Request) : ∃ reply after later last,
      surroundings.pass request status s = (reply, after, last) ∧
        surroundings.pass request used s = (reply, later, last) ∧ after.IsLike past later := by
    rcases hreact : surroundings.react request status.isStopRequested s with ⟨reply, asks, last⟩
    refine ⟨reply, { status with isStopRequested := status.isStopRequested || asks },
      { used with isStopRequested := status.isStopRequested || asks }, last, ?_, ?_, hbuilding, rfl,
      htold⟩
    · rw [Surroundings.pass, hreact]
    · rw [Surroundings.pass, hstop, hreact]
  cases request with
  | acquire | isBuilding | state => cases hblind
  | file | call | print | complain | clock | calendar | processId => exact hpass _
  | release | clearStop | requestStop | setState =>
    exact ⟨_, _, _, _, rfl, rfl, by first | exact hbuilding | rfl, by first | exact hstop | rfl, htold⟩
  | isStopRequested =>
    exact ⟨_, _, _, _, rfl, by rw [Surroundings.answer, hstop], hbuilding, hstop, htold⟩
  | deliver listener event =>
    obtain ⟨reply, after, later, last, hafter, hlater, hlike⟩ := hpass (.deliver listener event)
    refine ⟨(), { after with told := after.told ++ [(listener, event)] },
      { later with told := later.told ++ [(listener, event)] }, last, ?_, ?_, hlike.isBuilding_eq,
      hlike.isStopRequested_eq, ?_⟩
    · rw [Surroundings.answer, hafter]
    · rw [Surroundings.answer, hlater]
    · rw [hlike.told_eq, List.append_assoc]

/-- Plans that do not look at the difference do the same, and leave no other difference. -/
theorem run_of_isLike {α : Type} {plan : Plan α} (hblind : plan.Only Request.IsBlind)
    (h : status.IsLike past used) (s : σ) :
    plan.history surroundings.answer (used, s) = plan.history surroundings.answer (status, s) ∧
      ∃ value after later last, plan.run surroundings.answer (status, s) = (value, after, last) ∧
        plan.run surroundings.answer (used, s) = (value, later, last) ∧
        after.IsLike past later := by
  induction hblind generalizing status used s with
  | done value => exact ⟨rfl, value, status, used, s, rfl, rfl, h⟩
  | step hrequest hnext ih =>
    obtain ⟨reply, after, later, last, hafter, hlater, hlike⟩ := h.answer surroundings hrequest s
    obtain ⟨hhistory, hrun⟩ := ih reply hlike last
    constructor
    · rw [history, history, hafter, hlater, hhistory]
    · rw [run, run, hafter, hlater]
      exact hrun

/-- Requests that keep a claim leave the flag and the state as they are. -/
theorem run_of_keepsClaim {α : Type} {plan : Plan α} (hkeeps : plan.Only Request.KeepsClaim)
    (status : Status) (s : σ) :
    ∃ value after last, plan.run surroundings.answer (status, s) = (value, after, last) ∧
      after.isBuilding = status.isBuilding ∧ after.state = status.state := by
  induction hkeeps generalizing status s with
  | done value => exact ⟨value, status, s, rfl, rfl, rfl⟩
  | @step request next hrequest hnext ih =>
    have hkept : (surroundings.answer request (status, s)).2.1.isBuilding = status.isBuilding ∧
        (surroundings.answer request (status, s)).2.1.state = status.state := by
      cases request with
      | acquire | release | setState => cases hrequest
      | _ => exact ⟨rfl, rfl⟩
    obtain ⟨value, after, last, hrun, hbuilding, hstate⟩ := ih
      (surroundings.answer request (status, s)).1 (surroundings.answer request (status, s)).2.1
      (surroundings.answer request (status, s)).2.2
    exact ⟨value, after, last, hrun, hbuilding.trans hkept.1, hstate.trans hkept.2⟩

/-! ### Builds -/

variable (builder : Builder) (config : BuildConfig)

/-- A build with a claim does not look at the claim or the state. -/
theorem isBlind_runClaimed : (builder.runClaimed config).Only Request.IsBlind := by
  have hannounce (event : BuildEvent) : (builder.announce event).Only Request.IsBlind :=
    builder.only_announce_of (fun _ _ => trivial) event
  have hopening : builder.opening.Only Request.IsBlind :=
    (Only.ask trivial).bind fun _ => (Only.ask trivial).bind fun _ => (Only.ask trivial).bind
      fun _ => (Only.ask trivial).bind fun _ => (hannounce _).bind fun _ => Only.done _
  refine hopening.bind fun ids => Only.bind ?_ fun run => Only.bind ?_ fun _ => Only.done _
  · exact builder.only_runChecked (fun _ _ => trivial) trivial trivial
      (fun _ => Request.IsWork.isBlind) trivial trivial ids.1 ids.2
  · refine (only_print (fun _ => trivial) _).bind fun _ => Only.bind ?_ fun _ => Only.ask trivial
    exact (Only.ask trivial).bind fun _ => Only.forM _ fun event _ => hannounce event

/-- At its end a build sets the state that belongs to its outcome, and ends its claim. -/
theorem exists_of_run_closing (run : BuildRun) (status : Status) (s : σ) :
    ∃ after last, (builder.closing run).run surroundings.answer (status, s) = ((), after, last) ∧
      after.isBuilding = false ∧ after.state = run.outcome.state := by
  have hannounce : (run.outcome.events.forM builder.announce).Only Request.KeepsClaim :=
    Only.forM _ fun event _ => builder.only_announce_of (fun _ _ => trivial) event
  obtain ⟨⟨⟩, printed, middle, hprint, -, -⟩ :=
    run_of_keepsClaim surroundings (only_print (fun _ => trivial) run.statistics)
      status s
  obtain ⟨⟨⟩, told, last, htold, -, hstate⟩ :=
    run_of_keepsClaim surroundings hannounce
      { printed with state := run.outcome.state } middle
  refine ⟨{ told with isBuilding := false }, last, ?_, rfl, hstate⟩
  have hfinish : (builder.finish run.outcome).run surroundings.answer (printed, middle) =
      ((), told, last) := by
    rw [finish, bind_eq, run_bind]
    exact htold
  rw [closing, bind_eq, run_bind, hprint, bind_eq, run_bind, hfinish]
  rfl

/-- A build with a claim leaves the builder without the claim, in the state that belongs to the
outcome. -/
theorem exists_of_run_runClaimed (status : Status) (s : σ) :
    ∃ run after last,
      (builder.runClaimed config).run surroundings.answer (status, s) = (run, after, last) ∧
      after.isBuilding = false ∧ after.state = run.outcome.state := by
  rcases hopening : builder.opening.run surroundings.answer (status, s) with
    ⟨⟨runId, startedAt⟩, opened, middle⟩
  rcases hchecked : (builder.runChecked runId startedAt config).run surroundings.answer
    (opened, middle) with ⟨run, checked, later⟩
  obtain ⟨after, last, hclosing, hafter⟩ :=
    builder.exists_of_run_closing surroundings run checked later
  refine ⟨run, after, last, ?_, hafter⟩
  rw [runClaimed, bind_eq, run_bind, hopening]
  change ((builder.runChecked runId startedAt config).bind _).run _ (opened, middle) = _
  rw [run_bind, hchecked, bind_eq, run_bind, hclosing]
  rfl

/-- A builder is claimed, which forgets requests to stop, and the build is run. -/
theorem build_eq : builder.build config = .step .acquire fun acquired =>
    if acquired then .step .clearStop fun _ =>
      (builder.runClaimed config).bind fun run => .done (.ok run)
    else .done (.error .alreadyBuilding) := by
  simp only [build, claim, acquire, ask, bind_eq, step_bind, done_bind]
  congr 1
  funext acquired
  cases acquired <;> rfl

/-- A builder that is not in use and has this status does what a new builder does in the same
surroundings: it exchanges the same requests and answers, and has the same run. Of its past it keeps
the events that were told before. -/
structure BuildsAsNew (s : σ) (status : Status) : Prop where
  history_eq : (builder.build config).history surroundings.answer (status, s) =
    (builder.build config).history surroundings.answer ({}, s)
  exists_run : ∃ run after last,
    (builder.build config).run surroundings.answer ({}, s) = (.ok run, after, last) ∧
      (builder.build config).run surroundings.answer (status, s) =
        (.ok run, { after with told := status.told ++ after.told }, last) ∧
      after.isBuilding = false ∧ after.state = run.outcome.state

/-- A builder that is not in use does what a new one does. -/
theorem buildsAsNew_of_isBuilding_eq_false (s : σ) (hclear : status.isBuilding = false) :
    builder.BuildsAsNew surroundings config s status := by
  let claimed (status : Status) : Status :=
    { status with isBuilding := true, isStopRequested := false }
  let rest : Plan (Except BuildError BuildRun) :=
    (builder.runClaimed config).bind fun run => .done (.ok run)
  have hacquire {status : Status} (hclear : status.isBuilding = false) :
      surroundings.answer .acquire (status, s) = (true, { status with isBuilding := true }, s) := by
    rw [Surroundings.answer, hclear, Bool.not_false]
  have hhistory {status : Status} (hclear : status.isBuilding = false) :
      (builder.build config).history surroundings.answer (status, s) = ⟨.acquire, true⟩ ::
        ⟨.clearStop, ()⟩ :: rest.history surroundings.answer (claimed status, s) := by
    rw [build_eq, history, hacquire hclear]
    rfl
  have hrun {status : Status} (hclear : status.isBuilding = false) :
      (builder.build config).run surroundings.answer (status, s) =
        rest.run surroundings.answer (claimed status, s) := by
    rw [build_eq, run, hacquire hclear]
    rfl
  have hends (status : Status) : ∃ run after last, rest.run surroundings.answer (status, s) =
      (.ok run, after, last) ∧ after.isBuilding = false ∧ after.state = run.outcome.state := by
    obtain ⟨run, after, last, hrun, hafter⟩ :=
      builder.exists_of_run_runClaimed surroundings config status s
    exact ⟨run, after, last, by rw [run_bind, hrun]; rfl, hafter⟩
  have hlike : (claimed {}).IsLike status.told (claimed status) :=
    ⟨rfl, rfl, (List.append_nil _).symm⟩
  have hblind : rest.Only Request.IsBlind :=
    (builder.isBlind_runClaimed config).bind fun run => Only.done _
  obtain ⟨hsame, value, after, later, last, hnew, hused, hafter⟩ :=
    run_of_isLike surroundings hblind hlike s
  obtain ⟨run, _, _, hnew', hnot, hstate⟩ := hends (claimed {})
  obtain ⟨run', _, _, hused', hnot', hstate'⟩ := hends (claimed status)
  rw [hnew] at hnew'
  obtain ⟨rfl, ⟨⟩⟩ := Prod.mk.inj hnew'
  rw [hused] at hused'
  obtain ⟨hvalue, ⟨⟩⟩ := Prod.mk.inj hused'
  obtain rfl := Except.ok.inj hvalue
  refine ⟨by rw [hhistory hclear, hhistory rfl, hsame], run, after, last, ?_, ?_, hnot, hstate⟩
  · rw [hrun rfl, hnew]
  · rw [hrun hclear, hused]
    obtain ⟨isBuilding, isStopRequested, state, told⟩ := later
    obtain ⟨hbuilding, hstop, htold⟩ := hafter
    simp only at hbuilding hstop htold hstate'
    rw [hbuilding, hstop, htold, hstate', hstate]

namespace Sharing

variable {builder} {sharing : Sharing}

/-- Whatever threads have done with a builder: if no claim is left, the next build does what it does
with a new builder. -/
theorem Reachable.buildsAsNew (h : Reachable builder sharing)
    (hclaims : ∀ index, (sharing.callers index).claims = 0) (config : BuildConfig)
    (surroundings : Surroundings σ) (s : σ) :
    builder.BuildsAsNew surroundings config s sharing.status := by
  refine builder.buildsAsNew_of_isBuilding_eq_false surroundings config s ?_
  rw [Bool.eq_false_iff, ne_eq, h.isExclusive.isBuilding_iff]
  rintro ⟨index, hclaim⟩
  exact Nat.ne_of_gt hclaim (hclaims index)

end Sharing

end Builder

/-- The surroundings that a world makes for a builder. -/
def World.surroundings (world : World) : Builder.Surroundings FileSystem where
  react request isStopRequested files :=
    let reply := world.answer isStopRequested request files
    (reply.1, false, reply.2)

namespace Builder.Sharing

/-- A builder that has been asked to stop while it was idle builds like a new one. -/
theorem exists_buildsAsNew : ∃ sharing : Sharing, Reachable sampleBuilder sharing ∧
    (∀ index, (sharing.callers index).claims = 0) ∧ sharing.status.isStopRequested = true ∧
      sampleBuilder.BuildsAsNew idleWorld.surroundings sampleConfig sampleFiles sharing.status := by
  have hfree : Caller.IsFree ⟨.done .silent, 0⟩ := ⟨.silent, rfl, fun _ heq => by cases heq⟩
  have hstopping : Reachable sampleBuilder _ := Reachable.initial.step 0 (.enter .stop hfree)
  have hstopped := hstopping.step 0 (.request rfl .requestStop)
  refine ⟨_, hstopped, ?_, rfl, hstopped.buildsAsNew ?_ _ _ _⟩
  all_goals
    intro index
    by_cases h : index = 0
    · subst h
      rfl
    · simp [setCaller, h]

end Builder.Sharing

end SketchApk
