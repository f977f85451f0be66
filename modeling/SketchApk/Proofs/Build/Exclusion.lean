import SketchApk.Proofs.Build.Sharing
import SketchApk.Proofs.Build.Stop

/-!
# Exclusion of builds

Of the threads that share a builder at most one has a claim, and the flag that a build is in
progress is set as long as one has. The thread that has the claim goes through phases, and the state
of the builder follows these: it is the state in which the last build has left it until a build with
the claim begins, then it is the state of a build in progress, and before the listeners are told the
outcome it is the state that belongs to the outcome. All other threads are about to make their first
request or have ended their call, and a call that finds the flag set ends with its first request.

## Main definitions

* `Builder.Phase`, `Builder.Holds` : the phases of a claim, and what is left to do in each of them.
* `Builder.Sharing.Invariant` : what the steps of all threads preserve.
* `Builder.Sharing.IsExclusive` : what follows for the claims, the flag and the state.

## Main statements

* `Builder.Sharing.Step.invariant` : every step preserves the invariant.
* `Builder.Sharing.Reachable.isExclusive` : what threads that share a builder can rely on.
-/

namespace SketchApk

open Plan Request

namespace Builder

variable (builder : Builder) {config : BuildConfig}

/-! ### The phases of a claim -/

/-- The phases of a claim. -/
inductive Phase where
  /-- No build with the claim has begun. -/
  | ready
  /-- A build is in progress. -/
  | running
  /-- The state that belongs to the outcome has been set. -/
  | concluding (outcome : BuildOutcome)

/-- What is left to do for a thread whose claim is in some phase. A claim that is ready may be kept
or dropped, and a build ends its claim when it has ended. -/
inductive Holds : Phase → Plan Ending → Prop
  | claimed : Holds .ready (.done .claimed)
  | starting (config : BuildConfig) : Holds .ready (.done (.starting config))
  | keeping {phase : Phase} {request : Request} {next : request.Answer → Plan Ending}
      (h : request.KeepsClaim) (hnext : ∀ answer, Holds phase (next answer)) :
      Holds phase (.step request next)
  | dropped {ending : Ending} {next : Unit → Plan Ending} (hnext : next () = .done ending)
      (hending : ending = .silent ∨ ∃ detail, ending = .rejected (.environment detail)) :
      Holds .ready (.step .release next)
  | begun {next : Unit → Plan Ending} (hnext : Holds .running (next ())) :
      Holds .ready (.step (.setState .running) next)
  | concluded {outcome : BuildOutcome} {next : Unit → Plan Ending}
      (hnext : Holds (.concluding outcome) (next ())) :
      Holds .running (.step (.setState outcome.state) next)
  | released {run : BuildRun} {next : Unit → Plan Ending} (hnext : next () = .done (.ran run)) :
      Holds (.concluding run.outcome) (.step .release next)

/-- A part that has nothing to do with the claim leaves the phase as it is. -/
theorem Holds.bind {α : Type} {phase : Phase} {plan : Plan α} {f : α → Plan Ending}
    (h : plan.Only KeepsClaim) (hf : ∀ value, Holds phase (f value)) :
    Holds phase (plan.bind f) := by
  induction h with
  | done value => exact hf value
  | step h hnext ih => exact .keeping h ih

theorem Holds.finishedWith_eq {phase : Phase} {plan : Plan Ending} (h : Holds phase plan) :
    finishedWith plan = [] := by
  cases h <;> rfl

/-- A thread with a claim is not told that a build is in progress. -/
theorem Holds.next_ne_rejected {phase : Phase} {request : Request}
    {next : request.Answer → Plan Ending} (h : Holds phase (.step request next))
    (answer : request.Answer) : next answer ≠ .done (.rejected .alreadyBuilding) := by
  have hdone {later : Phase} {plan : Plan Ending} (hplan : Holds later plan) :
      plan ≠ .done (.rejected .alreadyBuilding) := by
    rintro rfl
    cases hplan
  cases h with
  | keeping hkeeps hnext => exact hdone (hnext answer)
  | begun hnext | concluded hnext => exact hdone hnext
  | dropped hnext hending =>
    obtain rfl : answer = () := rfl
    rw [hnext]
    rcases hending with rfl | ⟨detail, rfl⟩ <;> simp
  | released hnext =>
    obtain rfl : answer = () := rfl
    rw [hnext]
    simp

theorem holds_closing (run : BuildRun) :
    Holds .running ((builder.closing run).bind fun _ => .done (.ran run)) := by
  have hprint : run.statistics.print.Only KeepsClaim := only_print (fun _ => trivial) _
  have hevents : (run.outcome.events.forM builder.announce).Only KeepsClaim :=
    Only.forM _ fun event _ => builder.only_announce_of (fun _ _ => trivial) event
  have hlast : Holds (.concluding run.outcome) (dropClaim.bind fun _ => .done (.ran run)) :=
    .released rfl
  have hfinish : Holds .running
      ((builder.finish run.outcome).bind fun _ => dropClaim.bind fun _ => .done (.ran run)) := by
    refine .concluded ?_
    exact .bind hevents fun _ => hlast
  unfold closing
  simp only [bind_eq, bind_assoc]
  exact .bind hprint fun _ => hfinish

/-- A build with a claim leads from the beginning of the claim to its end. -/
theorem holds_run (config : BuildConfig) : Holds .ready ((Use.run config).plan builder) := by
  have hstarted : (builder.announce .started).Only KeepsClaim :=
    builder.only_announce_of (fun _ _ => trivial) .started
  have hchecked (runId startedAt : String) :
      (builder.runChecked runId startedAt config).Only KeepsClaim :=
    builder.only_runChecked (fun _ _ => trivial) trivial trivial
      (fun request h => by cases request <;> trivial) trivial trivial _ _
  refine .keeping trivial fun now => .keeping trivial fun process => ?_
  refine .keeping trivial fun started => .begun ?_
  simp only [bind_eq, bind_assoc, pure_eq_done, done_bind]
  refine .bind hstarted fun _ => .bind (hchecked _ _) fun run => ?_
  exact builder.holds_closing run

theorem holds_use (use : Use) : Holds .ready (use.plan builder) := by
  cases use with
  | run config => exact builder.holds_run config
  | drop => exact .dropped rfl (.inl rfl)

theorem holds_giveUp (reason : String) : Holds .ready (giveUp reason) :=
  .dropped rfl (.inr ⟨_, rfl⟩)

/-! ### Threads without a claim -/

/-- The thread is about to make the first request of a call, or has ended one. -/
def Caller.IsIdle (caller : Caller) : Prop :=
  caller.IsFree ∨ ∃ action : Action, caller.plan = action.plan builder

/-- A call that claims the builder begins with that, and it is rejected unless the flag has been
set. -/
theorem Action.plan_cases (action : Action) :
    action.plan builder = .step .requestStop (fun _ => .done .silent) ∨
      ∃ next, action.plan builder = .step .acquire next ∧ Holds .ready (next true) ∧
        next false = .done (.rejected .alreadyBuilding) := by
  cases action with
  | stop => exact .inl rfl
  | build config =>
    refine .inr ⟨_, rfl, .keeping trivial fun _ => ?_, rfl⟩
    simp only [bind_eq, bind_assoc, pure_eq_done, done_bind]
    exact builder.holds_run config
  | start config => exact .inr ⟨_, rfl, .keeping trivial fun _ => .starting config, rfl⟩
  | claim => exact .inr ⟨_, rfl, .keeping trivial fun _ => .claimed, rfl⟩

variable {builder} in
theorem Caller.IsIdle.ne_starting {caller : Caller} (h : caller.IsIdle builder)
    (config : BuildConfig) : caller.plan ≠ .done (.starting config) := by
  intro hstarting
  rcases h with ⟨ending, hplan, hne⟩ | ⟨action, hplan⟩
  · rw [hstarting] at hplan
    cases hplan
    exact hne config rfl
  · rw [hstarting] at hplan
    rcases action.plan_cases builder with h | ⟨next, h, -, -⟩ <;> rw [h] at hplan <;> cases hplan

variable {builder} in
/-- A thread that has ended its call with something else than a claim for another thread is idle. -/
theorem Caller.isIdle_done {ending : Ending} (h : ∀ config, ending ≠ .starting config)
    (claims : Nat) : Caller.IsIdle builder ⟨.done ending, claims⟩ :=
  .inl ⟨ending, rfl, h⟩

namespace Sharing

/-! ### What steps preserve -/

/-- The state in which finished builds leave a builder. -/
def settled (finished : List BuildRun) : BuildState :=
  (finished.getLast?.map fun run => run.outcome.state).getD .idle

@[simp] theorem settled_append (finished : List BuildRun) (run : BuildRun) :
    settled (finished ++ [run]) = run.outcome.state := by
  simp [settled]

/-- The state of a builder while the only claim is in some phase. -/
def stateIn (finished : List BuildRun) : Phase → BuildState
  | .ready => settled finished
  | .running => .running
  | .concluding outcome => outcome.state

/-- The thread has no claim. -/
structure IsBystander (caller : Caller) : Prop where
  claims_eq : caller.claims = 0
  idle : caller.IsIdle builder

/-- The thread has the only claim, which is in some phase. A claim that is ready may be with a
thread that does something else. -/
structure IsOwner (phase : Phase) (caller : Caller) : Prop where
  claims_eq : caller.claims = 1
  holds : phase = .ready ∧ caller.IsIdle builder ∨ Holds phase caller.plan

/-- What the steps of all threads preserve. -/
inductive Invariant (sharing : Sharing) : Prop
  /-- No thread has a claim. -/
  | unclaimed (hflag : sharing.status.isBuilding = false)
      (hstate : sharing.status.state = settled sharing.finished)
      (hothers : ∀ index, IsBystander builder (sharing.callers index))
  /-- One thread has the only claim. -/
  | claimed (owner : Nat) (phase : Phase) (hflag : sharing.status.isBuilding = true)
      (hstate : sharing.status.state = stateIn sharing.finished phase)
      (howner : IsOwner builder phase (sharing.callers owner))
      (hothers : ∀ index, index ≠ owner → IsBystander builder (sharing.callers index))

variable {builder} {sharing after : Sharing} {index : Nat}

/-- A claim is ready as long as its owner does nothing. -/
theorem IsOwner.phase_eq {phase : Phase} {caller : Caller} {ending : Ending}
    (h : IsOwner builder phase caller) (hplan : caller.plan = .done ending) : phase = .ready := by
  rcases h.holds with ⟨hphase, -⟩ | hholds
  · exact hphase
  · rw [hplan] at hholds
    cases hholds <;> rfl

namespace Invariant

/-- A thread with a claim has the only one. -/
theorem exists_phase (h : Invariant builder sharing) (hclaim : (sharing.callers index).claims ≠ 0) :
    ∃ phase, sharing.status.isBuilding = true ∧
      sharing.status.state = stateIn sharing.finished phase ∧
      IsOwner builder phase (sharing.callers index) ∧
      ∀ other, other ≠ index → IsBystander builder (sharing.callers other) := by
  cases h with
  | unclaimed hflag hstate hothers => exact absurd (hothers index).claims_eq hclaim
  | claimed owner phase hflag hstate howner hothers =>
    by_cases hindex : index = owner
    · subst hindex
      exact ⟨phase, hflag, hstate, howner, hothers⟩
    · exact absurd (hothers index hindex).claims_eq hclaim

/-- A thread without a claim is idle. -/
theorem isBystander (h : Invariant builder sharing) (hclaim : (sharing.callers index).claims = 0) :
    IsBystander builder (sharing.callers index) := by
  cases h with
  | unclaimed hflag hstate hothers => exact hothers index
  | claimed owner phase hflag hstate howner hothers =>
    refine hothers index ?_
    rintro rfl
    exact Nat.zero_ne_one (hclaim.symm.trans howner.claims_eq)

/-- A thread that is about to start another one has a claim. -/
theorem claims_ne_zero (h : Invariant builder sharing) {config : BuildConfig}
    (hstarting : (sharing.callers index).plan = .done (.starting config)) :
    (sharing.callers index).claims ≠ 0 :=
  fun hclaim => (h.isBystander hclaim).idle.ne_starting config hstarting

/-- Nothing but the flag and the state matters of the status. -/
theorem congr_status (h : Invariant builder sharing) {status : Status}
    (hflag : status.isBuilding = sharing.status.isBuilding)
    (hstate : status.state = sharing.status.state) : Invariant builder { sharing with status } := by
  cases h with
  | unclaimed hflag' hstate' hothers =>
    exact .unclaimed (hflag.trans hflag') (hstate.trans hstate') hothers
  | claimed owner phase hflag' hstate' howner hothers =>
    exact .claimed owner phase (hflag.trans hflag') (hstate.trans hstate') howner hothers

/-- A thread without a claim goes on without one. -/
theorem setBystander (h : Invariant builder sharing)
    (hclaim : (sharing.callers index).claims = 0) {caller : Caller}
    (hcaller : IsBystander builder caller) : Invariant builder (sharing.setCaller index caller) := by
  have hkept (other : Nat) (hother : IsBystander builder (sharing.callers other)) :
      IsBystander builder ((sharing.setCaller index caller).callers other) := by
    by_cases hindex : other = index
    · subst hindex
      rwa [callers_setCaller_self]
    · rwa [callers_setCaller_of_ne hindex]
  cases h with
  | unclaimed hflag hstate hothers =>
    exact .unclaimed hflag hstate fun other => hkept other (hothers other)
  | claimed owner phase hflag hstate howner hothers =>
    refine .claimed owner phase hflag hstate ?_ fun other hne => hkept other (hothers other hne)
    have hne : owner ≠ index := by
      rintro rfl
      exact Nat.zero_ne_one (hclaim.symm.trans howner.claims_eq)
    rwa [callers_setCaller_of_ne hne]

/-- A thread gets the only claim, or goes on with it. -/
theorem setOwner {phase : Phase} {caller : Caller} (hflag : sharing.status.isBuilding = true)
    (hstate : sharing.status.state = stateIn sharing.finished phase)
    (hcaller : IsOwner builder phase caller)
    (hothers : ∀ other, other ≠ index → IsBystander builder (sharing.callers other)) :
    Invariant builder (sharing.setCaller index caller) := by
  refine .claimed index phase hflag hstate ?_ fun other hne => ?_
  · rwa [callers_setCaller_self]
  · rw [callers_setCaller_of_ne hne]
    exact hothers other hne

/-- The thread with the only claim loses it. -/
theorem setReleased {caller : Caller} (hflag : sharing.status.isBuilding = false)
    (hstate : sharing.status.state = settled sharing.finished)
    (hcaller : IsBystander builder caller)
    (hothers : ∀ other, other ≠ index → IsBystander builder (sharing.callers other)) :
    Invariant builder (sharing.setCaller index caller) := by
  refine .unclaimed hflag hstate fun other => ?_
  by_cases hindex : other = index
  · subst hindex
    rwa [callers_setCaller_self]
  · rw [callers_setCaller_of_ne hindex]
    exact hothers other hindex

end Invariant

/-- A claim passes from one thread to another, which does something with it. -/
theorem Invariant.pass (h : Invariant builder sharing) {other : Nat} (hne : other ≠ index)
    {ending : Ending} (hplan : (sharing.callers index).plan = .done ending)
    (hclaim : (sharing.callers index).claims ≠ 0) {giver taker : Caller}
    (hgiver : giver.claims = (sharing.callers index).claims - 1) (hidle : giver.IsIdle builder)
    (htaker : taker.claims = (sharing.callers other).claims + 1)
    (hholds : taker.IsIdle builder ∨ Holds .ready taker.plan) :
    Invariant builder ((sharing.setCaller index giver).setCaller other taker) := by
  obtain ⟨phase, hflag, hstate, howner, hothers⟩ := h.exists_phase hclaim
  obtain rfl := howner.phase_eq hplan
  rw [howner.claims_eq] at hgiver
  rw [(hothers other hne).claims_eq] at htaker
  refine Invariant.setOwner hflag hstate ⟨htaker, hholds.imp (⟨rfl, ·⟩) id⟩ fun third hthird => ?_
  by_cases hindex : third = index
  · subst hindex
    rw [callers_setCaller_self]
    exact ⟨hgiver, hidle⟩
  · rw [callers_setCaller_of_ne hindex]
    exact hothers third hindex

/-! ### Requests -/

section Request

variable {status status' : Status} {request : Request} {next : request.Answer → Plan Ending}
  {answer : request.Answer}

/-- An idle thread requests a stop, is rejected, or sets the flag and gets a claim. -/
theorem request_cases {caller : Caller} (h : caller.IsIdle builder)
    (hplan : caller.plan = .step request next)
    (hanswer : status.Answers ⟨request, answer⟩ status') :
    next answer = .done .silent ∧ request.KeepsClaim ∨
      next answer = .done (.rejected .alreadyBuilding) ∧ status' = status ∧
        claimsAfter caller.claims ⟨request, answer⟩ = caller.claims ∨
      status.isBuilding = false ∧ status' = { status with isBuilding := true } ∧
        claimsAfter caller.claims ⟨request, answer⟩ = caller.claims + 1 ∧
        Holds .ready (next answer) := by
  obtain ⟨action, haction⟩ : ∃ action : Action, caller.plan = action.plan builder := by
    rcases h with ⟨ending, hdone, -⟩ | haction
    · rw [hdone] at hplan
      cases hplan
    · exact haction
  rw [haction] at hplan
  rcases action.plan_cases builder with hstop | ⟨attempt, hacquire, htrue, hfalse⟩
  · rw [hstop] at hplan
    cases hplan
    exact .inl ⟨rfl, trivial⟩
  · rw [hacquire] at hplan
    cases hplan
    obtain ⟨hasked, rfl⟩ := hanswer.of_acquire
    cases hflag : status.isBuilding with
    | true =>
      obtain rfl : answer = false := by rw [hasked, hflag]; rfl
      exact .inr (.inl ⟨hfalse, by rw [← hflag], rfl⟩)
    | false =>
      obtain rfl : answer = true := by rw [hasked, hflag]; rfl
      exact .inr (.inr ⟨rfl, rfl, rfl, htrue⟩)

/-- An idle thread either leaves everything about claims as it is, or it sets the flag and gets a
claim. -/
theorem request_of_isIdle {caller : Caller} (h : caller.IsIdle builder)
    (hplan : caller.plan = .step request next)
    (hanswer : status.Answers ⟨request, answer⟩ status') :
    finishedWith (next answer) = [] ∧
      ((status'.isBuilding = status.isBuilding ∧ status'.state = status.state ∧
          claimsAfter caller.claims ⟨request, answer⟩ = caller.claims ∧
          ∀ claims, Caller.IsIdle builder ⟨next answer, claims⟩) ∨
        status.isBuilding = false ∧ status' = { status with isBuilding := true } ∧
          claimsAfter caller.claims ⟨request, answer⟩ = caller.claims + 1 ∧
          Holds .ready (next answer)) := by
  rcases request_cases h hplan hanswer with
    ⟨hsilent, hkeeps⟩ | ⟨hrejected, rfl, hclaims⟩ | hclaimed
  · obtain ⟨hflag, hstate⟩ := hanswer.of_keepsClaim hkeeps
    rw [hsilent]
    refine ⟨rfl, .inl ⟨hflag, hstate, claimsAfter_of_keepsClaim hkeeps _, ?_⟩⟩
    exact Caller.isIdle_done fun config heq => by cases heq
  · rw [hrejected]
    refine ⟨rfl, .inl ⟨rfl, rfl, hclaims, ?_⟩⟩
    exact Caller.isIdle_done fun config heq => by cases heq
  · exact ⟨hclaimed.2.2.2.finishedWith_eq, .inr hclaimed⟩

/-- The thread with the claim keeps it in one of its phases, or gives it up. -/
theorem request_of_holds {phase : Phase} {finished : List BuildRun}
    (h : Holds phase (.step request next)) (hanswer : status.Answers ⟨request, answer⟩ status')
    (hflag : status.isBuilding = true) (hstate : status.state = stateIn finished phase) :
    (∃ later, status'.isBuilding = true ∧
        status'.state = stateIn (finished ++ finishedWith (next answer)) later ∧
        claimsAfter 1 ⟨request, answer⟩ = 1 ∧ Holds later (next answer)) ∨
      status'.isBuilding = false ∧
        status'.state = settled (finished ++ finishedWith (next answer)) ∧
        claimsAfter 1 ⟨request, answer⟩ = 0 ∧
        ∀ claims, Caller.IsIdle builder ⟨next answer, claims⟩ := by
  cases h with
  | keeping hkeeps hnext =>
    obtain ⟨hflag', hstate'⟩ := hanswer.of_keepsClaim hkeeps
    refine .inl ⟨phase, hflag'.trans hflag, ?_, claimsAfter_of_keepsClaim hkeeps 1, hnext answer⟩
    rw [(hnext answer).finishedWith_eq, List.append_nil, hstate', hstate]
  | begun hnext =>
    obtain rfl := hanswer.of_setState
    exact .inl ⟨.running, hflag, rfl, rfl, hnext⟩
  | @concluded outcome _ hnext =>
    obtain rfl := hanswer.of_setState
    exact .inl ⟨.concluding outcome, hflag, rfl, rfl, hnext⟩
  | @dropped ending _ hnext hending =>
    obtain rfl := hanswer.of_release
    obtain rfl : answer = () := rfl
    rw [hnext]
    have hran : finishedWith (.done ending) = [] := by
      rcases hending with rfl | ⟨detail, rfl⟩ <;> rfl
    rw [hran, List.append_nil]
    refine .inr ⟨rfl, hstate, rfl, Caller.isIdle_done fun config heq => ?_⟩
    rcases hending with rfl | ⟨detail, rfl⟩ <;> cases heq
  | @released run _ hnext =>
    obtain rfl := hanswer.of_release
    obtain rfl : answer = () := rfl
    rw [hnext]
    refine .inr ⟨rfl, ?_, rfl, Caller.isIdle_done fun config heq => ?_⟩
    · rw [hstate, finishedWith, settled_append, stateIn]
    · cases heq

end Request

/-- Every step preserves the invariant. -/
theorem Step.invariant (hstep : Step builder index sharing after)
    (h : Invariant builder sharing) : Invariant builder after := by
  cases hstep with
  | enter action hfree =>
    have hidle : Caller.IsIdle builder ⟨action.plan builder, (sharing.callers index).claims⟩ :=
      .inr ⟨action, rfl⟩
    by_cases hclaim : (sharing.callers index).claims = 0
    · exact h.setBystander hclaim ⟨hclaim, hidle⟩
    · obtain ⟨phase, hflag, hstate, howner, hothers⟩ := h.exists_phase hclaim
      obtain ⟨ending, hplan, -⟩ := hfree
      exact .setOwner hflag hstate ⟨howner.claims_eq, .inl ⟨howner.phase_eq hplan, hidle⟩⟩ hothers
  | use use hfree hclaim =>
    obtain ⟨phase, hflag, hstate, howner, hothers⟩ := h.exists_phase (Nat.ne_of_gt hclaim)
    obtain ⟨ending, hplan, -⟩ := hfree
    obtain rfl := howner.phase_eq hplan
    exact .setOwner hflag hstate ⟨howner.claims_eq, .inr (builder.holds_use use)⟩ hothers
  | handOver other hne hfree hclaim =>
    have hother : (sharing.callers other).IsIdle builder := by
      obtain ⟨phase, -, -, -, hothers⟩ := h.exists_phase (Nat.ne_of_gt hclaim)
      exact (hothers other hne).idle
    obtain ⟨ending, hplan, -⟩ := id hfree
    exact h.pass hne hplan (Nat.ne_of_gt hclaim) rfl (.inl hfree) rfl (.inl hother)
  | spawn config other hne hstarting hfree =>
    have hsilent : Caller.IsIdle builder ⟨.done .silent, (sharing.callers index).claims - 1⟩ :=
      Caller.isIdle_done (fun _ heq => by cases heq) _
    exact h.pass hne hstarting (h.claims_ne_zero hstarting) rfl hsilent rfl
      (.inr (builder.holds_run config))
  | failToSpawn config reason hstarting =>
    obtain ⟨phase, hflag, hstate, howner, hothers⟩ := h.exists_phase (h.claims_ne_zero hstarting)
    obtain rfl := howner.phase_eq hstarting
    exact .setOwner hflag hstate ⟨howner.claims_eq, .inr (holds_giveUp reason)⟩ hothers
  | @request request next answer status hplan hanswer =>
    by_cases hclaim : (sharing.callers index).claims = 0
    · obtain ⟨hnone, ⟨hflag, hstate, hclaims, hidle⟩ | ⟨hclear, rfl, hclaims, hholds⟩⟩ :=
        request_of_isIdle (h.isBystander hclaim).idle hplan hanswer
      · rw [hnone, List.append_nil]
        exact (h.congr_status hflag hstate).setBystander hclaim ⟨hclaims.trans hclaim, hidle _⟩
      · rw [hnone, List.append_nil]
        rw [hclaim] at hclaims ⊢
        cases h with
        | unclaimed hflag hstate hothers =>
          have howner : IsOwner builder .ready
              ⟨next answer, claimsAfter 0 ⟨request, answer⟩⟩ := ⟨hclaims, .inr hholds⟩
          refine .setOwner rfl ?_ howner fun other _ => hothers other
          exact hstate
        | claimed owner phase hflag => exact absurd (hflag.symm.trans hclear) (by decide)
    · obtain ⟨phase, hflag, hstate, howner, hothers⟩ := h.exists_phase hclaim
      rw [howner.claims_eq]
      rcases howner.holds with ⟨rfl, hidle⟩ | hholds
      · obtain ⟨hnone, ⟨hflag', hstate', hclaims, hidle'⟩ | ⟨hclear, -, -, -⟩⟩ :=
          request_of_isIdle hidle hplan hanswer
        · rw [hnone, List.append_nil]
          rw [howner.claims_eq] at hclaims
          exact .setOwner (hflag'.trans hflag) (hstate'.trans hstate)
            ⟨hclaims, .inl ⟨rfl, hidle' _⟩⟩ hothers
        · exact absurd (hflag.symm.trans hclear) (by decide)
      · rw [hplan] at hholds
        rcases request_of_holds hholds hanswer hflag hstate with
          ⟨later, hflag', hstate', hclaims, hholds'⟩ | ⟨hflag', hstate', hclaims, hidle⟩
        · exact .setOwner hflag' hstate' ⟨hclaims, .inr hholds'⟩ hothers
        · exact .setReleased hflag' hstate' ⟨hclaims, hidle _⟩ hothers

/-- Whatever threads do with a new builder, the invariant holds. -/
theorem Reachable.invariant (h : Reachable builder sharing) : Invariant builder sharing := by
  induction h with
  | initial =>
    exact .unclaimed rfl rfl fun _ => ⟨rfl, Caller.isIdle_done (fun _ heq => by cases heq) _⟩
  | step index h hstep ih => exact hstep.invariant ih

/-! ### Consequences -/

variable (builder) in
/-- What threads that share a builder can rely on. -/
structure IsExclusive (sharing : Sharing) : Prop where
  /-- A thread has at most one claim. -/
  claims_le_one : ∀ index, (sharing.callers index).claims ≤ 1
  /-- At most one thread has a claim. -/
  owner_unique : ∀ index other, 0 < (sharing.callers index).claims →
    0 < (sharing.callers other).claims → index = other
  /-- The flag is set as long as a thread has a claim. -/
  isBuilding_iff : sharing.status.isBuilding = true ↔ ∃ index, 0 < (sharing.callers index).claims
  /-- The flag is set as long as the builder is running. -/
  isBuilding_of_running : sharing.status.state = .running → sharing.status.isBuilding = true
  /-- Without a claim the state is the one in which the last build has left the builder. -/
  state_eq : sharing.status.isBuilding = false → sharing.status.state = settled sharing.finished
  /-- A call that is rejected because of a build in progress ends with its first request, which
  changes nothing. -/
  rejected : ∀ index request next after, (sharing.callers index).plan = .step request next →
    Step builder index sharing after →
    (after.callers index).plan = .done (.rejected .alreadyBuilding) →
      after.status = sharing.status ∧ after.finished = sharing.finished ∧
        ∃ action : Action, (sharing.callers index).plan = action.plan builder

theorem settled_ne_running (finished : List BuildRun) : settled finished ≠ .running := by
  cases h : finished.getLast? with
  | none => simp [settled, h]
  | some run => rcases houtcome : run.outcome <;> simp [settled, h, houtcome, BuildOutcome.state]

/-- A call that is rejected because of a build in progress changes nothing. -/
theorem Invariant.of_rejected (h : Invariant builder sharing) {request : Request}
    {next : request.Answer → Plan Ending} (hplan : (sharing.callers index).plan = .step request next)
    (hstep : Step builder index sharing after)
    (hrejected : (after.callers index).plan = .done (.rejected .alreadyBuilding)) :
    after.status = sharing.status ∧ after.finished = sharing.finished ∧
      ∃ action : Action, (sharing.callers index).plan = action.plan builder := by
  have hbusy : ¬(sharing.callers index).IsFree := by
    rintro ⟨ending, hdone, -⟩
    rw [hplan] at hdone
    cases hdone
  cases hstep with
  | enter _ hfree | use _ hfree | handOver _ _ hfree => exact absurd hfree hbusy
  | spawn _ _ _ hstarting | failToSpawn _ _ hstarting =>
    rw [hplan] at hstarting
    cases hstarting
  | @request _ _ answer status hrequest hanswer =>
    rw [hplan] at hrequest
    cases hrequest
    rw [callers_setCaller_self] at hrejected
    change next answer = .done (.rejected .alreadyBuilding) at hrejected
    -- The owner of a claim is not rejected, unless it does something else, like any idle thread.
    have hidle : (sharing.callers index).IsIdle builder := by
      by_cases hclaim : (sharing.callers index).claims = 0
      · exact (h.isBystander hclaim).idle
      · obtain ⟨phase, -, -, howner, -⟩ := h.exists_phase hclaim
        rcases howner.holds with ⟨-, hidle⟩ | hholds
        · exact hidle
        · rw [hplan] at hholds
          exact absurd hrejected (hholds.next_ne_rejected answer)
    have haction : ∃ action : Action, (sharing.callers index).plan = action.plan builder :=
      hidle.resolve_left hbusy
    rcases request_cases hidle hplan hanswer with
      ⟨hsilent, -⟩ | ⟨-, rfl, -⟩ | ⟨-, -, -, hholds⟩
    · rw [hsilent] at hrejected
      cases hrejected
    · refine ⟨rfl, ?_, haction⟩
      rw [finished_setCaller, hrejected]
      exact List.append_nil _
    · rw [hrejected] at hholds
      cases hholds

/-- What threads that share a builder can rely on, whatever they do. -/
theorem Reachable.isExclusive (h : Reachable builder sharing) : IsExclusive builder sharing where
  claims_le_one index := by
    by_cases hclaim : (sharing.callers index).claims = 0
    · omega
    · obtain ⟨phase, -, -, howner, -⟩ := h.invariant.exists_phase hclaim
      exact Nat.le_of_eq howner.claims_eq
  owner_unique index other hindex hother := by
    by_contra hne
    obtain ⟨phase, -, -, -, hothers⟩ := h.invariant.exists_phase (Nat.ne_of_gt hindex)
    exact Nat.ne_of_gt hother (hothers other (Ne.symm hne)).claims_eq
  isBuilding_iff := by
    constructor
    · intro hflag
      cases h.invariant with
      | unclaimed hclear => exact absurd (hflag.symm.trans hclear) (by decide)
      | claimed owner phase _ _ howner _ => exact ⟨owner, by rw [howner.claims_eq]; decide⟩
    · rintro ⟨index, hclaim⟩
      obtain ⟨phase, hflag, -, -, -⟩ := h.invariant.exists_phase (Nat.ne_of_gt hclaim)
      exact hflag
  isBuilding_of_running hrunning := by
    cases h.invariant with
    | unclaimed hclear hstate hothers =>
      exact absurd (hstate.symm.trans hrunning) (settled_ne_running _)
    | claimed owner phase hflag => exact hflag
  state_eq hclear := by
    cases h.invariant with
    | unclaimed _ hstate _ => exact hstate
    | claimed owner phase hflag => exact absurd (hflag.symm.trans hclear) (by decide)
  rejected index request next after hplan hstep hrejected :=
    h.invariant.of_rejected hplan hstep hrejected

/-- While one thread has a claim, another one that is to build is rejected. -/
theorem exists_isExclusive : ∃ sharing : Sharing,
    Reachable sampleBuilder sharing ∧ (sharing.callers 0).claims = 1 ∧
      (sharing.callers 1).plan = .done (.rejected .alreadyBuilding) ∧
      IsExclusive sampleBuilder sharing := by
  have hfree (claims : Nat) : Caller.IsFree ⟨.done .silent, claims⟩ :=
    ⟨.silent, rfl, fun _ heq => by cases heq⟩
  have hinitial : Reachable sampleBuilder {} := .initial
  have hclaiming := hinitial.step 0 (.enter .claim (hfree 0))
  have hacquired := hclaiming.step 0 (.request rfl .acquire)
  have hclaimed := hacquired.step 0 (.request rfl .clearStop)
  have hbuilding := hclaimed.step 1 (.enter (.build sampleConfig) (hfree 0))
  have hrejected := hbuilding.step 1 (.request rfl .acquire)
  exact ⟨_, hrejected, rfl, rfl, hrejected.isExclusive⟩

end Sharing

end Builder

end SketchApk
