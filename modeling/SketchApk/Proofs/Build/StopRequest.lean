import SketchApk.Proofs.Build.Exclusion

/-!
# Requests to stop a shared builder

While one thread runs a build, another one may ask it to stop. Nobody takes the request back as long
as the build is in progress, since that is only done by a thread that claims the builder. So the
build is told about the request each time that it looks, and it is stopped if it looks once more.

A claim consists of two steps, however: first the flag that a build is in progress is set, and then
a request to stop that was made before is forgotten. A request that is made between these steps is
forgotten as well, although whoever has made it may have seen that a build is in progress.

## Main definitions

* `Builder.ClearsFirst` : what is left of a call that forgets requests at its beginning at most.
* `Builder.Sharing.IsPending` : a request to stop that nobody is about to forget.
* `Builder.Sharing.Along` : what one thread exchanges while others take steps.

## Main statements

* `Builder.Sharing.Step.isPending` : a request stays pending while a build is in progress.
* `Builder.Sharing.Along.answers` : a build learns about a pending request whenever it looks.
* `Builder.Sharing.Reachable.outcome_eq_stopped` : a build that looks once more is stopped.
-/

namespace SketchApk

open Plan Request

namespace Request

/-- The request does not make the builder forget a request to stop. -/
def Remembers : Request → Prop
  | clearStop => False
  | _ => True

theorem KeepsStop.remembers {request : Request} (h : request.KeepsStop) : request.Remembers := by
  cases request <;> trivial

end Request

theorem Exchange.eq_check {entry : Exchange} {asked : Bool} (h : asked ∈ entry.check?) :
    entry = .check asked := by
  obtain ⟨request, answer⟩ := entry
  cases request with
  | isStopRequested => exact congrArg Exchange.check (Option.some.inj h)
  | _ => cases h

namespace Builder

variable {builder : Builder} {config : BuildConfig}

/-! ### Calls that forget requests -/

/-- What is left of a call that forgets requests to stop behind the setting of the flag, and never
again. -/
inductive ClearsFirst : Plan Ending → Prop
  | acquiring {next : Bool → Plan Ending} (hfalse : (next false).Only Remembers)
      (htrue : ClearsFirst (next true)) : ClearsFirst (.step .acquire next)
  | clearing {next : Unit → Plan Ending} (hnext : (next ()).Only Remembers) :
      ClearsFirst (.step .clearStop next)
  | remembering {plan : Plan Ending} (h : plan.Only Remembers) : ClearsFirst plan

theorem remembers_run (config : BuildConfig) : ((Use.run config).plan builder).Only Remembers :=
  (only_runClaimed.mono fun _ => KeepsStop.remembers).bind fun _ => Only.done _

theorem remembers_use (use : Use) : (use.plan builder).Only Remembers := by
  cases use with
  | run config => exact remembers_run config
  | drop => exact (Only.ask trivial).bind fun _ => Only.done _

theorem remembers_giveUp (reason : String) : (giveUp reason).Only Remembers :=
  (Only.ask trivial).bind fun _ => Only.done _

theorem clearsFirst_action (action : Action) : ClearsFirst (action.plan builder) := by
  cases action with
  | build config =>
    refine .acquiring (Only.done _) (.clearing ?_)
    simp only [bind_eq, bind_assoc, pure_eq_done, done_bind]
    exact remembers_run config
  | start config => exact .acquiring (Only.done _) (.clearing (Only.done _))
  | claim => exact .acquiring (Only.done _) (.clearing (Only.done _))
  | stop => exact .remembering ((Only.ask trivial).bind fun _ => Only.done _)

theorem ClearsFirst.next {request : Request} {next : request.Answer → Plan Ending}
    (h : ClearsFirst (.step request next)) (answer : request.Answer) : ClearsFirst (next answer) := by
  cases h with
  | acquiring hfalse htrue =>
    cases answer with
    | false => exact .remembering hfalse
    | true => exact htrue
  | clearing hnext => exact .remembering hnext
  | remembering h =>
    cases h with
    | step hrequest hnext => exact .remembering (hnext answer)

/-- The thread is about to forget requests to stop. -/
def Caller.IsClearing (caller : Caller) : Prop :=
  ∃ next, caller.plan = .step .clearStop next

theorem Caller.not_isClearing {caller : Caller} (h : caller.plan.Only Remembers) :
    ¬caller.IsClearing := by
  rintro ⟨next, hplan⟩
  rw [hplan] at h
  cases h with
  | step hrequest => cases hrequest

theorem Caller.not_isClearing_action (action : Action) (claims : Nat) :
    ¬Caller.IsClearing ⟨action.plan builder, claims⟩ := by
  rintro ⟨next, hplan⟩
  rcases action.plan_cases builder with haction | ⟨_, haction, -, -⟩
  all_goals
    rw [haction] at hplan
    cases hplan

/-- While a build is in progress, no thread comes to forget requests. -/
theorem ClearsFirst.not_isClearing_next {request : Request} {next : request.Answer → Plan Ending}
    {answer : request.Answer} {status status' : Status} (h : ClearsFirst (.step request next))
    (hanswer : status.Answers ⟨request, answer⟩ status') (hbuilding : status.isBuilding = true)
    (hrequest : request ≠ .clearStop) (claims : Nat) : ¬Caller.IsClearing ⟨next answer, claims⟩ := by
  cases h with
  | acquiring hfalse htrue =>
    obtain ⟨hasked, -⟩ := hanswer.of_acquire
    obtain rfl : answer = false := by rw [hasked, hbuilding]; rfl
    exact Caller.not_isClearing hfalse
  | clearing => exact absurd rfl hrequest
  | remembering h =>
    cases h with
    | step hkind hnext => exact Caller.not_isClearing (hnext answer)

theorem Status.Answers.isStopRequested_eq_true {status after : Status} {entry : Exchange}
    (h : status.Answers entry after) (hstop : status.isStopRequested = true)
    (hrequest : entry.request ≠ .clearStop) : after.isStopRequested = true := by
  cases h with
  | clearStop => exact absurd rfl hrequest
  | call | deliver => simp [hstop]
  | requestStop => rfl
  | _ => exact hstop

theorem Status.Answers.of_check {status after : Status} {asked : Bool}
    (h : status.Answers (.check asked) after) : asked = status.isStopRequested := by
  generalize hcheck : Exchange.check asked = entry at h
  cases h with
  | isStopRequested => simpa [Exchange.check] using hcheck
  | foreign _ hforeign =>
    obtain rfl := congrArg Exchange.request hcheck
    cases hforeign
  | _ => simp [Exchange.check] at hcheck

namespace Sharing

variable {sharing after last : Sharing} {index owner : Nat}

/-- The calls of all threads forget requests at their beginning at most. -/
theorem Step.clearsFirst (hstep : Step builder index sharing after)
    (h : ∀ other, ClearsFirst (sharing.callers other).plan) (other : Nat) :
    ClearsFirst (after.callers other).plan := by
  have hset (before : Sharing) {index : Nat} {caller : Caller} (hplan : ClearsFirst caller.plan)
      (hbefore : ∀ other, ClearsFirst (before.callers other).plan) (other : Nat) :
      ClearsFirst ((before.setCaller index caller).callers other).plan := by
    by_cases hindex : other = index
    · subst hindex
      rwa [callers_setCaller_self]
    · rw [callers_setCaller_of_ne hindex]
      exact hbefore other
  cases hstep with
  | enter action => exact hset _ (clearsFirst_action action) h other
  | use use => exact hset _ (.remembering (remembers_use use)) h other
  | handOver receiver =>
    refine hset _ ?_ (hset _ ?_ h) other
    · exact h receiver
    · exact h index
  | spawn config receiver =>
    exact hset _ (.remembering (remembers_run config)) (hset _ (.remembering (Only.done _)) h) other
  | failToSpawn config reason => exact hset _ (.remembering (remembers_giveUp reason)) h other
  | request hplan =>
    have hindex := h index
    rw [hplan] at hindex
    exact hset { sharing with .. } (hindex.next _) h other

theorem Reachable.clearsFirst (h : Reachable builder sharing) (other : Nat) :
    ClearsFirst (sharing.callers other).plan := by
  induction h generalizing other with
  | initial => exact .remembering (Only.done _)
  | step index h hstep ih => exact hstep.clearsFirst ih other

/-! ### Requests that are not forgotten -/

/-- A stop is requested, and no thread is about to forget that. -/
structure IsPending (sharing : Sharing) : Prop where
  isStopRequested : sharing.status.isStopRequested = true
  not_isClearing : ∀ other, ¬(sharing.callers other).IsClearing

theorem IsPending.setCaller {caller : Caller} (h : sharing.IsPending) (hcaller : ¬caller.IsClearing) :
    (sharing.setCaller index caller).IsPending where
  isStopRequested := h.isStopRequested
  not_isClearing other := by
    by_cases hindex : other = index
    · subst hindex
      rwa [callers_setCaller_self]
    · rw [callers_setCaller_of_ne hindex]
      exact h.not_isClearing other

/-- A request stays pending as long as a build is in progress. -/
theorem Step.isPending (hstep : Step builder index sharing after) (h : Reachable builder sharing)
    (hbuilding : sharing.status.isBuilding = true) (hpending : sharing.IsPending) :
    after.IsPending := by
  cases hstep with
  | enter action => exact hpending.setCaller (Caller.not_isClearing_action action _)
  | use use => exact hpending.setCaller (Caller.not_isClearing (remembers_use use))
  | handOver other =>
    refine (hpending.setCaller ?_).setCaller ?_
    · exact hpending.not_isClearing index
    · exact hpending.not_isClearing other
  | spawn config other =>
    exact (hpending.setCaller (Caller.not_isClearing (Only.done _))).setCaller
      (Caller.not_isClearing (remembers_run config))
  | failToSpawn config reason =>
    exact hpending.setCaller (Caller.not_isClearing (remembers_giveUp reason))
  | @request request next answer status hplan hanswer =>
    have hclears := h.clearsFirst index
    rw [hplan] at hclears
    have hrequest : request ≠ .clearStop := by
      rintro rfl
      exact hpending.not_isClearing index ⟨next, hplan⟩
    have hkept : IsPending { sharing with
        status
        finished := sharing.finished ++ finishedWith (next answer) } :=
      ⟨hanswer.isStopRequested_eq_true hpending.isStopRequested hrequest, hpending.not_isClearing⟩
    exact hkept.setCaller (hclears.not_isClearing_next hanswer hbuilding hrequest _)

/-! ### One thread among others -/

/-- The threads after a request of one of them has been answered. -/
def advance (sharing : Sharing) (index : Nat) (entry : Exchange) (plan : Plan Ending)
    (status : Status) : Sharing :=
  { sharing with
      status
      finished := sharing.finished ++ finishedWith plan }.setCaller index
    ⟨plan, claimsAfter (sharing.callers index).claims entry⟩

@[simp] theorem callers_advance_self (sharing : Sharing) (index : Nat) (entry : Exchange)
    (plan : Plan Ending) (status : Status) : (sharing.advance index entry plan status).callers index =
      ⟨plan, claimsAfter (sharing.callers index).claims entry⟩ :=
  callers_setCaller_self _ _ _

variable (builder owner) in
/-- What one thread exchanges while it goes on with its call. Between its requests other threads
take any steps, but do not give it another call. -/
inductive Along : Sharing → History → Sharing → Prop
  | nil (sharing : Sharing) : Along sharing [] sharing
  | other {sharing middle last : Sharing} {history : History} (index : Nat) (hne : index ≠ owner)
      (hstep : Step builder index sharing middle)
      (hplan : (middle.callers owner).plan = (sharing.callers owner).plan)
      (hrest : Along middle history last) : Along sharing history last
  | own {sharing last : Sharing} {history : History} {request : Request}
      {next : request.Answer → Plan Ending} {answer : request.Answer} {status : Status}
      (hplan : (sharing.callers owner).plan = .step request next)
      (hanswer : sharing.status.Answers ⟨request, answer⟩ status)
      (hrest : Along (sharing.advance owner ⟨request, answer⟩ (next answer) status) history last) :
      Along sharing (⟨request, answer⟩ :: history) last

/-- A request of a thread leaves all other threads as they are. -/
theorem Step.callers_eq (hstep : Step builder index sharing after) {request : Request}
    {next : request.Answer → Plan Ending} (hplan : (sharing.callers index).plan = .step request next)
    (hne : index ≠ owner) : after.callers owner = sharing.callers owner := by
  cases hstep with
  | enter _ hfree | use _ hfree | handOver _ _ hfree =>
    obtain ⟨ending, hdone, -⟩ := hfree
    cases hplan.symm.trans hdone
  | spawn _ _ _ hstarting | failToSpawn _ _ hstarting => cases hplan.symm.trans hstarting
  | request => exact callers_setCaller_of_ne (Ne.symm hne) { sharing with .. } _

/-- A step of another thread does not take a claim away. -/
theorem Step.claims_le (hstep : Step builder index sharing after) (hne : index ≠ owner) :
    (sharing.callers owner).claims ≤ (after.callers owner).claims := by
  have hset (before : Sharing) (caller : Caller) :
      ((before.setCaller index caller).callers owner) = before.callers owner :=
    callers_setCaller_of_ne (Ne.symm hne) before caller
  have hgiven (other : Nat) (caller giver : Caller)
      (hcaller : caller.claims = (sharing.callers other).claims + 1) :
      (sharing.callers owner).claims ≤
        (((sharing.setCaller index giver).setCaller other caller).callers owner).claims := by
    by_cases hother : owner = other
    · subst hother
      refine Nat.le_trans (Nat.le_add_right _ 1) (Nat.le_of_eq ?_)
      rw [callers_setCaller_self, hcaller]
    · refine Nat.le_of_eq ?_
      rw [callers_setCaller_of_ne hother, hset]
  cases hstep with
  | handOver other => exact hgiven other _ _ rfl
  | spawn config other => exact hgiven other _ _ rfl
  | enter | use | failToSpawn => exact Nat.le_of_eq (congrArg Caller.claims (hset _ _).symm)
  | request => exact Nat.le_of_eq (congrArg Caller.claims (hset { sharing with .. } _).symm)

namespace Along

variable {history : History} {ending : Ending}

theorem reachable (h : Along builder owner sharing history last) (hstart : Reachable builder sharing) :
    Reachable builder last := by
  induction h with
  | nil => exact hstart
  | other index hne hstep hplan hrest ih => exact ih (hstart.step index hstep)
  | own hplan hanswer hrest ih => exact ih (hstart.step owner (.request hplan hanswer))

theorem append {middle : Sharing} {rest : History} (h : Along builder owner sharing history middle)
    (hrest : Along builder owner middle rest last) :
    Along builder owner sharing (history ++ rest) last := by
  induction h with
  | nil => exact hrest
  | other index hne hstep hplan _ ih => exact .other index hne hstep hplan (ih hrest)
  | own hplan hanswer _ ih => exact .own hplan hanswer (ih hrest)

/-- A thread that has ended its call has left a history of the call. -/
theorem ends (h : Along builder owner sharing history last)
    (hlast : (last.callers owner).plan = .done ending) :
    (sharing.callers owner).plan.Ends history ending := by
  induction h with
  | nil => rw [hlast]; exact ⟨rfl, rfl⟩
  | other index hne hstep hplan hrest ih => exact hplan ▸ ih hlast
  | own hplan hanswer hrest ih =>
    rw [hplan]
    refine ⟨_, _, rfl, ?_⟩
    simpa using ih hlast

/-- A thread that has ended its call makes no requests. -/
theorem eq_nil (h : Along builder owner sharing history last)
    (hdone : (sharing.callers owner).plan = .done ending) : history = [] := by
  induction h with
  | nil => rfl
  | other index hne hstep hplan hrest ih => exact ih (hplan.trans hdone)
  | own hplan => cases hplan.symm.trans hdone

end Along

/-- A thread with the claim keeps it, or has ended its call. -/
theorem Invariant.claims_or_done {request : Request} {next : request.Answer → Plan Ending}
    {answer : request.Answer} {status : Status} (h : Invariant builder sharing)
    (hclaim : (sharing.callers owner).claims ≠ 0)
    (hplan : (sharing.callers owner).plan = .step request next)
    (hanswer : sharing.status.Answers ⟨request, answer⟩ status) :
    (⟨request, answer⟩ : Exchange) ≠ ⟨.acquire, true⟩ ∧
      (claimsAfter (sharing.callers owner).claims ⟨request, answer⟩ ≠ 0 ∨
        ∃ ending, next answer = .done ending) := by
  obtain ⟨phase, hbuilding, -, howner, -⟩ := h.exists_phase hclaim
  constructor
  · intro hacquire
    rw [hacquire] at hanswer
    have hasked := hanswer.of_acquire.1
    rw [hbuilding] at hasked
    cases hasked
  · rcases howner.holds with ⟨-, hidle⟩ | hholds
    · rcases request_cases hidle hplan hanswer with ⟨hsilent, -⟩ | ⟨hrejected, -⟩ | ⟨hclear, -⟩
      · exact .inr ⟨_, hsilent⟩
      · exact .inr ⟨_, hrejected⟩
      · exact absurd (hbuilding.symm.trans hclear) (by decide)
    · rw [hplan] at hholds
      cases hholds with
      | keeping hkeeps => exact .inl (by rwa [claimsAfter_of_keepsClaim hkeeps])
      | begun | concluded => exact .inl hclaim
      | dropped hnext | released hnext => exact .inr ⟨_, hnext⟩

/-- While a request to stop is pending, the thread with the claim is told so whenever it looks. It
neither gets the claim again nor forgets the request. -/
theorem Along.answers {history : History} (h : Along builder owner sharing history last)
    (hreachable : Reachable builder sharing) (hpending : sharing.IsPending)
    (hclaim : (sharing.callers owner).claims ≠ 0) :
    ∀ entry ∈ history, entry ≠ ⟨.acquire, true⟩ ∧ entry ≠ ⟨.clearStop, ()⟩ ∧
      ∀ asked ∈ entry.check?, asked = true := by
  induction h with
  | nil => exact fun _ hmem => absurd hmem List.not_mem_nil
  | other index hne hstep hplan hrest ih =>
    obtain ⟨phase, hbuilding, -⟩ := hreachable.invariant.exists_phase hclaim
    refine ih (hreachable.step index hstep) (hstep.isPending hreachable hbuilding hpending) ?_
    exact Nat.ne_of_gt (Nat.lt_of_lt_of_le (Nat.pos_of_ne_zero hclaim) (hstep.claims_le hne))
  | @own sharing last history request next answer status hplan hanswer hrest ih =>
    obtain ⟨phase, hbuilding, -⟩ := hreachable.invariant.exists_phase hclaim
    have hstep : Step builder owner sharing _ := .request hplan hanswer
    obtain ⟨hacquire, hkept⟩ := hreachable.invariant.claims_or_done hclaim hplan hanswer
    refine List.forall_mem_cons.mpr ⟨⟨hacquire, fun hclear => ?_, fun asked hasked => ?_⟩, ?_⟩
    · obtain rfl := congrArg Exchange.request hclear
      exact hpending.not_isClearing owner ⟨next, hplan⟩
    · have hcheck := Exchange.eq_check hasked
      rw [hcheck] at hanswer
      exact hanswer.of_check.trans hpending.isStopRequested
    · rcases hkept with hclaims | ⟨ending, hdone⟩
      · exact ih (hreachable.step owner hstep) (hstep.isPending hreachable hbuilding hpending)
          (by simpa using hclaims)
      · rw [hrest.eq_nil ((congrArg Caller.plan (callers_advance_self ..)).trans hdone)]
        exact fun _ hmem => absurd hmem List.not_mem_nil

/-! ### A thread alone -/

variable {history : History} {run : BuildRun}

/-- The exchange is possible for a thread alone with the claim, while a stop is requested or not. -/
def isUndisturbed (stop : Bool) : Exchange → Bool
  | ⟨.isStopRequested, answer⟩ => answer == stop
  | ⟨.acquire, _⟩ | ⟨.isBuilding, _⟩ | ⟨.state, _⟩ | ⟨.requestStop, _⟩ | ⟨.clearStop, _⟩ => false
  | _ => true

theorem exists_answers {stop : Bool} {status : Status} {entry : Exchange}
    (h : isUndisturbed stop entry = true) (hstop : status.isStopRequested = stop) :
    ∃ after, status.Answers entry after ∧ after.isStopRequested = stop := by
  obtain ⟨request, answer⟩ := entry
  cases request with
  | call invocation => exact ⟨_, .call invocation answer false, by simpa using hstop⟩
  | deliver listener event => exact ⟨_, .deliver listener event false, by simpa using hstop⟩
  | release => exact ⟨_, .release, hstop⟩
  | setState state => exact ⟨_, .setState state, hstop⟩
  | isStopRequested =>
    obtain rfl : answer = status.isStopRequested := (beq_iff_eq.mp h).trans hstop.symm
    exact ⟨_, .isStopRequested, hstop⟩
  | acquire | isBuilding | state | requestStop | clearStop => cases h
  | file | print | complain | clock | calendar | processId => exact ⟨_, .foreign _ trivial, hstop⟩

/-- A thread can go on alone. -/
theorem exists_along (builder : Builder) (sharing : Sharing) (owner : Nat) (stop : Bool)
    {ending : Ending} (hends : (sharing.callers owner).plan.Ends history ending)
    (hanswers : ∀ entry ∈ history, isUndisturbed stop entry = true)
    (hstop : sharing.status.isStopRequested = stop) :
    ∃ last, Along builder owner sharing history last ∧ (last.callers owner).plan = .done ending := by
  induction history generalizing sharing with
  | nil =>
    refine ⟨sharing, .nil sharing, ?_⟩
    cases hplan : (sharing.callers owner).plan with
    | done value => rw [hplan] at hends; rw [hends.2]
    | step request next =>
      rw [hplan] at hends
      obtain ⟨answer, rest, hnone, -⟩ := hends
      cases hnone
  | cons entry rest ih =>
    obtain ⟨hentry, hrest⟩ := List.forall_mem_cons.mp hanswers
    cases hplan : (sharing.callers owner).plan with
    | done value => rw [hplan] at hends; cases hends.1
    | step request next =>
      rw [hplan] at hends
      obtain ⟨answer, later, hhistory, hlater⟩ := hends
      obtain ⟨rfl, rfl⟩ := List.cons.inj hhistory
      obtain ⟨status, hstatus, hkept⟩ := exists_answers hentry hstop
      obtain ⟨last, halong, hlast⟩ := ih (sharing.advance owner ⟨request, answer⟩ (next answer) status)
        (by simpa using hlater) hrest hkept
      exact ⟨last, .own hplan hstatus halong, hlast⟩

/-! ### Builds that are asked to stop -/

theorem ends_use_run (h : ((Use.run config).plan builder).Ends history (.ran run)) :
    (builder.runClaimed config).Ends history run := by
  obtain ⟨first, other, second, rfl, hfirst, rfl, hending⟩ := ends_bind.mp h
  rw [List.append_nil, Ending.ran.inj hending]
  exact hfirst

/-- A call that has run a build has claimed the builder before. -/
theorem exists_of_ends_build (h : ((Action.build config).plan builder).Ends history (.ran run)) :
    ∃ rest, history = ⟨.acquire, true⟩ :: ⟨.clearStop, ()⟩ :: rest ∧
      (builder.runClaimed config).Ends rest run := by
  obtain ⟨acquired, later, rfl, hlater⟩ := h
  cases acquired with
  | false => cases hlater.2
  | true =>
    obtain ⟨⟨⟩, rest, rfl, hrest⟩ := hlater
    simp only [bind_eq, bind_assoc, pure_eq_done, done_bind] at hrest
    exact ⟨rest, rfl, ends_use_run hrest⟩

/-- If the thread with the claim is not about to forget requests, no thread is. -/
theorem Invariant.not_isClearing (h : Invariant builder sharing)
    (hclaim : (sharing.callers owner).claims ≠ 0) (hcleared : ¬(sharing.callers owner).IsClearing)
    (other : Nat) : ¬(sharing.callers other).IsClearing := by
  by_cases hother : other = owner
  · rwa [hother]
  · obtain ⟨phase, -, -, -, hothers⟩ := h.exists_phase hclaim
    rintro ⟨next, hplan⟩
    rcases (hothers other hother).idle with ⟨ending, hdone, -⟩ | ⟨action, haction⟩
    · cases hplan.symm.trans hdone
    · exact Caller.not_isClearing_action action (sharing.callers other).claims
        ⟨next, haction.symm.trans hplan⟩

/-- A thread makes a request to stop, which no thread is about to forget. -/
theorem Step.isPending_of_requestStop (hstep : Step builder index sharing after)
    (h : Reachable builder sharing) {next : Unit → Plan Ending}
    (hplan : (sharing.callers index).plan = .step .requestStop next)
    (hcleared : ∀ other, ¬(sharing.callers other).IsClearing) : after.IsPending := by
  have hclears := h.clearsFirst index
  rw [hplan] at hclears
  cases hstep with
  | enter _ hfree | use _ hfree | handOver _ _ hfree =>
    obtain ⟨ending, hdone, -⟩ := hfree
    cases hplan.symm.trans hdone
  | spawn _ _ _ hstarting | failToSpawn _ _ hstarting => cases hplan.symm.trans hstarting
  | @request _ _ answer status hrequest hanswer =>
    cases hplan.symm.trans hrequest
    have hstop : status.isStopRequested = true := by
      cases hanswer with
      | requestStop => rfl
      | foreign _ hforeign => cases hforeign
    have hkept : IsPending { sharing with
        status
        finished := sharing.finished ++ finishedWith (next answer) } := ⟨hstop, hcleared⟩
    refine hkept.setCaller (Caller.not_isClearing ?_)
    cases hclears with
    | remembering h =>
      cases h with
      | step hkind hnext => exact hnext answer

/-- Two threads, of which one is about to build and the other is about to request a stop. -/
def contending : Sharing :=
  (({} : Sharing).setCaller 0 ⟨(Action.build sampleConfig).plan sampleBuilder, 0⟩).setCaller 1
    ⟨Action.stop.plan sampleBuilder, 0⟩

theorem reachable_contending : Reachable sampleBuilder contending := by
  have hfree : Caller.IsFree ⟨.done .silent, 0⟩ := ⟨.silent, rfl, fun _ heq => by cases heq⟩
  have hbuilding : Reachable sampleBuilder _ :=
    Reachable.initial.step 0 (.enter (.build sampleConfig) hfree)
  exact hbuilding.step 1 (.enter .stop hfree)

/-- What a build exchanges while a stop is requested or not. -/
def undisturbed (stop : Bool) : History :=
  (sampleBuilder.runClaimed sampleConfig).history (idleWorld.answer stop) sampleFiles

/-- How such a build ends. -/
def undisturbedRun (stop : Bool) : BuildRun :=
  ((sampleBuilder.runClaimed sampleConfig).run (idleWorld.answer stop) sampleFiles).1

theorem ends_undisturbed (stop : Bool) :
    ((Use.run sampleConfig).plan sampleBuilder).Ends (undisturbed stop) (.ran (undisturbedRun stop)) :=
  ends_bind.mpr ⟨_, _, [], (List.append_nil _).symm, ends_run _ _ _, rfl, rfl⟩

/-- What the first thread has left behind its claim. -/
def claimedUse : Plan Ending := do
  match ← (do return .ok (← sampleBuilder.runClaimed sampleConfig) :
    Plan (Except BuildError BuildRun)) with
  | .ok run => return .ran run
  | .error error => return .rejected error

/-- The first thread sets the flag that a build is in progress, and has its claim and its build
left. -/
theorem exists_acquired : ∃ (acquired : Sharing) (rest : Plan Ending),
    Along sampleBuilder 0 contending [⟨.acquire, true⟩] acquired ∧
      acquired.callers 0 = ⟨.step .clearStop fun _ => rest, 1⟩ ∧
      rest.Only Remembers ∧ (∀ stop, rest.Ends (undisturbed stop) (.ran (undisturbedRun stop))) ∧
      acquired.callers 1 = contending.callers 1 ∧ acquired.status = { isBuilding := true } := by
  have hrest : claimedUse = (Use.run sampleConfig).plan sampleBuilder := by
    simp only [claimedUse, bind_eq, bind_assoc, pure_eq_done, done_bind]
    rfl
  refine ⟨_, claimedUse, .own rfl .acquire (.nil _), rfl, ?_, ?_, rfl, rfl⟩
  · rw [hrest]
    exact remembers_run sampleConfig
  · rw [hrest]
    exact ends_undisturbed

/-- The first thread ends its claim, and has its build left. -/
theorem exists_claimed : ∃ (claimed : Sharing) (rest : Plan Ending),
    Along sampleBuilder 0 contending [⟨.acquire, true⟩, ⟨.clearStop, ()⟩] claimed ∧
      claimed.callers 0 = ⟨rest, 1⟩ ∧ rest.Only Remembers ∧
      (∀ stop, rest.Ends (undisturbed stop) (.ran (undisturbedRun stop))) ∧
      claimed.callers 1 = contending.callers 1 := by
  obtain ⟨acquired, rest, hacquired, howner, hrest, hends, hother, -⟩ := exists_acquired
  have hplan : (acquired.callers 0).plan = .step .clearStop fun _ => rest := by rw [howner]
  have hclaimed : Along sampleBuilder 0 acquired [⟨.clearStop, ()⟩] _ :=
    .own hplan .clearStop (.nil _)
  refine ⟨_, rest, hacquired.append hclaimed, ?_, hrest, hends, ?_⟩
  · rw [callers_advance_self, howner]
    rfl
  · exact (callers_setCaller_of_ne (by decide) { acquired with .. } _).trans hother

/-- The second thread requests a stop. -/
theorem exists_requested (h : sharing.callers 1 = contending.callers 1) :
    ∃ asked, Step sampleBuilder 1 sharing asked ∧ asked.callers 0 = sharing.callers 0 ∧
      asked.status = { sharing.status with isStopRequested := true } := by
  have hplan : (sharing.callers 1).plan = .step .requestStop fun _ => .done .silent :=
    (congrArg Caller.plan h).trans rfl
  have hstep : Step sampleBuilder 1 sharing _ := .request hplan .requestStop
  exact ⟨_, hstep, hstep.callers_eq hplan (by decide), rfl⟩

/-- A build that looks whether a stop is requested once more, behind a request that another thread
makes while the build is in progress, is stopped. The request must not be made while the claim of
the build is about to forget the requests before it. -/
theorem Reachable.outcome_eq_stopped {start middle asked last : Sharing} {before after : History}
    {next : Unit → Plan Ending} (h : Reachable builder start)
    (hstart : (start.callers owner).plan = (Action.build config).plan builder ∨
      (start.callers owner).plan = (Use.run config).plan builder)
    (hbefore : Along builder owner start before middle) (hclaim : (middle.callers owner).claims ≠ 0)
    (hcleared : ¬(middle.callers owner).IsClearing) (hne : index ≠ owner)
    (hplan : (middle.callers index).plan = .step .requestStop next)
    (hstop : Step builder index middle asked) (hafter : Along builder owner asked after last)
    (hlast : (last.callers owner).plan = .done (.ran run)) (hchecks : after.checks ≠ []) :
    run.outcome = .stopped := by
  have hmiddle := hbefore.reachable h
  have hpending := hstop.isPending_of_requestStop hmiddle hplan
    (hmiddle.invariant.not_isClearing hclaim hcleared)
  have hclaims : (asked.callers owner).claims ≠ 0 :=
    Nat.ne_of_gt (Nat.lt_of_lt_of_le (Nat.pos_of_ne_zero hclaim) (hstop.claims_le hne))
  have hanswers := hafter.answers (hmiddle.step index hstop) hpending hclaims
  have hraised (answer : Bool) (hanswer : answer ∈ after.checks) : answer = true := by
    obtain ⟨entry, hmem, hentry⟩ := List.mem_filterMap.mp hanswer
    exact (hanswers entry hmem).2.2 answer hentry
  have hkept : (asked.callers owner).plan = (middle.callers owner).plan :=
    congrArg Caller.plan (hstop.callers_eq hplan hne)
  have hends : (start.callers owner).plan.Ends (before ++ after) (.ran run) :=
    (hbefore.append (.other index hne hstop hkept hafter)).ends hlast
  rcases hstart with hbuild | hrun
  · rw [hbuild] at hends
    obtain ⟨rest, hhistory, hrest⟩ := exists_of_ends_build hends
    -- The flag has been set and requests have been forgotten before the request is made.
    match before, hhistory with
    | [], hhistory =>
      rw [List.nil_append] at hhistory
      exact absurd rfl (hanswers ⟨.acquire, true⟩ (by simp [hhistory])).1
    | [_], hhistory =>
      rw [List.singleton_append, List.cons.injEq] at hhistory
      exact absurd rfl (hanswers ⟨.clearStop, ()⟩ (by simp [hhistory.2])).2.1
    | _ :: _ :: before, hhistory =>
      simp only [List.cons_append, List.cons.injEq] at hhistory
      rw [← hhistory.2.2] at hrest
      exact ((builder.claimed_of_ends hrest).of_raised hraised hchecks).1
  · rw [hrun] at hends
    exact ((builder.claimed_of_ends (ends_use_run hends)).of_raised hraised hchecks).1

/-- A build is stopped that is asked to stop right behind its claim. -/
theorem exists_outcome_eq_stopped : ∃ (middle asked last : Sharing) (before after : History)
    (next : Unit → Plan Ending) (run : BuildRun),
    Along sampleBuilder 0 contending before middle ∧ (middle.callers 0).claims ≠ 0 ∧
      ¬(middle.callers 0).IsClearing ∧ (middle.callers 1).plan = .step .requestStop next ∧
      Step sampleBuilder 1 middle asked ∧ Along sampleBuilder 0 asked after last ∧
      (last.callers 0).plan = .done (.ran run) ∧ after.checks ≠ [] ∧ run.outcome = .stopped := by
  obtain ⟨claimed, rest, hclaimed, howner, hrest, hends, hother⟩ := exists_claimed
  obtain ⟨asked, hstop, hkept, hasked⟩ := exists_requested hother
  obtain ⟨last, hafter, hlast⟩ := exists_along sampleBuilder asked 0 true
    (by rw [hkept, howner]; exact hends true) (by decide +kernel) (by rw [hasked])
  have hclaims : (claimed.callers 0).claims ≠ 0 := by
    rw [howner]
    exact Nat.one_ne_zero
  have hcleared : ¬(claimed.callers 0).IsClearing := by
    rw [howner]
    exact Caller.not_isClearing hrest
  have hasking : (claimed.callers 1).plan = .step .requestStop fun _ => .done .silent :=
    (congrArg Caller.plan hother).trans rfl
  have hchecks : (undisturbed true).checks ≠ [] := by decide +kernel
  exact ⟨claimed, asked, last, _, _, _, _, hclaimed, hclaims, hcleared, hasking, hstop, hafter,
    hlast, hchecks, reachable_contending.outcome_eq_stopped (.inl rfl) hclaimed hclaims hcleared
      (by decide) hasking hstop hafter hlast hchecks⟩

/-- A request is lost that is made between the two steps of a claim, when a build is already in
progress. The build goes on to its end, although it looks whether a stop is requested. -/
theorem exists_forgotten : ∃ (middle asked last : Sharing) (before after : History)
    (next : Unit → Plan Ending) (run : BuildRun),
    Reachable sampleBuilder contending ∧
      (contending.callers 0).plan = (Action.build sampleConfig).plan sampleBuilder ∧
      Along sampleBuilder 0 contending before middle ∧
      middle.status.Answers ⟨.isBuilding, true⟩ middle.status ∧
      (middle.callers 1).plan = .step .requestStop next ∧ Step sampleBuilder 1 middle asked ∧
      Along sampleBuilder 0 asked after last ∧ (last.callers 0).plan = .done (.ran run) ∧
      after.checks ≠ [] ∧ run.outcome ≠ .stopped := by
  obtain ⟨acquired, rest, hacquired, howner, hrest, hends, hother, hstatus⟩ := exists_acquired
  obtain ⟨asked, hstop, hkept, hasked⟩ := exists_requested hother
  have hplan : (asked.callers 0).plan = .step .clearStop fun _ => rest := by rw [hkept, howner]
  obtain ⟨last, hafter, hlast⟩ := exists_along sampleBuilder
    (asked.advance 0 ⟨.clearStop, ()⟩ rest { asked.status with isStopRequested := false }) 0 false
    (by simpa using hends false) (by decide +kernel) rfl
  have hbuilding : acquired.status.Answers ⟨.isBuilding, true⟩ acquired.status := by
    rw [hstatus]
    exact .isBuilding
  exact ⟨acquired, asked, last, _, _, fun _ => .done .silent, undisturbedRun false,
    reachable_contending, rfl, hacquired, hbuilding, (congrArg Caller.plan hother).trans rfl, hstop,
    .own hplan .clearStop hafter, hlast, by decide +kernel, by decide +kernel⟩

end Sharing

end Builder

end SketchApk
