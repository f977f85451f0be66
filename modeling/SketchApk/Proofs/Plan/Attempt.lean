import Mathlib.Data.List.Forall2
import SketchApk.Plan.Attempt
import SketchApk.Proofs.Plan.History

/-!
# Histories of attempts

An attempt that consists of two parts fails when its first part does, and otherwise ends like the
second one. So the agendas of its parts add up to an agenda of its calls, and the rule that a failed
call makes the attempt fail passes from parts to the whole.

## Main definitions

* `Request.IsLocal`, `Request.IsWork`, `Request.IsQuiet`, `Request.IsIdle`,
  `Request.IsWriteless` : kinds of requests.
* `Attempt.Ensures` : a property of the values with which an attempt ends.
* `Attempt.Records` : an exchange that takes place whenever an attempt succeeds.
* `Attempt.Works` : an attempt calls the tools of an agenda, and fails when a call fails.

## Main statements

* `Attempt.ends_bind` : the histories of an attempt that consists of two parts.
* `Attempt.Works.bind` : calls of the parts of an attempt add up.
-/

namespace SketchApk

/-- The operation changes no file. -/
def FileOperation.IsReading : FileOperation → Prop
  | inspect _ | list _ | walk _ | read _ | readToExtend _ => True
  | _ => False

/-- The operation is any other than writing a file. -/
def FileOperation.IsWriteless : FileOperation → Prop
  | write _ _ => False
  | _ => True

namespace Request

/-- The request concerns files or the output. -/
def IsLocal : Request → Prop
  | file _ | print _ => True
  | _ => False

/-- The request concerns files, the output or a tool. -/
def IsWork : Request → Prop
  | file _ | print _ | call _ => True
  | _ => False

/-- The request calls no tool, tells no event and leaves the request to stop alone. -/
def IsQuiet : Request → Prop
  | call _ | deliver _ _ | requestStop | clearStop | isStopRequested => False
  | _ => True

/-- The request concerns neither files nor tools, nor the request to stop. -/
def IsIdle : Request → Prop
  | file _ | call _ | requestStop | clearStop | isStopRequested => False
  | _ => True

/-- The request is any other than writing a file. -/
def IsWriteless : Request → Prop
  | file operation => operation.IsWriteless
  | _ => True

theorem isLocal_file (operation : FileOperation) : (file operation).IsLocal := trivial

theorem isLocal_writeless (operation : FileOperation) (_ : operation.IsWriteless) :
    (file operation).IsLocal :=
  trivial

theorem isLocal_print (text : String) : (print text).IsLocal := trivial

theorem IsLocal.isWork {request : Request} (h : request.IsLocal) : request.IsWork := by
  cases request <;> simp_all [IsLocal, IsWork]

theorem IsLocal.isQuiet {request : Request} (h : request.IsLocal) : request.IsQuiet := by
  cases request <;> simp_all [IsLocal, IsQuiet]

end Request

namespace Plan

variable {α : Type} {kind : Request → Prop} {plan : Plan α} {history : History} {result : α}

/-- A plan none of whose requests is a call calls no tool. -/
theorem Only.calls_eq_nil (h : plan.Only kind) (hends : plan.Ends history result)
    (hkind : ∀ invocation, ¬ kind (.call invocation)) : history.calls = [] :=
  h.filterMap_eq_nil hends fun entry hentry => by
    rcases entry with ⟨_ | _, _⟩ <;> first | rfl | exact absurd hentry (hkind _)

/-- A plan none of whose requests is a delivery tells no event. -/
theorem Only.deliveries_eq_nil (h : plan.Only kind) (hends : plan.Ends history result)
    (hkind : ∀ listener event, ¬ kind (.deliver listener event)) : history.deliveries = [] :=
  h.filterMap_eq_nil hends fun entry hentry => by
    rcases entry with ⟨_ | _, _⟩ <;> first | rfl | exact absurd hentry (hkind _ _)

/-- A plan none of whose requests is a check does not look whether a stop is requested. -/
theorem Only.checks_eq_nil (h : plan.Only kind) (hends : plan.Ends history result)
    (hkind : ¬ kind .isStopRequested) : history.checks = [] :=
  h.filterMap_eq_nil hends fun entry hentry => by
    rcases entry with ⟨_ | _, _⟩ <;> first | rfl | exact absurd hentry hkind

end Plan

/-- Some call has failed. -/
def History.HasFailedCall (history : History) : Prop :=
  ∃ (invocation : Invocation) (fault : Fault),
    ⟨.call invocation, (.error fault : Except Fault ToolOutput)⟩ ∈ history

namespace Attempt

variable {α β : Type}

/-- What an attempt does behind another one, given how that has ended. -/
def proceed (f : α → Attempt β) : Except Fault α → Plan (Except Fault β)
  | .ok value => (f value).run
  | .error fault => .done (.error fault)

theorem run_bind (attempt : Attempt α) (f : α → Attempt β) :
    (attempt >>= f).run = attempt.run.bind (proceed f) := by
  change attempt.run.bind _ = _
  congr 1
  funext result
  cases result <;> rfl

theorem run_during (activity : Activity) (attempt : Attempt α) :
    (attempt.during activity).run =
      attempt.run.bind fun result => .done (result.mapError (·.during activity)) :=
  rfl

/-- What an attempt does behind another one that is undone when it fails. -/
def proceedOr (cleanup : Plan Unit) (f : α → Attempt β) : Except Fault α → Plan (Except Fault β)
  | .ok value => (f value).run
  | .error fault => cleanup.bind fun _ => .done (.error fault)

theorem run_undoneBy_bind (attempt : Attempt α) (cleanup : Plan Unit) (f : α → Attempt β) :
    (attempt.undoneBy cleanup >>= f).run = attempt.run.bind (proceedOr cleanup f) := by
  rw [run_bind]
  change (attempt.run.bind _).bind _ = _
  rw [Plan.bind_assoc]
  congr 1
  funext result
  cases result with
  | ok value => rfl
  | error fault => exact Plan.bind_assoc _ _ _

/-- An activity makes no difference to an attempt that succeeds. -/
theorem ends_during_ok {attempt : Attempt α} {activity : Activity} {history : History} {value : α} :
    (attempt.during activity).run.Ends history (.ok value) ↔ attempt.run.Ends history (.ok value) := by
  rw [run_during, Plan.ends_bind]
  constructor
  · rintro ⟨first, fault | found, second, rfl, hfirst, rfl, hvalue⟩
    · cases hvalue
    · cases hvalue
      simpa using hfirst
  · intro h
    exact ⟨history, .ok value, [], by simp, h, rfl, rfl⟩

/-- An attempt that succeeds is not undone. -/
theorem ends_of_undoneBy {attempt : Attempt α} {cleanup : Plan Unit} {history : History} {value : α}
    (h : (attempt.undoneBy cleanup).run.Ends history (.ok value)) :
    attempt.run.Ends history (.ok value) := by
  obtain ⟨first, result, second, rfl, hfirst, hsecond⟩ := Plan.ends_bind.mp h
  cases result with
  | ok found =>
    obtain ⟨rfl, ⟨⟩⟩ := hsecond
    rwa [List.append_nil]
  | error fault =>
    obtain ⟨_, _, _, -, -, -, ⟨⟩⟩ := Plan.ends_bind.mp hsecond

/-- An operation on files that succeeds is one exchange. -/
theorem ends_file_ok {operation : FileOperation} {history : History} {value : operation.Value} :
    (file operation).run.Ends history (.ok value) ↔ history = [⟨.file operation, .ok value⟩] := by
  constructor
  · intro h
    obtain ⟨answer, rest, rfl, hrest⟩ := Plan.ends_ask_bind.mp h
    cases answer with
    | error error => cases hrest.2
    | ok found =>
      obtain ⟨rfl, hvalue⟩ := hrest
      cases hvalue
      rfl
  · rintro rfl
    exact Plan.ends_ask_bind.mpr ⟨.ok value, [], rfl, rfl, rfl⟩

/-- An attempt that consists of two parts ends with the fault of the first one, or else like the
second one. -/
theorem ends_bind {attempt : Attempt α} {f : α → Attempt β} {history : History}
    {result : Except Fault β} :
    (attempt >>= f).run.Ends history result ↔
      (∃ fault, attempt.run.Ends history (.error fault) ∧ result = .error fault) ∨
      ∃ first value second, history = first ++ second ∧ attempt.run.Ends first (.ok value) ∧
        (f value).run.Ends second result := by
  rw [run_bind, Plan.ends_bind]
  constructor
  · rintro ⟨first, value | value, second, rfl, hfirst, hsecond⟩
    · obtain ⟨rfl, rfl⟩ := hsecond
      exact .inl ⟨value, by simpa using hfirst, rfl⟩
    · exact .inr ⟨first, value, second, rfl, hfirst, hsecond⟩
  · rintro (⟨fault, hfault, rfl⟩ | ⟨first, value, second, rfl, hfirst, hsecond⟩)
    · exact ⟨history, .error fault, [], by simp, hfault, rfl, rfl⟩
    · exact ⟨first, .ok value, second, rfl, hfirst, hsecond⟩

end Attempt

namespace Plan.Only

variable {α β : Type} {kind : Request → Prop}

theorem attemptBind {attempt : Attempt α} {f : α → Attempt β} (h : attempt.run.Only kind)
    (hf : ∀ value, (f value).run.Only kind) : (attempt >>= f).run.Only kind := by
  rw [Attempt.run_bind]
  refine h.bind fun result => ?_
  cases result with
  | ok value => exact hf value
  | error fault => exact done _

theorem of_pure (value : α) : (pure value : Attempt α).run.Only kind :=
  done _

theorem of_throw (fault : Fault) : (throw fault : Attempt α).run.Only kind :=
  done _

theorem fail (cause : Cause) : (Attempt.fail cause : Attempt α).run.Only kind :=
  of_throw _

theorem always {plan : Plan α} (h : plan.Only kind) : (Attempt.always plan).run.Only kind :=
  h.bind fun _ => done _

theorem during {attempt : Attempt α} (activity : Activity) (h : attempt.run.Only kind) :
    (attempt.during activity).run.Only kind :=
  h.bind fun _ => done _

theorem attemptDiscard {attempt : Attempt α} (h : attempt.run.Only kind) :
    (discard attempt : Attempt Unit).run.Only kind :=
  h.bind fun result => by cases result <;> exact done _

/-- A part that is skipped unless a condition holds, with another part behind it. -/
theorem guarded {condition : Prop} [Decidable condition] {attempt : Attempt Unit}
    {rest : Unit → Attempt α} (h : attempt.run.Only kind) (hrest : (rest ()).run.Only kind) :
    (if condition then attempt >>= rest else rest ()).run.Only kind := by
  split
  · exact h.attemptBind fun _ => hrest
  · exact hrest

/-- A part that is skipped if a condition holds, with another part behind it. -/
theorem unguarded {condition : Prop} [Decidable condition] {attempt : Attempt Unit}
    {rest : Unit → Attempt α} (h : attempt.run.Only kind) (hrest : (rest ()).run.Only kind) :
    (if condition then rest () else attempt >>= rest).run.Only kind := by
  split
  · exact hrest
  · exact h.attemptBind fun _ => hrest

theorem followedBy {attempt : Attempt α} {cleanup : Plan Unit} (h : attempt.run.Only kind)
    (hcleanup : cleanup.Only kind) : (attempt.followedBy cleanup).run.Only kind :=
  h.bind fun _ => hcleanup.bind fun _ => done _

theorem undoneBy {attempt : Attempt α} {cleanup : Plan Unit} (h : attempt.run.Only kind)
    (hcleanup : cleanup.Only kind) : (attempt.undoneBy cleanup).run.Only kind := by
  refine h.bind fun result => ?_
  cases result with
  | ok value => exact done _
  | error fault => exact hcleanup.bind fun _ => done _

theorem attemptForM {γ : Type} {f : γ → Attempt Unit} (entries : List γ)
    (h : ∀ entry, (f entry).run.Only kind) : (entries.forM f).run.Only kind := by
  induction entries with
  | nil => exact done _
  | cons entry rest ih => exact attemptBind (h entry) fun _ => ih

theorem attemptForM? {γ : Type} {f : γ → Attempt Unit} (entry : Option γ)
    (h : ∀ entry, (f entry).run.Only kind) : (entry.forM f).run.Only kind := by
  cases entry with
  | none => exact done _
  | some entry => exact h entry

end Plan.Only

namespace Attempt

variable {α β : Type}

/-- Whenever the attempt succeeds, its value has a property. -/
structure Ensures (property : α → Prop) (attempt : Attempt α) : Prop where
  of_ends {history : History} {value : α} (h : attempt.run.Ends history (.ok value)) :
    property value

namespace Ensures

variable {property : β → Prop}

theorem of_pure {value : β} (h : property value) :
    (pure value : Attempt β).Ensures property where
  of_ends hends := by
    obtain ⟨-, hresult⟩ := hends
    rw [Except.ok.inj hresult]
    exact h

theorem fail (cause : Cause) : (Attempt.fail cause : Attempt β).Ensures property where
  of_ends hends := by cases hends.2

/-- What the value of two parts is like is a matter of the second one. -/
theorem bind {attempt : Attempt α} {f : α → Attempt β} (hf : ∀ value, (f value).Ensures property) :
    (attempt >>= f).Ensures property where
  of_ends hends := by
    rcases ends_bind.mp hends with ⟨fault, -, hfault⟩ | ⟨first, value, second, rfl, -, hsecond⟩
    · cases hfault
    · exact (hf value).of_ends hsecond

/-- A part that is skipped unless a condition holds, with another part behind it. -/
theorem guarded {condition : Prop} [Decidable condition] {attempt : Attempt Unit}
    {rest : Unit → Attempt β} (hrest : (rest ()).Ensures property) :
    (if condition then attempt >>= rest else rest ()).Ensures property := by
  split
  · exact bind fun _ => hrest
  · exact hrest

theorem during {attempt : Attempt β} (h : attempt.Ensures property) (activity : Activity) :
    (attempt.during activity).Ensures property where
  of_ends hends := by
    rw [run_during, Plan.ends_bind] at hends
    obtain ⟨first, result, second, rfl, hfirst, -, hvalue⟩ := hends
    cases result with
    | ok value => exact Except.ok.inj hvalue ▸ h.of_ends hfirst
    | error fault => cases hvalue

end Ensures

section Records

variable {attempt : Attempt α} {f : α → Attempt β} {entry : Exchange}

/-- An exchange takes place whenever the attempt succeeds. -/
def Records (attempt : Attempt α) (entry : Exchange) : Prop :=
  ∀ history value, attempt.run.Ends history (.ok value) → entry ∈ history

theorem records_fail (cause : Cause) : (fail cause : Attempt α).Records entry := by
  rintro history value ⟨-, hvalue⟩
  cases hvalue

theorem Records.bind_left (h : attempt.Records entry) : (attempt >>= f).Records entry := by
  intro history result hends
  rcases ends_bind.mp hends with ⟨fault, -, hfault⟩ | ⟨first, value, second, rfl, hfirst, -⟩
  · cases hfault
  · exact List.mem_append_left second (h first value hfirst)

theorem Records.bind_right (h : ∀ value, (f value).Records entry) :
    (attempt >>= f).Records entry := by
  intro history result hends
  rcases ends_bind.mp hends with ⟨fault, -, hfault⟩ | ⟨first, value, second, rfl, -, hsecond⟩
  · cases hfault
  · exact List.mem_append_right first (h value second result hsecond)

theorem records_writeTextFile (path : Path) (text : String) :
    (Plan.writeTextFile path text).Records ⟨.file (.write path (.ofText text)), .ok ()⟩ := by
  rw [Plan.writeTextFile]
  refine .bind_right fun _ history value hends => ?_
  rw [ends_file_ok.mp (ends_during_ok.mp hends)]
  exact List.mem_cons_self

end Records

/-- The attempt works on files and the output, calls the tools of an agenda in order, all of them
unless it fails, and fails when a call fails. -/
structure Works (agenda : List (Invocation → Prop)) (attempt : Attempt α) : Prop where
  only : attempt.run.Only Request.IsWork
  calls {history : History} {result : Except Fault α} (h : attempt.run.Ends history result) :
    ∃ done rest, agenda = done ++ rest ∧
      List.Forall₂ (fun described invocation => described invocation) done history.calls ∧
      (rest = [] ∨ ∃ fault, result = .error fault)
  eq_error {history : History} {result : Except Fault α} (h : attempt.run.Ends history result)
    (hfailed : history.HasFailedCall) : ∃ fault, result = .error fault

namespace Works

variable {agenda rest : List (Invocation → Prop)}

/-- An attempt that calls no tool. -/
theorem of_isLocal {attempt : Attempt α} (h : attempt.run.Only Request.IsLocal) :
    attempt.Works [] where
  only := h.mono fun _ => Request.IsLocal.isWork
  calls hends := by
    rw [h.calls_eq_nil hends fun _ => id]
    exact ⟨[], [], rfl, .nil, .inl rfl⟩
  eq_error hends hfailed := by
    obtain ⟨invocation, fault, hmem⟩ := hfailed
    exact absurd (h.request_of_mem hends hmem) id

/-- An attempt that calls no tool and fails in any case. -/
theorem of_fails {attempt : Attempt α} (h : attempt.run.Only Request.IsLocal)
    (hfails : attempt.Ensures fun _ => False) : attempt.Works agenda where
  only := (of_isLocal h).only
  calls {history result} hends := by
    rw [h.calls_eq_nil hends fun _ => id]
    refine ⟨[], agenda, rfl, .nil, .inr ?_⟩
    cases result with
    | ok value => exact absurd (hfails.of_ends hends) id
    | error fault => exact ⟨fault, rfl⟩
  eq_error := (of_isLocal h).eq_error

/-- The calls of the parts of an attempt add up, where those of the second part may depend on the
value of the first one. -/
theorem bindEnsures {attempt : Attempt α} {f : α → Attempt β}
    {later : α → List (Invocation → Prop)} (h : attempt.Works agenda)
    (hf : ∀ value, (f value).Works (later value))
    (hlater : attempt.Ensures fun value => later value = rest) :
    (attempt >>= f).Works (agenda ++ rest) where
  only := h.only.attemptBind fun value => (hf value).only
  calls hends := by
    rcases ends_bind.mp hends with ⟨fault, hfault, rfl⟩ | ⟨first, value, second, rfl, h₁, h₂⟩
    · obtain ⟨done, remaining, rfl, hdone, -⟩ := h.calls hfault
      exact ⟨done, remaining ++ rest, List.append_assoc _ _ _, hdone, .inr ⟨fault, rfl⟩⟩
    · obtain ⟨done, remaining, rfl, hdone, hremaining⟩ := h.calls h₁
      obtain rfl : remaining = [] := hremaining.resolve_right fun ⟨_, hvalue⟩ => by cases hvalue
      obtain ⟨done', remaining, hrest, hdone', hremaining⟩ := (hf value).calls h₂
      refine ⟨done ++ done', remaining, ?_, ?_, hremaining⟩
      · rw [List.append_nil, List.append_assoc, ← hrest, hlater.of_ends h₁]
      · rw [History.calls_append]
        exact List.rel_append hdone hdone'
  eq_error hends hfailed := by
    rcases ends_bind.mp hends with ⟨fault, hfault, rfl⟩ | ⟨first, value, second, rfl, h₁, h₂⟩
    · exact ⟨fault, rfl⟩
    · obtain ⟨invocation, fault, hmem⟩ := hfailed
      rcases List.mem_append.mp hmem with hmem | hmem
      · obtain ⟨_, hvalue⟩ := h.eq_error h₁ ⟨invocation, fault, hmem⟩
        cases hvalue
      · exact (hf value).eq_error h₂ ⟨invocation, fault, hmem⟩

/-- The calls of the parts of an attempt add up. -/
theorem bind {attempt : Attempt α} {f : α → Attempt β} (h : attempt.Works agenda)
    (hf : ∀ value, (f value).Works rest) : (attempt >>= f).Works (agenda ++ rest) :=
  h.bindEnsures hf ⟨fun _ => rfl⟩

/-- A part that calls no tool, with another part behind it. -/
theorem bind_of_isLocal {attempt : Attempt α} {f : α → Attempt β}
    (h : attempt.run.Only Request.IsLocal) (hf : ∀ value, (f value).Works agenda) :
    (attempt >>= f).Works agenda :=
  (of_isLocal h).bind hf

/-- A part with another part behind it that calls no tool. -/
theorem bind_isLocal {attempt : Attempt α} {f : α → Attempt β} (h : attempt.Works agenda)
    (hf : ∀ value, (f value).run.Only Request.IsLocal) : (attempt >>= f).Works agenda :=
  List.append_nil agenda ▸ h.bind fun value => of_isLocal (hf value)

/-- A part that calls no tool and is skipped unless a condition holds, with another part behind
it. -/
theorem guarded {condition : Prop} [Decidable condition] {attempt : Attempt Unit}
    {rest : Unit → Attempt α} (h : attempt.run.Only Request.IsLocal)
    (hrest : (rest ()).Works agenda) :
    (if condition then attempt >>= rest else rest ()).Works agenda := by
  split
  · exact bind_of_isLocal h fun _ => hrest
  · exact hrest

/-- A single call may be described less precisely. -/
theorem weaken {attempt : Attempt α} {described other : Invocation → Prop}
    (h : attempt.Works [described]) (hother : ∀ invocation, described invocation → other invocation) :
    attempt.Works [other] where
  only := h.only
  calls hends := by
    obtain ⟨done, rest, hagenda, hdone, hrest⟩ := h.calls hends
    generalize History.calls _ = calls at hdone ⊢
    cases hdone with
    | nil =>
      subst hagenda
      exact ⟨[], [other], rfl, .nil, .inr (hrest.resolve_left (List.cons_ne_nil _ _))⟩
    | cons hfirst hdone =>
      obtain ⟨rfl, hnone⟩ := List.cons_eq_cons.mp hagenda
      obtain ⟨rfl, rfl⟩ := List.append_eq_nil_iff.mp hnone.symm
      cases hdone
      exact ⟨[other], [], rfl, .cons (hother _ hfirst) .nil, .inl rfl⟩
  eq_error := h.eq_error

/-- A single call. -/
theorem call (invocation : Invocation) : (Attempt.call invocation).Works [(· = invocation)] where
  only := Plan.Only.ask trivial
  calls hends := by
    obtain ⟨answer, rest, rfl, rfl, rfl⟩ := hends
    exact ⟨[(· = invocation)], [], rfl, .cons rfl .nil, .inl rfl⟩
  eq_error hends hfailed := by
    obtain ⟨answer, rest, rfl, rfl, rfl⟩ := hends
    obtain ⟨other, fault, hmem⟩ := hfailed
    cases List.mem_singleton.mp hmem
    exact ⟨fault, rfl⟩

/-- An attempt with a plan behind it that calls no tool and is carried out in any case. -/
theorem followedBy {attempt : Attempt α} {cleanup : Plan Unit} (h : attempt.Works agenda)
    (hcleanup : cleanup.Only Request.IsLocal) : (attempt.followedBy cleanup).Works agenda where
  only := h.only.followedBy (hcleanup.mono fun _ => Request.IsLocal.isWork)
  calls hends := by
    obtain ⟨first, value, second, rfl, hfirst, hsecond⟩ := Plan.ends_bind.mp hends
    obtain ⟨middle, _, rest, rfl, hmiddle, rfl, rfl⟩ := Plan.ends_bind.mp hsecond
    have hsilent : History.calls middle = [] := hcleanup.calls_eq_nil hmiddle fun _ => id
    simpa [hsilent] using h.calls hfirst
  eq_error hends hfailed := by
    obtain ⟨first, value, second, rfl, hfirst, hsecond⟩ := Plan.ends_bind.mp hends
    obtain ⟨middle, _, rest, rfl, hmiddle, rfl, rfl⟩ := Plan.ends_bind.mp hsecond
    obtain ⟨invocation, fault, hmem⟩ := hfailed
    rw [List.append_nil] at hmem
    rcases List.mem_append.mp hmem with hmem | hmem
    · exact h.eq_error hfirst ⟨invocation, fault, hmem⟩
    · exact absurd (hcleanup.request_of_mem hmiddle hmem) id

end Works

end Attempt

end SketchApk
