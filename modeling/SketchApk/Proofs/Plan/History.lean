import SketchApk.Plan.Attempt

/-!
# Histories of plans

A plan that is carried out leaves a history: its requests in order, each with the answer that it was
given. Which histories are possible is a matter of the plan alone, and a statement about all of them
is a statement about all surroundings, however these behave and whoever else acts on them in the
meantime.

## Main definitions

* `Plan.Ends` : a plan can end with a value after a history.
* `Plan.history` : the history of a plan that is carried out with a function that answers requests.
* `Plan.Only` : all requests of a plan are of some kind.
* `History.calls`, `History.deliveries`, `History.checks` : the calls of a history, the events that
  it tells listeners, and what it learns about requests to stop.

## Main statements

* `Plan.ends_run` : carrying a plan out yields one of its histories.
* `Plan.ends_bind` : a history of two plans in a row consists of a history of each.
-/

namespace SketchApk

/-- A request with the answer that it was given. -/
structure Exchange where
  request : Request
  answer : request.Answer

/-- Exchanges in the order in which they took place. -/
abbrev History := List Exchange

namespace Request

/-- The call that a request makes. -/
def invocation? : Request → Option Invocation
  | call invocation => some invocation
  | _ => none

/-- The event that a request tells a listener. -/
def delivery? : Request → Option (Nat × BuildEvent)
  | deliver listener event => some (listener, event)
  | _ => none

end Request

/-- The exchange that looks whether a stop is requested. -/
def Exchange.check (answer : Bool) : Exchange :=
  ⟨.isStopRequested, answer⟩

/-- What an exchange tells about a request to stop. -/
def Exchange.check? : Exchange → Option Bool
  | ⟨.isStopRequested, answer⟩ => some answer
  | _ => none

/-- What an exchange tells about the number of the process. -/
def Exchange.process? : Exchange → Option Nat
  | ⟨.processId, number⟩ => some number
  | _ => none

namespace History

variable (history other : History)

/-- The calls of tools. -/
def calls : List Invocation :=
  history.filterMap (·.request.invocation?)

/-- The events that were told, with the listeners that were told them. -/
def deliveries : List (Nat × BuildEvent) :=
  history.filterMap (·.request.delivery?)

/-- The events that a listener was told. -/
def seenBy (listener : Nat) : List BuildEvent :=
  (deliveries history).filterMap fun entry => if entry.1 = listener then some entry.2 else none

/-- What was learned about a request to stop, each time that this was looked at. -/
def checks : List Bool :=
  history.filterMap Exchange.check?

/-- What was learned about the number of the process, each time that it was asked for. -/
def processes : List Nat :=
  history.filterMap Exchange.process?

@[simp] theorem calls_nil : calls [] = [] := rfl

@[simp] theorem deliveries_nil : deliveries [] = [] := rfl

@[simp] theorem checks_nil : checks [] = [] := rfl

@[simp] theorem calls_append : calls (history ++ other) = calls history ++ calls other :=
  List.filterMap_append

@[simp] theorem deliveries_append :
    deliveries (history ++ other) = deliveries history ++ deliveries other :=
  List.filterMap_append

@[simp] theorem checks_append : checks (history ++ other) = checks history ++ checks other :=
  List.filterMap_append

theorem processes_append : processes (history ++ other) = processes history ++ processes other :=
  List.filterMap_append

theorem calls_cons (entry : Exchange) :
    calls (entry :: history) = entry.request.invocation?.toList ++ calls history := by
  cases h : entry.request.invocation? <;> simp [calls, h]

theorem deliveries_cons (entry : Exchange) :
    deliveries (entry :: history) = entry.request.delivery?.toList ++ deliveries history := by
  cases h : entry.request.delivery? <;> simp [deliveries, h]

@[simp] theorem checks_check (answer : Bool) :
    checks (.check answer :: history) = answer :: checks history :=
  rfl

@[simp] theorem deliveries_check (answer : Bool) :
    deliveries (.check answer :: history) = deliveries history :=
  rfl

@[simp] theorem calls_check (answer : Bool) :
    calls (.check answer :: history) = calls history :=
  rfl

end History

namespace Plan

variable {α β σ : Type}

/-- The plan can end with a value after a history. -/
def Ends : Plan α → History → α → Prop
  | done value, history, result => history = [] ∧ result = value
  | step request next, history, result =>
    ∃ answer rest, history = ⟨request, answer⟩ :: rest ∧ (next answer).Ends rest result

/-- The history of a plan that is carried out with a function that answers requests. -/
def history (answer : (request : Request) → σ → request.Answer × σ) : Plan α → σ → History
  | done _, _ => []
  | step request next, s =>
    let reply := answer request s
    ⟨request, reply.1⟩ :: (next reply.1).history answer reply.2

@[simp] theorem ends_done {value result : α} {history : History} :
    (done value).Ends history result ↔ history = [] ∧ result = value :=
  Iff.rfl

@[simp] theorem ends_step {request : Request} {next : request.Answer → Plan α} {history : History}
    {result : α} :
    (step request next).Ends history result ↔
      ∃ answer rest, history = ⟨request, answer⟩ :: rest ∧ (next answer).Ends rest result :=
  Iff.rfl

/-- A single request ends with its answer. -/
@[simp] theorem ends_ask {request : Request} {history : History} {result : request.Answer} :
    (ask request).Ends history result ↔ history = [⟨request, result⟩] := by
  constructor
  · rintro ⟨answer, rest, rfl, rfl, rfl⟩
    rfl
  · rintro rfl
    exact ⟨result, [], rfl, rfl, rfl⟩

/-- A history of a request with a plan behind it consists of the answer and a history of the
plan. -/
theorem ends_ask_bind {request : Request} {f : request.Answer → Plan α} {history : History}
    {result : α} :
    ((ask request).bind f).Ends history result ↔
      ∃ answer rest, history = ⟨request, answer⟩ :: rest ∧ (f answer).Ends rest result :=
  Iff.rfl

/-- A history of two plans in a row consists of a history of each. -/
theorem ends_bind {plan : Plan α} {f : α → Plan β} {history : History} {result : β} :
    (plan.bind f).Ends history result ↔
      ∃ first value second,
        history = first ++ second ∧ plan.Ends first value ∧ (f value).Ends second result := by
  induction plan generalizing history with
  | done value =>
    constructor
    · intro h
      exact ⟨[], value, history, rfl, ⟨rfl, rfl⟩, h⟩
    · rintro ⟨first, _, second, rfl, ⟨rfl, rfl⟩, h⟩
      exact h
  | step request next ih =>
    simp only [step_bind, ends_step, ih]
    constructor
    · rintro ⟨answer, rest, rfl, first, value, second, rfl, hfirst, hsecond⟩
      exact ⟨⟨request, answer⟩ :: first, value, second, rfl, ⟨answer, first, rfl, hfirst⟩, hsecond⟩
    · rintro ⟨first, value, second, rfl, ⟨answer, rest, rfl, hrest⟩, hsecond⟩
      exact ⟨answer, rest ++ second, rfl, rest, value, second, rfl, hrest, hsecond⟩

/-- Doing something for each entry of a list leaves one history after the other. -/
theorem ends_forM {γ : Type} {f : γ → Plan Unit} {parts : γ → History}
    (h : ∀ entry history, (f entry).Ends history () ↔ history = parts entry) (entries : List γ)
    {history : History} : (entries.forM f).Ends history () ↔ history = entries.flatMap parts := by
  induction entries generalizing history with
  | nil => exact and_iff_left rfl
  | cons entry rest ih =>
    change ((f entry).bind fun _ => rest.forM f).Ends history () ↔ _
    rw [ends_bind, List.flatMap_cons]
    constructor
    · rintro ⟨first, ⟨⟩, second, rfl, hfirst, hsecond⟩
      rw [(h entry first).mp hfirst, ih.mp hsecond]
    · rintro rfl
      exact ⟨_, (), _, rfl, (h entry _).mpr rfl, ih.mpr rfl⟩

/-- Carrying a plan out yields one of its histories. -/
theorem ends_run (answer : (request : Request) → σ → request.Answer × σ) (plan : Plan α) (s : σ) :
    plan.Ends (plan.history answer s) (plan.run answer s).1 := by
  induction plan generalizing s with
  | done value => exact ⟨rfl, rfl⟩
  | step request next ih => exact ⟨_, _, rfl, ih _ _⟩

/-- All requests of a plan are of some kind, whatever the answers. -/
inductive Only (kind : Request → Prop) : Plan α → Prop
  | done (value : α) : Only kind (done value)
  | step {request : Request} {next : request.Answer → Plan α} (h : kind request)
      (hnext : ∀ answer, (next answer).Only kind) : Only kind (step request next)

namespace Only

variable {kind other : Request → Prop}

theorem ask {request : Request} (h : kind request) : (Plan.ask request).Only kind :=
  step h done

theorem bind {plan : Plan α} {f : α → Plan β} (h : plan.Only kind)
    (hf : ∀ value, (f value).Only kind) : (plan.bind f).Only kind := by
  induction h with
  | done value => exact hf value
  | step h hnext ih => exact step h ih

theorem mono {plan : Plan α} (h : plan.Only kind)
    (hkind : ∀ request, kind request → other request) : plan.Only other := by
  induction h with
  | done value => exact done value
  | step h hnext ih => exact step (hkind _ h) ih

/-- The requests of a history of a plan are of the kind of the plan. -/
theorem request_of_mem {plan : Plan α} {history : History} {result : α} (h : plan.Only kind)
    (hends : plan.Ends history result) {entry : Exchange} (hmem : entry ∈ history) :
    kind entry.request := by
  induction h generalizing history with
  | done value => simp [hends.1] at hmem
  | step h hnext ih =>
    obtain ⟨answer, rest, rfl, hrest⟩ := hends
    rcases List.mem_cons.mp hmem with rfl | hmem
    · exact h
    · exact ih answer hrest hmem

/-- What requests of the kind of a plan do not show is not seen of its histories. -/
theorem filterMap_eq_nil {γ : Type} {plan : Plan α} {history : History} {result : α}
    (h : plan.Only kind) (hends : plan.Ends history result) {f : Exchange → Option γ}
    (hf : ∀ entry : Exchange, kind entry.request → f entry = none) : history.filterMap f = [] :=
  List.filterMap_eq_nil_iff.mpr fun entry hmem => hf entry (h.request_of_mem hends hmem)

/-- Doing something for each entry of a list makes requests of a kind if it does so for each. -/
theorem forM {γ : Type} {f : γ → Plan Unit} (entries : List γ)
    (h : ∀ entry ∈ entries, (f entry).Only kind) : (entries.forM f).Only kind := by
  induction entries with
  | nil => exact done ()
  | cons entry rest ih =>
    change ((f entry).bind fun _ => rest.forM f).Only kind
    exact (h entry List.mem_cons_self).bind fun _ =>
      ih fun other hother => h other (List.mem_cons_of_mem entry hother)

end Only

end Plan

end SketchApk
