import SketchApk.Proofs.Plan.Surroundings

/-!
# The states of a plan

While a plan is carried out there is a state behind each of its requests. What is shown of a request
and of the parts of a plan holds of all these states, so a condition that must not fail at any time
is proved along the plan.

## Main definitions

* `Plan.trace` : the exchanges of a plan, each with the state behind it.
* `Surroundings.Keeps` : what holds of the files in each state of a plan, and of those that it
  leaves.

## Main statements

* `Plan.trace_bind` : the states of two plans in a row are those of the first and of the second.
* `Surroundings.Keeps.bind` : what holds in the states of two plans in a row.
-/

namespace SketchApk

open Plan

namespace Plan

variable {α β σ : Type} {answer : (request : Request) → σ → request.Answer × σ}

/-- The exchanges of a plan that is carried out, each with the state behind it. -/
def trace (answer : (request : Request) → σ → request.Answer × σ) : Plan α → σ → List (Exchange × σ)
  | done _, _ => []
  | step request next, s =>
    let reply := answer request s
    (⟨request, reply.1⟩, reply.2) :: (next reply.1).trace answer reply.2

theorem trace_bind (plan : Plan α) (f : α → Plan β) (s : σ) :
    (plan.bind f).trace answer s =
      plan.trace answer s ++ (f (plan.run answer s).1).trace answer (plan.run answer s).2 := by
  induction plan generalizing s with
  | done value => rfl
  | step request next ih => simp only [step_bind, trace, run, ih, List.cons_append]

/-- The state at the end of a plan is that behind its last exchange. -/
theorem exists_of_trace_eq {s : σ} {before behind : List (Exchange × σ)} {entry : Exchange × σ}
    (plan : Plan α) (h : plan.trace answer s = before ++ entry :: behind) :
    ∃ last ∈ entry :: behind, last.2 = (plan.run answer s).2 := by
  induction plan generalizing s before entry behind with
  | done value => simp [trace] at h
  | step request next ih =>
    rw [trace] at h
    cases before with
    | cons other before => exact ih (answer request s).1 (List.cons.inj h).2
    | nil =>
      obtain ⟨rfl, rfl⟩ := List.cons.inj h
      cases htrace : (next (answer request s).1).trace answer (answer request s).2 with
      | cons other rest =>
        obtain ⟨last, hmem, hlast⟩ :=
          ih (answer request s).1 (htrace.trans (List.nil_append _).symm)
        exact ⟨last, List.mem_cons_of_mem _ (htrace ▸ hmem), hlast⟩
      | nil =>
        refine ⟨_, List.mem_cons_self, ?_⟩
        rw [run]
        generalize next (answer request s).1 = plan at htrace ⊢
        cases plan with
        | done value => rfl
        | step => cases htrace

theorem Only.of_mem_trace {kind : Request → Prop} {plan : Plan α} (h : plan.Only kind) {s : σ} :
    ∀ entry ∈ plan.trace answer s, kind entry.1.request := by
  induction h generalizing s with
  | done value => exact List.forall_mem_nil _
  | step hrequest _ ih => exact List.forall_mem_cons.mpr ⟨hrequest, ih _⟩

end Plan

namespace Surroundings

variable {α β : Type} {surroundings : Surroundings}
  {through earlier between later : FileSystem → Prop}

/-- When a plan begins with files that meet a condition, another one holds in the state behind each
of its requests, and a third one at its end. -/
def Keeps (surroundings : Surroundings) (through earlier later : FileSystem → Prop)
    (plan : Plan α) : Prop :=
  ∀ start, earlier start.1 →
    (∀ entry ∈ plan.trace surroundings.answer start, through entry.2.1) ∧
      later (plan.run surroundings.answer start).2.1

namespace Keeps

theorem done (value : α) (h : ∀ files, earlier files → later files) :
    surroundings.Keeps through earlier later (.done value) := fun start hstart =>
  ⟨List.forall_mem_nil _, h start.1 hstart⟩

theorem bind {plan : Plan α} {f : α → Plan β} (h : surroundings.Keeps through earlier between plan)
    (hf : ∀ value, surroundings.Keeps through between later (f value)) :
    surroundings.Keeps through earlier later (plan.bind f) := by
  intro start hstart
  obtain ⟨hfirst, hmiddle⟩ := h start hstart
  obtain ⟨hsecond, hend⟩ := hf _ _ hmiddle
  rw [trace_bind, run_bind]
  exact ⟨List.forall_mem_append.mpr ⟨hfirst, hsecond⟩, hend⟩

theorem attemptBind {attempt : Attempt α} {f : α → Attempt β}
    (h : surroundings.Keeps through earlier between attempt.run)
    (hbetween : ∀ files, between files → later files)
    (hf : ∀ value, surroundings.Keeps through between later (f value).run) :
    surroundings.Keeps through earlier later (attempt >>= f).run := by
  rw [Attempt.run_bind]
  refine h.bind fun result => ?_
  cases result with
  | ok value => exact hf value
  | error fault => exact .done _ hbetween

theorem weaken {sooner : FileSystem → Prop} {plan : Plan α}
    (h : surroundings.Keeps through earlier later plan)
    (hsooner : ∀ files, sooner files → earlier files) :
    surroundings.Keeps through sooner later plan := fun start hstart =>
  h start (hsooner start.1 hstart)

/-- A part that is skipped unless a condition holds, with another part behind it. -/
theorem guarded {asked : Prop} [Decidable asked] {attempt : Attempt Unit}
    {rest : Unit → Attempt β} (h : surroundings.Keeps through earlier earlier attempt.run)
    (hearlier : ∀ files, earlier files → later files)
    (hrest : surroundings.Keeps through earlier later (rest ()).run) :
    surroundings.Keeps through earlier later (if asked then attempt >>= rest else rest ()).run := by
  split
  · exact h.attemptBind hearlier fun _ => hrest
  · exact hrest

/-- A condition that is kept by each request is kept by the whole. -/
theorem of_only {kind : Request → Prop} {plan : Plan α} (hplan : plan.Only kind)
    (hkind : ∀ request files count, kind request → earlier files →
      earlier (surroundings.answer request (files, count)).2.1)
    (hthrough : ∀ files, earlier files → through files) :
    surroundings.Keeps through earlier earlier plan := by
  induction hplan with
  | done value => exact .done value fun _ => id
  | @step request next hrequest _ ih =>
    intro start hstart
    have hreply := hkind request start.1 start.2 hrequest hstart
    obtain ⟨hrest, hend⟩ := ih (surroundings.answer request start).1 _ hreply
    exact ⟨List.forall_mem_cons.mpr ⟨hthrough _ hreply, hrest⟩, hend⟩

end Keeps

end Surroundings

end SketchApk
