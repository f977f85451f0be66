import SketchApk.Proofs.Plan.Attempt

/-!
# What comes before a call

An attempt that calls a tool has a history before the call. In a sequence of attempts this begins
with the whole history of the parts that come before the part with the call.

## Main definitions

* `Attempt.Reaches` : an attempt comes to call a tool behind some history.

## Main statements

* `Attempt.Reaches.of_bind` : a part that calls no tool is ended before the next part calls one.
* `Attempt.Reaches.of_bind_isLocal` : a part that calls no tool does not matter to the part before
  it.
-/

namespace SketchApk.Attempt

variable {α β : Type} {before : History} {invocation : Invocation}

/-- The attempt comes to call a tool, and this is its history before the call. -/
def Reaches (attempt : Attempt α) (before : History) (invocation : Invocation) : Prop :=
  ∃ answer after result, attempt.run.Ends (before ++ ⟨.call invocation, answer⟩ :: after) result

theorem not_reaches_of_isLocal {attempt : Attempt α} (h : attempt.run.Only Request.IsLocal) :
    ¬attempt.Reaches before invocation := by
  rintro ⟨answer, after, result, hends⟩
  exact h.request_of_mem hends (List.mem_append_right _ List.mem_cons_self)

theorem reaches_call {other : Invocation} (h : (call other).Reaches before invocation) :
    before = [] ∧ invocation = other := by
  obtain ⟨answer, after, result, hends⟩ := h
  obtain ⟨answered, heq⟩ : ∃ answered,
      before ++ ⟨.call invocation, answer⟩ :: after = [⟨.call other, answered⟩] :=
    ⟨_, Plan.ends_ask.mp hends⟩
  rcases List.append_eq_singleton_iff.mp heq with ⟨rfl, htail⟩ | ⟨-, htail⟩
  · cases htail
    exact ⟨rfl, rfl⟩
  · cases htail

/-- In a list that consists of two parts, a member belongs to the first or to the second part. -/
theorem exists_of_append_cons {γ : Type} {first second before after : List γ} {entry : γ}
    (h : before ++ entry :: after = first ++ second) :
    (∃ rest, first = before ++ entry :: rest) ∨
      ∃ rest, before = first ++ rest ∧ second = rest ++ entry :: after := by
  rcases List.append_eq_append_iff.mp h with ⟨rest, rfl, hrest⟩ | ⟨rest, rfl, rfl⟩
  · cases rest with
    | nil => exact .inr ⟨[], by simp, by simpa using hrest.symm⟩
    | cons other rest =>
      obtain ⟨rfl, -⟩ := List.cons.inj hrest
      exact .inl ⟨rest, rfl⟩
  · exact .inr ⟨rest, rfl, rfl⟩

/-- The plan behind an attempt calls no tool, so a call that is made is made by the attempt. -/
theorem reaches_of_ends {attempt : Attempt α} {first second after : History}
    {answer : Except Fault ToolOutput} {result : Except Fault α} {plan : Plan β} {value : β}
    (hlocal : plan.Only Request.IsLocal) (hfirst : attempt.run.Ends first result)
    (hsecond : plan.Ends second value)
    (h : before ++ ⟨.call invocation, answer⟩ :: after = first ++ second) :
    attempt.Reaches before invocation := by
  rcases exists_of_append_cons h with ⟨rest, rfl⟩ | ⟨rest, rfl, rfl⟩
  · exact ⟨answer, rest, result, hfirst⟩
  · exact absurd (hlocal.request_of_mem hsecond (List.mem_append_right _ List.mem_cons_self)) id

namespace Reaches

/-- A part that calls no tool is ended before the next part calls one. -/
theorem of_bind {attempt : Attempt α} {f : α → Attempt β}
    (h : (attempt >>= f).Reaches before invocation) (hlocal : attempt.run.Only Request.IsLocal) :
    ∃ first value rest, before = first ++ rest ∧ attempt.run.Ends first (.ok value) ∧
      (f value).Reaches rest invocation := by
  obtain ⟨answer, after, result, hends⟩ := h
  rcases ends_bind.mp hends with ⟨fault, hfault, -⟩ |
    ⟨first, value, second, hhistory, hfirst, hsecond⟩
  · exact absurd ⟨answer, after, _, hfault⟩ (not_reaches_of_isLocal hlocal)
  · rcases exists_of_append_cons hhistory with ⟨rest, rfl⟩ | ⟨rest, rfl, rfl⟩
    · exact absurd ⟨answer, rest, _, hfirst⟩ (not_reaches_of_isLocal hlocal)
    · exact ⟨first, value, rest, rfl, hfirst, answer, after, result, hsecond⟩

/-- A part that calls no tool does not matter to the part before it. -/
theorem of_bind_isLocal {attempt : Attempt α} {f : α → Attempt β}
    (h : (attempt >>= f).Reaches before invocation)
    (hlocal : ∀ value, (f value).run.Only Request.IsLocal) : attempt.Reaches before invocation := by
  obtain ⟨answer, after, result, hends⟩ := h
  rcases ends_bind.mp hends with ⟨fault, hfault, -⟩ |
    ⟨first, value, second, hhistory, hfirst, hsecond⟩
  · exact ⟨answer, after, _, hfault⟩
  · exact reaches_of_ends (hlocal value) hfirst hsecond hhistory

/-- A part that is skipped unless a condition holds, with the part behind it that calls the tool. -/
theorem of_guarded {condition : Prop} [Decidable condition] {attempt : Attempt Unit}
    {rest : Unit → Attempt α}
    (h : (if condition then attempt >>= rest else rest ()).Reaches before invocation)
    (hlocal : attempt.run.Only Request.IsLocal) :
    ∃ first later, before = first ++ later ∧ (first = [] ∨ attempt.run.Ends first (.ok ())) ∧
      (rest ()).Reaches later invocation := by
  split at h
  · obtain ⟨first, ⟨⟩, later, rfl, hfirst, hlater⟩ := h.of_bind hlocal
    exact ⟨first, later, rfl, .inr hfirst, hlater⟩
  · exact ⟨[], before, rfl, .inl rfl, h⟩

/-- What is done behind an attempt in any case does not matter to its calls. -/
theorem of_followedBy {attempt : Attempt α} {cleanup : Plan Unit}
    (h : (attempt.followedBy cleanup).Reaches before invocation)
    (hlocal : cleanup.Only Request.IsLocal) : attempt.Reaches before invocation := by
  obtain ⟨answer, after, result, hends⟩ := h
  obtain ⟨first, value, second, hhistory, hfirst, hsecond⟩ := Plan.ends_bind.mp hends
  exact reaches_of_ends (hlocal.bind fun _ => Plan.Only.done _) hfirst hsecond hhistory

end Reaches

end SketchApk.Attempt
