import SketchApk.Proofs.Plan.World

/-!
# The faults of attempts

What all faults of an attempt are like follows from what those of its parts are like. What a tool
reports is not a matter of the attempt, so the faults of calls are left to an assumption.

## Main definitions

* `Attempt.FailsWith` : a property of the faults with which an attempt ends.

## Main statements

* `Attempt.FailsWith.bind`, `Attempt.FailsWith.during_of` : the faults of an attempt that consists of
  two parts, or that is part of an activity.
* `Attempt.FailsWith.of_run` : the fault with which an attempt ends that is carried out.
-/

namespace SketchApk

variable {α β : Type}

namespace Attempt

/-- Whenever the attempt fails, its fault has a property, provided that the faults of the calls have
it. -/
structure FailsWith (property : Fault → Prop) (attempt : Attempt α) : Prop where
  of_ends {history : History} {fault : Fault} (h : attempt.run.Ends history (.error fault))
    (hcalls : ∀ (invocation : Invocation) (fault : Fault),
      ⟨.call invocation, (.error fault : Except Fault ToolOutput)⟩ ∈ history → property fault) :
    property fault

namespace FailsWith

variable {property : Fault → Prop}

theorem of_pure (value : α) : (pure value : Attempt α).FailsWith property where
  of_ends hends _ := by cases hends.2

theorem fail {cause : Cause} (h : property { cause }) :
    (Attempt.fail cause : Attempt α).FailsWith property where
  of_ends hends _ := by
    obtain ⟨-, hfault⟩ := hends
    cases hfault
    exact h

theorem throw {fault : Fault} (h : property fault) :
    (MonadExcept.throw fault : Attempt α).FailsWith property where
  of_ends hends _ := by
    obtain ⟨-, hfault⟩ := hends
    cases hfault
    exact h

theorem bind {attempt : Attempt α} {f : α → Attempt β} (h : attempt.FailsWith property)
    (hf : ∀ value, (f value).FailsWith property) : (attempt >>= f).FailsWith property where
  of_ends hends hcalls := by
    rcases ends_bind.mp hends with ⟨_, hfirst, ⟨⟩⟩ | ⟨first, value, second, rfl, -, hsecond⟩
    · exact h.of_ends hfirst hcalls
    · exact (hf value).of_ends hsecond fun invocation fault hmem =>
        hcalls invocation fault (List.mem_append_right _ hmem)

/-- A part that is carried out if a condition holds, with another part behind it. -/
theorem guarded {condition : Prop} [Decidable condition] {attempt : Attempt Unit}
    {rest : Unit → Attempt β} (h : attempt.FailsWith property)
    (hrest : (rest ()).FailsWith property) :
    (if condition then attempt >>= rest else rest ()).FailsWith property := by
  split
  · exact h.bind fun _ => hrest
  · exact hrest

/-- Some activity adds to all faults of an attempt. -/
theorem during {attempt : Attempt α} {activity : Activity}
    (h : ∀ fault : Fault, property (fault.during activity)) :
    (attempt.during activity).FailsWith property where
  of_ends hends _ := by
    rw [run_during, Plan.ends_bind] at hends
    obtain ⟨first, result, second, rfl, -, -, hfault⟩ := hends
    cases result with
    | ok value => cases hfault
    | error fault =>
      cases hfault
      exact h fault

/-- An activity that keeps the property. -/
theorem during_of {attempt : Attempt α} {activity : Activity} (h : attempt.FailsWith property)
    (hduring : ∀ fault : Fault, property fault → property (fault.during activity)) :
    (attempt.during activity).FailsWith property where
  of_ends hends hcalls := by
    rw [run_during, Plan.ends_bind] at hends
    obtain ⟨first, result, second, rfl, hfirst, -, hfault⟩ := hends
    cases result with
    | ok value => cases hfault
    | error fault =>
      cases hfault
      exact hduring fault <| h.of_ends hfirst fun invocation fault hmem =>
        hcalls invocation fault (List.mem_append_left _ hmem)

theorem always (plan : Plan α) : (Attempt.always plan).FailsWith property where
  of_ends hends _ := by
    obtain ⟨first, value, second, rfl, -, -, hfault⟩ := Plan.ends_bind.mp hends
    cases hfault

/-- An operation on files fails with its error. -/
theorem file (operation : FileOperation) (h : ∀ error, property { cause := .file error }) :
    (Attempt.file operation).FailsWith property where
  of_ends hends _ := by
    obtain ⟨answer, rest, rfl, hrest⟩ := Plan.ends_ask_bind.mp hends
    cases answer with
    | ok value => cases hrest.2
    | error error =>
      cases hrest.2
      exact h error

theorem call (invocation : Invocation) : (Attempt.call invocation).FailsWith property where
  of_ends hends hcalls := by
    obtain rfl := Plan.ends_ask.mp hends
    exact hcalls invocation _ List.mem_cons_self

theorem followedBy {attempt : Attempt α} {cleanup : Plan Unit} (h : attempt.FailsWith property) :
    (attempt.followedBy cleanup).FailsWith property where
  of_ends hends hcalls := by
    obtain ⟨first, result, second, rfl, hfirst, hsecond⟩ := Plan.ends_bind.mp hends
    obtain ⟨_, _, third, rfl, -, -, rfl⟩ := Plan.ends_bind.mp hsecond
    exact h.of_ends hfirst fun invocation fault hmem =>
      hcalls invocation fault (List.mem_append_left _ hmem)

theorem undoneBy {attempt : Attempt α} {cleanup : Plan Unit} (h : attempt.FailsWith property) :
    (attempt.undoneBy cleanup).FailsWith property where
  of_ends hends hcalls := by
    obtain ⟨first, result, second, rfl, hfirst, hsecond⟩ := Plan.ends_bind.mp hends
    cases result with
    | ok value => cases hsecond.2
    | error fault =>
      obtain ⟨_, _, third, rfl, -, -, ⟨⟩⟩ := Plan.ends_bind.mp hsecond
      exact h.of_ends hfirst fun invocation fault hmem =>
        hcalls invocation fault (List.mem_append_left _ hmem)

theorem forM? {γ : Type} {f : γ → Attempt Unit} (entry : Option γ)
    (h : ∀ entry, (f entry).FailsWith property) : (entry.forM f).FailsWith property := by
  cases entry with
  | none => exact of_pure ()
  | some entry => exact h entry

/-- A fault with which an attempt that calls no tool ends when it is carried out. -/
theorem of_run {attempt : Attempt α} {world : World} {stop : Bool} {files last : FileSystem}
    {fault : Fault} (h : attempt.FailsWith property) (honly : attempt.run.Only Request.IsLocal)
    (hrun : attempt.run.run (world.answer stop) files = (.error fault, last)) : property fault := by
  have hends := Plan.ends_run (world.answer stop) attempt.run files
  rw [hrun] at hends
  exact h.of_ends hends fun invocation fault hmem => (honly.request_of_mem hends hmem).elim

end FailsWith

/-- Creating directories fails with the error of an operation on files. -/
theorem failsWith_makeDirectories {property : Fault → Prop}
    (h : ∀ error, property { cause := .file error }) (path : Path) :
    (Plan.makeDirectories path).FailsWith property where
  of_ends hends _ := by
    obtain ⟨first, result, second, rfl, -, hsecond⟩ := Plan.ends_bind.mp hends
    cases result with
    | ok value => cases hsecond.2
    | error error =>
      cases hsecond.2
      exact h error

end Attempt

end SketchApk
