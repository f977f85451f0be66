import SketchApk.Proofs.Plan.Evolution
import SketchApk.Proofs.Plan.Writing

/-!
# What files go through

While a plan is carried out the files pass through the states between its requests. A file is not
written at once, so there are further states in which it has some part of its content, or anything
else that is on its way to the file. What holds in each of these states is put together from what
holds while the parts of a plan are carried out.

## Main definitions

* `FileSystem.Visits` : the files are in a state at some time of a history.
* `Plan.GoesThrough` : what holds in each state of a plan, and in its end.
* `Attempt.Passes` : the same for attempts, which end well or fail.

## Main statements

* `FileSystem.Visits.of_append` : the states of a history of two parts are those of the parts.
* `Plan.GoesThrough.bind`, `Attempt.Passes.bind` : putting parts together.
* `Plan.Only.goesThrough_sameFiles` : what directories are created in the course of a plan.
-/

namespace SketchApk

open Plan

namespace FileSystem

variable {place : Location} {files last state : FileSystem} {history : History}

/-- In a history that begins with some files and ends with others, the files are in a state at some
time: between two exchanges, or while a file is written, which then may have any content. -/
inductive Visits (place : Location) (files : FileSystem) (history : History) (last : FileSystem)
    (state : FileSystem) : Prop
  | between (before behind : History) (h : before ++ behind = history)
      (hbefore : Evolves place files before state) (hbehind : Evolves place state behind last)
  | writing {middle : FileSystem} (before behind : History) {path : Path} {content : Content}
      {answer : Except FileError Unit}
      (h : before ++ ⟨.file (.write path content), answer⟩ :: behind = history)
      (hbefore : Evolves place files before middle)
      (hbehind : Evolves place middle (⟨.file (.write path content), answer⟩ :: behind) last)
      (written : Content) (hwritten : middle.overwrite place path written none = .ok state)

namespace Visits

/-- Nothing happens in a history without exchanges. -/
theorem eq_of_nil (h : Visits place files [] last state) : state = files := by
  cases h with
  | between before behind h hbefore =>
    obtain ⟨rfl, -⟩ := List.append_eq_nil_iff.mp h
    exact hbefore.eq_of_leavesFiles (List.forall_mem_nil _)
  | writing before behind h => simp at h

/-- The files at the end of a history are among its states. -/
theorem ending (h : Evolves place files history last) : Visits place files history last last :=
  .between history [] (List.append_nil history) h (.nil last)

/-- The states of a history of two parts are those of the parts. -/
theorem of_append {first second : History} (h : Visits place files (first ++ second) last state) :
    ∃ middle, Evolves place files first middle ∧ Evolves place middle second last ∧
      (Visits place files first middle state ∨ Visits place middle second last state) := by
  cases h with
  | between before behind h hbefore hbehind =>
    rcases List.append_eq_append_iff.mp h with ⟨rest, rfl, rfl⟩ | ⟨rest, rfl, rfl⟩
    · obtain ⟨middle, hrest, hsecond⟩ := hbehind.exists_of_append
      exact ⟨middle, hbefore.append hrest, hsecond, .inl (.between before rest rfl hbefore hrest)⟩
    · obtain ⟨middle, hfirst, hrest⟩ := hbefore.exists_of_append
      exact ⟨middle, hfirst, hrest.append hbehind, .inr (.between rest behind rfl hrest hbehind)⟩
  | writing before behind h hbefore hbehind written hwritten =>
    rcases List.append_eq_append_iff.mp h with ⟨rest, rfl, hrest⟩ | ⟨rest, rfl, rfl⟩
    · rcases List.cons_eq_append_iff.mp hrest with ⟨rfl, rfl⟩ | ⟨rest, rfl, rfl⟩
      · rw [List.append_nil]
        exact ⟨_, hbefore, hbehind, .inr (.writing [] behind rfl (.nil _) hbehind written hwritten)⟩
      · rw [← List.cons_append] at hbehind
        obtain ⟨middle, hrest, hsecond⟩ := hbehind.exists_of_append
        exact ⟨middle, hbefore.append hrest, hsecond,
          .inl (.writing before rest rfl hbefore hrest written hwritten)⟩
    · obtain ⟨middle, hfirst, hrest⟩ := hbefore.exists_of_append
      exact ⟨middle, hfirst, hrest.append hbehind,
        .inr (.writing rest behind rfl hrest hbehind written hwritten)⟩

/-- In a history of one exchange there is nothing between the beginning and the end, unless a file
is written. -/
theorem cases_of_singleton {entry : Exchange} (h : Visits place files [entry] last state) :
    state = files ∨ state = last ∨ ∃ path content written,
      entry.request = .file (.write path content) ∧
        files.overwrite place path written none = .ok state := by
  cases h with
  | between before behind h hbefore hbehind =>
    rcases List.append_eq_singleton_iff.mp h with ⟨rfl, -⟩ | ⟨-, rfl⟩
    · exact .inl (hbefore.eq_of_leavesFiles (List.forall_mem_nil _))
    · exact .inr (.inl (hbehind.eq_of_leavesFiles (List.forall_mem_nil _)).symm)
  | writing before behind h hbefore hbehind written hwritten =>
    rcases List.append_eq_singleton_iff.mp h with ⟨rfl, hentry⟩ | ⟨-, hnil⟩
    · obtain ⟨rfl, rfl⟩ := List.cons_eq_cons.mp hentry
      obtain rfl := hbefore.eq_of_leavesFiles (List.forall_mem_nil _)
      exact .inr (.inr ⟨_, _, written, rfl, hwritten⟩)
    · cases hnil

end Visits

end FileSystem

namespace Plan

variable {α β : Type} {process : Nat} {place : Location} {files : FileSystem} {plan : Plan α}
  {through : FileSystem → Prop} {condition : α → FileSystem → Prop}

/-- When the plan begins with some files in a process with a number, a condition holds in each state
that the files go through, and its value and the files that it leaves meet another one. -/
def GoesThrough (process : Nat) (place : Location) (files : FileSystem) (plan : Plan α)
    (through : FileSystem → Prop) (condition : α → FileSystem → Prop) : Prop :=
  ∀ ⦃history value last⦄, plan.Ends history value →
    (∀ number ∈ history.processes, number = process) →
      FileSystem.Evolves place files history last →
        condition value last ∧
          ∀ state, FileSystem.Visits place files history last state → through state

namespace GoesThrough

theorem done {value : α} (hfiles : through files) (h : condition value files) :
    (done value).GoesThrough process place files through condition := by
  rintro history result last ⟨rfl, rfl⟩ - hevolves
  obtain rfl := hevolves.eq_of_leavesFiles (List.forall_mem_nil _)
  refine ⟨h, fun state hstate => ?_⟩
  obtain rfl := hstate.eq_of_nil
  exact hfiles

theorem bind {between : α → FileSystem → Prop} {f : α → Plan β} {condition : β → FileSystem → Prop}
    (h : plan.GoesThrough process place files through between)
    (hf : ∀ value middle, between value middle → through middle →
      (f value).GoesThrough process place middle through condition) :
    (plan.bind f).GoesThrough process place files through condition := by
  intro history result last hends hprocess hevolves
  obtain ⟨first, value, second, rfl, hfirst, hsecond⟩ := ends_bind.mp hends
  rw [History.processes_append] at hprocess
  obtain ⟨hbefore, hbehind⟩ := List.forall_mem_append.mp hprocess
  have hparts {middle : FileSystem} (hmiddle : FileSystem.Evolves place files first middle)
      (hlast : FileSystem.Evolves place middle second last) :=
    have hparts := h hfirst hbefore hmiddle
    hf value middle hparts.1 (hparts.2 middle (.ending hmiddle)) hsecond hbehind hlast
  constructor
  · obtain ⟨middle, hmiddle, hlast⟩ := hevolves.exists_of_append
    exact (hparts hmiddle hlast).1
  · intro state hstate
    obtain ⟨middle, hmiddle, hlast, hvisits | hvisits⟩ := hstate.of_append
    · exact (h hfirst hbefore hmiddle).2 state hvisits
    · exact (hparts hmiddle hlast).2 state hvisits

/-- What holds in the end follows from what holds in all states. -/
theorem mono {other : α → FileSystem → Prop}
    (h : plan.GoesThrough process place files through condition)
    (hcondition : ∀ value last, condition value last → other value last) :
    plan.GoesThrough process place files through other := fun _ _ _ hends hprocess hevolves =>
  (h hends hprocess hevolves).imp_left (hcondition _ _)

theorem mono_through {through' : FileSystem → Prop}
    (h : plan.GoesThrough process place files through condition)
    (hthrough : ∀ state, through state → through' state) :
    plan.GoesThrough process place files through' condition := fun _ _ _ hends hprocess hevolves =>
  (h hends hprocess hevolves).imp_right fun hvisits state hstate =>
    hthrough _ (hvisits state hstate)

theorem processId (h : through files) :
    (ask .processId).GoesThrough process place files through fun number last =>
      number = process ∧ last = files := by
  intro history number last hends hprocess hevolves
  obtain ⟨hnumber, rfl⟩ := Achieves.processId hends hprocess hevolves
  obtain rfl := ends_ask.mp hends
  refine ⟨⟨hnumber, rfl⟩, fun state hstate => ?_⟩
  rcases hstate.cases_of_singleton with rfl | rfl | ⟨_, _, _, hrequest, -⟩
  · exact h
  · exact h
  · cases hrequest

/-- An operation is one step, unless it writes a file. -/
theorem file {operation : FileOperation}
    (hwrite : ∀ path content written state, operation = .write path content →
      files.overwrite place path written none = .ok state → through state)
    (h : through files) (hlast : through (operation.run place files).2) :
    (ask (.file operation)).GoesThrough process place files through fun answer last =>
      answer = (operation.run place files).1 ∧ last = (operation.run place files).2 := by
  intro history answer last hends hprocess hevolves
  obtain ⟨hanswer, rfl⟩ := Achieves.file operation hends hprocess hevolves
  obtain rfl := ends_ask.mp hends
  refine ⟨⟨hanswer, rfl⟩, fun state hstate => ?_⟩
  rcases hstate.cases_of_singleton with rfl | rfl | ⟨path, content, written, hrequest, hwritten⟩
  · exact h
  · exact hlast
  · exact hwrite path content written state (Request.file.inj hrequest) hwritten

end GoesThrough

/-- While directories are created the files stay what they are. -/
theorem Only.goesThrough_sameFiles (h : plan.Only Request.IsMaking) {world : World} {stop : Bool} :
    plan.GoesThrough process world.place files
      (fun state => files.SameFiles state ∧
        state.SameFiles (plan.run (world.answer stop) files).2)
      fun value last => (value, last) = plan.run (world.answer stop) files := by
  induction h generalizing files with
  | done value => exact .done ⟨.refl files, .refl files⟩ rfl
  | @step request next hrequest hnext ih =>
    have hrest (answer : request.Answer) (after : FileSystem) :
        after.SameFiles ((next answer).run (world.answer stop) after).2 :=
      (hnext answer).sameFiles after
    match request, hrequest with
    | .file (.inspect path), _ =>
      have hlast := hrest (files.inspect world.place path) files
      refine GoesThrough.bind (.file nofun ⟨.refl files, hlast⟩ ⟨.refl files, hlast⟩)
        fun answer middle hmiddle _ => ?_
      obtain ⟨rfl, rfl⟩ := hmiddle
      exact ih _
    | .file (.makeDirectory path), _ =>
      have hmade := FileSystem.SameFiles.makeDirectory world.place files path
      have hlast := hrest ((FileOperation.makeDirectory path).run world.place files).1
        ((FileOperation.makeDirectory path).run world.place files).2
      refine GoesThrough.bind (.file nofun ⟨.refl files, hmade.trans hlast⟩ ⟨hmade, hlast⟩)
        fun answer middle hmiddle _ => ?_
      obtain ⟨rfl, rfl⟩ := hmiddle
      exact (ih _).mono_through fun state hstate => hstate.imp_left hmade.trans

end Plan

namespace Attempt

variable {α β : Type} {process : Nat} {place : Location} {files : FileSystem} {attempt : Attempt α}
  {through failed : FileSystem → Prop} {condition between : α → FileSystem → Prop}

/-- When the attempt begins with some files in a process with a number, a condition holds in each
state that the files go through. In the end its value and the files meet another condition if it
succeeds, and the files meet a third one if it fails. -/
def Passes (process : Nat) (place : Location) (files : FileSystem) (attempt : Attempt α)
    (through failed : FileSystem → Prop) (condition : α → FileSystem → Prop) : Prop :=
  attempt.run.GoesThrough process place files through fun result last =>
    match result with
    | .ok value => condition value last
    | .error _ => failed last

namespace Passes

theorem bind {f : α → Attempt β} {condition : β → FileSystem → Prop}
    (h : attempt.Passes process place files through failed between)
    (hf : ∀ value middle, between value middle → through middle →
      (f value).Passes process place middle through failed condition) :
    (attempt >>= f).Passes process place files through failed condition := by
  rw [Passes, run_bind]
  refine GoesThrough.bind h fun result middle hresult hthrough => ?_
  cases result with
  | ok value => exact hf value middle hresult hthrough
  | error fault => exact .done hthrough hresult

theorem during (h : attempt.Passes process place files through failed condition)
    (activity : Activity) :
    (attempt.during activity).Passes process place files through failed condition := by
  rw [Passes, run_during]
  refine GoesThrough.bind h fun result middle hresult hthrough => .done hthrough ?_
  cases result <;> exact hresult

theorem always {plan : Plan α} (h : plan.GoesThrough process place files through condition) :
    (Attempt.always plan).Passes process place files through failed condition :=
  GoesThrough.bind h fun _ _ hvalue hthrough => .done hthrough hvalue

/-- An operation is one step, unless it writes a file. -/
theorem file {operation : FileOperation} {condition : operation.Value → FileSystem → Prop}
    (hwrite : ∀ path content written state, operation = .write path content →
      files.overwrite place path written none = .ok state → through state)
    (h : through files) (hlast : through (operation.run place files).2)
    (hok : ∀ value, (operation.run place files).1 = .ok value →
      condition value (operation.run place files).2)
    (herror : ∀ error, (operation.run place files).1 = .error error →
      failed (operation.run place files).2) :
    (Attempt.file operation).Passes process place files through failed condition := by
  refine GoesThrough.bind (.file hwrite h hlast) fun answer last hanswer hthrough => ?_
  obtain ⟨hanswer, rfl⟩ := hanswer
  cases answer with
  | ok value => exact .done hthrough (hok value hanswer.symm)
  | error error => exact .done hthrough (herror error hanswer.symm)

end Passes

end Attempt

end SketchApk
