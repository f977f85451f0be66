import SketchApk.Proofs.Plan.Carrying

/-!
# Plans that are carried out twice

A plan is carried out in a world, in a process with a number, and no stop is requested meanwhile.
Carried out a second time, with other files perhaps, it may show the same: it tells the same events,
and it calls the same tools, each with the same files. What clocks and the calendar answer is
another matter each time, so also the values with which the two end may only be alike.

## Main definitions

* `Enactment` : a plan that is carried out in a world.
* `Enactment.Agrees` : two of them show the same, and end alike.
* `World.Alike`, `World.AlikeWhen` : two plans show the same and end alike whenever they are carried
  out, or whenever they end well.

## Main statements

* `World.Alike.bind` : plans that consist of parts that do the same do the same.
* `World.Alike.of_isWork` : a plan that works on files and calls tools does the same with the same
  files.
-/

namespace SketchApk

open Plan Request

/-- The calls of a history, each with the files that the tool finds. -/
def World.calls (world : World) : FileSystem → History → List (Invocation × FileSystem)
  | _, [] => []
  | files, ⟨.file operation, _⟩ :: rest => calls world (operation.run world.place files).2 rest
  | files, ⟨.call invocation, _⟩ :: rest =>
    (invocation, files) :: calls world (world.tools invocation files).2 rest
  | files, _ :: rest => calls world files rest

variable {α β : Type} {world : World} {process : Nat} {files other : FileSystem}

/-- The calls of a history are those of its parts. -/
theorem World.Runs.calls_append {history : History} {last : FileSystem}
    (h : world.Runs false files history false last) (rest : History) :
    world.calls files (history ++ rest) = world.calls files history ++ world.calls last rest := by
  induction history generalizing files with
  | nil => rw [h.files_eq_of_nil, World.calls, List.nil_append, List.nil_append]
  | cons entry history ih =>
    obtain ⟨between, middle, -, hentry, hruns⟩ := h.exists_of_cons
    obtain rfl := hruns.eq_false
    have hrest := ih hruns
    cases hentry with
    | file operation | check => exact hrest
    | call invocation => exact congrArg ((invocation, files) :: ·) hrest
    | idle _ _ hidle =>
      rcases entry with ⟨_ | _, _⟩ <;> first | exact hrest | cases hidle

/-- A plan that is carried out in a world, in a process, while no stop is requested. -/
structure Enactment (world : World) (process : Nat) (plan : Plan α) (files : FileSystem) where
  history : History
  value : α
  last : FileSystem
  ends : plan.Ends history value
  runs : world.Runs false files history false last
  processes : ∀ number ∈ history.processes, number = process

namespace Enactment

variable {plan : Plan α} {f g : α → Plan β}

/-- One plan after the other. -/
def bind (first : Enactment world process plan files)
    (second : Enactment world process (f first.value) first.last) :
    Enactment world process (plan.bind f) files where
  history := first.history ++ second.history
  value := second.value
  last := second.last
  ends := ends_bind.mpr ⟨_, _, _, rfl, first.ends, second.ends⟩
  runs := first.runs.append second.runs
  processes := by
    rw [History.processes_append]
    exact List.forall_mem_append.mpr ⟨first.processes, second.processes⟩

/-- Two plans in a row are carried out one after the other. -/
theorem exists_eq_bind (whole : Enactment world process (plan.bind f) files) :
    ∃ (first : Enactment world process plan files)
      (second : Enactment world process (f first.value) first.last), whole = first.bind second := by
  obtain ⟨history, value, last, hends, hruns, hprocesses⟩ := whole
  obtain ⟨first, middle, second, rfl, hfirst, hsecond⟩ := ends_bind.mp hends
  obtain ⟨between, reached, hruns, hruns'⟩ := hruns.exists_of_append
  obtain rfl := hruns'.eq_false
  obtain ⟨hnumbers, hnumbers'⟩ :=
    List.forall_mem_append.mp (History.processes_append _ _ ▸ hprocesses)
  exact ⟨⟨first, middle, reached, hfirst, hruns, hnumbers⟩,
    ⟨second, value, last, hsecond, hruns', hnumbers'⟩, rfl⟩

/-- Two enactments show the same, and end with values and files that are related. -/
structure Agrees {plan other : Plan α} {files files' : FileSystem} (alike : α → α → Prop)
    (later : FileSystem → FileSystem → Prop) (first : Enactment world process plan files)
    (second : Enactment world process other files') : Prop where
  value : alike first.value second.value
  last : later first.last second.last
  /-- The same events are told. -/
  deliveries : first.history.deliveries = second.history.deliveries
  /-- The same tools are called, each with the same files. -/
  calls : world.calls files first.history = world.calls files' second.history

/-- Enactments show the same when their parts do. -/
theorem Agrees.bind {other' : Plan α} {alike : α → α → Prop} {alike' : β → β → Prop}
    {between later : FileSystem → FileSystem → Prop}
    {first : Enactment world process plan files} {first' : Enactment world process other' other}
    {second : Enactment world process (f first.value) first.last}
    {second' : Enactment world process (g first'.value) first'.last}
    (h : first.Agrees alike between first') (hrest : second.Agrees alike' later second') :
    (first.bind second).Agrees alike' later (first'.bind second') where
  value := hrest.value
  last := hrest.last
  deliveries := by
    rw [Enactment.bind, Enactment.bind, History.deliveries_append, History.deliveries_append,
      h.deliveries, hrest.deliveries]
  calls := by
    rw [Enactment.bind, Enactment.bind, first.runs.calls_append, first'.runs.calls_append, h.calls,
      hrest.calls]

/-- Where no tool is called there are no calls. -/
theorem calls_eq_nil (first : Enactment world process plan files)
    (hcalls : first.history.calls = []) : world.calls files first.history = [] := by
  suffices h : ∀ history : History, history.calls = [] →
      ∀ files, world.calls files history = [] from
    h first.history hcalls files
  intro history hnone
  induction history with
  | nil => exact fun _ => rfl
  | cons entry rest ih =>
    rw [History.calls_cons] at hnone
    obtain ⟨hentry, hrest⟩ := List.append_eq_nil_iff.mp hnone
    rcases entry with ⟨_ | _, _⟩ <;> first | exact fun _ => ih hrest _ | cases hentry

/-- Enactments that neither tell events nor call tools show the same. -/
theorem agrees_of_isQuiet {other' : Plan α} {alike : α → α → Prop}
    {later : FileSystem → FileSystem → Prop} {first : Enactment world process plan files}
    {second : Enactment world process other' other} (hplan : plan.Only IsQuiet)
    (hother : other'.Only IsQuiet) (hvalue : alike first.value second.value)
    (hlast : later first.last second.last) : first.Agrees alike later second where
  value := hvalue
  last := hlast
  deliveries := by
    rw [hplan.deliveries_eq_nil first.ends fun _ _ => id,
      hother.deliveries_eq_nil second.ends fun _ _ => id]
  calls := by
    rw [first.calls_eq_nil (hplan.calls_eq_nil first.ends fun _ => id),
      second.calls_eq_nil (hother.calls_eq_nil second.ends fun _ => id)]

/-- An enactment of a single request. -/
theorem history_ask {request : Request}
    (first : Enactment world process (Plan.ask request) files) :
    first.history = [⟨request, first.value⟩] :=
  ends_ask.mp first.ends

/-- Answering requests as the world does is a way to carry a plan out. -/
def ofAnswers (h : plan.Only KeepsStop) (files : FileSystem) : Enactment world 1 plan files where
  history := plan.history (world.answer false) files
  value := (plan.run (world.answer false) files).1
  last := (plan.run (world.answer false) files).2
  ends := ends_run _ _ _
  runs := world.runs_history h files
  processes := by
    clear h
    induction plan generalizing files with
    | done value => exact fun _ hmem => absurd hmem List.not_mem_nil
    | step request next ih =>
      cases request with
      | processId => exact List.forall_mem_cons.mpr ⟨rfl, ih _ _⟩
      | _ => exact ih _ _

end Enactment

/-- Both attempts succeed, with values that are alike, or both fail. -/
def Attempt.Likewise (alike : α → α → Prop) : Except Fault α → Except Fault α → Prop
  | .ok value, .ok value' => alike value value'
  | .error _, .error _ => True
  | _, _ => False

/-- Whenever two plans are carried out with files that are related, they show the same, and end with
values and files that are related. -/
def World.Alike (world : World) (process : Nat) (related later : FileSystem → FileSystem → Prop)
    (alike : α → α → Prop) (plan other : Plan α) : Prop :=
  ∀ ⦃files files' : FileSystem⦄, related files files' →
    ∀ (first : Enactment world process plan files) (second : Enactment world process other files'),
      first.Agrees alike later second

/-- Whenever two plans are carried out with files that are related, and end well, they show the
same, and end with values and files that are related. -/
def World.AlikeWhen (world : World) (process : Nat) (good : α → Prop)
    (related later : FileSystem → FileSystem → Prop) (alike : α → α → Prop) (plan other : Plan α) :
    Prop :=
  ∀ ⦃files files' : FileSystem⦄, related files files' →
    ∀ (first : Enactment world process plan files) (second : Enactment world process other files'),
      good first.value → good second.value → first.Agrees alike later second

/-- Plans that work on files alone do what they do when they are carried out. -/
theorem World.AlikeWhen.of_isLocal {related later : FileSystem → FileSystem → Prop}
    {alike : α → α → Prop} {good : α → Prop} {plan plan' : Plan α} (h : plan.Only IsLocal)
    (h' : plan'.Only IsLocal)
    (hrun : ∀ files files' value value' last last', related files files' →
      plan.run (world.answer false) files = (value, last) →
      plan'.run (world.answer false) files' = (value', last') →
      good value → good value' → alike value value' ∧ later last last') :
    world.AlikeWhen process good related later alike plan plan' := by
  intro files files' hrelated first second hgood hgood'
  obtain ⟨hvalue, hlast⟩ := hrun files files' _ _ _ _ hrelated (first.runs.run_eq h first.ends)
    (second.runs.run_eq h' second.ends) hgood hgood'
  exact Enactment.agrees_of_isQuiet (h.mono fun _ => IsLocal.isQuiet)
    (h'.mono fun _ => IsLocal.isQuiet) hvalue hlast

namespace World.Alike

variable {related between later : FileSystem → FileSystem → Prop} {alike : α → α → Prop}
  {alike' : β → β → Prop} {plan plan' : Plan α} {f g : α → Plan β}

theorem done {value value' : α} (hvalue : alike value value')
    (hlater : ∀ files files', related files files' → later files files') :
    world.Alike process related later alike (.done value) (.done value') := by
  intro files files' hrelated first second
  obtain ⟨history, found, last, ⟨rfl, rfl⟩, hruns, -⟩ := first
  obtain ⟨history', found', last', ⟨rfl, rfl⟩, hruns', -⟩ := second
  obtain rfl := hruns.files_eq_of_nil
  obtain rfl := hruns'.files_eq_of_nil
  exact ⟨hvalue, hlater _ _ hrelated, rfl, rfl⟩

/-- Plans that consist of parts that do the same do the same. -/
theorem bind (h : world.Alike process related between alike plan plan')
    (hrest : ∀ value value', alike value value' →
      world.Alike process between later alike' (f value) (g value')) :
    world.Alike process related later alike' (plan.bind f) (plan'.bind g) := by
  intro files files' hrelated whole whole'
  obtain ⟨first, second, rfl⟩ := whole.exists_eq_bind
  obtain ⟨first', second', rfl⟩ := whole'.exists_eq_bind
  have hfirst := h hrelated first first'
  exact hfirst.bind (hrest _ _ hfirst.value hfirst.last second second')

theorem weaken {earlier last : FileSystem → FileSystem → Prop} {likely : α → α → Prop}
    (h : world.Alike process related later alike plan plan')
    (hrelated : ∀ files files', earlier files files' → related files files')
    (hlater : ∀ files files', later files files' → last files files')
    (halike : ∀ value value', alike value value' → likely value value') :
    world.Alike process earlier last likely plan plan' := by
  intro files files' hearlier first second
  have hagrees := h (hrelated _ _ hearlier) first second
  exact { hagrees with value := halike _ _ hagrees.value, last := hlater _ _ hagrees.last }

/-- A request that concerns neither files nor tools is made with any files. -/
theorem ask {request : Request} (h : request.IsIdle) :
    world.Alike process related related (fun _ _ => True) (Plan.ask request)
      (Plan.ask request) := by
  intro files files' hrelated first second
  have hfiles {files : FileSystem} (first : Enactment world process (Plan.ask request) files) :
      first.last = files :=
    first.runs.files_eq fun _ hmem => (Only.ask h).request_of_mem first.ends hmem
  have hcalls {files : FileSystem} (first : Enactment world process (Plan.ask request) files) :
      first.history.calls = [] :=
    (Only.ask h).calls_eq_nil first.ends fun _ => id
  refine ⟨trivial, ?_, ?_, ?_⟩
  · rw [hfiles first, hfiles second]
    exact hrelated
  · rw [first.history_ask, second.history_ask, History.deliveries_cons, History.deliveries_cons]
  · rw [first.calls_eq_nil (hcalls first), second.calls_eq_nil (hcalls second)]

/-- Plans that tell no event and leave files alone may differ. -/
theorem of_isIdle (h : plan.Only IsIdle) (hquiet : plan.Only IsQuiet) (h' : plan'.Only IsIdle)
    (hquiet' : plan'.Only IsQuiet) :
    world.Alike process related related (fun _ _ => True) plan plan' := by
  intro files files' hrelated first second
  refine Enactment.agrees_of_isQuiet hquiet hquiet' trivial ?_
  rw [first.runs.files_eq fun _ hmem => h.request_of_mem first.ends hmem,
    second.runs.files_eq fun _ hmem => h'.request_of_mem second.ends hmem]
  exact hrelated

/-- The number of the process is always the same. -/
theorem ask_processId :
    world.Alike process related related Eq (Plan.ask .processId) (Plan.ask .processId) := by
  intro files files' hrelated first second
  have hnumber {files : FileSystem} (first : Enactment world process (Plan.ask .processId) files) :
      first.value = process :=
    first.processes _ (by rw [first.history_ask]; exact List.mem_singleton_self _)
  have hidle : Request.processId.IsIdle := trivial
  exact { ask hidle hrelated first second with
    value := (hnumber first).trans (hnumber second).symm }

/-- No stop is requested. -/
theorem ask_isStopRequested : world.Alike process related related (fun asked asked' =>
    asked = false ∧ asked' = false) (Plan.ask .isStopRequested) (Plan.ask .isStopRequested) := by
  intro files files' hrelated first second
  have hcheck {files : FileSystem}
      (first : Enactment world process (Plan.ask .isStopRequested) files) :
      first.value = false ∧ first.last = files := by
    have hruns := first.runs
    rw [first.history_ask] at hruns
    have hvalue := hruns.check_eq_false
    obtain ⟨-, hnil⟩ := hruns.of_check
    exact ⟨hvalue, (hvalue ▸ hnil).files_eq_of_nil⟩
  refine ⟨⟨(hcheck first).1, (hcheck second).1⟩, ?_, ?_, ?_⟩
  · rw [(hcheck first).2, (hcheck second).2]
    exact hrelated
  · rw [first.history_ask, second.history_ask]
    rfl
  · rw [first.history_ask, second.history_ask]
    rfl

/-- A plan that works on files and calls tools does the same with the same files. -/
theorem of_isWork (h : plan.Only IsWork) : world.Alike process Eq Eq Eq plan plan := by
  rintro files _ rfl first second
  rcases first.runs.eq_or_interrupted h first.ends second.ends second.runs with
    ⟨hhistory, hvalue, hlast⟩ | ⟨hstop, -⟩
  · exact ⟨hvalue.symm, hlast.symm, by rw [hhistory], by rw [hhistory]⟩
  · cases hstop

/-- So they do whether they end well or not. -/
theorem of_isLocal (h : plan.Only IsLocal) (h' : plan'.Only IsLocal)
    (hrun : ∀ files files' value value' last last', related files files' →
      plan.run (world.answer false) files = (value, last) →
      plan'.run (world.answer false) files' = (value', last') →
      alike value value' ∧ later last last') :
    world.Alike process related later alike plan plan' := fun _ _ hrelated first second =>
  have hwhen : world.AlikeWhen process (fun _ => True) related later alike plan plan' :=
    .of_isLocal h h' fun _ _ _ _ _ _ hrelated hfirst hsecond _ _ =>
      hrun _ _ _ _ _ _ hrelated hfirst hsecond
  hwhen hrelated first second trivial trivial

/-- Doing the same for each entry of a list does the same. -/
theorem forM {γ : Type} {f : γ → Plan Unit} (entries : List γ)
    (h : ∀ entry, world.Alike process related related (fun _ _ => True) (f entry) (f entry)) :
    world.Alike process related related (fun _ _ => True) (entries.forM f) (entries.forM f) := by
  induction entries with
  | nil => exact done trivial fun _ _ => id
  | cons entry rest ih => exact (h entry).bind fun _ _ _ => ih

/-- Plans that always do the same do so when they end well. -/
theorem when (h : world.Alike process related later alike plan plan') (good : α → Prop) :
    world.AlikeWhen process good related later alike plan plan' :=
  fun _ _ hrelated first second _ _ => h hrelated first second

/-- Behind plans that always do the same, the rest may do so when it ends well. -/
theorem bindWhen {good : β → Prop} (h : world.Alike process related between alike plan plan')
    (hrest : ∀ value value', alike value value' →
      world.AlikeWhen process good between later alike' (f value) (g value')) :
    world.AlikeWhen process good related later alike' (plan.bind f) (plan'.bind g) := by
  intro files files' hrelated whole whole' hgood hgood'
  obtain ⟨first, second, rfl⟩ := whole.exists_eq_bind
  obtain ⟨first', second', rfl⟩ := whole'.exists_eq_bind
  have hfirst := h hrelated first first'
  exact hfirst.bind (hrest _ _ hfirst.value hfirst.last second second' hgood hgood')

/-! ### Attempts -/

/-- Behind a part that succeeds in both or fails in both, the rest does the same. -/
theorem attemptBind {attempt other : Attempt α} {f g : α → Attempt β}
    {last : Except Fault β → Except Fault β → Prop}
    (h : world.Alike process related between (Attempt.Likewise alike) attempt.run other.run)
    (hrest : ∀ value value', alike value value' →
      world.Alike process between later last (f value).run (g value').run)
    (herror : ∀ fault fault', last (.error fault) (.error fault'))
    (hlater : ∀ files files', between files files' → later files files') :
    world.Alike process related later last (attempt >>= f).run (other >>= g).run := by
  rw [Attempt.run_bind, Attempt.run_bind]
  refine h.bind fun result result' hresult => ?_
  rcases result with fault | value <;> rcases result' with fault' | value'
  · exact done (herror fault fault') hlater
  · cases hresult
  · cases hresult
  · exact hrest value value' hresult

theorem during {attempt other : Attempt α} (activity : Activity)
    (h : world.Alike process related later (Attempt.Likewise alike) attempt.run other.run) :
    world.Alike process related later (Attempt.Likewise alike) (attempt.during activity).run
      (other.during activity).run := by
  refine h.bind fun result result' hresult => done ?_ fun _ _ => id
  rcases result with fault | value <;> rcases result' with fault' | value' <;> exact hresult

/-- Whether attempts succeed may be left open. -/
theorem during_any {attempt other : Attempt α} (activity : Activity)
    (h : world.Alike process related later (fun _ _ => True) attempt.run other.run) :
    world.Alike process related later (fun _ _ => True) (attempt.during activity).run
      (other.during activity).run :=
  h.bind fun _ _ _ => done trivial fun _ _ => id

theorem always {plan plan' : Plan α} (h : world.Alike process related later alike plan plan') :
    world.Alike process related later (Attempt.Likewise alike) (Attempt.always plan).run
      (Attempt.always plan').run :=
  h.bind fun _ _ hvalue => done hvalue fun _ _ => id

/-- An attempt that works on files and calls tools does the same with the same files. -/
theorem attempt_of_isWork {attempt : Attempt α} (h : attempt.run.Only IsWork) :
    world.Alike process Eq Eq (Attempt.Likewise Eq) attempt.run attempt.run := by
  refine (of_isWork h).weaken (fun _ _ => id) (fun _ _ => id) ?_
  rintro (fault | value) _ rfl
  · trivial
  · rfl

end World.Alike

/-- If two plans end well only after their first parts have done so, it suffices that the parts do
the same when they end well. -/
theorem World.AlikeWhen.bind {related between later : FileSystem → FileSystem → Prop}
    {alike : α → α → Prop} {alike' : β → β → Prop} {good : α → Prop} {good' : β → Prop}
    {plan plan' : Plan α} {f g : α → Plan β}
    (h : world.AlikeWhen process good related between alike plan plan')
    (hf : ∀ value history result, (f value).Ends history result → good' result → good value)
    (hg : ∀ value history result, (g value).Ends history result → good' result → good value)
    (hrest : ∀ value value', good value → good value' → alike value value' →
      world.AlikeWhen process good' between later alike' (f value) (g value')) :
    world.AlikeWhen process good' related later alike' (plan.bind f) (plan'.bind g) := by
  intro files files' hrelated whole whole' hwhole hwhole'
  obtain ⟨first, second, rfl⟩ := whole.exists_eq_bind
  obtain ⟨first', second', rfl⟩ := whole'.exists_eq_bind
  have hvalue := hf _ _ _ second.ends hwhole
  have hvalue' := hg _ _ _ second'.ends hwhole'
  have hfirst := h hrelated first first' hvalue hvalue'
  exact hfirst.bind
    (hrest _ _ hvalue hvalue' hfirst.value hfirst.last second second' hwhole hwhole')

end SketchApk
