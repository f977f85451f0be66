import SketchApk.Proofs.Plan.Evolution

/-!
# Two plans side by side

Two plans are carried out in the same surroundings, and what they do is compared request by request.
They match when they end with the same value after histories that differ in nothing but the contents
that are written to some paths. Whatever only depends on calls, events or printed texts is then the
same for both.

What tools do is a function of their call, of the files, and of the number of requests that have
been made before. All other answers are given by that number, so a stop may be requested at any
point.

## Main definitions

* `Surroundings` : a working directory, tools, and the answers to all other requests.
* `Surroundings.Holds` : a condition on the files at each request of a plan.
* `Surroundings.written` : the locations at which a plan writes files.
* `Surroundings.Clears`, `Surroundings.Vacates` : a plan that leaves nothing where it writes files.
* `History.redacted` : a history without what is written to some paths.
* `Surroundings.Matches`, `Surroundings.Alike` : two plans that do the same.
* `Surroundings.Indistinct` : two plans that cannot be told apart.

## Main statements

* `Surroundings.Alike.bind` : plans that consist of parts that do the same do the same.
-/

namespace SketchApk

open Plan Request

/-- A working directory, tools, and the answers to requests that concern neither files nor tools.
The number of requests that have been made before stands for the time. -/
structure Surroundings where
  place : Location
  tools : Nat → Invocation → FileSystem → Except Fault ToolOutput × FileSystem
  answers : Nat → (request : Request) → request.Answer

namespace Exchange

/-- The exchange without the content that is written, if that is written to one of some paths. -/
def redacted (paths : List Path) : Exchange → Exchange
  | ⟨.file (.write path content), answer⟩ =>
    ⟨.file (.write path (if path ∈ paths then .empty else content)), answer⟩
  | entry => entry

theorem redacted_write {paths : List Path} {path : Path} (h : path ∈ paths)
    (content other : Content) (answer : Except FileError Unit) :
    redacted paths ⟨.file (.write path content), answer⟩ =
      redacted paths ⟨.file (.write path other), answer⟩ := by
  rw [redacted, redacted, if_pos h, if_pos h]

end Exchange

namespace History

/-- The history without the contents that are written to some paths. -/
def redacted (paths : List Path) (history : History) : History :=
  history.map (Exchange.redacted paths)

/-- The texts that are printed. -/
def printed (history : History) : List String :=
  history.filterMap fun entry =>
    match entry.request with
    | .print text => some text
    | _ => none

theorem redacted_append (paths : List Path) (history other : History) :
    redacted paths (history ++ other) = redacted paths history ++ redacted paths other :=
  List.map_append

/-- What does not depend on the contents that are written is not changed by leaving them out. -/
theorem filterMap_redacted {γ : Type} {f : Exchange → Option γ}
    (h : ∀ path content answer, f ⟨.file (.write path content), answer⟩ = none)
    (paths : List Path) (history : History) :
    (redacted paths history).filterMap f = history.filterMap f := by
  rw [redacted, List.filterMap_map]
  congr 1
  funext ⟨request, answer⟩
  cases request with
  | file operation =>
    cases operation with
    | write path content => rw [Function.comp_apply, Exchange.redacted, h, h]
    | _ => rfl
  | _ => rfl

theorem calls_redacted (paths : List Path) (history : History) :
    (redacted paths history).calls = history.calls :=
  filterMap_redacted (fun _ _ _ => rfl) paths history

theorem deliveries_redacted (paths : List Path) (history : History) :
    (redacted paths history).deliveries = history.deliveries :=
  filterMap_redacted (fun _ _ _ => rfl) paths history

theorem printed_redacted (paths : List Path) (history : History) :
    (redacted paths history).printed = history.printed :=
  filterMap_redacted (fun _ _ _ => rfl) paths history

end History

namespace Plan

variable {α β σ : Type}

theorem history_bind (answer : (request : Request) → σ → request.Answer × σ) (plan : Plan α)
    (f : α → Plan β) (s : σ) :
    (plan.bind f).history answer s = plan.history answer s ++
      (f (plan.run answer s).1).history answer (plan.run answer s).2 := by
  induction plan generalizing s with
  | done value => rfl
  | step request next ih =>
    simp only [step_bind, history, run, ih, List.cons_append]

end Plan

/-- The request leaves files as they are, and it calls no tool. -/
def Request.Looks : Request → Prop
  | .file (.inspect _) => True
  | .file _ | .call _ => False
  | _ => True

theorem Request.Looks.isWriteless {request : Request} (h : request.Looks) : request.IsWriteless := by
  cases request with
  | file operation =>
    cases operation with
    | inspect path => trivial
    | _ => cases h
  | call => cases h
  | _ => trivial

/-- The location at which a request writes a file, if it does. -/
def Request.writtenAt (cwd : Location) (files : FileSystem) : Request → List Location
  | .file (.write path content) =>
    match files.resolve cwd .created path, files.overwrite cwd path content none with
    | .ok target, .ok _ => [target.place]
    | _, _ => []
  | _ => []

theorem Request.writtenAt_of_error {cwd : Location} {files : FileSystem} {path : Path}
    {content : Content} {error : FileError}
    (h : files.overwrite cwd path content none = .error error) :
    writtenAt cwd files (.file (.write path content)) = [] := by
  rw [writtenAt, h]
  split
  · cases ‹Except.error _ = Except.ok _›
  · rfl

theorem Request.IsWriteless.writtenAt_eq_nil {request : Request} (h : request.IsWriteless)
    (cwd : Location) (files : FileSystem) : request.writtenAt cwd files = [] := by
  cases request with
  | file operation =>
    cases operation with
    | write => cases h
    | _ => rfl
  | _ => rfl

namespace Surroundings

variable {α β : Type}

section Running

variable (surroundings : Surroundings)

/-- The answer to a request, with the files and the number of requests behind it. -/
def answer : (request : Request) → FileSystem × Nat → request.Answer × FileSystem × Nat
  | .file operation, (files, count) =>
    let result := operation.run surroundings.place files
    (result.1, result.2, count + 1)
  | .call invocation, (files, count) =>
    let result := surroundings.tools count invocation files
    (result.1, result.2, count + 1)
  | request, (files, count) => (surroundings.answers count request, files, count + 1)

theorem answer_of_leavesFiles {request : Request} (h : request.LeavesFiles)
    (files : FileSystem) (count : Nat) :
    surroundings.answer request (files, count) =
      (surroundings.answers count request, files, count + 1) := by
  cases request with
  | file | call => cases h
  | _ => rfl

theorem answer_write_of_ok {files written : FileSystem} {path : Path} {content : Content}
    (h : files.overwrite surroundings.place path content none = .ok written) (count : Nat) :
    surroundings.answer (.file (.write path content)) (files, count) =
      (.ok (), written, count + 1) := by
  simp only [answer, FileOperation.run, h, FileOperation.settle]

theorem answer_write_of_error {files : FileSystem} {path : Path} {content : Content}
    {error : FileError}
    (h : files.overwrite surroundings.place path content none = .error error) (count : Nat) :
    surroundings.answer (.file (.write path content)) (files, count) =
      (.error error, files, count + 1) := by
  simp only [answer, FileOperation.run, h, FileOperation.settle]

/-- A condition holds at each request of a plan, of the files at that time. -/
def Holds (condition : Request → FileSystem → Bool) : Plan α → FileSystem × Nat → Bool
  | .done _, _ => true
  | .step request next, start =>
    let reply := surroundings.answer request start
    condition request start.1 && Holds condition (next reply.1) reply.2

variable {condition : Request → FileSystem → Bool}

theorem holds_bind {plan : Plan α} {f : α → Plan β} {start : FileSystem × Nat} :
    surroundings.Holds condition (plan.bind f) start =
      (surroundings.Holds condition plan start &&
        surroundings.Holds condition (f (plan.run surroundings.answer start).1)
          (plan.run surroundings.answer start).2) := by
  induction plan generalizing start with
  | done value => rfl
  | step request next ih => simp only [step_bind, Holds, run, ih, Bool.and_assoc]

/-- The locations at which a plan writes files. -/
def written : Plan α → FileSystem × Nat → List Location
  | .done _, _ => []
  | .step request next, start =>
    let reply := surroundings.answer request start
    request.writtenAt surroundings.place start.1 ++ written (next reply.1) reply.2

theorem written_bind {plan : Plan α} {f : α → Plan β} {start : FileSystem × Nat} :
    surroundings.written (plan.bind f) start = surroundings.written plan start ++
      surroundings.written (f (plan.run surroundings.answer start).1)
        (plan.run surroundings.answer start).2 := by
  induction plan generalizing start with
  | done value => rfl
  | step request next ih => simp only [step_bind, written, run, ih, List.append_assoc]

theorem written_eq_nil {plan : Plan α} (h : plan.Only IsWriteless) (start : FileSystem × Nat) :
    surroundings.written plan start = [] := by
  induction h generalizing start with
  | done value => rfl
  | step h _ ih => rw [written, h.writtenAt_eq_nil, ih, List.append_nil]

/-- A request that only looks at files leaves them as they are. -/
theorem answer_of_looks {request : Request} (h : request.Looks) (start : FileSystem × Nat) :
    (surroundings.answer request start).2.1 = start.1 := by
  cases request with
  | file operation =>
    cases operation with
    | inspect path => rfl
    | _ => cases h
  | call => cases h
  | _ => rfl

/-- A plan that only looks at files leaves them as they are. -/
theorem files_eq_of_looks {plan : Plan α} (h : plan.Only Looks) (start : FileSystem × Nat) :
    (plan.run surroundings.answer start).2.1 = start.1 := by
  induction h generalizing start with
  | done value => rfl
  | step h _ ih => rw [run, ih, surroundings.answer_of_looks h]

variable (condition) in
/-- At its end the plan has left nothing at the locations at which it has written files. -/
def Clears (plan : Plan α) : Prop :=
  ∀ start, surroundings.Holds condition plan start = true →
    ∀ there ∈ surroundings.written plan start, (plan.run surroundings.answer start).2.1.get? there = none

namespace Clears

variable {surroundings}

theorem of_isWriteless {plan : Plan α} (h : plan.Only IsWriteless) :
    surroundings.Clears condition plan := by
  intro start _
  rw [surroundings.written_eq_nil h]
  exact fun _ hmem => absurd hmem List.not_mem_nil

/-- A part that writes no file may come first. -/
theorem attemptBind {attempt : Attempt α} {f : α → Attempt β} (h : attempt.run.Only IsWriteless)
    (hf : ∀ value, surroundings.Clears condition (f value).run) :
    surroundings.Clears condition (attempt >>= f).run := by
  intro start hholds
  rw [Attempt.run_bind, holds_bind, Bool.and_eq_true] at hholds
  rw [Attempt.run_bind, surroundings.written_bind, surroundings.written_eq_nil h, List.nil_append,
    run_bind]
  generalize attempt.run.run surroundings.answer start = reached at hholds ⊢
  rcases reached with ⟨fault | value, later⟩
  · exact fun _ hmem => absurd hmem List.not_mem_nil
  · exact hf value later hholds.2

/-- A part that leaves files as they are may come last. -/
theorem attemptBind_looks {attempt : Attempt α} {f : α → Attempt β}
    (h : surroundings.Clears condition attempt.run) (hf : ∀ value, (f value).run.Only Looks) :
    surroundings.Clears condition (attempt >>= f).run := by
  intro start hholds
  rw [Attempt.run_bind, holds_bind, Bool.and_eq_true] at hholds
  have hproceed (result : Except Fault α) : (Attempt.proceed f result).Only Looks := by
    cases result with
    | error fault => exact .done _
    | ok value => exact hf value
  rw [Attempt.run_bind, surroundings.written_bind, run_bind,
    surroundings.written_eq_nil ((hproceed _).mono fun _ => Looks.isWriteless), List.append_nil,
    surroundings.files_eq_of_looks (hproceed _)]
  exact h start hholds.1

end Clears

variable (condition) in
/-- When a plan begins with files that meet a condition, it has left nothing at its end at some
locations, nor at those at which it has written files. -/
def Vacates (earlier : FileSystem → Prop) (places : List Location) (plan : Plan α) : Prop :=
  ∀ start, earlier start.1 → surroundings.Holds condition plan start = true →
    ∀ there ∈ places ++ surroundings.written plan start,
      (plan.run surroundings.answer start).2.1.get? there = none

namespace Vacates

variable {surroundings} {earlier between : FileSystem → Prop} {places more : List Location}

theorem of_isWriteless {plan : Plan α} (h : plan.Only IsWriteless)
    (hnone : ∀ start, earlier start.1 → surroundings.Holds condition plan start = true →
      ∀ there ∈ places, (plan.run surroundings.answer start).2.1.get? there = none) :
    surroundings.Vacates condition earlier places plan := by
  intro start hstart hholds
  rw [surroundings.written_eq_nil h, List.append_nil]
  exact hnone start hstart hholds

/-- What the first part has written is left to the second one. -/
theorem bind {plan : Plan α} {f : α → Plan β}
    (h : ∀ start, earlier start.1 → surroundings.Holds condition plan start = true →
      surroundings.written plan start ⊆ more ∧ between (plan.run surroundings.answer start).2.1)
    (hf : ∀ value, surroundings.Vacates condition between (places ++ more) (f value)) :
    surroundings.Vacates condition earlier places (plan.bind f) := by
  intro start hstart hholds there hthere
  rw [holds_bind, Bool.and_eq_true] at hholds
  obtain ⟨hwritten, hbetween⟩ := h start hstart hholds.1
  rw [run_bind]
  refine hf _ _ hbetween hholds.2 there ?_
  rw [written_bind, ← List.append_assoc] at hthere
  have hsubset : places ++ surroundings.written plan start ⊆ places ++ more :=
    List.append_subset.mpr ⟨List.subset_append_left _ _, List.subset_append_of_subset_right _ hwritten⟩
  rcases List.mem_append.mp hthere with hthere | hthere
  · exact List.mem_append_left _ (hsubset hthere)
  · exact List.mem_append_right _ hthere

end Vacates

/-- While a plan is carried out in surroundings, files evolve as in its history. -/
theorem evolves_history (plan : Plan α) (files : FileSystem) (count : Nat) :
    FileSystem.Evolves surroundings.place files (plan.history surroundings.answer (files, count))
      (plan.run surroundings.answer (files, count)).2.1 := by
  induction plan generalizing files count with
  | done value => exact .nil files
  | step request next ih =>
    cases request with
    | file operation => exact .file operation (ih _ _ _)
    | call invocation => exact .call invocation _ (ih _ _ _)
    | _ => exact .other trivial (ih _ _ _)

end Running

variable (surroundings : Surroundings) (paths : List Path)

/-- A plan and another one, which are begun in the same state, cannot be told apart, except by what
is written to some paths. -/
structure Indistinct (plan other : Plan α) (start : FileSystem × Nat) : Prop where
  /-- They end with the same value, and leave the same files. -/
  run_eq : other.run surroundings.answer start = plan.run surroundings.answer start
  /-- They make the same requests, and these have the same answers. -/
  history_eq : (other.history surroundings.answer start).redacted paths =
    (plan.history surroundings.answer start).redacted paths
  /-- So they call the same tools. -/
  calls_eq : (other.history surroundings.answer start).calls =
    (plan.history surroundings.answer start).calls
  /-- They tell the same events. -/
  deliveries_eq : (other.history surroundings.answer start).deliveries =
    (plan.history surroundings.answer start).deliveries
  /-- They print the same texts. -/
  printed_eq : (other.history surroundings.answer start).printed =
    (plan.history surroundings.answer start).printed

/-- Two plans, each begun in some state, end with the same value after the same number of requests.
Their histories are the same but for what is written to some paths, and the files at their ends are
related in some way. -/
structure Matches (later : FileSystem → FileSystem → Prop) (plan other : Plan α)
    (start start' : FileSystem × Nat) : Prop where
  value : (other.run surroundings.answer start').1 = (plan.run surroundings.answer start).1
  count : (other.run surroundings.answer start').2.2 = (plan.run surroundings.answer start).2.2
  files : later (plan.run surroundings.answer start).2.1 (other.run surroundings.answer start').2.1
  history : (other.history surroundings.answer start').redacted paths =
    (plan.history surroundings.answer start).redacted paths

variable (condition : Request → FileSystem → Bool)

/-- Two plans match whenever they are begun at the same time, with files that are related, and a
condition holds at each request of the first one. -/
def Alike (related later : FileSystem → FileSystem → Prop) (plan other : Plan α) : Prop :=
  ∀ files files' count, related files files' → surroundings.Holds condition plan (files, count) →
    surroundings.Matches paths later plan other (files, count) (files', count)

variable {surroundings paths} in
/-- Plans that match and leave the same files cannot be told apart. -/
theorem Matches.indistinct {plan other : Plan α} {start : FileSystem × Nat}
    (h : surroundings.Matches paths Eq plan other start start) :
    surroundings.Indistinct paths plan other start where
  run_eq := Prod.ext h.value (Prod.ext h.files.symm h.count)
  history_eq := h.history
  calls_eq := by rw [← History.calls_redacted paths, h.history, History.calls_redacted]
  deliveries_eq := by
    rw [← History.deliveries_redacted paths, h.history, History.deliveries_redacted]
  printed_eq := by rw [← History.printed_redacted paths, h.history, History.printed_redacted]

namespace Alike

variable {surroundings paths condition} {related between later : FileSystem → FileSystem → Prop}

/-- A plan does the same as itself. -/
theorem refl (plan : Plan α) : surroundings.Alike paths condition Eq Eq plan plan := by
  rintro files _ count rfl -
  exact ⟨rfl, rfl, rfl, rfl⟩

theorem done (value : α) (h : ∀ files files', related files files' → later files files') :
    surroundings.Alike paths condition related later (.done value) (.done value) :=
  fun files files' _ hrelated _ => ⟨rfl, rfl, h files files' hrelated, rfl⟩

/-- Plans that consist of parts that do the same do the same. -/
theorem bind {plan other : Plan α} {f g : α → Plan β}
    (h : surroundings.Alike paths condition related between plan other)
    (hf : ∀ value, surroundings.Alike paths condition between later (f value) (g value)) :
    surroundings.Alike paths condition related later (plan.bind f) (other.bind g) := by
  intro files files' count hrelated hholds
  rw [holds_bind, Bool.and_eq_true] at hholds
  obtain ⟨hvalue, hcount, hfiles, hhistory⟩ := h files files' count hrelated hholds.1
  have hlater := hf _ _ (other.run surroundings.answer (files', count)).2.1 _ hfiles hholds.2
  have hother : other.run surroundings.answer (files', count) =
      ((plan.run surroundings.answer (files, count)).1,
        (other.run surroundings.answer (files', count)).2.1,
        (plan.run surroundings.answer (files, count)).2.2) := by
    rw [← hvalue, ← hcount]
  constructor
  · rw [run_bind, run_bind, hother]
    exact hlater.value
  · rw [run_bind, run_bind, hother]
    exact hlater.count
  · rw [run_bind, run_bind, hother]
    exact hlater.files
  · rw [history_bind, history_bind, History.redacted_append, History.redacted_append, hhistory, hother]
    exact congrArg _ hlater.history

theorem weaken {earlier last : FileSystem → FileSystem → Prop} {plan other : Plan α}
    (h : surroundings.Alike paths condition related later plan other)
    (hrelated : ∀ files files', earlier files files' → related files files')
    (hlater : ∀ files files', later files files' → last files files') :
    surroundings.Alike paths condition earlier last plan other := by
  intro files files' count hearlier hholds
  have hmatches := h files files' count (hrelated _ _ hearlier) hholds
  exact { hmatches with files := hlater _ _ hmatches.files }

/-- A request that concerns neither files nor tools is answered in the same way. -/
theorem ask {request : Request} (h : request.LeavesFiles) :
    surroundings.Alike paths condition related related (Plan.ask request) (Plan.ask request) := by
  intro files files' count hrelated _
  have hanswer := surroundings.answer_of_leavesFiles h
  constructor
  · simp only [Plan.ask, run, hanswer]
  · simp only [Plan.ask, run, hanswer]
  · simpa only [Plan.ask, run, hanswer] using hrelated
  · simp only [Plan.ask, Plan.history, hanswer]

/-- An operation on files does the same if it has the same answer. -/
theorem file {operation : FileOperation}
    (h : ∀ files files', related files files' →
      (operation.run surroundings.place files).1 = (operation.run surroundings.place files').1 ∧
        later (operation.run surroundings.place files).2
          (operation.run surroundings.place files').2) :
    surroundings.Alike paths condition related later (Plan.ask (.file operation))
      (Plan.ask (.file operation)) := by
  intro files files' count hrelated _
  obtain ⟨hanswer, hlater⟩ := h files files' hrelated
  refine ⟨hanswer.symm, rfl, hlater, ?_⟩
  simp only [Plan.ask, Plan.history, answer, hanswer]

/-- Writing different contents does the same if it has the same answer. -/
theorem write {path : Path} {content content' : Content} (hpath : path ∈ paths)
    (h : ∀ files files', related files files' →
      ((FileOperation.write path content).run surroundings.place files).1 =
          ((FileOperation.write path content').run surroundings.place files').1 ∧
        later ((FileOperation.write path content).run surroundings.place files).2
          ((FileOperation.write path content').run surroundings.place files').2) :
    surroundings.Alike (α := Except FileError Unit) paths condition related later
      (Plan.ask (.file (.write path content))) (Plan.ask (.file (.write path content'))) := by
  intro files files' count hrelated _
  obtain ⟨hanswer, hlater⟩ := h files files' hrelated
  refine ⟨hanswer.symm, rfl, hlater, ?_⟩
  simp only [Plan.ask, Plan.history, answer, hanswer, History.redacted, List.map_singleton,
    Exchange.redacted_write hpath content content']

/-- A plan that has nothing to do with files does the same with any files. -/
theorem of_leavesFiles {plan : Plan α} (h : plan.Only LeavesFiles) :
    surroundings.Alike paths condition related related plan plan := by
  induction h with
  | done value => exact done value fun _ _ => id
  | step h hnext ih => exact (ask h).bind ih

/-! ### Attempts -/

/-- Attempts that consist of parts that do the same do the same. -/
theorem attemptBind {attempt other : Attempt α} {f g : α → Attempt β}
    (h : surroundings.Alike paths condition related between attempt.run other.run)
    (hlater : ∀ files files', between files files' → later files files')
    (hf : ∀ value, surroundings.Alike paths condition between later (f value).run (g value).run) :
    surroundings.Alike paths condition related later (attempt >>= f).run (other >>= g).run := by
  rw [Attempt.run_bind, Attempt.run_bind]
  refine h.bind fun result => ?_
  cases result with
  | ok value => exact hf value
  | error fault => exact done _ hlater

/-- A part that is skipped unless a condition holds, with another part behind it. -/
theorem guarded {asked : Prop} [Decidable asked] {attempt : Attempt Unit} {rest : Unit → Attempt α}
    (h : surroundings.Alike paths condition related related attempt.run attempt.run)
    (hlater : ∀ files files', related files files' → later files files')
    (hrest : surroundings.Alike paths condition related later (rest ()).run (rest ()).run) :
    surroundings.Alike paths condition related later
      (if asked then attempt >>= rest else rest ()).run
      (if asked then attempt >>= rest else rest ()).run := by
  split
  · exact h.attemptBind hlater fun _ => hrest
  · exact hrest

theorem during {attempt other : Attempt α} (activity : Activity)
    (h : surroundings.Alike paths condition related later attempt.run other.run) :
    surroundings.Alike paths condition related later (attempt.during activity).run
      (other.during activity).run :=
  h.bind fun _ => done _ fun _ _ => id

theorem attemptFile {operation : FileOperation}
    (h : surroundings.Alike paths condition related later (Plan.ask (.file operation))
      (Plan.ask (.file operation))) :
    surroundings.Alike paths condition related later (Attempt.file operation).run
      (Attempt.file operation).run :=
  h.bind fun result => by cases result <;> exact done _ fun _ _ => id

/-- Attempts to write different contents. -/
theorem attemptWrite {path : Path} {content content' : Content}
    (h : surroundings.Alike (α := Except FileError Unit) paths condition related later
      (Plan.ask (.file (.write path content))) (Plan.ask (.file (.write path content')))) :
    surroundings.Alike paths condition related later (Attempt.file (.write path content)).run
      (Attempt.file (.write path content')).run :=
  h.bind fun result => by cases result <;> exact done _ fun _ _ => id

end Alike

end Surroundings

end SketchApk
