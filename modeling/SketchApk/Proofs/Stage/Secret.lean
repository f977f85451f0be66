import SketchApk.Proofs.File.Agreement
import SketchApk.Proofs.Plan.Surroundings
import SketchApk.Proofs.Stage.Work

/-!
# Password files

Passwords are handed over in files of the signing directory that are there for as long as the tool
runs. Two runs with other passwords then keep the same files, but for the contents of these: while
password files are in place the runs agree in everything else, and once the files have been removed
they agree altogether. A password file may fail to be written or to be removed, which does not
depend on what it is to hold.

This needs a signing directory in which the names of the password files are not taken by links, so
that the file that is removed is the file that has been written (`FileSystem.accepts`).

## Main definitions

* `Surroundings.Discreet` : tools that do not look at the files of some names in a directory.
* `BuildConfig.passwordNames` : the names of the password files of a build.
* `BuildConfig.withPasswords` : the same build with other passwords.

## Main statements

* `Stage.alike_runSign` : signing is the same for any passwords.
* `Stage.clears_runSign` : signing leaves nothing where it has written passwords.
-/

namespace SketchApk

open Plan Request

/-- A file that is written under one of some names in a directory is accepted there. -/
def Request.isAccepted (cwd : Location) (directory : Path) (names : List String) :
    Request → FileSystem → Bool
  | .file (.write path _), files =>
    names.all fun name => path ≠ directory / name || files.accepts cwd directory name
  | _, _ => true

theorem Request.accepts_of_isAccepted {cwd : Location} {directory : Path} {names : List String}
    {name : String} {content : Content} {files : FileSystem} (hname : name ∈ names)
    (h : isAccepted cwd directory names (.file (.write (directory / name) content)) files = true) :
    files.accepts cwd directory name = true := by
  simpa using List.all_eq_true.mp h name hname

/-- What tools do does not depend on the contents of files of some names in a directory. They leave
the directory where it is and create nothing but files of these names there, unless they remove
these files altogether. -/
structure Surroundings.Discreet (surroundings : Surroundings) (directory : Path)
    (names : List String) : Prop where
  takes (count : Nat) (invocation : Invocation) {files : FileSystem} {place : Location}
    (h : files.Takes surroundings.place directory place names) :
    (surroundings.tools count invocation files).2.Takes surroundings.place directory place names ∨
      ∀ name ∈ names, (surroundings.tools count invocation files).2.get? (place ++ [name]) = none
  same (count : Nat) (invocation : Invocation) {files other : FileSystem} {place : Location}
    (h : FileSystem.AgreeIn surroundings.place directory place names files other) :
    (surroundings.tools count invocation files).1 =
        (surroundings.tools count invocation other).1 ∧
      FileSystem.AgreeBut (names.map (place ++ [·]))
        (surroundings.tools count invocation files).2 (surroundings.tools count invocation other).2

namespace Surroundings.Discreet

variable {α : Type} {surroundings : Surroundings} {paths : List Path}
  {condition : Request → FileSystem → Bool} {directory : Path} {names : List String}

/-- A call does the same with files whose contents do not show. -/
theorem alike_call (h : surroundings.Discreet directory names) (place : Location)
    (invocation : Invocation) :
    surroundings.Alike paths condition
      (FileSystem.AgreeIn surroundings.place directory place names)
      (FileSystem.AgreeOutside surroundings.place directory place names)
      (ask (.call invocation)) (ask (.call invocation)) := by
  intro files files' count hagree _
  obtain ⟨hanswer, hfiles⟩ := h.same count invocation hagree
  refine ⟨hanswer.symm, rfl, ?_, ?_⟩
  · rcases h.takes count invocation hagree.takes with htakes | hnone
    · exact .inl ⟨htakes, hfiles⟩
    · refine .inr ⟨hfiles.eq_of_forall_none fun place hplace => ?_, hnone⟩
      obtain ⟨name, hname, rfl⟩ := List.mem_map.mp hplace
      exact hnone name hname
  · simp only [Plan.ask, Plan.history, answer, hanswer]

/-- Running a command does the same with files whose contents do not show. -/
theorem alike_runCommand (h : surroundings.Discreet directory names) (place : Location)
    (context : StageContext) (command : Command) :
    surroundings.Alike paths condition
      (FileSystem.AgreeIn surroundings.place directory place names)
      (FileSystem.AgreeOutside surroundings.place directory place names)
      (context.runCommand command).run (context.runCommand command).run := by
  have hprint (text : String) : (Request.print text).LeavesFiles := trivial
  have hrun : surroundings.Alike paths condition
      (FileSystem.AgreeIn surroundings.place directory place names)
      (FileSystem.AgreeOutside surroundings.place directory place names)
      command.run.run command.run.run := by
    refine Surroundings.Alike.attemptBind (h.alike_call place _) (fun _ _ => id) fun output => ?_
    split <;> exact .done _ fun _ _ => id
  rw [StageContext.runCommand]
  refine .guarded (.of_leavesFiles (only_printLine hprint _).always) (fun _ _ => .inl) ?_
  dsimp only
  refine hrun.attemptBind (fun _ _ => id) fun output => .of_leavesFiles ?_
  split
  · refine (StageContext.only_echo hprint _).always.attemptBind fun _ => ?_
    exact (StageContext.only_echo hprint _).always
  · exact Only.of_pure _

end Surroundings.Discreet

namespace PasswordFile

variable {α : Type} {surroundings : Surroundings} {paths : List Path}
  {condition : Request → FileSystem → Bool} {directory : Path} {place : Location}
  {done names : List String} {name : String}

/-- Writing a password file does the same for any password, in a directory that takes it. -/
theorem alike_write {file other : PasswordFile} (hpath : file.path = directory / name)
    (hpath' : other.path = directory / name) (hmem : directory / name ∈ paths)
    (hentry : FileSystem.IsEntry directory name) :
    surroundings.Alike paths condition
      (fun files files' => FileSystem.AgreeIn surroundings.place directory place done files files' ∧
        files.Takes surroundings.place directory place (done ++ [name]))
      (FileSystem.AgreeIn surroundings.place directory place (done ++ [name]))
      file.write.run other.write.run := by
  rw [write, write, hpath, hpath']
  refine Surroundings.Alike.attemptBind (.during _ (.attemptWrite (.write hmem ?_)))
    (fun _ _ => id) fun _ => ?_
  · exact fun files files' h => h.1.write h.2 hentry _ _
  · refine .during _ (.attemptFile (.file ?_))
    exact fun files files' h => h.setMode List.mem_concat_self hentry mode

theorem alike_remove {file other : PasswordFile} (hpath : file.path = directory / name)
    (hpath' : other.path = directory / name) (hentry : FileSystem.IsEntry directory name) :
    surroundings.Alike paths condition
      (FileSystem.AgreeOutside surroundings.place directory place (name :: names))
      (FileSystem.AgreeOutside surroundings.place directory place names) file.remove other.remove := by
  rw [remove, remove, hpath, hpath']
  exact Surroundings.Alike.bind (.file fun _ _ h => h.remove hentry) fun _ => .done _ fun _ _ => id

/-- The password files have these names in a directory, to which all of the names can be given. -/
structure AreEntries (directory : Path) (names : List String) (files : List PasswordFile) :
    Prop where
  map_path : files.map (·.path) = names.map (directory / ·)
  isEntry : ∀ name ∈ names, FileSystem.IsEntry directory name

namespace AreEntries

variable {file other : PasswordFile} {files others : List PasswordFile}

theorem nil (directory : Path) : AreEntries directory [] [] :=
  ⟨rfl, List.forall_mem_nil _⟩

theorem concat (h : AreEntries directory names files) (hpath : file.path = directory / name)
    (hentry : FileSystem.IsEntry directory name) :
    AreEntries directory (names ++ [name]) (files ++ [file]) where
  map_path := by
    rw [List.map_append, List.map_append, h.map_path, List.map_singleton, List.map_singleton, hpath]
  isEntry := List.forall_mem_append.mpr ⟨h.isEntry, List.forall_mem_singleton.mpr hentry⟩

theorem eq_nil (h : AreEntries directory [] files) : files = [] :=
  List.map_eq_nil_iff.mp h.map_path

theorem exists_cons (h : AreEntries directory (name :: names) files) :
    ∃ file rest, files = file :: rest ∧ file.path = directory / name ∧
      FileSystem.IsEntry directory name ∧ AreEntries directory names rest := by
  obtain ⟨hentry, hentries⟩ := List.forall_mem_cons.mp h.isEntry
  obtain ⟨file, rest, rfl, hpath, hrest⟩ := List.map_eq_cons_iff.mp h.map_path
  exact ⟨file, rest, rfl, hpath, hentry, hrest, hentries⟩

/-- When password files are removed no difference is left. -/
theorem alike_removeAll (h : AreEntries directory names files)
    (h' : AreEntries directory names others) :
    surroundings.Alike paths condition
      (FileSystem.AgreeOutside surroundings.place directory place names) Eq
      (removeAll files) (removeAll others) := by
  induction names generalizing files others with
  | nil =>
    rw [h.eq_nil, h'.eq_nil]
    exact .done () fun _ _ => FileSystem.AgreeOutside.eq
  | cons name names ih =>
    obtain ⟨file, rest, rfl, hpath, hentry, hrest⟩ := h.exists_cons
    obtain ⟨other, rest', rfl, hpath', -, hrest'⟩ := h'.exists_cons
    exact (alike_remove hpath hpath' hentry).bind fun _ => ih hrest hrest'

end AreEntries

theorem isWriteless_removeAll (files : List PasswordFile) : (removeAll files).Only IsWriteless :=
  only_removeAll fun file _ => (trivial : IsWriteless (.file (.removeFile file.path)))

theorem removeAll_concat (files : List PasswordFile) (file : PasswordFile) :
    removeAll (files ++ [file]) = (removeAll files).bind fun _ => removeAll [file] := by
  exact List.forM_append

/-- The last of the files that are removed may be any file. -/
theorem AreEntries.alike_removeAll_concat {file other : PasswordFile}
    {files others : List PasswordFile} (h : AreEntries directory names files)
    (h' : AreEntries directory names others) (hpath : other.path = file.path) :
    surroundings.Alike paths condition
      (FileSystem.AgreeOutside surroundings.place directory place names) Eq
      (removeAll (files ++ [file])) (removeAll (others ++ [other])) := by
  have hremove : other.remove = file.remove := by rw [remove, remove, hpath]
  have hlast : removeAll [other] = removeAll [file] := by
    simp only [removeAll, List.forM, hremove]
  rw [removeAll_concat, removeAll_concat, hlast]
  exact (h.alike_removeAll h').bind fun _ => .refl _

/-- The fault of a password file that cannot be written. -/
def writeFault (file : PasswordFile) (error : FileError) : Fault :=
  Fault.during { cause := .file error } (.writing file.path)

theorem run_guardingAfter_nil (attempt : Attempt α) (reached : List PasswordFile) :
    (guardingAfter attempt reached []).run = attempt.run.bind fun result =>
      (removeAll reached).bind fun _ => .done result :=
  rfl

theorem run_guardingAfter_cons (attempt : Attempt α) (reached : List PasswordFile)
    (file : PasswordFile) (rest : List PasswordFile) :
    (guardingAfter attempt reached (file :: rest)).run =
      file.write.run.bind (Attempt.proceedOr (removeAll (reached ++ [file])) fun _ =>
        guardingAfter attempt (reached ++ [file]) rest) :=
  Attempt.run_undoneBy_bind _ _ _

/-- An attempt with more password files in place begins with writing the first of them. When that
fails, the files that have been reached are removed at once, and nothing else is done. -/
theorem exists_guardingAfter_cons (attempt : Attempt α) (reached : List PasswordFile)
    (file : PasswordFile) (rest : List PasswordFile) :
    ∃ next : Except FileError Unit → Plan (Except Fault α),
      (guardingAfter attempt reached (file :: rest)).run =
          .step (.file (.write file.path (.ofText file.password))) next ∧
        ∀ error, next (.error error) = (removeAll (reached ++ [file])).bind fun _ =>
          .done (.error (file.writeFault error)) := by
  rw [run_guardingAfter_cons]
  exact ⟨_, rfl, fun _ => rfl⟩

/-- The first password file is accepted if all of them are. -/
theorem accepts_of_holds {attempt : Attempt α} {file : PasswordFile}
    {reached rest : List PasswordFile} {all : List String} {files : FileSystem} {count : Nat}
    (hpath : file.path = directory / name) (hname : name ∈ all)
    (h : surroundings.Holds (isAccepted surroundings.place directory all)
      (guardingAfter attempt reached (file :: rest)).run (files, count) = true) :
    files.accepts surroundings.place directory name = true := by
  obtain ⟨next, hguarding, -⟩ := exists_guardingAfter_cons attempt reached file rest
  rw [hguarding, Surroundings.Holds, Bool.and_eq_true, hpath] at h
  exact accepts_of_isAccepted hname h.1

section Unwritten

variable {attempt attempt' : Attempt α} {file other : PasswordFile}
  {reached reached' rest rest' : List PasswordFile} {files files' : FileSystem} {error : FileError}

theorem run_guardingAfter_of_error (attempt : Attempt α) (reached rest : List PasswordFile)
    (h : files.overwrite surroundings.place file.path (.ofText file.password) none = .error error)
    (count : Nat) :
    (guardingAfter attempt reached (file :: rest)).run.run surroundings.answer (files, count) =
        (.error (file.writeFault error),
          ((removeAll (reached ++ [file])).run surroundings.answer (files, count + 1)).2) ∧
      (guardingAfter attempt reached (file :: rest)).run.history surroundings.answer (files, count) =
        ⟨.file (.write file.path (.ofText file.password)), (.error error : Except FileError Unit)⟩ ::
          (removeAll (reached ++ [file])).history surroundings.answer (files, count + 1) := by
  obtain ⟨next, hguarding, hnext⟩ := exists_guardingAfter_cons attempt reached file rest
  rw [hguarding, run, history, surroundings.answer_write_of_error h]
  simp only [hnext, run_bind, history_bind, run, history, List.append_nil, and_self]

theorem holds_removeAll_of_error
    (h : files.overwrite surroundings.place file.path (.ofText file.password) none = .error error)
    {count : Nat} (hholds : surroundings.Holds condition
      (guardingAfter attempt reached (file :: rest)).run (files, count) = true) :
    surroundings.Holds condition (removeAll (reached ++ [file])) (files, count + 1) = true := by
  obtain ⟨next, hguarding, hnext⟩ := exists_guardingAfter_cons attempt reached file rest
  rw [hguarding, Surroundings.Holds, surroundings.answer_write_of_error h, Bool.and_eq_true] at hholds
  dsimp only at hholds
  rw [hnext, Surroundings.holds_bind, Bool.and_eq_true] at hholds
  exact hholds.2.1

/-- Two password files that cannot be written do the same if removing the files does. -/
theorem matches_of_error {earlier later : FileSystem → FileSystem → Prop}
    (hpath : other.path = file.path) (hmem : file.path ∈ paths)
    (hwrite : files.overwrite surroundings.place file.path (.ofText file.password) none =
      .error error)
    (hwrite' : files'.overwrite surroundings.place file.path (.ofText other.password) none =
      .error error)
    (hremove : surroundings.Alike paths condition earlier later (removeAll (reached ++ [file]))
      (removeAll (reached' ++ [other]))) (hearlier : earlier files files') {count : Nat}
    (hholds : surroundings.Holds condition (guardingAfter attempt reached (file :: rest)).run
      (files, count) = true) :
    surroundings.Matches paths later (guardingAfter attempt reached (file :: rest)).run
      (guardingAfter attempt' reached' (other :: rest')).run (files, count) (files', count) := by
  rw [← hpath] at hwrite'
  obtain ⟨hrun, hhistory⟩ := run_guardingAfter_of_error attempt reached rest hwrite count
  obtain ⟨hrun', hhistory'⟩ := run_guardingAfter_of_error attempt' reached' rest' hwrite' count
  have hmatches := hremove files files' (count + 1) hearlier (holds_removeAll_of_error hwrite hholds)
  constructor
  · rw [hrun, hrun', writeFault, writeFault, hpath]
  · rw [hrun, hrun']
    exact hmatches.count
  · rw [hrun, hrun']
    exact hmatches.files
  · rw [hhistory, hhistory', hpath]
    exact congrArg₂ List.cons (Exchange.redacted_write hmem _ _ _) hmatches.history

/-- When the first password file cannot be written, no file is written. -/
theorem written_of_error
    (h : files.overwrite surroundings.place file.path (.ofText file.password) none = .error error)
    (count : Nat) :
    surroundings.written (guardingAfter attempt reached (file :: rest)).run (files, count) = [] := by
  obtain ⟨next, hguarding, hnext⟩ := exists_guardingAfter_cons attempt reached file rest
  rw [hguarding, Surroundings.written, writtenAt_of_error h, List.nil_append,
    surroundings.answer_write_of_error h]
  dsimp only
  rw [hnext]
  exact Surroundings.written_eq_nil _ ((isWriteless_removeAll _).bind fun _ => Only.done _) _

end Unwritten

/-- Writing one more password file, and going on or removing the files that have been reached, does
the same for any passwords if going on does. -/
theorem alike_guardingAfter_cons {attempt attempt' : Attempt α} {file other : PasswordFile}
    {reached reached' rest rest' : List PasswordFile} (hreached : AreEntries directory done reached)
    (hreached' : AreEntries directory done reached') (hpath : file.path = directory / name)
    (hpath' : other.path = directory / name) (hentry : FileSystem.IsEntry directory name)
    (hmem : directory / name ∈ paths)
    (h : surroundings.Alike paths condition
      (FileSystem.AgreeIn surroundings.place directory place (done ++ [name])) Eq
      (guardingAfter attempt (reached ++ [file]) rest).run
      (guardingAfter attempt' (reached' ++ [other]) rest').run) :
    surroundings.Alike paths condition
      (fun files files' => FileSystem.AgreeIn surroundings.place directory place done files files' ∧
        files.Takes surroundings.place directory place (done ++ [name])) Eq
      (guardingAfter attempt reached (file :: rest)).run
      (guardingAfter attempt' reached' (other :: rest')).run := by
  rw [run_guardingAfter_cons, run_guardingAfter_cons]
  refine (alike_write hpath hpath' hmem hentry).bind fun result => ?_
  cases result with
  | ok => exact h
  | error fault =>
    have hmore := hreached.concat hpath hentry
    refine Surroundings.Alike.bind ?_ fun _ => .refl _
    exact (hmore.alike_removeAll (hreached'.concat hpath' hentry)).weaken (fun _ _ => .inl)
      fun _ _ => id

/-- With more password files in place an attempt does the same for any passwords, if it does so with
files whose contents do not show. No difference is left. -/
theorem alike_guardingAfter {all done : List String}
    (hall : ∀ name ∈ all, Path.IsName name ∧ name.utf8ByteSize ≤ maxNameBytes)
    {attempt attempt' : Attempt α} {reached reached' files others : List PasswordFile}
    (hreached : AreEntries directory done reached) (hreached' : AreEntries directory done reached')
    (hfiles : files.map (·.path) = names.map (directory / ·))
    (hothers : others.map (·.path) = names.map (directory / ·)) (hnames : names ⊆ all)
    (h : surroundings.Alike (all.map (directory / ·)) (isAccepted surroundings.place directory all)
      (FileSystem.AgreeIn surroundings.place directory place (done ++ names))
      (FileSystem.AgreeOutside surroundings.place directory place (done ++ names))
      attempt.run attempt'.run) :
    surroundings.Alike (all.map (directory / ·)) (isAccepted surroundings.place directory all)
      (FileSystem.AgreeIn surroundings.place directory place done) Eq
      (guardingAfter attempt reached files).run (guardingAfter attempt' reached' others).run := by
  induction names generalizing done reached reached' files others with
  | nil =>
    rw [List.append_nil] at h
    obtain rfl := List.map_eq_nil_iff.mp hfiles
    obtain rfl := List.map_eq_nil_iff.mp hothers
    exact h.bind fun result => (hreached.alike_removeAll hreached').bind fun _ => .refl _
  | cons name names ih =>
    obtain ⟨file, rest, rfl, hpath, hrest⟩ := List.map_eq_cons_iff.mp hfiles
    obtain ⟨other, rest', rfl, hpath', hrest'⟩ := List.map_eq_cons_iff.mp hothers
    obtain ⟨hnameAll, hnames⟩ := List.cons_subset.mp hnames
    obtain ⟨hname, hshort⟩ := hall name hnameAll
    have hmem : directory / name ∈ all.map (directory / ·) := List.mem_map_of_mem hnameAll
    intro fs fs' count hagree hholds
    have haccepts := accepts_of_holds hpath hnameAll hholds
    rcases hagree.takes.concat hname hshort haccepts (done.map (place ++ [·])) with
      ⟨error, hbarred⟩ | ⟨hentry, htakes⟩
    · have hwrite := hbarred fs (.refl _ _)
      have hwrite' := hbarred fs' hagree.agree
      rw [show directory / name = file.path from hpath.symm] at hwrite hwrite' hmem
      have hsame : other.path = file.path := hpath'.trans hpath.symm
      exact matches_of_error hsame hmem (hwrite _) (hwrite' _)
        (hreached.alike_removeAll_concat hreached' hsame) (.inl hagree) hholds
    · have hinner := ih (hreached.concat hpath hentry) (hreached'.concat hpath' hentry) hrest hrest'
        hnames (by simpa using h)
      exact alike_guardingAfter_cons hreached hreached' hpath hpath' hentry hmem hinner fs fs' count
        ⟨hagree, htakes⟩ hholds

/-- With password files in place an attempt does the same for any passwords, and no difference is
left. -/
theorem alike_guarding {all : List String}
    (hall : ∀ name ∈ all, Path.IsName name ∧ name.utf8ByteSize ≤ maxNameBytes)
    (hdirectory : directory.isEmpty = false) {attempt attempt' : Attempt α}
    {file other : PasswordFile} {rest rest' : List PasswordFile}
    (hfiles : (file :: rest).map (·.path) = (name :: names).map (directory / ·))
    (hothers : (other :: rest').map (·.path) = (name :: names).map (directory / ·))
    (hnames : name :: names ⊆ all)
    (h : ∀ place,
      surroundings.Alike (all.map (directory / ·)) (isAccepted surroundings.place directory all)
        (FileSystem.AgreeIn surroundings.place directory place (name :: names))
        (FileSystem.AgreeOutside surroundings.place directory place (name :: names))
        attempt.run attempt'.run) :
    surroundings.Alike (all.map (directory / ·)) (isAccepted surroundings.place directory all) Eq Eq
      (guarding attempt (file :: rest)).run (guarding attempt' (other :: rest')).run := by
  rintro fs _ count rfl hholds
  have hpath : file.path = directory / name := List.head_eq_of_cons_eq hfiles
  have hpath' : other.path = directory / name := List.head_eq_of_cons_eq hothers
  obtain ⟨hnameAll, -⟩ := List.cons_subset.mp hnames
  obtain ⟨hname, hshort⟩ := hall name hnameAll
  have haccepts := accepts_of_holds hpath hnameAll hholds
  rcases FileSystem.exists_takes_of_accepts hname hshort hdirectory haccepts with
    ⟨error, herror⟩ | ⟨place, htakes⟩
  · have hmem : file.path ∈ all.map (directory / ·) := hpath ▸ List.mem_map_of_mem hnameAll
    have hsame : other.path = file.path := hpath'.trans hpath.symm
    rw [← hpath] at herror
    have hnothing : FileSystem.AgreeOutside surroundings.place directory [] [] fs fs :=
      .inr ⟨rfl, List.forall_mem_nil _⟩
    exact matches_of_error hsame hmem (herror _) (herror _)
      ((AreEntries.nil directory).alike_removeAll_concat (.nil directory) hsame) hnothing hholds
  · exact alike_guardingAfter hall (.nil directory) (.nil directory) hfiles hothers hnames (h place)
      fs fs count ⟨htakes, .refl _ _⟩ hholds

/-! ### What is left of password files -/

/-- A file is written in the directory that takes it. -/
theorem writtenAt_subset {files : FileSystem} (h : files.Takes surroundings.place directory place names)
    (hname : name ∈ names) (hentry : FileSystem.IsEntry directory name) (content : Content) :
    writtenAt surroundings.place files (.file (.write (directory / name) content)) ⊆
      [place ++ [name]] := by
  rw [writtenAt, h.resolve_div hname hentry]
  split
  · rename_i htarget _
    rw [← Except.ok.inj htarget, FileSystem.place_targetAt]
    exact List.Subset.refl _
  · exact List.nil_subset _

theorem written_write {file : PasswordFile} {files : FileSystem} {count : Nat} :
    surroundings.written file.write.run (files, count) =
      writtenAt surroundings.place files (.file (.write file.path (.ofText file.password))) := by
  obtain ⟨next, hwrite, hnext⟩ : ∃ next : Except FileError Unit → Plan (Except Fault Unit),
      file.write.run = .step (.file (.write file.path (.ofText file.password))) next ∧
        ∀ answer, (next answer).Only IsWriteless := by
    refine ⟨_, rfl, fun answer => ?_⟩
    cases answer with
    | error error => exact Only.done _
    | ok _ =>
      have hmode : IsWriteless (.file (.setMode file.path mode)) := trivial
      exact (only_attemptFile hmode).during _
  rw [hwrite, Surroundings.written, Surroundings.written_eq_nil _ (hnext _), List.append_nil]

/-- When files are removed there is nothing new. -/
theorem get?_run_removeAll_of_none {there : Location} (files : List PasswordFile)
    {start : FileSystem × Nat} (h : start.1.get? there = none) :
    ((removeAll files).run surroundings.answer start).2.1.get? there = none := by
  induction files generalizing start with
  | nil => exact h
  | cons file rest ih =>
    have hremove : (file.remove.run surroundings.answer start).2.1.get? there = none :=
      FileSystem.get?_removeFile h
    exact ih hremove

/-- Where password files have been removed there is nothing. -/
theorem AreEntries.get?_run_removeAll {files : List PasswordFile} (h : AreEntries directory names files)
    {start : FileSystem × Nat}
    (hagree : FileSystem.AgreeOutside surroundings.place directory place names start.1 start.1) :
    ∀ name ∈ names,
      ((removeAll files).run surroundings.answer start).2.1.get? (place ++ [name]) = none := by
  induction names generalizing files start with
  | nil => exact List.forall_mem_nil _
  | cons name names ih =>
    obtain ⟨file, rest, rfl, hpath, hentry, hrest⟩ := h.exists_cons
    have hremove : (file.remove.run surroundings.answer start).2.1 =
        ((FileOperation.removeFile (directory / name)).run surroundings.place start.1).2 := by
      rw [remove, hpath]
      rfl
    have hnone : (file.remove.run surroundings.answer start).2.1.get? (place ++ [name]) = none := by
      rw [hremove]
      exact hagree.get?_remove hentry
    have hlater : FileSystem.AgreeOutside surroundings.place directory place names
        (file.remove.run surroundings.answer start).2.1
        (file.remove.run surroundings.answer start).2.1 := by
      rw [hremove]
      exact (hagree.remove hentry).2
    exact List.forall_mem_cons.mpr ⟨get?_run_removeAll_of_none rest hnone, ih hrest hlater⟩

/-- Removing password files leaves nothing where they were. -/
theorem AreEntries.vacates_removeAll {files : List PasswordFile} (h : AreEntries directory names files)
    (result : α) :
    surroundings.Vacates condition (·.Takes surroundings.place directory place names)
      (names.map (place ++ [·])) ((removeAll files).bind fun _ => .done result) := by
  refine .of_isWriteless ((isWriteless_removeAll files).bind fun _ => Only.done _) ?_
  intro start htakes _
  rw [run_bind]
  exact List.forall_mem_map.mpr (h.get?_run_removeAll (.inl ⟨htakes, .refl _ _⟩))

/-- A password file is written at its location or not at all, and it may be removed from there. -/
theorem written_write_subset {file : PasswordFile} (hpath : file.path = directory / name)
    (hmem : directory / name ∈ paths) (hentry : FileSystem.IsEntry directory name)
    (start : FileSystem × Nat)
    (htakes : start.1.Takes surroundings.place directory place done ∧
      start.1.Takes surroundings.place directory place (done ++ [name]))
    (hholds : surroundings.Holds condition file.write.run start = true) :
    surroundings.written file.write.run start ⊆ [place ++ [name]] ∧
      (file.write.run.run surroundings.answer start).2.1.Takes surroundings.place directory place
        (done ++ [name]) := by
  have hsame := alike_write hpath hpath hmem hentry start.1 start.1 start.2
    ⟨⟨htakes.1, .refl _ _⟩, htakes.2⟩ hholds
  refine ⟨?_, hsame.files.takes⟩
  rw [written_write, hpath]
  exact writtenAt_subset htakes.2 List.mem_concat_self hentry _

/-- Writing one more password file leaves nothing behind if what comes next does not. -/
theorem vacates_guardingAfter_cons {attempt : Attempt α} {file : PasswordFile}
    {reached rest : List PasswordFile} (hreached : AreEntries directory done reached)
    (hpath : file.path = directory / name) (hentry : FileSystem.IsEntry directory name)
    (hmem : directory / name ∈ paths)
    (h : surroundings.Vacates condition (·.Takes surroundings.place directory place (done ++ [name]))
      ((done ++ [name]).map (place ++ [·])) (guardingAfter attempt (reached ++ [file]) rest).run) :
    surroundings.Vacates condition
      (fun files => files.Takes surroundings.place directory place done ∧
        files.Takes surroundings.place directory place (done ++ [name]))
      (done.map (place ++ [·])) (guardingAfter attempt reached (file :: rest)).run := by
  have hnext (result : Except Fault Unit) : surroundings.Vacates condition
      (·.Takes surroundings.place directory place (done ++ [name]))
      (done.map (place ++ [·]) ++ [place ++ [name]])
      (Attempt.proceedOr (removeAll (reached ++ [file]))
        (fun _ => guardingAfter attempt (reached ++ [file]) rest) result) := by
    rw [← FileSystem.AgreeIn.map_concat]
    cases result with
    | ok => exact h
    | error fault => exact (hreached.concat hpath hentry).vacates_removeAll _
  rw [run_guardingAfter_cons]
  refine Surroundings.Vacates.bind ?_ hnext
  exact written_write_subset hpath hmem hentry

/-- Behind an attempt that writes no files itself, with more password files in place, nothing is left
at the locations of those that had been reached before, nor where files have been written. -/
theorem vacates_guardingAfter {all done : List String}
    (hall : ∀ name ∈ all, Path.IsName name ∧ name.utf8ByteSize ≤ maxNameBytes)
    {attempt : Attempt α} {reached files : List PasswordFile}
    (hreached : AreEntries directory done reached)
    (hfiles : files.map (·.path) = names.map (directory / ·)) (hnames : names ⊆ all)
    (h : surroundings.Alike (all.map (directory / ·)) (isAccepted surroundings.place directory all)
      (FileSystem.AgreeIn surroundings.place directory place (done ++ names))
      (FileSystem.AgreeOutside surroundings.place directory place (done ++ names))
      attempt.run attempt.run)
    (hattempt : attempt.run.Only IsWriteless) :
    surroundings.Vacates (isAccepted surroundings.place directory all)
      (·.Takes surroundings.place directory place done) (done.map (place ++ [·]))
      (guardingAfter attempt reached files).run := by
  induction names generalizing done reached files with
  | nil =>
    obtain rfl := List.map_eq_nil_iff.mp hfiles
    rw [List.append_nil] at h
    refine .of_isWriteless (hattempt.followedBy (isWriteless_removeAll _)) ?_
    intro start htakes hholds
    rw [run_guardingAfter_nil, Surroundings.holds_bind, Bool.and_eq_true] at hholds
    rw [run_guardingAfter_nil, run_bind, run_bind]
    have hlater := (h start.1 start.1 start.2 ⟨htakes, .refl _ _⟩ hholds.1).files
    exact List.forall_mem_map.mpr (hreached.get?_run_removeAll hlater)
  | cons name names ih =>
    obtain ⟨file, rest, rfl, hpath, hrest⟩ := List.map_eq_cons_iff.mp hfiles
    obtain ⟨hnameAll, hnames⟩ := List.cons_subset.mp hnames
    obtain ⟨hname, hshort⟩ := hall name hnameAll
    have hmem : directory / name ∈ all.map (directory / ·) := List.mem_map_of_mem hnameAll
    rintro ⟨fs, count⟩ htakes hholds
    rcases htakes.concat hname hshort (accepts_of_holds hpath hnameAll hholds) [] with
      ⟨error, hbarred⟩ | ⟨hentry, hopen⟩
    · have hwrite := hbarred fs (.refl _ _)
      rw [show directory / name = file.path from hpath.symm] at hwrite
      rw [written_of_error (hwrite _), (run_guardingAfter_of_error _ _ _ (hwrite _) _).1,
        List.append_nil, removeAll_concat, run_bind]
      have hagree : FileSystem.AgreeOutside surroundings.place directory place done fs fs :=
        .inl ⟨htakes, .refl _ _⟩
      refine List.forall_mem_map.mpr fun other hother => get?_run_removeAll_of_none [file] ?_
      exact hreached.get?_run_removeAll hagree other hother
    · rw [List.append_cons] at h
      have hinner := ih (hreached.concat hpath hentry) hrest hnames h
      exact vacates_guardingAfter_cons hreached hpath hentry hmem hinner _ ⟨htakes, hopen⟩ hholds

/-- Password files leave nothing behind where they have been written. -/
theorem clears_guarding {all : List String}
    (hall : ∀ name ∈ all, Path.IsName name ∧ name.utf8ByteSize ≤ maxNameBytes)
    (hdirectory : directory.isEmpty = false) {attempt : Attempt α} {file : PasswordFile}
    {rest : List PasswordFile}
    (hfiles : (file :: rest).map (·.path) = (name :: names).map (directory / ·))
    (hnames : name :: names ⊆ all)
    (h : ∀ place,
      surroundings.Alike (all.map (directory / ·)) (isAccepted surroundings.place directory all)
        (FileSystem.AgreeIn surroundings.place directory place (name :: names))
        (FileSystem.AgreeOutside surroundings.place directory place (name :: names))
        attempt.run attempt.run) (hattempt : attempt.run.Only IsWriteless) :
    surroundings.Clears (isAccepted surroundings.place directory all)
      (guarding attempt (file :: rest)).run := by
  rintro ⟨files, count⟩ hholds
  have hpath : file.path = directory / name := List.head_eq_of_cons_eq hfiles
  obtain ⟨hnameAll, -⟩ := List.cons_subset.mp hnames
  obtain ⟨hname, hshort⟩ := hall name hnameAll
  rcases FileSystem.exists_takes_of_accepts hname hshort hdirectory
    (accepts_of_holds hpath hnameAll hholds) with ⟨error, herror⟩ | ⟨place, htakes⟩
  · rw [← hpath] at herror
    have hnothing : surroundings.written (guarding attempt (file :: rest)).run (files, count) = [] :=
      written_of_error (herror _) count
    rw [hnothing]
    exact fun _ hmem => absurd hmem List.not_mem_nil
  · exact vacates_guardingAfter hall (.nil directory) hfiles hnames (h place) hattempt (files, count)
      htakes hholds

end PasswordFile

/-! ### Signing -/

/-- The names of the files that hand over passwords. -/
def SigningMaterial.passwordNames : SigningMaterial → List String
  | keystore _ _ _ keyPassword =>
    "store-pass.txt" :: keyPassword.toList.map fun _ => "key-pass.txt"
  | keyPair _ _ => []

/-- The names of the files that hand over passwords. -/
def BuildConfig.passwordNames (config : BuildConfig) : List String :=
  config.signing.material?.elim [] SigningMaterial.passwordNames

theorem SigningMaterial.isName_of_mem_passwordNames {material : SigningMaterial} {name : String}
    (h : name ∈ material.passwordNames) :
    Path.IsName name ∧ name.utf8ByteSize ≤ maxNameBytes := by
  cases material with
  | keystore path keyAlias storePassword keyPassword =>
    rcases List.mem_cons.mp h with rfl | hname
    · exact ⟨⟨by decide, by decide, by decide, by decide⟩, by decide⟩
    · obtain ⟨_, -, rfl⟩ := List.mem_map.mp hname
      exact ⟨⟨by decide, by decide, by decide, by decide⟩, by decide⟩
  | keyPair key certificate => cases h

/-- The material with other passwords in place of those that it has. -/
def SigningMaterial.withPasswords (store key : String) : SigningMaterial → SigningMaterial
  | keystore path keyAlias _ keyPassword =>
    keystore path keyAlias store (keyPassword.map fun _ => key)
  | keyPair key certificate => keyPair key certificate

/-- The signing descriptor with other passwords in place of those that it has. -/
def SigningConfig.withPasswords (signing : SigningConfig) (store key : String) : SigningConfig :=
  { signing with
    keystore.storePassword := signing.keystore.storePassword.map fun _ => store
    keystore.keyPassword := signing.keystore.keyPassword.map fun _ => key }

/-- The configuration with other passwords in place of those that it has. -/
def BuildConfig.withPasswords (config : BuildConfig) (store key : String) : BuildConfig :=
  { config with signing := config.signing.withPasswords store key }

theorem SigningConfig.material?_withPasswords (signing : SigningConfig) (store key : String) :
    (signing.withPasswords store key).material? =
      signing.material?.map (·.withPasswords store key) := by
  obtain ⟨useKeystore, keystore, keyPair⟩ := signing
  cases useKeystore with
  | true =>
    obtain ⟨_ | path, _ | keyAlias, _ | storePassword, keyPassword⟩ := keystore <;> rfl
  | false => obtain ⟨_ | key, _ | certificate⟩ := keyPair <;> rfl

namespace Stage

theorem map_path_passwords (directory keystore : Path) (keyAlias storePassword : String)
    (keyPassword : Option String) (path : Path) :
    (keystoreUse directory keystore keyAlias storePassword keyPassword).passwords.map (·.path) =
      (SigningMaterial.keystore path keyAlias storePassword keyPassword).passwordNames.map
        (directory / ·) := by
  cases keyPassword <;> rfl

/-- Passwords do not occur in arguments. -/
theorem arguments_keystoreUse (directory keystore : Path) (keyAlias storePassword other : String)
    (keyPassword : Option String) (otherKey : String) :
    (keystoreUse directory keystore keyAlias other (keyPassword.map fun _ => otherKey)).arguments =
      (keystoreUse directory keystore keyAlias storePassword keyPassword).arguments := by
  cases keyPassword <;> rfl

/-- The end of the stage: the package is signed with key material that has been copied. -/
def finishSigning (context : StageContext) (input : Path) (use : KeyUse) : Attempt StageOutput := do
  PasswordFile.guarding (context.runCommand (signCommand context use input)) use.passwords
  ensureExists context.layout.signedPackage "Signed package"
  return ⟨[context.layout.signedPackage], some context.layout.signedPackage⟩

/-- Signing with a keystore. -/
theorem runSign_keystore (context : StageContext) (package : Option Path) {path : Path}
    {keyAlias storePassword : String} {keyPassword : Option String}
    (h : context.config.signing.material? =
      some (.keystore path keyAlias storePassword keyPassword)) :
    runSign context package = (do
      let input ← currentPackage package
      prepareOutput context.layout.signedPackage
      Plan.createDirectory context.layout.signingDir
      takeKeyLock context.toolchain.keyLock
      let keystore ← copyKey path context.layout.signingDir
      finishSigning context input
        (keystoreUse context.layout.signingDir keystore keyAlias storePassword keyPassword)) := by
  simp only [runSign, h, copyMaterial, LawfulMonad.bind_assoc, LawfulMonad.pure_bind, finishSigning]

/-- Signing with a key and a certificate. -/
theorem runSign_keyPair (context : StageContext) (package : Option Path) {key certificate : Path}
    (h : context.config.signing.material? = some (.keyPair key certificate)) :
    runSign context package = (do
      let input ← currentPackage package
      prepareOutput context.layout.signedPackage
      Plan.createDirectory context.layout.signingDir
      takeKeyLock context.toolchain.keyLock
      let key ← copyKey key context.layout.signingDir
      let certificate ← copyKey certificate context.layout.signingDir
      finishSigning context input ⟨["--key", key.text, "--cert", certificate.text], []⟩) := by
  simp only [runSign, h, copyMaterial, LawfulMonad.bind_assoc, LawfulMonad.pure_bind, finishSigning]

variable {surroundings : Surroundings} {toolchain : Toolchain} {config : BuildConfig}

section Material

variable {path : Path} {keyAlias storePassword : String} {keyPassword : Option String}

theorem passwordNames_of_keystore
    (h : config.signing.material? = some (.keystore path keyAlias storePassword keyPassword)) :
    config.passwordNames =
      (SigningMaterial.keystore path keyAlias storePassword keyPassword).passwordNames := by
  rw [BuildConfig.passwordNames, h, Option.elim_some]

theorem isWriteless_runCommand (context : StageContext) (command : Command) :
    (context.runCommand command).run.Only IsWriteless := by
  have hprint (text : String) : IsWriteless (.print text) := trivial
  have hcall : IsWriteless (.call command.toInvocation) := trivial
  exact StageContext.only_runCommand hprint hcall

theorem clears_finishSigning {context : StageContext}
    (h : surroundings.Discreet context.layout.signingDir context.config.passwordNames)
    (hmaterial : context.config.signing.material? =
      some (.keystore path keyAlias storePassword keyPassword)) (input keystore : Path) :
    surroundings.Clears
      (isAccepted surroundings.place context.layout.signingDir context.config.passwordNames)
      (finishSigning context input
        (keystoreUse context.layout.signingDir keystore keyAlias storePassword keyPassword)).run := by
  rw [passwordNames_of_keystore hmaterial] at h ⊢
  refine Surroundings.Clears.attemptBind_looks ?_ fun _ => ?_
  · have hfiles := map_path_passwords context.layout.signingDir keystore keyAlias storePassword
      keyPassword path
    refine PasswordFile.clears_guarding (fun _ => SigningMaterial.isName_of_mem_passwordNames)
      (Path.isEmpty_div _ (by decide)) hfiles (List.Subset.refl _)
      (fun place => h.alike_runCommand place _ _) (isWriteless_runCommand _ _)
  · have hlooks : Looks (.file (.inspect context.layout.signedPackage)) := trivial
    exact (only_ensureExists hlooks _).attemptBind fun _ => Only.done _

end Material

/-- What holds of attempts that write no files, of those that begin with such an attempt, and of the
end of signing with a keystore, holds of signing. -/
theorem runSign_induction (context : StageContext) (package : Option Path)
    {motive : Attempt StageOutput → Prop}
    (hwriteless : ∀ attempt, attempt.run.Only IsWriteless → motive attempt)
    (hbind : ∀ {α : Type} (attempt : Attempt α) (f : α → Attempt StageOutput),
      attempt.run.Only IsWriteless → (∀ value, motive (f value)) → motive (attempt >>= f))
    (hfinish : ∀ {path keyAlias storePassword keyPassword}, context.config.signing.material? =
        some (.keystore path keyAlias storePassword keyPassword) → ∀ input keystore,
      motive (finishSigning context input
        (keystoreUse context.layout.signingDir keystore keyAlias storePassword keyPassword))) :
    motive (runSign context package) := by
  have hfile (operation : FileOperation) (hwriteless : operation.IsWriteless) :
      IsWriteless (.file operation) := hwriteless
  have hdirectory (path : Path) : (Plan.createDirectory path).run.Only IsWriteless :=
    (only_makeDirectories (fun path => hfile (.makeDirectory path) trivial)
      (fun path => hfile (.inspect path) trivial) path).during _
  have hinput : (currentPackage package).run.Only IsWriteless :=
    only_currentPackage (fun _ => hfile _ trivial) package
  cases hmaterial : context.config.signing.material? with
  | none =>
    refine hwriteless _ ?_
    simp only [runSign, hmaterial]
    exact hinput.attemptBind fun _ => Only.fail _
  | some material =>
    cases material with
    | keystore path keyAlias storePassword keyPassword =>
      rw [runSign_keystore context package hmaterial]
      refine hbind _ _ hinput fun input => ?_
      refine hbind _ _ (only_prepareOutput hfile _) fun _ => ?_
      refine hbind _ _ (hdirectory _) fun _ => ?_
      refine hbind _ _ (only_takeKeyLock hfile _) fun _ => ?_
      refine hbind _ _ (only_copyKey fun _ _ => hfile _ trivial) fun keystore => ?_
      exact hfinish hmaterial input keystore
    | keyPair key certificate =>
      rw [runSign_keyPair context package hmaterial]
      refine hbind _ _ hinput fun input => ?_
      refine hbind _ _ (only_prepareOutput hfile _) fun _ => ?_
      refine hbind _ _ (hdirectory _) fun _ => ?_
      refine hbind _ _ (only_takeKeyLock hfile _) fun _ => ?_
      refine hbind _ _ (only_copyKey fun _ _ => hfile _ trivial) fun _ => ?_
      refine hbind _ _ (only_copyKey fun _ _ => hfile _ trivial) fun _ => ?_
      refine hwriteless _ (Only.attemptBind ?_ fun _ => ?_)
      · exact (isWriteless_runCommand _ _).followedBy (PasswordFile.isWriteless_removeAll [])
      · exact (only_ensureExists (hfile (.inspect _) trivial) _).attemptBind fun _ => Only.done _

/-- Nothing is left at the locations at which passwords have been written, whatever becomes of
signing. -/
theorem clears_runSign (context : StageContext)
    (h : surroundings.Discreet context.layout.signingDir context.config.passwordNames)
    (package : Option Path) :
    surroundings.Clears
      (isAccepted surroundings.place context.layout.signingDir context.config.passwordNames)
      (runSign context package).run :=
  runSign_induction context package (fun _ => .of_isWriteless) (fun _ _ => .attemptBind)
    fun hmaterial input keystore => clears_finishSigning h hmaterial input keystore

/-- The end of signing is the same for any passwords. -/
theorem alike_finishSigning (store key : String)
    (h : surroundings.Discreet config.layout.signingDir config.passwordNames)
    {path : Path} {keyAlias storePassword : String} {keyPassword : Option String}
    (hmaterial : config.signing.material? =
      some (.keystore path keyAlias storePassword keyPassword)) (input keystore : Path) :
    surroundings.Alike (config.passwordNames.map (config.layout.signingDir / ·))
      (isAccepted surroundings.place config.layout.signingDir config.passwordNames) Eq Eq
      (finishSigning ⟨config, toolchain⟩ input
        (keystoreUse config.layout.signingDir keystore keyAlias storePassword keyPassword)).run
      (finishSigning ⟨config.withPasswords store key, toolchain⟩ input
        (keystoreUse config.layout.signingDir keystore keyAlias store
          (keyPassword.map fun _ => key))).run := by
  rw [passwordNames_of_keystore hmaterial] at h ⊢
  refine Surroundings.Alike.attemptBind ?_ (fun _ _ => id) fun _ => .refl _
  have hfiles := map_path_passwords config.layout.signingDir keystore keyAlias storePassword
    keyPassword path
  have hothers : (keystoreUse config.layout.signingDir keystore keyAlias store
      (keyPassword.map fun _ => key)).passwords.map (·.path) =
        (SigningMaterial.keystore path keyAlias storePassword keyPassword).passwordNames.map
          (config.layout.signingDir / ·) := by
    cases keyPassword <;> rfl
  have hcommand : signCommand ⟨config.withPasswords store key, toolchain⟩
      (keystoreUse config.layout.signingDir keystore keyAlias store (keyPassword.map fun _ => key))
      input = signCommand ⟨config, toolchain⟩
        (keystoreUse config.layout.signingDir keystore keyAlias storePassword keyPassword) input := by
    rw [signCommand, arguments_keystoreUse config.layout.signingDir keystore keyAlias storePassword]
    rfl
  rw [hcommand]
  exact PasswordFile.alike_guarding (fun _ => SigningMaterial.isName_of_mem_passwordNames)
    (Path.isEmpty_div _ (by decide)) hfiles hothers (List.Subset.refl _)
    fun place => h.alike_runCommand place ⟨config, toolchain⟩ _

/-- Signing is the same for any passwords. -/
theorem alike_runSign (store key : String)
    (h : surroundings.Discreet config.layout.signingDir config.passwordNames)
    (package : Option Path) :
    surroundings.Alike (config.passwordNames.map (config.layout.signingDir / ·))
      (isAccepted surroundings.place config.layout.signingDir config.passwordNames) Eq Eq
      (runSign ⟨config, toolchain⟩ package).run
      (runSign ⟨config.withPasswords store key, toolchain⟩ package).run := by
  have hother : (config.withPasswords store key).signing.material? = _ :=
    config.signing.material?_withPasswords store key
  cases hmaterial : config.signing.material? with
  | none =>
    rw [hmaterial, Option.map_none] at hother
    simp only [runSign, hmaterial, hother]
    exact .refl _
  | some material =>
    rw [hmaterial] at hother
    cases material with
    | keystore path keyAlias storePassword keyPassword =>
      rw [Option.map_some, SigningMaterial.withPasswords] at hother
      rw [runSign_keystore ⟨config, toolchain⟩ package hmaterial,
        runSign_keystore ⟨config.withPasswords store key, toolchain⟩ package hother]
      refine .attemptBind (.refl _) (fun _ _ => id) fun input => ?_
      refine .attemptBind (.refl _) (fun _ _ => id) fun _ => ?_
      refine .attemptBind (.refl _) (fun _ _ => id) fun _ => ?_
      refine .attemptBind (.refl _) (fun _ _ => id) fun _ => ?_
      refine .attemptBind (.refl _) (fun _ _ => id) fun keystore => ?_
      exact alike_finishSigning store key h hmaterial input keystore
    | keyPair privateKey certificate =>
      rw [Option.map_some, SigningMaterial.withPasswords] at hother
      rw [runSign_keyPair ⟨config, toolchain⟩ package hmaterial,
        runSign_keyPair ⟨config.withPasswords store key, toolchain⟩ package hother]
      exact .refl _

end Stage

end SketchApk
