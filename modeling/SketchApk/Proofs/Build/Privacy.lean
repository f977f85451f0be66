import SketchApk.Proofs.Build.Secret
import SketchApk.Proofs.File.Deposit
import SketchApk.Proofs.Plan.Reach
import SketchApk.Proofs.Plan.Resemblance
import SketchApk.Proofs.Plan.Trace

/-!
# Who may read password files

A password file is written first and restricted to its owner then. These are two steps, so there is
one state of the files in between. In this state a password file that has just been created may be
read by everybody. In all later states it is private, in whatever way signing goes on, as long as
tools do not give permissions on password files away.

## Main definitions

* `Surroundings.KeepsPrivate` : tools that give no permissions on the files of some paths away.
* `PasswordFile.IsCovered` : a password file that is restricted at once and private from then on.
* `Surroundings.Confides` : a plan that writes only password files, all of which are covered.

## Main statements

* `PasswordFile.exposed_of_vacant` : everybody may read a password file that has been created.
* `PasswordFile.confides_guardingAfter` : an attempt with password files in place covers them.
* `Stage.confides_runSign` : signing covers its password files.
-/

namespace SketchApk

open Plan Request

/-! ### Private files -/

/-- Nobody but the owner of a file has any permission. -/
def Mode.isPrivate (mode : Mode) : Bool :=
  mode &&& 0o077 == 0

theorem Mode.isPrivate_afterWriting (mode : Mode) :
    mode.afterWriting.isPrivate = mode.isPrivate := by
  rw [isPrivate, afterWriting_and mode (by decide) (by decide), isPrivate]

namespace FileSystem

variable {files changed : FileSystem} {cwd place : Location} {path other : Path} {mode : Mode}
  {content : Content}

/-- If there is a file at the location, it is private. -/
def IsPrivateAt (files : FileSystem) (place : Location) : Prop :=
  ∀ mode content, files.get? place = some (.file mode content) → mode.isPrivate = true

/-- The path leads to a private file at a location. -/
def LeadsToPrivate (files : FileSystem) (cwd : Location) (path : Path) (place : Location) : Prop :=
  ∃ mode content, files.find cwd path = .ok (place, .file mode content) ∧ mode.isPrivate = true

theorem LeadsToPrivate.isPrivateAt (h : files.LeadsToPrivate cwd path place) :
    files.IsPrivateAt place := by
  obtain ⟨mode, content, hfind, hprivate⟩ := h
  intro mode' content' hfile
  rw [get?_of_find hfind] at hfile
  obtain ⟨rfl, rfl⟩ := Node.file.inj (Option.some.inj hfile)
  exact hprivate

/-- A path still leads to a private file when no files have been taken away and the file there is
private. -/
theorem LeadsToPrivate.of_extends (h : files.LeadsToPrivate cwd path place)
    (hextends : files.Extends changed) (hprivate : changed.IsPrivateAt place) :
    changed.LeadsToPrivate cwd path place := by
  obtain ⟨mode, content, hfind, -⟩ := h
  obtain ⟨mode', content', hfind'⟩ := hextends.find_file hfind
  exact ⟨mode', content', hfind', hprivate _ _ (get?_of_find hfind')⟩

/-- A file that is private remains so when it is written to. -/
theorem LeadsToPrivate.overwrite (h : files.LeadsToPrivate cwd path place)
    (hwrite : files.overwrite cwd other content none = .ok changed) :
    changed.LeadsToPrivate cwd path place := by
  obtain ⟨target, bits, -, -, hextends⟩ := exists_of_overwrite hwrite
  obtain ⟨target, -, -, rfl⟩ := exists_of_overwrite_eq_ok hwrite
  refine h.of_extends hextends fun mode content' hfile => ?_
  rw [get?_put] at hfile
  split at hfile
  · rename_i hplace
    obtain ⟨old, content'', hfind, hprivate⟩ := h
    obtain ⟨rfl, -⟩ := Node.file.inj (Option.some.inj hfile)
    rw [hplace, get?_of_find hfind]
    exact (Mode.isPrivate_afterWriting old).trans hprivate
  · exact h.isPrivateAt _ _ hfile

/-- A file that is private remains so when a file is made private. -/
theorem LeadsToPrivate.restrict (h : files.LeadsToPrivate cwd path place) {there : Location}
    {bits : Mode} (hfind : files.find cwd other = .ok (there, .file bits content))
    (hmode : mode.isPrivate = true) :
    (files.put there (.file mode content)).LeadsToPrivate cwd path place := by
  refine h.of_extends (find_put_self hfind mode content).1 fun mode' content' hfile => ?_
  rw [get?_put] at hfile
  split at hfile
  · obtain ⟨rfl, -⟩ := Node.file.inj (Option.some.inj hfile)
    exact hmode
  · exact h.isPrivateAt _ _ hfile

/-- No file is given to anybody by removing another one. -/
theorem IsPrivateAt.removeFile (h : files.IsPrivateAt place) (path : Path) :
    ((FileOperation.removeFile path).run cwd files).2.IsPrivateAt place := by
  rw [FileOperation.run]
  cases hremove : files.removeFile cwd path with
  | error error => exact h
  | ok changed =>
    obtain ⟨there, -, -, rfl⟩ := eq_eraseTree_of_removeFile hremove
    intro mode content hfile
    rw [FileOperation.settle, get?_eraseTree] at hfile
    split at hfile
    · cases hfile
    · exact h mode content hfile

end FileSystem

namespace Request

/-- The request may remove a file, but does nothing else to files. -/
def Tidies : Request → Prop
  | .file (.inspect _) | .file (.removeFile _) => True
  | .file _ | .call _ => False
  | _ => True

variable {request : Request} {surroundings : Surroundings} {files : FileSystem} {place : Location}

theorem Tidies.isWriteless (h : request.Tidies) : request.IsWriteless := by
  cases request with
  | file operation =>
    cases operation with
    | inspect | removeFile => trivial
    | _ => cases h
  | call => cases h
  | _ => trivial

theorem Tidies.isPrivateAt (h : request.Tidies) (count : Nat) (hfile : files.IsPrivateAt place) :
    (surroundings.answer request (files, count)).2.1.IsPrivateAt place := by
  cases request with
  | file operation =>
    cases operation with
    | inspect => exact hfile
    | removeFile other => exact hfile.removeFile other
    | _ => cases h
  | call => cases h
  | _ => exact hfile

end Request

namespace Surroundings

variable {α : Type} {surroundings : Surroundings} {path : Path} {place : Location}
  {paths : List Path}

/-- Tools give no permissions on the files away to which some paths lead. -/
def KeepsPrivate (surroundings : Surroundings) (paths : List Path) : Prop :=
  ∀ count invocation files place, ∀ path ∈ paths,
    files.LeadsToPrivate surroundings.place path place →
      (surroundings.tools count invocation files).2.IsPrivateAt place

/-- In each state of a plan that begins when a path leads to a private file, the file is private. -/
def Shields (surroundings : Surroundings) (path : Path) (place : Location) (plan : Plan α) : Prop :=
  surroundings.Keeps (·.IsPrivateAt place) (·.LeadsToPrivate surroundings.place path place)
    (·.IsPrivateAt place) plan

theorem keeps_of_looks {plan : Plan α} (h : plan.Only Looks) :
    surroundings.Keeps (·.IsPrivateAt place) (·.LeadsToPrivate surroundings.place path place)
      (·.LeadsToPrivate surroundings.place path place) plan :=
  .of_only h (fun request files count hrequest hfile => by
      rwa [surroundings.answer_of_looks hrequest])
    fun _ hfile => hfile.isPrivateAt

theorem keeps_of_tidies {plan : Plan α} (h : plan.Only Tidies) :
    surroundings.Keeps (·.IsPrivateAt place) (·.IsPrivateAt place) (·.IsPrivateAt place) plan :=
  .of_only h (fun _ _ count hrequest => hrequest.isPrivateAt count) fun _ => id

/-- While a command is run a private file remains private. -/
theorem KeepsPrivate.shields_runCommand (h : surroundings.KeepsPrivate paths)
    (hmem : path ∈ paths) (place : Location) (context : StageContext) (command : Command) :
    surroundings.Shields path place (context.runCommand command).run := by
  have hcall : surroundings.Shields path place (Attempt.call command.toInvocation).run :=
    fun start hstart =>
      have hfile := h start.2 command.toInvocation start.1 place path hmem hstart
      ⟨List.forall_mem_singleton.mpr hfile, hfile⟩
  have hrun : surroundings.Shields path place command.run.run := by
    refine Keeps.attemptBind hcall (fun _ => id) fun output => ?_
    split <;> exact .done _ fun _ => id
  rw [StageContext.runCommand]
  refine Keeps.guarded (keeps_of_looks (only_printLine (fun _ => trivial) _).always)
    (fun _ hfile => hfile.isPrivateAt) ?_
  refine Keeps.attemptBind hrun (fun _ => id) fun output => keeps_of_tidies ?_
  split
  · refine (StageContext.only_echo (fun _ => trivial) _).always.attemptBind fun _ => ?_
    exact (StageContext.only_echo (fun _ => trivial) _).always
  · exact Only.of_pure _

end Surroundings

/-! ### Password files -/

namespace PasswordFile

variable {α : Type} {surroundings : Surroundings} {file : PasswordFile} {place : Location}
  {files : FileSystem}

/-- A password file that has just been written is restricted in the next step. In all states from
then on it is private. -/
structure IsCovered (file : PasswordFile) (cwd : Location) (files : FileSystem)
    (behind : List (Exchange × FileSystem × Nat)) : Prop where
  restricted : ∃ state rest, behind = (⟨.file (.setMode file.path mode), .ok ()⟩, state) :: rest
  isPrivate : ∃ place bits,
    files.find cwd file.path = .ok (place, .file bits (.ofText file.password)) ∧
      ∀ entry ∈ behind, entry.2.1.IsPrivateAt place

/-- A password file is restricted if it could be written. -/
theorem exists_write_eq (file : PasswordFile) :
    ∃ next last : Except FileError Unit → Plan (Except Fault Unit),
      file.write.run = .step (.file (.write file.path (.ofText file.password))) next ∧
        (∀ error, next (.error error) = .done (.error (file.writeFault error))) ∧
        next (.ok ()) = .step (.file (.setMode file.path mode)) last ∧
        last (.ok ()) = .done (.ok ()) :=
  ⟨_, _, rfl, fun _ => rfl, rfl, rfl⟩

/-- A password file that cannot be written changes nothing. -/
theorem write_of_error {error : FileError} (count : Nat)
    (h : files.overwrite surroundings.place file.path (.ofText file.password) none = .error error) :
    file.write.run.run surroundings.answer (files, count) =
        (.error (file.writeFault error), files, count + 1) ∧
      file.write.run.trace surroundings.answer (files, count) =
        [(⟨.file (.write file.path (.ofText file.password)), .error error⟩, files, count + 1)] := by
  obtain ⟨next, last, hplan, herror, -⟩ := exists_write_eq file
  rw [hplan, run, trace, surroundings.answer_write_of_error h, herror, run, trace]
  exact ⟨rfl, rfl⟩

/-- A password file that has been written is found, and its permissions can be restricted. -/
theorem exists_write_of_ok {written : FileSystem} (count : Nat)
    (h : files.overwrite surroundings.place file.path (.ofText file.password) none = .ok written) :
    ∃ place bits,
      written.find surroundings.place file.path =
          .ok (place, .file bits (.ofText file.password)) ∧
        file.write.run.run surroundings.answer (files, count) =
          (.ok (), written.put place (.file mode (.ofText file.password)), count + 2) ∧
        file.write.run.trace surroundings.answer (files, count) =
          [(⟨.file (.write file.path (.ofText file.password)), .ok ()⟩, written, count + 1),
            (⟨.file (.setMode file.path mode), .ok ()⟩,
              written.put place (.file mode (.ofText file.password)), count + 2)] := by
  obtain ⟨place, bits, hresolve⟩ := FileSystem.resolve_of_overwrite h
  have hfind := FileSystem.find_eq_ok_iff.mpr hresolve
  have hset : surroundings.answer (.file (.setMode file.path mode)) (written, count + 1) =
      (.ok (), written.put place (.file mode (.ofText file.password)), count + 2) := by
    simp only [Surroundings.answer, FileOperation.run, FileSystem.setMode, hfind,
      FileOperation.settle]
  obtain ⟨next, last, hplan, -, hok, hlast⟩ := exists_write_eq file
  rw [hplan, run, trace, surroundings.answer_write_of_ok h, hok, run, trace, hset, hlast, run,
    trace]
  exact ⟨place, bits, hfind, rfl, rfl⟩

/-- Everybody may read a password file that has just been created, until it is restricted. -/
theorem exposed_of_vacant {asDirectory : Bool} (count : Nat)
    (hvacant : files.resolve surroundings.place .created file.path =
      .ok (.vacant place asDirectory))
    (hopen : files.isChangeable place.dropLast = true) :
    ∃ later, file.write.run.trace surroundings.answer (files, count) =
      (⟨.file (.write file.path (.ofText file.password)), .ok ()⟩,
        files.put place (.file Mode.newFile (.ofText file.password)), count + 1) :: later := by
  have hwrite : files.overwrite surroundings.place file.path (.ofText file.password) none =
      .ok (files.put place (.file Mode.newFile (.ofText file.password))) := by
    simp only [FileSystem.overwrite, hvacant, FileSystem.create, hopen, if_true, Option.map_none,
      Option.getD_none]
  obtain ⟨there, bits, -, -, htrace⟩ := exists_write_of_ok count hwrite
  exact ⟨_, htrace⟩

/-- A private file remains private while a password file is written. -/
theorem keeps_write (file : PasswordFile) (path : Path) (place : Location) :
    surroundings.Keeps (·.IsPrivateAt place) (·.LeadsToPrivate surroundings.place path place)
      (·.LeadsToPrivate surroundings.place path place) file.write.run := by
  rintro ⟨files, count⟩ hfile
  cases hwrite : files.overwrite surroundings.place file.path (.ofText file.password) none with
  | error error =>
    obtain ⟨hrun, htrace⟩ := write_of_error count hwrite
    rw [hrun, htrace]
    exact ⟨List.forall_mem_singleton.mpr hfile.isPrivateAt, hfile⟩
  | ok written =>
    obtain ⟨there, bits, hfind, hrun, htrace⟩ := exists_write_of_ok count hwrite
    have hwritten := hfile.overwrite hwrite
    have hrestricted : (written.put there
        (.file mode (.ofText file.password))).LeadsToPrivate surroundings.place path place :=
      hwritten.restrict hfind (by decide)
    rw [hrun, htrace]
    exact ⟨List.forall_mem_cons.mpr ⟨hwritten.isPrivateAt,
      List.forall_mem_singleton.mpr hrestricted.isPrivateAt⟩, hrestricted⟩

theorem tidies_removeAll (files : List PasswordFile) : (removeAll files).Only Tidies :=
  only_removeAll fun file _ => show Tidies (.file (.removeFile file.path)) from trivial

/-- With more password files in place a private file remains private, if it does so without. -/
theorem shields_guardingAfter {path : Path} {attempt : Attempt α}
    (h : surroundings.Shields path place attempt.run) (reached passwords : List PasswordFile) :
    surroundings.Shields path place (guardingAfter attempt reached passwords).run := by
  have hremove (files : List PasswordFile) (result : Except Fault α) :
      surroundings.Keeps (·.IsPrivateAt place) (·.IsPrivateAt place) (·.IsPrivateAt place)
        ((removeAll files).bind fun _ => .done result) :=
    Surroundings.keeps_of_tidies ((tidies_removeAll files).bind fun _ => Only.done _)
  induction passwords generalizing reached with
  | nil => exact Surroundings.Keeps.bind h (hremove reached)
  | cons file rest ih =>
    rw [run_guardingAfter_cons]
    refine (file.keeps_write path place).bind fun result => ?_
    cases result with
    | ok => exact ih _
    | error fault => exact (hremove _ _).weaken fun _ hfile => hfile.isPrivateAt

end PasswordFile

namespace Surroundings

variable {α β : Type} {surroundings : Surroundings} {passwords : List PasswordFile}

/-- A plan writes only password files, and all of them are covered. -/
def Confides (surroundings : Surroundings) (passwords : List PasswordFile) (plan : Plan α) : Prop :=
  ∀ ⦃start before behind path content state⦄,
    plan.trace surroundings.answer start =
        before ++ (⟨.file (.write path content), .ok ()⟩, state) :: behind →
      ∃ file ∈ passwords, path = file.path ∧ content = .ofText file.password ∧
        file.IsCovered surroundings.place state.1 behind

namespace Confides

theorem of_isWriteless {plan : Plan α} (h : plan.Only IsWriteless) :
    surroundings.Confides passwords plan := by
  intro start before behind path content state htrace
  have hmem := htrace ▸ List.mem_append_right before List.mem_cons_self
  exact absurd (h.of_mem_trace _ hmem) id

/-- A part that writes no files may come first. -/
theorem attemptBind {attempt : Attempt α} {f : α → Attempt β} (h : attempt.run.Only IsWriteless)
    (hf : ∀ value, surroundings.Confides passwords (f value).run) :
    surroundings.Confides passwords (attempt >>= f).run := by
  intro start before behind path content state htrace
  rw [Attempt.run_bind, trace_bind] at htrace
  rcases Attempt.exists_of_append_cons htrace.symm with ⟨rest, hfirst⟩ | ⟨rest, rfl, hsecond⟩
  · have hmem := hfirst ▸ List.mem_append_right before List.mem_cons_self
    exact absurd (h.of_mem_trace _ hmem) id
  · cases hresult : (attempt.run.run surroundings.answer start).1 with
    | ok value =>
      rw [hresult] at hsecond
      exact hf value hsecond
    | error fault =>
      rw [hresult, Attempt.proceed, trace] at hsecond
      simp at hsecond

/-- A part that does nothing but remove files may come last. -/
theorem bind_tidies {plan : Plan α} {f : α → Plan β} (h : surroundings.Confides passwords plan)
    (hf : ∀ value, (f value).Only Tidies) : surroundings.Confides passwords (plan.bind f) := by
  intro start before behind path content state htrace
  rw [trace_bind] at htrace
  rcases Attempt.exists_of_append_cons htrace.symm with ⟨rest, hfirst⟩ | ⟨rest, rfl, hsecond⟩
  · obtain ⟨file, hmem, hpath, hcontent, ⟨after, later, rfl⟩, place, bits, hfind, hprivate⟩ :=
      h hfirst
    have hbehind := htrace
    rw [hfirst, List.append_assoc] at hbehind
    obtain ⟨-, rfl⟩ := List.cons.inj (List.append_cancel_left hbehind)
    refine ⟨file, hmem, hpath, hcontent, ⟨⟨after, _, rfl⟩, place, bits, hfind, ?_⟩⟩
    -- The files at the end of the first part are those behind its last exchange.
    rw [List.append_cons] at hfirst
    obtain ⟨last, hlast, hend⟩ := exists_of_trace_eq plan hfirst
    have hkeeps (value : α) : surroundings.Keeps (·.IsPrivateAt place) (·.IsPrivateAt place)
      (·.IsPrivateAt place) (f value) := keeps_of_tidies (hf value)
    exact List.forall_mem_append.mpr ⟨hprivate, (hkeeps _ _ (hend ▸ hprivate last hlast)).1⟩
  · exact of_isWriteless ((hf _).mono fun _ => Tidies.isWriteless) hsecond

end Confides

end Surroundings

namespace PasswordFile

variable {α : Type} {surroundings : Surroundings}

/-- A password file is covered by what is done after it has been written, if nothing but removing
files is done after it could not be written. -/
theorem confides_write {file : PasswordFile} {passwords : List PasswordFile} {rest : Attempt α}
    {cleanup : Plan Unit} (h : ∀ place, surroundings.Shields file.path place rest.run)
    (hrest : surroundings.Confides passwords rest.run) (hcleanup : cleanup.Only Tidies) :
    surroundings.Confides (file :: passwords)
      (file.write.run.bind (Attempt.proceedOr cleanup fun _ => rest)) := by
  rintro ⟨files, count⟩ before behind path content state htrace
  rw [trace_bind] at htrace
  cases hwrite : files.overwrite surroundings.place file.path (.ofText file.password) none with
  | error error =>
    obtain ⟨hrun, hsteps⟩ := write_of_error count hwrite
    rw [hrun, hsteps] at htrace
    have hmem := htrace ▸ List.mem_append_right before List.mem_cons_self
    rcases List.mem_cons.mp hmem with hhead | hmem
    · cases hhead
    · have htidies : (Attempt.proceedOr cleanup (fun _ : Unit => rest)
          (.error (file.writeFault error))).Only Tidies := hcleanup.bind fun _ => Only.done _
      exact absurd ((htidies.mono fun _ => Tidies.isWriteless).of_mem_trace _ hmem) id
  | ok written =>
    obtain ⟨place, bits, hfind, hrun, hsteps⟩ := exists_write_of_ok count hwrite
    rw [hrun, hsteps] at htrace
    -- What is written is the password file itself, or something that is written later.
    rcases before with _ | ⟨_, _ | ⟨_, before⟩⟩
    · obtain ⟨hhead, rfl⟩ := List.cons.inj htrace
      cases hhead
      have hrestricted : (written.put place (.file mode (.ofText file.password))).LeadsToPrivate
          surroundings.place file.path place :=
        ⟨mode, _, (FileSystem.find_put_self hfind mode _).2, by decide⟩
      refine ⟨file, List.mem_cons_self, rfl, rfl, ⟨_, _, rfl⟩, place, bits, hfind, ?_⟩
      exact List.forall_mem_cons.mpr ⟨hrestricted.isPrivateAt, (h place _ hrestricted).1⟩
    · cases (List.cons.inj (List.cons.inj htrace).2).1
    · have hlater := (List.cons.inj (List.cons.inj htrace).2).2
      obtain ⟨other, hmem, hcovered⟩ := hrest hlater
      exact ⟨other, List.mem_cons_of_mem _ hmem, hcovered⟩

/-- An attempt with more password files in place covers them, if it keeps them private. -/
theorem confides_guardingAfter {attempt : Attempt α} (reached : List PasswordFile)
    {passwords : List PasswordFile}
    (h : ∀ file ∈ passwords, ∀ place, surroundings.Shields file.path place attempt.run)
    (hattempt : attempt.run.Only IsWriteless) :
    surroundings.Confides passwords (guardingAfter attempt reached passwords).run := by
  induction passwords generalizing reached with
  | nil => exact .of_isWriteless (hattempt.followedBy (isWriteless_removeAll _))
  | cons file rest ih =>
    obtain ⟨hfile, hrest⟩ := List.forall_mem_cons.mp h
    rw [run_guardingAfter_cons]
    exact confides_write (fun place => shields_guardingAfter (hfile place) _ rest) (ih _ hrest)
      (tidies_removeAll _)

end PasswordFile

/-! ### Signing -/

/-- The password files of key material in a directory. -/
def SigningMaterial.passwordFiles (directory : Path) : SigningMaterial → List PasswordFile
  | keystore _ _ storePassword keyPassword =>
    Stage.storePasswordFile directory storePassword ::
      keyPassword.toList.map (Stage.keyPasswordFile directory)
  | keyPair _ _ => []

/-- The password files of a build. -/
def BuildConfig.passwordFiles (config : BuildConfig) : List PasswordFile :=
  config.signing.material?.elim [] (·.passwordFiles config.layout.signingDir)

namespace Stage

variable {surroundings : Surroundings}

/-- The end of signing covers its password files. -/
theorem confides_finishSigning {context : StageContext} {use : KeyUse}
    (h : surroundings.KeepsPrivate (use.passwords.map (·.path))) (input : Path) :
    surroundings.Confides use.passwords (finishSigning context input use).run := by
  rw [finishSigning, Attempt.run_bind]
  refine .bind_tidies (PasswordFile.confides_guardingAfter [] (fun file hmem place => ?_)
    (isWriteless_runCommand _ _)) fun result => ?_
  · exact h.shields_runCommand (List.mem_map_of_mem hmem) place _ _
  · cases result with
    | error fault => exact Only.done _
    | ok value => exact (only_ensureExists trivial _).attemptBind fun _ => Only.done _

/-- Signing covers its password files, when tools give no permissions on them away. -/
theorem confides_runSign (context : StageContext)
    (h : surroundings.KeepsPrivate (context.config.passwordFiles.map (·.path)))
    (package : Option Path) :
    surroundings.Confides context.config.passwordFiles (runSign context package).run := by
  refine runSign_induction context package (fun _ => .of_isWriteless) (fun _ _ => .attemptBind) ?_
  intro path keyAlias storePassword keyPassword hmaterial input keystore
  have hpasswords : context.config.passwordFiles = (keystoreUse context.layout.signingDir keystore
      keyAlias storePassword keyPassword).passwords := by
    rw [BuildConfig.passwordFiles, hmaterial]
    rfl
  rw [hpasswords] at h ⊢
  exact confides_finishSigning h input

end Stage

namespace Builder

/-- Surroundings in which the tool writes the package. -/
def signingSurroundings : Surroundings where
  place := []
  tools _ _ files :=
    (.ok ⟨some 0, "", ""⟩,
      ((FileOperation.write ⟨"/d/outputs/com.example.app.apk"⟩ .empty).run [] files).2)
  answers := discreetSurroundings.answers

theorem keepsPrivate_signingSurroundings (paths : List Path) :
    signingSurroundings.KeepsPrivate paths := by
  intro count invocation files place path _ hfile
  simp only [signingSurroundings, FileOperation.run]
  cases hwrite : files.overwrite [] ⟨"/d/outputs/com.example.app.apk"⟩ .empty none with
  | error error => exact hfile.isPrivateAt
  | ok changed => exact (hfile.overwrite hwrite).isPrivateAt

/-- The course of signing a package with a keystore that holds its password. -/
def signingTrace : List (Exchange × FileSystem × Nat) :=
  (Stage.runSign ⟨secretConfig, sampleBuilder.toolchain⟩ (some ⟨"/f"⟩)).run.trace
    signingSurroundings.answer (secretFiles.put ["k"] (.file 0o644 (.ofText "hunter2")), 0)

/-- The permission bits and the text of a file in the signing directory. -/
def signingText? (name : String) (files : FileSystem) : Option (Mode × String) :=
  match files.get? ["d", "signing", name] with
  | some (.file mode content) => content.text?.map (mode, ·)
  | _ => none

/-- A password is covered while its file is in place. -/
theorem confides_sample :
    signingSurroundings.KeepsPrivate (secretConfig.passwordFiles.map (·.path)) ∧
      (∃ entry ∈ signingTrace,
        signingText? "store-pass.txt" entry.2.1 = some (PasswordFile.mode, "hunter2")) ∧
      signingSurroundings.Confides secretConfig.passwordFiles
        (Stage.runSign ⟨secretConfig, sampleBuilder.toolchain⟩ (some ⟨"/f"⟩)).run :=
  ⟨keepsPrivate_signingSurroundings _, by decide +kernel,
    Stage.confides_runSign ⟨secretConfig, sampleBuilder.toolchain⟩
      (keepsPrivate_signingSurroundings _) _⟩

/-- Everybody may read the password when its file has been written, and a copy of a keystore that
holds it remains as readable as the keystore. -/
theorem exists_exposed :
    Mode.newFile.isPrivate = false ∧
      (∃ entry ∈ signingTrace,
        signingText? "store-pass.txt" entry.2.1 = some (Mode.newFile, "hunter2")) ∧
      (signingTrace.getLast?.bind fun entry => signingText? "k" entry.2.1) =
        some (0o644, "hunter2") := by
  refine ⟨by decide, ?_, ?_⟩
  all_goals decide +kernel

end Builder

end SketchApk
