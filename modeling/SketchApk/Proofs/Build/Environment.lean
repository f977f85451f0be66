import SketchApk.Proofs.Build.Preflight
import SketchApk.Proofs.Build.Rebuild
import SketchApk.Proofs.Stage.SigningFault

/-!
# What the checks before a build amount to

All checks but the last step depend on nothing but what kinds of nodes paths lead to. So they come to
the same verdict on two file systems that differ in the permission bits of regular files alone. Once
they have passed, making the tools executable cannot fail, and when it has been done there is nothing
left to do: the checks pass again and change nothing.

## Main definitions

* `FileSystem.kind?` : the kind of node that a path leads to.
* `Attempt.IsCheck` : an attempt that depends on kinds alone and leaves the files as they are.
* `Attempt.AmountsTo` : an attempt that fails, or that amounts to what remains to be done.
* `Preflight.Readied` : some programs have been made executable, and nothing else has been changed.

## Main statements

* `Preflight.amountsTo_validate` : the checks amount to the last two steps unless they fail.
* `Builder.outcome_ne_of_runClaimed` : no build fails at signing for want of key material.
* `Preflight.validate_changes` : what the checks change, and that they change nothing again.
-/

namespace SketchApk

open FileSystem Attempt

variable {α : Type} {world : World} {stop : Bool} {files other last : FileSystem} {cwd : Location}
  {path : Path}

namespace FileSystem

/-- The kind of node that a path leads to, if it leads to one. -/
def kind? (files : FileSystem) (cwd : Location) (path : Path) : Option FileKind :=
  (files.inspect cwd path).toOption.map (·.kind)

/-- Paths lead to nodes of the same kinds when each of two file systems has the nodes of the other
one. -/
theorem kind?_eq (h : files.Extends other) (h' : other.Extends files) (cwd : Location) :
    other.kind? cwd = files.kind? cwd := by
  have hsome {files other : FileSystem} (h : files.Extends other) {path : Path} {kind : FileKind}
      (hkind : files.kind? cwd path = some kind) : other.kind? cwd path = some kind := by
    rw [kind?, inspect] at hkind ⊢
    cases hfind : files.find cwd path with
    | error error => simp [hfind, Except.toOption] at hkind
    | ok found =>
      obtain ⟨place, node⟩ := found
      obtain ⟨later, hlike, hlater⟩ := h.resolve (find_eq_ok_iff.mp hfind)
      rw [find_eq_ok_iff.mpr hlater]
      cases node <;> cases later <;> simp_all [Node.IsLike, Except.toOption]
  funext path
  cases hkind : files.kind? cwd path with
  | some kind => exact hsome h hkind
  | none =>
    cases hother : other.kind? cwd path with
    | none => rfl
    | some kind => cases hkind.symm.trans (hsome h' hother)

/-- A file that takes the place of a file adds no node. -/
theorem put_file_extends {place : Location} {mode : Mode} {content : Content}
    (h : files.get? place = some (.file mode content)) (bits : Mode) (written : Content) :
    (files.put place (.file bits written)).Extends files := by
  intro there node hnode
  rw [get?_put] at hnode
  split at hnode
  · subst there
    obtain rfl := Option.some.inj hnode
    exact ⟨_, h, trivial⟩
  · exact ⟨node, hnode, .refl node⟩

end FileSystem

namespace Attempt

/-- The attempt depends on nothing but what kinds of nodes paths lead to, and it leaves the files as
they are. -/
def IsCheck (attempt : Attempt Unit) : Prop :=
  ∃ verdict : (Path → Option FileKind) → Except Fault Unit,
    ∀ (world : World) (stop : Bool) (files : FileSystem),
      attempt.run.run (world.answer stop) files = (verdict (files.kind? world.place), files)

namespace IsCheck

variable {attempt : Attempt Unit} {rest : Unit → Attempt Unit}

theorem of_pure : IsCheck (pure ()) :=
  ⟨fun _ => .ok (), fun _ _ _ => rfl⟩

theorem fail (cause : Cause) : IsCheck (Attempt.fail cause) :=
  ⟨fun _ => .error { cause }, fun _ _ _ => rfl⟩

/-- Two checks in a row are a check. -/
theorem bind (h : attempt.IsCheck) (hrest : (rest ()).IsCheck) : (attempt >>= rest).IsCheck := by
  obtain ⟨first, hfirst⟩ := h
  obtain ⟨second, hsecond⟩ := hrest
  refine ⟨fun kinds => (first kinds).bind fun _ => second kinds, fun world stop files => ?_⟩
  cases hverdict : first (files.kind? world.place) with
  | error fault =>
    rw [run_bind_error ((hfirst world stop files).trans (by rw [hverdict]))]
    simp only [hverdict, Except.bind]
  | ok value =>
    rw [run_bind_ok ((hfirst world stop files).trans (by rw [hverdict])), hsecond]
    simp only [hverdict, Except.bind]

theorem guarded {condition : Prop} [Decidable condition] (h : attempt.IsCheck)
    (hrest : (rest ()).IsCheck) : (if condition then attempt >>= rest else rest ()).IsCheck := by
  split
  · exact h.bind hrest
  · exact hrest

theorem unguarded {condition : Prop} [Decidable condition] (h : attempt.IsCheck)
    (hrest : (rest ()).IsCheck) : (if condition then rest () else attempt >>= rest).IsCheck := by
  split
  · exact hrest
  · exact h.bind hrest

/-- What is done depends on the kind of node that a path leads to. -/
theorem always {plan : Plan Bool} {f : Bool → Attempt Unit} (path : Path)
    (test : Option FileKind → Bool)
    (hplan : ∀ (world : World) (stop : Bool) (files : FileSystem),
      plan.run (world.answer stop) files = (test (files.kind? world.place path), files))
    (hf : ∀ found, (f found).IsCheck) : (Attempt.always plan >>= f).IsCheck := by
  choose verdict hverdict using hf
  refine ⟨fun kinds => verdict (test (kinds path)) kinds, fun world stop files => ?_⟩
  rw [run_bind_ok (run_always (hplan world stop files)), hverdict]

theorem forM? {γ : Type} {f : γ → Attempt Unit} (entry : Option γ) (h : ∀ entry, (f entry).IsCheck) :
    (entry.forM f).IsCheck := by
  cases entry with
  | none => exact of_pure
  | some entry => exact h entry

theorem forM {γ : Type} {f : γ → Attempt Unit} (entries : List γ) (h : ∀ entry, (f entry).IsCheck) :
    (entries.forM f).IsCheck := by
  induction entries with
  | nil => exact of_pure
  | cons entry rest ih => exact (h entry).bind ih

end IsCheck

/-- Beginning with some files, an attempt fails and leaves them as they are, or it amounts to another
one. In this case it does so on all files where paths lead to nodes of the same kinds. -/
def AmountsTo (world : World) (files : FileSystem) (attempt remaining : Attempt Unit) : Prop :=
  (∃ fault, ∀ stop, attempt.run.run (world.answer stop) files = (.error fault, files)) ∨
    ∀ (stop : Bool) (other : FileSystem), other.kind? world.place = files.kind? world.place →
      attempt.run.run (world.answer stop) other = remaining.run.run (world.answer stop) other

namespace AmountsTo

variable {attempt remaining : Attempt Unit} {rest : Unit → Attempt Unit}

theorem refl (attempt : Attempt Unit) : AmountsTo world files attempt attempt :=
  .inr fun _ _ _ => rfl

/-- A check that has passed makes no difference. -/
theorem bind (h : attempt.IsCheck) (hrest : AmountsTo world files (rest ()) remaining) :
    AmountsTo world files (attempt >>= rest) remaining := by
  obtain ⟨verdict, hverdict⟩ := h
  cases hpassed : verdict (files.kind? world.place) with
  | error fault =>
    exact .inl ⟨fault, fun stop => run_bind_error ((hverdict world stop files).trans (by rw [hpassed]))⟩
  | ok value =>
    have hskip (stop : Bool) (other : FileSystem)
        (hkinds : other.kind? world.place = files.kind? world.place) :
        (attempt >>= rest).run.run (world.answer stop) other =
          (rest ()).run.run (world.answer stop) other :=
      run_bind_ok ((hverdict world stop other).trans (by rw [hkinds, hpassed]))
    rcases hrest with ⟨fault, hfault⟩ | hremaining
    · exact .inl ⟨fault, fun stop => (hskip stop files rfl).trans (hfault stop)⟩
    · exact .inr fun stop other hkinds => (hskip stop other hkinds).trans (hremaining stop other hkinds)

theorem guarded {condition : Prop} [Decidable condition] (h : attempt.IsCheck)
    (hrest : AmountsTo world files (rest ()) remaining) :
    AmountsTo world files (if condition then attempt >>= rest else rest ()) remaining := by
  split
  · exact bind h hrest
  · exact hrest

end AmountsTo

/-- A part that succeeds only under a condition makes the whole succeed only under it. -/
theorem Ensures.of_first {β : Type} {condition : Prop} {attempt : Attempt Unit}
    {rest : Unit → Attempt β} (h : attempt.Ensures fun _ => condition) :
    (attempt >>= rest).Ensures fun _ => condition where
  of_ends hends := by
    rcases ends_bind.mp hends with ⟨fault, -, hfault⟩ | ⟨first, value, second, rfl, hfirst, -⟩
    · cases hfault
    · exact h.of_ends hfirst

end Attempt

namespace Preflight

theorem run_isFile_eq (path : Path) (world : World) (stop : Bool) (files : FileSystem) :
    (Plan.isFile path).run (world.answer stop) files =
      ((files.kind? world.place path).any (· = .file), files) := by
  rw [Plan.run_isFile, kind?, Option.any_map]

theorem run_isDirectory_eq (path : Path) (world : World) (stop : Bool) (files : FileSystem) :
    (Plan.isDirectory path).run (world.answer stop) files =
      ((files.kind? world.place path).any (· = .directory), files) := by
  rw [Plan.run_isDirectory, kind?, Option.any_map]

theorem run_pathExists_eq (path : Path) (world : World) (stop : Bool) (files : FileSystem) :
    (Plan.pathExists path).run (world.answer stop) files =
      ((files.kind? world.place path).isSome, files) := by
  rw [Plan.run_pathExists, kind?, Option.isSome_map]
  cases files.inspect world.place path <;> rfl

theorem isCheck_validateFile (what : Prerequisite) (path : Path) :
    (validateFile what path).IsCheck := by
  rw [validateFile]
  refine IsCheck.guarded (.fail _) (.always path _ (run_isFile_eq path) fun found => ?_)
  split
  · exact .of_pure
  · exact .fail _

theorem isCheck_validateDirectory (what : Prerequisite) (path : Path) :
    (validateDirectory what path).IsCheck := by
  rw [validateDirectory]
  refine IsCheck.guarded (.fail _) (.always path _ (run_pathExists_eq path) fun found => ?_)
  refine IsCheck.unguarded (.fail _) (.always path _ (run_isDirectory_eq path) fun found => ?_)
  split
  · exact .of_pure
  · exact .fail _

theorem isCheck_validateSigning (signing : SigningConfig) : (validateSigning signing).IsCheck := by
  rw [validateSigning]
  split
  · exact isCheck_validateFile _ _
  · exact (isCheck_validateFile _ _).bind (isCheck_validateFile _ _)
  · exact .fail _

/-- That tools are missing is seen from what kinds of nodes their paths lead to. -/
theorem isCheck_checkTools (toolchain : Toolchain) (tools : List Tool) :
    (checkTools toolchain tools).IsCheck := by
  refine ⟨fun kinds =>
    let missing := tools.filter fun tool => !(kinds (toolchain.path tool)).any (· = .file)
    let cause := Cause.preflight (.missingTools (missing.map fun tool => (tool, toolchain.path tool)))
    if missing.isEmpty = true then .ok () else .error { cause },
    fun world stop files => ?_⟩
  have hmissing : (tools.filter fun tool =>
      !(files.kind? world.place (toolchain.path tool)).any (· = .file)) = tools.filter fun tool =>
        !(files.inspect world.place (toolchain.path tool)).toOption.any (·.kind = .file) := by
    simp only [kind?, Option.any_map]
  rw [checkTools, run_bind_ok (run_always (run_missingTools toolchain tools)), ← hmissing]
  dsimp only
  split <;> rfl

/-- The checks fail, or what remains to be done is a matter of the tools. -/
theorem amountsTo_validate (world : World) (files : FileSystem) (config : BuildConfig)
    (toolchain : Toolchain) : AmountsTo world files (validate config toolchain) (do
      checkTools toolchain (requiredTools config)
      (requiredTools config).forM fun tool => ensureExecutable (toolchain.path tool)) := by
  rw [validate]
  refine .bind (isCheck_validateDirectory _ _) (.bind (isCheck_validateDirectory _ _) ?_)
  refine .bind (.forM? _ fun _ => isCheck_validateDirectory _ _) ?_
  refine .bind (.forM? _ fun _ => isCheck_validateDirectory _ _) ?_
  refine .bind (isCheck_validateFile _ _) (.bind (isCheck_validateFile _ _) ?_)
  refine .guarded (.fail _) (.bind (.forM _ fun _ => isCheck_validateDirectory _ _) ?_)
  refine .bind (.forM _ fun _ => isCheck_validateFile _ _) ?_
  refine .bind (.forM? _ fun _ => isCheck_validateFile _ _) ?_
  refine .guarded (.forM? _ fun _ => isCheck_validateFile _ _) ?_
  exact .guarded (isCheck_validateSigning _) (.refl _)

end Preflight

namespace Mode

theorem hasExecutors_or (mode : Mode) : (mode ||| 0o755).hasExecutors = true := by
  rw [hasExecutors, bne_iff_ne]
  intro h
  have hbit := congrArg (·.getLsbD 0) h
  simp at hbit

theorem hasExecutors_executable (mode : Mode) : mode.executable.hasExecutors = true := by
  rw [executable]
  split
  · assumption
  · exact mode.hasExecutors_or

end Mode

namespace Preflight

variable {programs : List Path}

/-- Some programs have been made executable, and nothing else has been changed. -/
structure Readied (cwd : Location) (programs : List Path) (files last : FileSystem) : Prop where
  toExtends : files.Extends last
  extends_files : last.Extends files
  /-- A program that no one may execute gets new permission bits. -/
  get?_eq (place : Location) : last.get? place = files.get? place ∨
    ∃ program ∈ programs, ∃ mode content, files.find cwd program = .ok (place, .file mode content) ∧
      mode.hasExecutors = false ∧ last.get? place = some (.file (mode ||| 0o755) content)
  exists_executable : ∀ program ∈ programs, ∃ place mode content,
    last.find cwd program = .ok (place, .file mode content) ∧ mode.hasExecutors = true

/-- One more program is made executable before the others. -/
theorem Readied.cons {program : Path} {there : Location} {mode : Mode} {content : Content}
    (hfind : files.find cwd program = .ok (there, .file mode content))
    (h : Readied cwd programs (files.put there (.file mode.executable content)) last) :
    Readied cwd (program :: programs) files last := by
  obtain ⟨hextends, hafter⟩ := find_put_self hfind mode.executable content
  have hback := put_file_extends (get?_of_find hfind) mode.executable content
  -- The other programs do not change this one again, since it is executable by now.
  have hkept : last.get? there = some (.file mode.executable content) := by
    rcases h.get?_eq there with heq | ⟨other, -, bits, held, hother, hexecutors, -⟩
    · rw [heq, get?_put_self]
    · have hnode := get?_of_find hother
      rw [get?_put_self] at hnode
      cases hnode
      simp [Mode.hasExecutors_executable] at hexecutors
  refine ⟨hextends.trans h.toExtends, h.extends_files.trans hback, fun place => ?_, ?_⟩
  · by_cases hplace : place = there
    · subst place
      rw [hkept, Mode.executable]
      cases hexecutors : mode.hasExecutors with
      | true => exact .inl (get?_of_find hfind).symm
      | false => exact .inr ⟨program, List.mem_cons_self, mode, content, hfind, hexecutors, rfl⟩
    · have hput : (files.put there (.file mode.executable content)).get? place = files.get? place := by
        rw [get?_put, if_neg (Ne.symm hplace)]
      rcases h.get?_eq place with heq | ⟨other, hmem, bits, held, hother, hexecutors, heq⟩
      · exact .inl (heq.trans hput)
      · refine .inr ⟨other, List.mem_cons_of_mem _ hmem, bits, held, ?_, hexecutors, heq⟩
        obtain ⟨old, written, hbefore⟩ := hback.find_file hother
        have hnode := (get?_of_find hbefore).symm.trans (hput.symm.trans (get?_of_find hother))
        rw [hbefore, Option.some.inj hnode]
  · refine List.forall_mem_cons.mpr ⟨?_, h.exists_executable⟩
    obtain ⟨bits, held, hlast⟩ := h.toExtends.find_file hafter
    cases (get?_of_find hlast).symm.trans hkept
    exact ⟨there, _, _, hlast, mode.hasExecutors_executable⟩

/-- Programs are made executable one after the other. -/
theorem exists_readied {tools : List Tool} {toolchain : Toolchain} (world : World) (stop : Bool)
    (h : ∀ tool ∈ tools, files.HasFile world.place (toolchain.path tool)) :
    ∃ last, (tools.forM fun tool => ensureExecutable (toolchain.path tool)).run.run
        (world.answer stop) files = (.ok (), last) ∧
      Readied world.place (tools.map toolchain.path) files last := by
  induction tools generalizing files with
  | nil => exact ⟨files, rfl, .refl files, .refl files, fun _ => .inl rfl, nofun⟩
  | cons tool rest ih =>
    obtain ⟨⟨there, mode, content, hfind⟩, hrest⟩ := List.forall_mem_cons.mp h
    obtain ⟨last, hlast, hreadied⟩ := ih fun other hmem =>
      (hrest other hmem).put hfind mode.executable content
    refine ⟨last, ?_, .cons hfind hreadied⟩
    exact (run_bind_ok (run_ensureExecutable hfind)).trans hlast

/-- Programs that are executable are left as they are. -/
theorem run_forM_of_executable {tools : List Tool} {toolchain : Toolchain}
    (h : ∀ program ∈ tools.map toolchain.path, ∃ place mode content,
      files.find world.place program = .ok (place, .file mode content) ∧ mode.hasExecutors = true) :
    (tools.forM fun tool => ensureExecutable (toolchain.path tool)).run.run (world.answer stop)
      files = (.ok (), files) := by
  induction tools with
  | nil => rfl
  | cons tool rest ih =>
    obtain ⟨⟨there, mode, content, hfind, hexecutors⟩, hrest⟩ := List.forall_mem_cons.mp h
    have hfirst : (ensureExecutable (toolchain.path tool)).run.run (world.answer stop) files = _ :=
      run_ensureExecutable hfind
    rw [Mode.executable, if_pos hexecutors, put_eq_self (get?_of_find hfind)] at hfirst
    exact (run_bind_ok hfirst).trans (ih hrest)

/-- When a package is to be signed, the checks do not succeed without key material. -/
theorem ensures_validate (config : BuildConfig) (toolchain : Toolchain) :
    (validate config toolchain).Ensures fun _ =>
      config.signEnabled = true → config.signing.material?.isSome = true := by
  have hsigning : (validateSigning config.signing).Ensures fun _ =>
      config.signing.material?.isSome = true := by
    rw [validateSigning]
    cases config.signing.material? with
    | none => exact .fail _
    | some material => exact ⟨fun _ => rfl⟩
  rw [validate]
  refine .bind fun _ => .bind fun _ => .bind fun _ => .bind fun _ => .bind fun _ => .bind fun _ => ?_
  refine .guarded (.bind fun _ => .bind fun _ => .bind fun _ => .guarded ?_)
  split
  · exact .of_first ⟨fun hends _ => hsigning.of_ends hends⟩
  · exact ⟨fun _ hsign => absurd hsign ‹_›⟩

end Preflight

namespace Builder

variable {builder : Builder} {config : BuildConfig} {history : History} {run : BuildRun}

/-- When a stage of a build has failed, its turn is a part of the history, unless the build lacks a
package at the end. -/
theorem Course.exists_turn {package : Option Path} {stages : List Stage} {name detail : String}
    (h : builder.Course config package stages history run)
    (hrun : run.outcome = .failed (.stage name detail)) :
    name = Stage.packageResources.name ∨ ∃ stage package turn before after fault elapsed,
      stage.isEnabled config = true ∧ name = stage.name ∧ detail = fault.message ∧
        history = before ++ (turn ++ after) ∧
        (builder.turn config package stage).Ends turn (.error fault, elapsed) := by
  induction h with
  | stopped => cases hrun
  | finished package =>
    cases package <;> cases hrun
    exact .inl rfl
  | @skipped package stage rest history run _ _ ih =>
    rcases ih hrun with hname | ⟨stage, package, turn, before, after, fault, elapsed, henabled, hname,
      hdetail, rfl, hturn⟩
    · exact .inl hname
    · exact .inr ⟨stage, package, turn, .check false :: before, after, fault, elapsed, henabled,
        hname, hdetail, rfl, hturn⟩
  | @completed package stage rest first output elapsed history run _ _ _ ih =>
    rcases ih hrun with hname | ⟨stage, package, turn, before, after, fault, elapsed, henabled, hname,
      hdetail, rfl, hturn⟩
    · exact .inl hname
    · exact .inr ⟨stage, package, turn, .check false :: (first ++ before), after, fault, elapsed,
        henabled, hname, hdetail, by simp, hturn⟩
  | interrupted => cases hrun
  | @failed package stage rest turn fault elapsed henabled hturn _ =>
    cases hrun
    exact .inr ⟨stage, package, turn, [.check false], [.check false], fault, elapsed, henabled, rfl, rfl,
      rfl, hturn⟩

/-- No build fails at signing because its key material is incomplete. -/
theorem outcome_ne_of_runClaimed (h : (builder.runClaimed config).Ends history run)
    (hcalls : ∀ (invocation : Invocation) (fault : Fault),
      ⟨.call invocation, (.error fault : Except Fault ToolOutput)⟩ ∈ history → fault.TellsOtherwise) :
    run.outcome ≠
      .failed (.stage Stage.sign.name (StageError.message .incompleteSigning)) := by
  intro hrun
  cases builder.claimed_of_ends h with
  | rejected => cases hrun
  | @executed opening checks stages report closing ids _ hopening hchecks hcourse =>
    rcases hcourse.exists_turn hrun with hname | ⟨stage, package, turn, before, after, fault, elapsed,
      henabled, hname, hdetail, rfl, hturn⟩
    · exact absurd hname (by decide)
    · obtain rfl : stage = .sign := by
        cases stage <;> first | rfl | exact absurd hname (by decide)
      obtain ⟨started, ended, work, rfl, hwork⟩ := builder.ends_turn hturn
      have hmaterial := (Preflight.ensures_validate config builder.toolchain).of_ends hchecks henabled
      refine (Stage.failsWith_runSign hmaterial package).of_ends hwork ?_ hdetail.symm
      exact fun invocation fault hmem => hcalls invocation fault (by simp [hmem])

end Builder

namespace Preflight

/-- The checks before a build change nothing but the permission bits of tools that no one may
execute. When they fail, they change nothing; when they succeed, all tools are executable, and when
they are repeated, they succeed and change nothing. In no case a build fails at signing because its
key material is incomplete. -/
theorem validate_changes (world : World) (stop : Bool) (files : FileSystem) (config : BuildConfig)
    (toolchain : Toolchain) :
    ((∃ fault, (validate config toolchain).run.run (world.answer stop) files =
      (.error fault, files)) ∨
    ∃ last, (validate config toolchain).run.run (world.answer stop) files = (.ok (), last) ∧
      (∀ place, last.get? place = files.get? place ∨
        ∃ tool ∈ requiredTools config, ∃ mode content,
          files.find world.place (toolchain.path tool) = .ok (place, .file mode content) ∧
          mode.hasExecutors = false ∧
          last.get? place = some (.file (mode ||| 0o755) content)) ∧
      (∀ tool ∈ requiredTools config, ∃ place mode content,
        last.find world.place (toolchain.path tool) = .ok (place, .file mode content) ∧
        mode.hasExecutors = true) ∧
      ∀ stop', (validate config toolchain).run.run (world.answer stop') last = (.ok (), last)) ∧
    ∀ ⦃builder : Builder⦄ ⦃history : History⦄ ⦃run : BuildRun⦄,
      (builder.runClaimed config).Ends history run →
      (∀ (invocation : Invocation) (fault : Fault),
        ⟨.call invocation, (.error fault : Except Fault ToolOutput)⟩ ∈ history →
          fault.TellsOtherwise) →
      run.outcome ≠
        .failed (.stage Stage.sign.name (StageError.message .incompleteSigning)) := by
  refine ⟨?_, fun builder history run => Builder.outcome_ne_of_runClaimed⟩
  rcases amountsTo_validate world files config toolchain with ⟨fault, hfault⟩ | hremaining
  · exact .inl ⟨fault, hfault stop⟩
  · obtain ⟨verdict, hverdict⟩ := isCheck_checkTools toolchain (requiredTools config)
    cases hpassed : verdict (files.kind? world.place) with
    | error fault =>
      have hmissing := hverdict world stop files
      rw [hpassed] at hmissing
      exact .inl ⟨fault, (hremaining stop files rfl).trans (run_bind_error hmissing)⟩
    | ok value =>
      have hpass (stop : Bool) (other : FileSystem)
          (hkinds : other.kind? world.place = files.kind? world.place) :
          (validate config toolchain).run.run (world.answer stop) other =
            ((requiredTools config).forM fun tool => ensureExecutable (toolchain.path tool)).run.run
              (world.answer stop) other :=
        (hremaining stop other hkinds).trans <| run_bind_ok <|
          (hverdict world stop other).trans (by rw [hkinds, hpassed])
      have hfound := hasFile_of_run_checkTools ((hverdict world stop files).trans (by rw [hpassed]))
      obtain ⟨last, hlast, hreadied⟩ := exists_readied world stop hfound
      refine .inr ⟨last, (hpass stop files rfl).trans hlast, fun place => ?_, fun tool hmem => ?_,
        fun stop' => ?_⟩
      · refine (hreadied.get?_eq place).imp_right ?_
        rintro ⟨program, hmem, hchanged⟩
        obtain ⟨tool, htool, rfl⟩ := List.mem_map.mp hmem
        exact ⟨tool, htool, hchanged⟩
      · exact hreadied.exists_executable _ (List.mem_map_of_mem hmem)
      · have hkinds := kind?_eq hreadied.toExtends hreadied.extends_files world.place
        exact (hpass stop' last hkinds).trans (run_forM_of_executable hreadied.exists_executable)

/-! ### An example -/

/-- A configuration that asks for a signed package. -/
def signedConfig : BuildConfig :=
  { Builder.briefConfig with
    signEnabled := true
    signing := { keyPair := ⟨some ⟨"/f"⟩, some ⟨"/f"⟩⟩ } }

/-- Files of which the only program is not executable. -/
def lockedFiles : FileSystem :=
  (FileSystem.root.put ["d"] (.directory 0o755)).put ["f"] (.file 0o640 .empty)

/-- The only program is made executable once and for all, and a build fails at signing since its tool
leaves no signed package. -/
theorem validate_changes_signed :
    (∃ last, (validate signedConfig Builder.sampleBuilder.toolchain).run.run
        (Builder.busyWorld.answer false) lockedFiles = (.ok (), last) ∧
      last.inspect [] ⟨"/f"⟩ = .ok ⟨.file, 0o640 ||| 0o755⟩ ∧
      (validate signedConfig Builder.sampleBuilder.toolchain).run.run
        (Builder.busyWorld.answer true) last = (.ok (), last)) ∧
    ∃ detail, ((Builder.sampleBuilder.runClaimed signedConfig).run (Builder.busyWorld.answer false)
        lockedFiles).1.outcome = .failed (.stage Stage.sign.name detail) ∧
      detail ≠ StageError.message .incompleteSigning := by
  have hpass : ((validate signedConfig Builder.sampleBuilder.toolchain).run.run
        (Builder.busyWorld.answer false) lockedFiles).1 = .ok () ∧
      ((validate signedConfig Builder.sampleBuilder.toolchain).run.run
        (Builder.busyWorld.answer false) lockedFiles).2.inspect [] ⟨"/f"⟩ =
          .ok ⟨.file, 0o640 ||| 0o755⟩ := by
    decide +kernel
  have hfail : ((Builder.sampleBuilder.runClaimed signedConfig).run (Builder.busyWorld.answer false)
      lockedFiles).1.outcome =
        .failed (.stage Stage.sign.name
          "Signed package not found: /d/outputs/com.example.app.apk") := by
    decide +kernel
  obtain ⟨hchecks, hsign⟩ := validate_changes Builder.busyWorld false lockedFiles signedConfig
    Builder.sampleBuilder.toolchain
  refine ⟨?_, _, hfail, fun heq => ?_⟩
  · rcases hchecks with ⟨fault, hfault⟩ | ⟨last, hlast, -, -, hagain⟩
    · rw [hfault] at hpass
      cases hpass.1
    · rw [hlast] at hpass
      exact ⟨last, hlast, hpass.2, hagain true⟩
  · refine hsign (Plan.ends_run _ _ _) (fun invocation fault hmem => ?_) (hfail.trans ?_)
    · exact absurd hmem <| World.call_not_mem_history (fun _ _ _ hcall => by cases hcall) false _ _
        invocation fault
    · rw [heq]

end Preflight

end SketchApk
