import SketchApk.Proofs.Build.Stop
import SketchApk.Proofs.Stage.Secret

/-!
# Builds and passwords

The passwords of a configuration are read by signing only, and preflight only asks whether they are
there. So what is shown for signing holds of a build from its claim to its report: with other
passwords it makes the same calls and prints, delivers and reports the same. A link under the name
of a password file is not covered: the link is removed in place of the file to which it leads.

## Main definitions

* `Builder.KeepsSecrets` : a build that is the same for any passwords and leaves none behind.

## Main statements

* `Builder.keepsSecrets` : builds keep passwords secret from tools that do not look at them.
-/

namespace SketchApk

open Plan Request

variable {surroundings : Surroundings} {config : BuildConfig}

theorem Stage.alike_execute (toolchain : Toolchain) (store key : String)
    (h : surroundings.Discreet config.layout.signingDir config.passwordNames)
    (package : Option Path) (stage : Stage) :
    surroundings.Alike (config.passwordNames.map (config.layout.signingDir / ·))
      (isAccepted surroundings.place config.layout.signingDir config.passwordNames) Eq Eq
      (stage.execute ⟨config, toolchain⟩ package).run
      (stage.execute ⟨config.withPasswords store key, toolchain⟩ package).run := by
  cases stage with
  | sign => exact alike_runSign store key h package
  | _ => exact .refl _

namespace Preflight

theorem validate_withPasswords (toolchain : Toolchain) (store key : String) :
    validate (config.withPasswords store key) toolchain = validate config toolchain := by
  have hsigning : validateSigning (config.withPasswords store key).signing =
      validateSigning config.signing := by
    have hmaterial : (config.withPasswords store key).signing.material? = _ :=
      config.signing.material?_withPasswords store key
    rw [validateSigning, validateSigning, hmaterial]
    rcases config.signing.material? with _ | ⟨_ | _⟩ <;> rfl
  rw [validate, validate, hsigning]
  rfl

end Preflight

namespace Builder

variable (builder : Builder)

theorem alike_turn (store key : String)
    (h : surroundings.Discreet config.layout.signingDir config.passwordNames)
    (package : Option Path) (stage : Stage) :
    surroundings.Alike (config.passwordNames.map (config.layout.signingDir / ·))
      (isAccepted surroundings.place config.layout.signingDir config.passwordNames) Eq Eq
      (builder.turn config package stage)
      (builder.turn (config.withPasswords store key) package stage) := by
  refine Surroundings.Alike.bind (.refl _) fun _ => ?_
  refine Surroundings.Alike.bind (.refl _) fun started => ?_
  exact (Stage.alike_execute builder.toolchain store key h package stage).bind fun _ => .refl _

/-- The stages of a build are the same for any passwords. -/
theorem alike_runStages (store key : String)
    (h : surroundings.Discreet config.layout.signingDir config.passwordNames)
    (package : Option Path) (stages : List Stage) :
    surroundings.Alike (config.passwordNames.map (config.layout.signingDir / ·))
      (isAccepted surroundings.place config.layout.signingDir config.passwordNames) Eq Eq
      (builder.runStages config package stages)
      (builder.runStages (config.withPasswords store key) package stages) := by
  induction stages generalizing package with
  | nil => exact .refl _
  | cons stage rest ih =>
    refine Surroundings.Alike.bind (.refl _) fun asked => ?_
    split
    · exact .refl _
    · cases henabled : stage.isEnabled config with
      | false =>
        have hother : stage.isEnabled (config.withPasswords store key) = false := by
          cases stage <;> exact henabled
        simp only [hother, Bool.false_eq_true, if_false]
        exact Surroundings.Alike.bind (ih package) fun run => .refl _
      | true =>
        have hother : stage.isEnabled (config.withPasswords store key) = true := by
          cases stage <;> exact henabled
        simp only [hother, if_true]
        refine (builder.alike_turn store key h package stage).bind fun result => ?_
        obtain ⟨fault | output, elapsed⟩ := result
        · exact .refl _
        · exact Surroundings.Alike.bind (ih output.package) fun run => .refl _

/-- A build is the same for any passwords. -/
theorem alike_build (store key : String)
    (h : surroundings.Discreet config.layout.signingDir config.passwordNames) :
    surroundings.Alike (config.passwordNames.map (config.layout.signingDir / ·))
      (isAccepted surroundings.place config.layout.signingDir config.passwordNames) Eq Eq
      (builder.build config) (builder.build (config.withPasswords store key)) := by
  have hchecked (runId startedAt : String) :
      surroundings.Alike (config.passwordNames.map (config.layout.signingDir / ·))
        (isAccepted surroundings.place config.layout.signingDir config.passwordNames) Eq Eq
        (builder.runChecked runId startedAt config)
        (builder.runChecked runId startedAt (config.withPasswords store key)) := by
    rw [runChecked, runChecked, Preflight.validate_withPasswords]
    refine Surroundings.Alike.bind (.refl _) fun result => ?_
    cases result with
    | error fault => exact .refl _
    | ok _ =>
      refine Surroundings.Alike.bind (builder.alike_runStages store key h none Stage.all) fun run => ?_
      exact .refl _
  refine Surroundings.Alike.bind (.refl _) fun claimed => ?_
  cases claimed with
  | error error => exact .refl _
  | ok _ =>
    refine Surroundings.Alike.bind ?_ fun _ => .refl _
    refine Surroundings.Alike.bind (.refl _) fun ids => ?_
    exact Surroundings.Alike.bind (hchecked ids.1 ids.2) fun run => .refl _

/-- Passwords are kept secret by a build, as long as its password files are accepted by the signing
directory. -/
structure KeepsSecrets (surroundings : Surroundings) (builder : Builder) (config : BuildConfig) :
    Prop where
  /-- A build with other passwords cannot be told apart, except by the contents of its password
  files. -/
  indistinct : ∀ store key start,
    surroundings.Holds
        (isAccepted surroundings.place config.layout.signingDir config.passwordNames)
        (builder.build config) start = true →
      surroundings.Indistinct (config.passwordNames.map (config.layout.signingDir / ·))
        (builder.build config) (builder.build (config.withPasswords store key)) start
  /-- Whatever becomes of signing, nothing is left where passwords have been written. -/
  clears : ∀ package, surroundings.Clears
    (isAccepted surroundings.place config.layout.signingDir config.passwordNames)
    (Stage.runSign ⟨config, builder.toolchain⟩ package).run

variable {builder} in
/-- Builds keep passwords secret from tools that do not look at them. -/
theorem keepsSecrets (h : surroundings.Discreet config.layout.signingDir config.passwordNames) :
    builder.KeepsSecrets surroundings config where
  indistinct store key start hholds :=
    (builder.alike_build store key h start.1 start.1 start.2 rfl hholds).indistinct
  clears package := Stage.clears_runSign ⟨config, builder.toolchain⟩ h package

/-! ### Examples -/

/-- The files that tools write in the build directory. -/
def products : List (Location × Content) :=
  [(["compiled_res", "resources.zip"], .empty), (["gen", "resources.ap_"], .ofArchive .empty),
    (["gen", "R.java"], .empty), (["classes", "R.class"], .empty),
    (["dex", "classes.dex"], .empty), (["outputs", "com.example.app.apk"], .empty)]

/-- The files after a tool has written one of them, unless there is something else in its place. -/
def produce (files : FileSystem) (entry : Location × Content) : FileSystem :=
  if files.isOpen ("d" :: entry.1) then files.put ("d" :: entry.1) (.file Mode.newFile entry.2)
  else files

/-- A world in which every tool writes these files and succeeds. -/
def discreetWorld : World where
  place := []
  tools _ files := (.ok ⟨some 0, "", ""⟩, products.foldl produce files)

/-- The surroundings that are such a world. -/
def discreetSurroundings : Surroundings where
  place := discreetWorld.place
  tools _ := discreetWorld.tools
  answers _ request := (discreetWorld.answer false request default).1

/-- The tools of these surroundings do not look at any password file. -/
theorem discreet_sample (directory : Path) (names : List String) :
    discreetSurroundings.Discreet directory names := by
  have htakes (entries : List (Location × Content)) {files : FileSystem} {place : Location}
      (h : files.Takes [] directory place names) :
      (entries.foldl produce files).Takes [] directory place names := by
    induction entries generalizing files with
    | nil => exact h
    | cons entry rest ih =>
      refine ih ?_
      rw [produce]
      split
      · exact h.put ‹_› _ _
      · exact h
  have hagree (entries : List (Location × Content)) {hidden : List Location}
      {files other : FileSystem} (h : FileSystem.AgreeBut hidden files other) :
      FileSystem.AgreeBut hidden (entries.foldl produce files) (entries.foldl produce other) := by
    induction entries generalizing files other with
    | nil => exact h
    | cons entry rest ih =>
      refine ih ?_
      rw [produce, produce, h.isOpen_eq]
      split
      · exact h.put_same _ _
      · exact h
  exact ⟨fun _ _ _ _ h => .inl (htakes products h), fun _ _ _ _ _ h => ⟨rfl, hagree products h.agree⟩⟩

/-- A configuration with two passwords. -/
def secretConfig : BuildConfig :=
  { sampleConfig with
    signEnabled := true
    optimizeEnabled := false
    alignEnabled := false
    signing :=
      { useKeystore := true
        keystore :=
          { path := some ⟨"/k"⟩
            keyAlias := some "a"
            storePassword := some "hunter2"
            keyPassword := some "hunter3" } } }

/-- Files with a keystore. -/
def secretFiles : FileSystem :=
  sampleFiles.put ["k"] (.file 0o644 .empty)

/-- A build whose signing directory accepts its password files keeps its passwords secret. -/
theorem keepsSecrets_sample :
    discreetSurroundings.Holds (isAccepted [] ⟨"/d/signing"⟩ ["store-pass.txt", "key-pass.txt"])
        (sampleBuilder.build secretConfig) (secretFiles, 0) = true ∧
      discreetSurroundings.written
          (Stage.runSign ⟨secretConfig, sampleBuilder.toolchain⟩ (some ⟨"/f"⟩)).run (secretFiles, 0) =
        [["d", "signing", "store-pass.txt"], ["d", "signing", "key-pass.txt"]] ∧
      sampleBuilder.KeepsSecrets discreetSurroundings secretConfig :=
  ⟨by decide +kernel, by decide +kernel, keepsSecrets (discreet_sample _ _)⟩

/-- Files in which the signing directory is a link. It leads nowhere at first, but to a directory
with a link once there is a directory of outputs. -/
def leakyFiles : FileSystem :=
  ((secretFiles.put ["d", "signing"] (.link ⟨"outputs/../../p"⟩)).put ["p"] (.directory 0o755)).put
    ["p", "store-pass.txt"] (.link ⟨"/leak"⟩)

/-- The text of a file after a build of such files with some passwords. -/
def leaked (store key : String) : Option String :=
  (((sampleBuilder.build (secretConfig.withPasswords store key)).run discreetSurroundings.answer
    (leakyFiles, 0)).2.1.read [] ⟨"/leak"⟩).toOption.bind Content.text?

/-- A password is left where a link leads to in place of a password file. -/
theorem leaked_sample :
    discreetSurroundings.Discreet secretConfig.layout.signingDir secretConfig.passwordNames ∧
      leaked "hunter2" "hunter3" = some "hunter2" ∧ leaked "other" "hunter3" = some "other" :=
  ⟨discreet_sample _ _, by decide +kernel, by decide +kernel⟩

end Builder

end SketchApk
