import SketchApk.Proofs.Plan.Failure
import SketchApk.Stage.Execute

/-!
# Why signing fails

When there is key material, signing fails for other reasons than that it is incomplete. Its message
is told from all others that the stage can leave by its first two letters. What a tool reports is not
a matter of the stage, so calls are assumed not to be answered with this message.

## Main statements

* `Stage.failsWith_runSign` : signing with key material does not report that this is incomplete.
-/

namespace SketchApk

open Plan

/-! ### Messages -/

/-- The text has two letters at least and begins otherwise than the message for incomplete key
material. -/
def BeginsOtherwise (text : String) : Prop :=
  2 ≤ text.toList.length ∧ text.toList.take 2 ≠ ['s', 'i']

instance : DecidablePred BeginsOtherwise := fun _ => inferInstanceAs (Decidable (_ ∧ _))

theorem BeginsOtherwise.append {front : String} (h : BeginsOtherwise front) (rest : String) :
    BeginsOtherwise (front ++ rest) := by
  rw [BeginsOtherwise, String.toList_append, List.length_append, List.take_append_of_le_length h.1]
  exact ⟨Nat.le_add_right_of_le h.1, h.2⟩

theorem BeginsOtherwise.ne {text : String} (h : BeginsOtherwise text) :
    text ≠ StageError.message .incompleteSigning := by
  intro heq
  rw [heq] at h
  exact absurd h (by decide)

/-- An activity that is described by some words and a path between quotes. -/
theorem BeginsOtherwise.quoted {front : String} (h : BeginsOtherwise front) (path : Path) :
    BeginsOtherwise (front ++ path.text ++ "'") :=
  (h.append _).append _

theorem FileError.beginsOtherwise (error : FileError) : BeginsOtherwise error.message := by
  cases error <;> decide +kernel

namespace Fault

/-- The fault is not reported by the message for incomplete key material. -/
def TellsOtherwise (fault : Fault) : Prop :=
  fault.message ≠ StageError.message .incompleteSigning

theorem tellsOtherwise_of_chain {fault : Fault} {first : String} {rest : List String}
    (hchain : fault.chain = first :: rest) (h : BeginsOtherwise first) : fault.TellsOtherwise := by
  rw [TellsOtherwise, message, hchain]
  cases rest with
  | nil =>
    rw [String.intercalate_singleton]
    exact h.ne
  | cons next rest =>
    rw [String.intercalate_cons_cons]
    exact ((h.append _).append _).ne

theorem tellsOtherwise_during {activity : Activity} (h : BeginsOtherwise activity.message)
    (fault : Fault) : (fault.during activity).TellsOtherwise :=
  tellsOtherwise_of_chain rfl h

theorem tellsOtherwise_file (error : FileError) : Fault.TellsOtherwise { cause := .file error } :=
  tellsOtherwise_of_chain rfl error.beginsOtherwise

theorem tellsOtherwise_missing {what : String} (h : BeginsOtherwise what) (path : Path) :
    Fault.TellsOtherwise { cause := .stage (.missing what path) } := by
  have hmessage : BeginsOtherwise (StageError.message (.missing what path)) :=
    (h.append _).append _
  exact tellsOtherwise_of_chain rfl hmessage

theorem tellsOtherwise_failure {command : Command} (h : BeginsOtherwise command.failureHeadline)
    (output : ToolOutput) : (command.failure output).TellsOtherwise := by
  have hmessage : BeginsOtherwise (ToolError.message
      (.failed command.failureHeadline output.code output.detail)) :=
    (((h.append _).append _).append _).append _
  exact tellsOtherwise_of_chain rfl hmessage

end Fault

/-! ### Signing -/

namespace Stage

open Attempt Fault

theorem failsWith_ensureExists {what : String} (h : BeginsOtherwise what) (path : Path) :
    (ensureExists path what).FailsWith TellsOtherwise := by
  refine (FailsWith.always _).bind fun found => ?_
  split
  · exact .of_pure ()
  · exact .fail (tellsOtherwise_missing h path)

theorem failsWith_currentPackage (package : Option Path) :
    (currentPackage package).FailsWith TellsOtherwise := by
  cases package with
  | some path => exact (failsWith_ensureExists (by decide) path).bind fun _ => .of_pure _
  | none => exact .fail (tellsOtherwise_of_chain rfl (by decide))

theorem failsWith_createDirectory (path : Path) :
    (createDirectory path).FailsWith TellsOtherwise :=
  .during (tellsOtherwise_during (.quoted (by decide) path))

theorem failsWith_prepareOutput (path : Path) :
    (prepareOutput path).FailsWith TellsOtherwise := by
  refine (FailsWith.forM? _ failsWith_createDirectory).bind fun _ => ?_
  refine (FailsWith.always _).bind fun found => ?_
  split
  · exact .during (tellsOtherwise_during (.quoted (by decide) path))
  · exact .of_pure ()

theorem failsWith_takeKeyLock (path : Path) : (takeKeyLock path).FailsWith TellsOtherwise := by
  have hlock : BeginsOtherwise (Activity.creatingLock path).message :=
    BeginsOtherwise.append (by decide) path.text
  rw [takeKeyLock]
  split
  · exact (failsWith_makeDirectories tellsOtherwise_file _).bind fun _ => .during (tellsOtherwise_during hlock)
  · exact .during (tellsOtherwise_during hlock)

theorem failsWith_copyKey (source directory : Path) :
    (copyKey source directory).FailsWith TellsOtherwise := by
  rw [copyKey]
  split
  · exact .fail (tellsOtherwise_of_chain rfl (BeginsOtherwise.append (by decide) source.text))
  · rename_i name hname
    have hfront : BeginsOtherwise "copying '" := by decide
    have hcopying : BeginsOtherwise (Activity.copying source (directory / name)).message :=
      ((hfront.append source.text).append "' to '").quoted (directory / name)
    exact (FailsWith.during (tellsOtherwise_during hcopying)).bind fun _ => .of_pure _

theorem failsWith_copyMaterial (directory : Path) (material : SigningMaterial) :
    (copyMaterial directory material).FailsWith TellsOtherwise := by
  cases material with
  | keystore => exact (failsWith_copyKey _ _).bind fun _ => .of_pure _
  | keyPair =>
    exact (failsWith_copyKey _ _).bind fun _ => (failsWith_copyKey _ _).bind fun _ => .of_pure _

theorem failsWith_guardingAfter {α : Type} {attempt : Attempt α}
    (h : attempt.FailsWith TellsOtherwise) (reached files : List PasswordFile) :
    (PasswordFile.guardingAfter attempt reached files).FailsWith TellsOtherwise := by
  induction files generalizing reached with
  | nil => exact h.followedBy
  | cons file rest ih =>
    have hwriting : BeginsOtherwise (Activity.writing file.path).message :=
      .quoted (by decide) file.path
    have hrestricting : BeginsOtherwise (Activity.restricting file.path).message :=
      .quoted (by decide) file.path
    have hwrite : file.write.FailsWith TellsOtherwise :=
      (FailsWith.during (tellsOtherwise_during hwriting)).bind fun _ =>
        .during (tellsOtherwise_during hrestricting)
    exact hwrite.undoneBy.bind fun _ => ih _

theorem failsWith_runCommand {command : Command} (h : BeginsOtherwise command.failureHeadline)
    (context : StageContext) : (context.runCommand command).FailsWith TellsOtherwise := by
  have hrun : command.run.FailsWith TellsOtherwise := by
    refine (FailsWith.call _).bind fun output => ?_
    split
    · exact .of_pure output
    · exact .throw (tellsOtherwise_failure h output)
  rw [StageContext.runCommand]
  refine FailsWith.guarded (.always _) ?_
  dsimp only
  refine hrun.bind fun output => ?_
  split
  · exact (FailsWith.always _).bind fun _ => .always _
  · exact .of_pure ()

/-- Signing with key material does not report that the material is incomplete. -/
theorem failsWith_runSign {context : StageContext}
    (hmaterial : context.config.signing.material?.isSome = true) (package : Option Path) :
    (runSign context package).FailsWith TellsOtherwise := by
  obtain ⟨material, hmaterial⟩ := Option.isSome_iff_exists.mp hmaterial
  refine (failsWith_currentPackage package).bind fun input => ?_
  rw [hmaterial]
  refine (failsWith_prepareOutput _).bind fun _ => ?_
  refine (failsWith_createDirectory _).bind fun _ => ?_
  refine (failsWith_takeKeyLock _).bind fun _ => ?_
  refine (failsWith_copyMaterial _ _).bind fun use => ?_
  refine (failsWith_guardingAfter (failsWith_runCommand ?_ context) [] _).bind fun _ => ?_
  · exact (by decide : BeginsOtherwise "apksigner failed")
  · exact (failsWith_ensureExists (by decide) _).bind fun _ => .of_pure _

end Stage

end SketchApk
