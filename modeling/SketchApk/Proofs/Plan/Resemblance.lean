import SketchApk.Proofs.Plan.Directories

/-!
# Runs on file systems that resemble each other

Two file systems with the same links may have the same nodes at some locations and files with the
same content at others. A path then leads to the same place in both. So when a directory is created
or a file is written in both, they resemble each other as before, and the file that has been written
has the same content.

## Main definitions

* `FileSystem.Resembles` : two file systems resemble each other.

## Main statements

* `FileSystem.Resembles.makeDirectories` : directories are created in both.
* `FileSystem.Resembles.overwrite` : a file is written in both.
* `FileSystem.Resembles.writeTextFile` : a text is written in both.
-/

namespace SketchApk

open Plan

namespace FileSystem

variable {nodes texts : Location → Prop} {files other last last' changed : FileSystem}
  {cwd place place' : Location} {path : Path} {content : Content} {mode : Option Mode}

/-- Two file systems have the same links, the same nodes at some locations, and files with the same
content at others. -/
structure Resembles (nodes texts : Location → Prop) (files other : FileSystem) : Prop where
  get?_eq {there : Location} (h : nodes there) : files.get? there = other.get? there
  contentAt_eq {there : Location} (h : texts there) : files.contentAt there = other.contentAt there
  sameLinks : files.SameLinks other

/-- The permission bits of a file that has been given a content, by what was there before. -/
def settledMode (mode : Option Mode) (content : Content) (node? : Option Node) : Mode :=
  let settled := mode.map fun bits => if content.isEmpty then bits else bits.afterWriting
  match node? with
  | some (.file old _) => settled.getD old.afterWriting
  | _ => settled.getD Mode.newFile

/-- A file that has been given a content lies where no link is. -/
theorem exists_of_overwrite_eq_ok (h : files.overwrite cwd path content mode = .ok changed) :
    ∃ target, files.resolve cwd .created path = .ok target ∧
      (∀ path, target.node? ≠ some (.link path)) ∧
      changed = files.put target.place
        (.file (settledMode mode content (files.get? target.place)) content) := by
  rw [FileSystem.overwrite] at h
  split at h
  · rename_i place old content' hresolve
    refine ⟨_, hresolve, by simp [Target.node?], ?_⟩
    rw [get?_of_resolve hresolve]
    by_cases hwritable : old.isWritable = true
    · rw [if_pos hwritable] at h
      exact (Except.ok.inj h).symm
    · rw [if_neg hwritable] at h
      cases h
  · cases h
  · rename_i place wants hresolve
    refine ⟨_, hresolve, by simp [Target.node?], ?_⟩
    rw [get?_of_resolve hresolve]
    exact eq_put_of_create h
  · cases h

namespace Resembles

theorem mono {fewer fewer' : Location → Prop} (h : Resembles nodes texts files other)
    (hnodes : ∀ there, fewer there → nodes there) (htexts : ∀ there, fewer' there → texts there) :
    Resembles fewer fewer' files other where
  get?_eq hthere := h.get?_eq (hnodes _ hthere)
  contentAt_eq hthere := h.contentAt_eq (htexts _ hthere)
  sameLinks := h.sameLinks

/-- Directories on the way of a path are created where they are missing in both. -/
theorem of_makesWay (h : Resembles nodes texts files other) (hway : files.MakesWay cwd path last)
    (hway' : other.MakesWay cwd path last') (hsame : files.SameFiles last)
    (hsame' : other.SameFiles last') (hpath : last.HasDirectory cwd path place)
    (hpath' : last'.HasDirectory cwd path place') : Resembles nodes texts last last' := by
  have hlinks : last.SameLinks last' :=
    hsame.sameLinks.symm.trans (h.sameLinks.trans hsame'.sameLinks)
  -- What has been created in one of them is on the way in the other one too.
  have hthere {files other : FileSystem} {place there : Location} {above : Path}
      (hlinks : files.SameLinks other) (habove : above.IsOnWay path)
      (hfound : files.HasDirectory cwd above there) (hpath : other.HasDirectory cwd path place) :
      ∃ mode, other.get? there = some (.directory mode) := by
    obtain ⟨there', hother⟩ := hpath.exists_of_isOnWay habove
    obtain rfl := hfound.eq_of_sameLinks hlinks hother
    exact hother.get?_place
  refine ⟨fun {there} hnode => ?_, fun {there} htext => ?_, hlinks⟩
  · have hget := h.get?_eq hnode
    rcases hway there with hkept | ⟨hnone, hnew, above, habove, hfound⟩ <;>
      rcases hway' there with hkept' | ⟨hnone', hnew', above', habove', hfound'⟩
    · rw [hkept, hkept', hget]
    · obtain ⟨mode, hmode⟩ := hthere hlinks.symm habove' hfound' hpath
      rw [hkept, hget, hnone'] at hmode
      cases hmode
    · obtain ⟨mode, hmode⟩ := hthere hlinks habove hfound hpath'
      rw [hkept', ← hget, hnone] at hmode
      cases hmode
    · rw [hnew, hnew']
  · rw [hsame.contentAt_eq, hsame'.contentAt_eq, h.contentAt_eq htext]

/-- A file is given the same content in both. -/
theorem overwrite (h : Resembles nodes texts files other)
    (hwrite : files.overwrite cwd path content mode = .ok last)
    (hwrite' : other.overwrite cwd path content mode = .ok last') :
    ∃ place bits bits', last.find cwd path = .ok (place, .file bits content) ∧
      last'.find cwd path = .ok (place, .file bits' content) ∧
      Resembles nodes (fun there => texts there ∨ there = place) last last' := by
  obtain ⟨target, hresolve, hlink, hput⟩ := exists_of_overwrite_eq_ok hwrite
  obtain ⟨target', hresolve', hlink', hput'⟩ := exists_of_overwrite_eq_ok hwrite'
  have hplace : target'.place = target.place :=
    h.sameLinks.place_eq (resolve_eq_ok_iff.mp hresolve).2 (resolve_eq_ok_iff.mp hresolve').2 hlink
      hlink'
  have hfind {files changed : FileSystem} {target : Target} {bits : Mode}
      (hwrite : files.overwrite cwd path content mode = .ok changed)
      (hresolve : files.resolve cwd .created path = .ok target)
      (hput : changed = files.put target.place (.file bits content)) :
      changed.find cwd path = .ok (target.place, .file bits content) := by
    obtain ⟨_, _, hresolve', hput', hextends⟩ := exists_of_overwrite hwrite
    obtain rfl := Except.ok.inj (hresolve.symm.trans hresolve')
    refine find_eq_ok_iff.mpr (hextends.resolve_of_created (by simp) hresolve ?_)
    rw [hput, get?_put_self]
  have hsame {files : FileSystem} {target : Target} {bits : Mode}
      (hresolve : files.resolve cwd .created path = .ok target)
      (hlink : ∀ path, target.node? ≠ some (.link path)) :
      files.SameLinks (files.put target.place (.file bits content)) :=
    sameLinks_put (fun path => by rw [get?_of_resolve hresolve]; exact hlink path) _ _
  refine ⟨target.place, _, _, hfind hwrite hresolve hput,
    hplace ▸ hfind hwrite' hresolve' hput', fun {there} hnode => ?_, fun {there} htext => ?_, ?_⟩
  · rw [hput, hput', hplace, get?_put, get?_put]
    split
    · rename_i hthere
      rw [h.get?_eq (hthere ▸ hnode)]
    · exact h.get?_eq hnode
  · rw [hput, hput', hplace, contentAt_put, contentAt_put]
    split
    · rfl
    · rename_i hne
      exact h.contentAt_eq (htext.resolve_right fun heq => hne heq.symm)
  · rw [hput, hput']
    exact (hsame hresolve hlink).symm.trans (h.sameLinks.trans (hsame hresolve' hlink'))

end Resembles

end FileSystem

namespace Plan

variable {nodes texts : Location → Prop} {world : World} {stop : Bool}
  {files other last last' : FileSystem} {path : Path}

theorem eq_self_of_run_makeDirectories (hpath : path.isEmpty = true)
    (h : (makeDirectories path).run.run (world.answer stop) files = (.ok (), last)) :
    last = files := by
  obtain ⟨containing, hancestors⟩ := Path.exists_ancestorsUpTo path.text.length path
  have hchain := of_run_makeDirectories h
  rw [Path.ancestors, hancestors, makeChain, hpath] at hchain
  exact (Prod.mk.inj hchain).2.symm

end Plan

namespace FileSystem.Resembles

variable {nodes texts : Location → Prop} {world : World} {stop : Bool}
  {files other last last' : FileSystem} {path : Path}

/-- A directory is created in both. -/
theorem makeDirectories (h : Resembles nodes texts files other)
    (hrun : (Plan.makeDirectories path).run.run (world.answer stop) files = (.ok (), last))
    (hrun' : (Plan.makeDirectories path).run.run (world.answer stop) other = (.ok (), last')) :
    Resembles nodes texts last last' := by
  cases hpath : path.isEmpty with
  | true =>
    rwa [eq_self_of_run_makeDirectories hpath hrun, eq_self_of_run_makeDirectories hpath hrun']
  | false =>
    obtain ⟨place, hplace⟩ := exists_of_run_makeDirectories hpath hrun
    obtain ⟨place', hplace'⟩ := exists_of_run_makeDirectories hpath hrun'
    exact h.of_makesWay (makesWay_of_run_makeDirectories hrun)
      (makesWay_of_run_makeDirectories hrun') (sameFiles_of_run_makeDirectories hrun)
      (sameFiles_of_run_makeDirectories hrun') hplace hplace'

/-- A text is written in both. -/
theorem writeTextFile {text : String} (h : Resembles nodes texts files other)
    (hrun : (Plan.writeTextFile path text).run.run (world.answer stop) files = (.ok (), last))
    (hrun' : (Plan.writeTextFile path text).run.run (world.answer stop) other = (.ok (), last')) :
    ∃ place bits bits', last.find world.place path = .ok (place, .file bits (.ofText text)) ∧
      last'.find world.place path = .ok (place, .file bits' (.ofText text)) ∧
      Resembles nodes (fun there => texts there ∨ there = place) last last' := by
  obtain ⟨between, hmake, hwrite⟩ := of_run_writeTextFile hrun
  obtain ⟨between', hmake', hwrite'⟩ := of_run_writeTextFile hrun'
  refine Resembles.overwrite ?_ hwrite hwrite'
  cases hparent : path.parent? with
  | none =>
    rw [hparent] at hmake hmake'
    rwa [← (Prod.mk.inj hmake).2, ← (Prod.mk.inj hmake').2]
  | some parent =>
    rw [hparent] at hmake hmake'
    exact h.makeDirectories (Attempt.of_run_during hmake) (Attempt.of_run_during hmake')

end FileSystem.Resembles

end SketchApk
