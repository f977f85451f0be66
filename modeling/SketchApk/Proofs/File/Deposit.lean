import SketchApk.Proofs.File.Entry
import SketchApk.Proofs.Plan.Evolution

/-!
# Files that are put somewhere

A file is put under a path by copying another file, or by writing a text and setting permission
bits. Files that are put somewhere one after the other may hit each other: under a path there is
what has been put last to where the path leads.

## Main definitions

* `FileSystem.Reads`, `FileSystem.ReadsLike` : what files hold.
* `FileSystem.Apart` : two paths that do not lead to the same place.
* `Deposit` : a file that is put under a path, and the exchanges that do so.

## Main statements

* `Deposit.reads_of_written`, `Deposit.readsLike_of_copied` : what a file holds that nothing has
  been put over.
* `FileSystem.apart_div` : entries with different names are apart unless one of them is a link.
-/

namespace SketchApk

namespace FileSystem

/-- The path leads to a file with that content. -/
def Reads (files : FileSystem) (cwd : Location) (path : Path) (content : Content) : Prop :=
  ∃ place mode, files.find cwd path = .ok (place, .file mode content)

/-- The paths lead to files with the same content. -/
def ReadsLike (files : FileSystem) (cwd : Location) (path other : Path) : Prop :=
  ∃ content, files.Reads cwd path content ∧ files.Reads cwd other content

/-- The paths do not lead to one and the same place. -/
def Apart (files : FileSystem) (cwd : Location) (path other : Path) : Prop :=
  ∀ place node node', files.find cwd path = .ok (place, node) →
    files.find cwd other ≠ .ok (place, node')

variable {files changed other : FileSystem} {cwd place : Location} {path : Path} {node : Node}
  {mode : Mode} {content : Content}

theorem find_eq_ok_iff :
    files.find cwd path = .ok (place, node) ↔
      files.resolve cwd .followed path = .ok (.existing place node) := by
  rw [find]
  split <;> simp_all

theorem get?_of_find (h : files.find cwd path = .ok (place, node)) :
    files.get? place = some node :=
  get?_of_resolve (find_eq_ok_iff.mp h)

/-- A file is found in a file system with more nodes. -/
theorem Extends.find_file (h : files.Extends other)
    (hfind : files.find cwd path = .ok (place, .file mode content)) :
    ∃ mode' content', other.find cwd path = .ok (place, .file mode' content') := by
  obtain ⟨later, hlike, hlater⟩ := h.resolve (find_eq_ok_iff.mp hfind)
  cases later with
  | file mode' content' => exact ⟨mode', content', find_eq_ok_iff.mpr hlater⟩
  | directory | link => cases hlike

theorem put_put (files : FileSystem) (place : Location) (node new : Node) :
    (files.put place node).put place new = files.put place new := by
  refine ext fun other => ?_
  rw [get?_put, get?_put, get?_put]
  split <;> rfl

/-- A file that takes the place of a file is found where that was. -/
theorem find_put_self {there : Location}
    (hfind : files.find cwd path = .ok (there, .file mode content)) (bits : Mode)
    (written : Content) :
    files.Extends (files.put there (.file bits written)) ∧
      (files.put there (.file bits written)).find cwd path = .ok (there, .file bits written) := by
  have hextends : files.Extends (files.put there (.file bits written)) :=
    extends_put fun old hold => by
      obtain rfl := Option.some.inj ((get?_of_find hfind).symm.trans hold)
      trivial
  obtain ⟨mode', content', hlater⟩ := hextends.find_file hfind
  have hnode := get?_of_find hlater
  rw [get?_put_self] at hnode
  exact ⟨hextends, by rw [hlater, ← Option.some.inj hnode]⟩

/-- Files elsewhere than at a place where a file has been put are what they were. -/
theorem find_put {there : Location} {new : Node} (hextends : files.Extends (files.put there new))
    (hfind : files.find cwd path = .ok (place, .file mode content)) (hne : place ≠ there) :
    (files.put there new).find cwd path = .ok (place, .file mode content) := by
  obtain ⟨mode', content', hlater⟩ := hextends.find_file hfind
  have hnode := get?_of_find hlater
  rw [get?_put, if_neg (Ne.symm hne), get?_of_find hfind] at hnode
  rw [hlater, Option.some.inj hnode]

end FileSystem

/-- Where the content of a file comes from that is put somewhere. -/
inductive Origin where
  /-- The file is a copy. -/
  | copied (source : Path)
  /-- The file holds a text, and it gets permission bits of its own. -/
  | written (text : String) (mode : Mode)

/-- A file that is put under a path. -/
structure Deposit where
  target : Path
  origin : Origin

namespace Deposit

/-- The exchanges by which a file is put under a path. -/
def exchanges : Deposit → History
  | ⟨target, .copied source⟩ => [⟨.file (.copy source target), .ok ()⟩]
  | ⟨target, .written text mode⟩ =>
    [⟨.file (.write target (.ofText text)), .ok ()⟩, ⟨.file (.setMode target mode), .ok ()⟩]

/-- A file has been put at a place, with the content that its origin says. -/
structure Puts (deposit : Deposit) (cwd : Location) (files changed : FileSystem) (place : Location)
    (mode : Mode) (content : Content) : Prop where
  changed_eq : changed = files.put place (.file mode content)
  extends_put : files.Extends changed
  find_target : changed.find cwd deposit.target = .ok (place, .file mode content)
  /-- The content of a copy is that of the file that is copied, unless it is put onto itself. -/
  copied : ∀ source, deposit.origin = .copied source → ∃ there mode' content',
    files.find cwd source = .ok (there, .file mode' content') ∧ (there ≠ place → content = content')
  written : ∀ text mode', deposit.origin = .written text mode' → content = .ofText text

variable {cwd : Location} {files changed : FileSystem}

theorem exists_puts_of_copy {source target : Path}
    (h : files.copy cwd source target = .ok changed) :
    ∃ place mode content, Puts ⟨target, .copied source⟩ cwd files changed place mode content := by
  obtain ⟨there, mode', content', written, hsource, hwritten, hcontent⟩ :=
    FileSystem.exists_of_copy h
  obtain ⟨target', bits, hresolve, rfl, hextends⟩ := FileSystem.exists_of_overwrite hwritten
  refine ⟨target'.place, bits, written, rfl, hextends, ?_, ?_, by simp⟩
  · exact FileSystem.find_eq_ok_iff.mpr
      (hextends.resolve_of_created (by decide) hresolve (FileSystem.get?_put_self _ _ _))
  · rintro _ ⟨⟩
    exact ⟨there, mode', content', hsource, hcontent target' hresolve⟩

theorem exists_puts_of_write {target : Path} {text : String} {mode : Mode} {between : FileSystem}
    (hwritten : files.overwrite cwd target (.ofText text) none = .ok between)
    (hmode : between.setMode cwd target mode = .ok changed) :
    ∃ place mode' content, Puts ⟨target, .written text mode⟩ cwd files changed place mode' content := by
  obtain ⟨target', bits, hresolve, rfl, hextends⟩ := FileSystem.exists_of_overwrite hwritten
  have hfind := FileSystem.find_eq_ok_iff.mpr
    (hextends.resolve_of_created (by decide) hresolve (FileSystem.get?_put_self _ _ _))
  rw [FileSystem.setMode, hfind] at hmode
  obtain rfl := Except.ok.inj hmode
  obtain ⟨hextends', hfind'⟩ := FileSystem.find_put_self hfind mode (.ofText text)
  refine ⟨target'.place, mode, .ofText text, FileSystem.put_put _ _ _ _, hextends.trans hextends',
    hfind', by simp, ?_⟩
  rintro _ _ ⟨⟩
  rfl

/-- The exchanges of a deposit put a file somewhere. -/
theorem exists_puts {deposit : Deposit}
    (h : FileSystem.Evolves cwd files deposit.exchanges changed) :
    ∃ place mode content, deposit.Puts cwd files changed place mode content := by
  obtain ⟨target, source | ⟨text, mode⟩⟩ := deposit
  · obtain ⟨hanswer, hlast⟩ := h.of_file
    obtain ⟨copied, hcopied, hafter⟩ := FileOperation.exists_of_settle hanswer.symm
    obtain rfl : changed = copied := (hlast.eq_of_leavesFiles (by simp)).trans hafter
    exact exists_puts_of_copy hcopied
  · obtain ⟨hanswer, hlater⟩ := h.of_file
    obtain ⟨written, hwritten, hafter⟩ := FileOperation.exists_of_settle hanswer.symm
    rw [show (FileOperation.run cwd files (.write target (.ofText text))).2 = written from hafter]
      at hlater
    obtain ⟨hanswer', hlast⟩ := hlater.of_file
    obtain ⟨restricted, hrestricted, hafter'⟩ := FileOperation.exists_of_settle hanswer'.symm
    obtain rfl : changed = restricted := (hlast.eq_of_leavesFiles (by simp)).trans hafter'
    exact exists_puts_of_write hwritten hrestricted

theorem extends_of_evolves {deposits : List Deposit}
    (h : FileSystem.Evolves cwd files (deposits.flatMap exchanges) changed) :
    files.Extends changed := by
  induction deposits generalizing files with
  | nil =>
    cases h
    exact .refl _
  | cons deposit rest ih =>
    obtain ⟨between, hfirst, hrest⟩ := h.exists_of_append
    obtain ⟨_, _, _, hputs⟩ := exists_puts hfirst
    exact hputs.extends_put.trans (ih hrest)

/-- A file over which nothing is put holds what it held. -/
theorem find_of_evolves {deposits : List Deposit} {path : Path} {place : Location} {mode : Mode}
    {content : Content} (h : FileSystem.Evolves cwd files (deposits.flatMap exchanges) changed)
    (hfind : files.find cwd path = .ok (place, .file mode content))
    (hapart : ∀ deposit ∈ deposits, changed.Apart cwd path deposit.target) :
    changed.find cwd path = .ok (place, .file mode content) := by
  induction deposits generalizing files with
  | nil =>
    cases h
    exact hfind
  | cons deposit rest ih =>
    obtain ⟨between, hfirst, hrest⟩ := h.exists_of_append
    obtain ⟨there, mode', content', hputs⟩ := exists_puts hfirst
    obtain ⟨happly, hapart⟩ := List.forall_mem_cons.mp hapart
    have hlater := extends_of_evolves hrest
    obtain ⟨bits, written, hthere⟩ := hlater.find_file hputs.find_target
    obtain ⟨bits', written', hplace⟩ := (hputs.extends_put.trans hlater).find_file hfind
    have hne : place ≠ there := by
      rintro rfl
      exact happly _ _ _ hplace hthere
    refine ih hrest ?_ hapart
    have hextends := hputs.extends_put
    rw [hputs.changed_eq] at hextends ⊢
    exact FileSystem.find_put hextends hfind hne

variable (front : List Deposit) {back : List Deposit} {target : Path}

/-- A text that nothing is put over is in its file. -/
theorem reads_of_written {text : String} {mode : Mode}
    (h : FileSystem.Evolves cwd files
      ((front ++ ⟨target, .written text mode⟩ :: back).flatMap exchanges) changed)
    (hback : ∀ deposit ∈ back, changed.Apart cwd target deposit.target) :
    changed.Reads cwd target (.ofText text) := by
  rw [List.flatMap_append, List.flatMap_cons] at h
  obtain ⟨_, -, hlater⟩ := h.exists_of_append
  obtain ⟨_, hputs, hrest⟩ := hlater.exists_of_append
  obtain ⟨place, mode', content, hputs⟩ := exists_puts hputs
  obtain rfl := hputs.written text mode rfl
  exact ⟨place, mode', find_of_evolves hrest hputs.find_target hback⟩

/-- A copy that nothing is put over is like the file of which it is a copy, if nothing is put over
that either. -/
theorem readsLike_of_copied {source : Path}
    (h : FileSystem.Evolves cwd files
      ((front ++ ⟨target, .copied source⟩ :: back).flatMap exchanges) changed)
    (hback : ∀ deposit ∈ back, changed.Apart cwd target deposit.target)
    (hsource : ∀ deposit ∈ ⟨target, .copied source⟩ :: back,
      changed.Apart cwd source deposit.target) :
    changed.ReadsLike cwd source target := by
  rw [List.flatMap_append, List.flatMap_cons] at h
  obtain ⟨before, -, hlater⟩ := h.exists_of_append
  obtain ⟨between, hfirst, hrest⟩ := hlater.exists_of_append
  obtain ⟨place, mode, content, hputs⟩ := exists_puts hfirst
  obtain ⟨there, mode', content', hfind, hcontent⟩ := hputs.copied source rfl
  have hevolves := hfirst.append hrest
  rw [← List.flatMap_cons] at hevolves
  have hkept := find_of_evolves hevolves hfind hsource
  have htarget := find_of_evolves hrest hputs.find_target hback
  have hne : there ≠ place := by
    rintro rfl
    exact hsource _ List.mem_cons_self _ _ _ hkept htarget
  obtain rfl := hcontent hne
  exact ⟨content, ⟨there, mode', hkept⟩, ⟨place, mode, htarget⟩⟩

end Deposit

namespace FileSystem

variable {files : FileSystem} {cwd : Location} {directory path : Path} {name other : String}

/-- The directory has an entry of that name that is a link. -/
def hasLink (files : FileSystem) (cwd : Location) (directory : Path) (name : String) : Bool :=
  match files.find cwd directory with
  | .ok (place, _) =>
    match files.get? (place ++ [name]) with
    | some (.link _) => true
    | _ => false
  | .error _ => false

/-- The path leads to the directory or to something in it. -/
def isWithin (files : FileSystem) (cwd : Location) (directory path : Path) : Bool :=
  match files.find cwd directory, files.find cwd path with
  | .ok (place, _), .ok (there, _) => place.isPrefixOf there
  | _, _ => false

/-- An entry that is no link is in its directory. -/
theorem exists_of_find_div {there : Location} {node : Node} (hname : Path.IsName name)
    (hdirectory : directory.isEmpty = false) (hlink : files.hasLink cwd directory name = false)
    (h : files.find cwd (directory / name) = .ok (there, node)) :
    ∃ place mode, files.find cwd directory = .ok (place, .directory mode) ∧ there = place ++ [name] := by
  obtain ⟨place, mode, hfind, -, hplace⟩ :=
    exists_of_resolve_div hname hdirectory (find_eq_ok_iff.mp h)
  refine ⟨place, mode, hfind, hplace.resolve_left fun ⟨target, htarget⟩ => ?_⟩
  simp [hasLink, hfind, htarget] at hlink

/-- Entries with different names are apart unless one of them is a link. -/
theorem apart_div (hdirectory : directory.isEmpty = false) (hname : Path.IsName name)
    (hother : Path.IsName other) (hne : name ≠ other) (hlink : files.hasLink cwd directory name = false)
    (hlink' : files.hasLink cwd directory other = false) :
    files.Apart cwd (directory / name) (directory / other) := by
  intro there node node' hfind hfind'
  obtain ⟨place, mode, hplace, hthere⟩ := exists_of_find_div hname hdirectory hlink hfind
  obtain ⟨place', mode', hplace', hthere'⟩ := exists_of_find_div hother hdirectory hlink' hfind'
  cases hplace.symm.trans hplace'
  rw [hthere] at hthere'
  exact hne (List.singleton_inj.mp (List.append_cancel_left hthere'))

/-- A path that does not lead into a directory is apart from the entries that are no links. -/
theorem apart_div_of_not_isWithin (hdirectory : directory.isEmpty = false) (hname : Path.IsName name)
    (hlink : files.hasLink cwd directory name = false)
    (houtside : files.isWithin cwd directory path = false) :
    files.Apart cwd path (directory / name) := by
  intro there node node' hfind hfind'
  obtain ⟨place, mode, hplace, rfl⟩ := exists_of_find_div hname hdirectory hlink hfind'
  simp [isWithin, hplace, hfind, isPrefixOf_append] at houtside

end FileSystem

end SketchApk
