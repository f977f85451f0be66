import SketchApk.Proofs.File.Located
import SketchApk.Proofs.Plan.Carrying
import SketchApk.Proofs.Plan.Evolution

/-!
# What is left by writing files

Requests that take nothing away leave the nodes that were there, and the same links. Requests that
move nothing leave files with proper names. Directories are created before a file is written, which
changes no file. So writing a text that succeeds gives the text to the file to which the path leads,
and changes no other file.

## Main definitions

* `FileSystem.SameFiles` : files that differ in directories alone.
* `Request.IsStatic` : the requests that move no file and call no tool.

## Main statements

* `Plan.Only.sameLinks`, `Plan.Only.wellNamed` : links and names behind requests of some kind.
* `Plan.Only.sameFiles` : creating directories changes no file.
* `Plan.exists_of_run_writeTextFile` : what has become of the files behind writing a text.
* `FileSystem.SameLinks.place_eq_of_within` : where a path leads that stays below a directory.
-/

namespace SketchApk

open Plan

variable {world : World} {stop : Bool} {cwd place : Location}

namespace FileSystem

variable {files other third : FileSystem} {base path : Path} {rest : List String} {last : LastName}
  {target : Target}

/-- What is created under a path belongs to the tree. -/
theorem IsTree.create {node : Node} (h : files.IsTree) (hnone : files.get? place = none)
    (hcreate : files.create place node = .ok other) : other.IsTree := by
  obtain ⟨mode, hparent⟩ : ∃ mode, files.get? place.dropLast = some (.directory mode) := by
    rw [FileSystem.create, isChangeable] at hcreate
    cases hparent : files.get? place.dropLast with
    | none => simp [hparent] at hcreate
    | some found => cases found <;> simp_all
  obtain rfl := eq_put_of_create hcreate
  rcases List.eq_nil_or_concat place with rfl | ⟨front, name, rfl⟩
  · cases hnone.symm.trans hparent
  · rw [List.concat_eq_append] at hnone hparent ⊢
    rw [List.dropLast_concat] at hparent
    exact h.put front name hparent hnone node

theorem IsTree.overwrite {content : Content} {mode : Option Mode} (h : files.IsTree)
    (hwrite : files.overwrite cwd path content mode = .ok other) : other.IsTree := by
  rw [FileSystem.overwrite] at hwrite
  split at hwrite
  · rename_i place old content' hresolve
    by_cases hwritable : old.isWritable = true
    · rw [if_pos hwritable] at hwrite
      obtain rfl := Except.ok.inj hwrite
      exact h.put_file (get?_of_resolve hresolve) _ _
    · rw [if_neg hwritable] at hwrite
      cases hwrite
  · cases hwrite
  · rename_i place wants hresolve
    exact h.create (get?_of_resolve hresolve) hwrite
  · cases hwrite

/-- Where there was no file, one is created by writing. -/
theorem exists_of_overwrite_free {content : Content}
    (h : files.overwrite cwd path content none = .ok other) (hfree : files.IsFree cwd path) :
    ∃ place, (∃ asDirectory, files.resolve cwd .created path = .ok (.vacant place asDirectory)) ∧
      other = files.put place (.file Mode.newFile content) ∧
      ∀ last ≠ .kept,
        other.resolve cwd last path = .ok (.existing place (.file Mode.newFile content)) := by
  rw [overwrite] at h
  cases hresolve : files.resolve cwd .created path with
  | error error => simp [hresolve] at h
  | ok target =>
    cases target with
    | existing there node =>
      cases node with
      | file old held => exact absurd hresolve (hfree there old held)
      | directory | link => simp [hresolve] at h
    | vacant there asDirectory =>
      simp only [hresolve, Option.map_none, Option.getD_none] at h
      have hextends := (keeps_of_create (get?_of_resolve hresolve) h).toExtends
      obtain rfl := eq_put_of_create h
      exact ⟨there, ⟨asDirectory, rfl⟩, rfl, fun last hlast =>
        hextends.resolve_of_created hlast hresolve (get?_put_self _ _ _)⟩

/-- Some files have become others that differ in new directories alone. -/
structure SameFiles (files other : FileSystem) : Prop where
  keeps : files.Keeps other
  isTree (h : files.IsTree) : other.IsTree
  contentAt_eq (place : Location) : other.contentAt place = files.contentAt place
  sameLinks : files.SameLinks other

namespace SameFiles

theorem refl (files : FileSystem) : files.SameFiles files :=
  ⟨.refl files, id, fun _ => rfl, .refl files⟩

theorem trans (h : files.SameFiles other) (h' : other.SameFiles third) : files.SameFiles third where
  keeps := h.keeps.trans h'.keeps
  isTree htree := h'.isTree (h.isTree htree)
  contentAt_eq place := (h'.contentAt_eq place).trans (h.contentAt_eq place)
  sameLinks := h.sameLinks.trans h'.sameLinks

/-- Creating a directory changes no file. -/
theorem makeDirectory (cwd : Location) (files : FileSystem) (path : Path) :
    files.SameFiles ((FileOperation.makeDirectory path).run cwd files).2 := by
  have hkeeps : files.Keeps ((FileOperation.makeDirectory path).run cwd files).2 :=
    FileOperation.settle_of_forall files.Keeps (.refl files) fun _ => keeps_of_makeDirectory
  refine ⟨hkeeps, fun htree => ?_, fun place => FileOperation.contentAt_makeDirectory path files,
    fun place target => ⟨hkeeps place _, FileOperation.link_of_run
      (show (FileOperation.makeDirectory path).IsStatic from trivial)⟩⟩
  refine FileOperation.settle_of_forall IsTree htree fun changed hchanged => ?_
  simp only [FileSystem.makeDirectory] at hchanged
  split at hchanged
  · split at hchanged <;> cases hchanged
  · split at hchanged
    · cases hchanged
    · exact htree.create (get?_of_resolve ‹_›) hchanged
    · cases hchanged

end SameFiles

/-- A path that stays below a directory leads to the place that its names say, if there are no links
on the way. -/
theorem SameLinks.place_eq_of_within (h : files.SameLinks other)
    (hbase : files.HasDirectory cwd base place) (hfree : files.LinkFreeAlong place rest)
    (hwithin : base.IsWithin path rest) (hrest : rest ≠ []) (hnames : ∀ name ∈ rest, Path.IsName name)
    (hresolve : other.resolve cwd last path = .ok target) : target.place = place ++ rest := by
  obtain ⟨there, hthere, hplace⟩ := exists_of_resolve_within hwithin hrest hresolve
  obtain rfl := hbase.eq_of_sameLinks h hthere
  have hfilter : rest.filter (· ≠ ".") = rest :=
    List.filter_eq_self.mpr fun name hname => decide_eq_true (hnames name hname).ne_dot
  rw [hfilter] at hplace
  exact hplace (h.linkFreeAlong hfree)

/-- A directory is searched for what is below. -/
theorem HasDirectory.isSearchable (h : files.HasDirectory cwd base place)
    (hwithin : base.IsWithin path rest) (hrest : rest ≠ [])
    (hresolve : files.resolve cwd last path = .ok target) : files.isSearchable place = true := by
  obtain ⟨-, hleads⟩ := resolve_eq_ok_iff.mp hresolve
  rw [hwithin.names_eq, hwithin.isAbsolute_eq] at hleads
  obtain ⟨there, mode, _, _, hthere, hexecutable, -⟩ :=
    hleads.exists_of_append hrest base.wantsDirectory
  obtain rfl := h.eq_of_sameLinks (.refl files) ⟨_, mode, hthere⟩
  have hnode : files.get? there = some (.directory mode) := hthere.get?_place
  rw [FileSystem.isSearchable, hnode]
  exact hexecutable

theorem Keeps.isSearchable {mode : Mode} (h : files.Keeps other)
    (hplace : files.get? place = some (.directory mode)) (hsearch : other.isSearchable place = true) :
    files.isSearchable place = true := by
  rw [FileSystem.isSearchable, h _ _ hplace] at hsearch
  rwa [FileSystem.isSearchable, hplace]

/-- A path under which a directory is found leads to it. -/
theorem exists_of_isDirectory
    (h : (files.inspect cwd path).toOption.any (·.kind = .directory) = true) :
    ∃ place mode, files.find cwd path = .ok (place, .directory mode) := by
  rw [inspect] at h
  cases hfind : files.find cwd path with
  | error error => simp [hfind, Except.toOption] at h
  | ok found =>
    obtain ⟨place, node⟩ := found
    cases node <;> simp_all [Except.toOption]

/-- When a tree has been removed, what its path led to is gone with everything below. -/
theorem exists_of_removeTree_ok (h : files.removeTree cwd path = (.ok (), other)) :
    ∃ place node, files.resolve cwd .kept path = .ok (.existing place node) ∧
      other = files.eraseTree place := by
  cases hresolve : files.resolve cwd .kept path with
  | error error => simp [removeTree, hresolve] at h
  | ok target =>
    cases target with
    | vacant place asDirectory => simp [removeTree, hresolve] at h
    | existing place node =>
      refine ⟨place, node, rfl, ?_⟩
      cases node with
      | file mode content => simp [removeTree, hresolve] at h
      | directory mode => exact eq_eraseTree_of_removeTree hresolve h
      | link target =>
        simp only [removeTree, hresolve] at h
        split at h
        · obtain ⟨-, rfl⟩ := Prod.mk.inj h
          exact eq_eraseTree_of_discardNode ‹_›
        · cases (Prod.mk.inj h).1

/-- A file that is put where there is no link leaves the links as they are. -/
theorem sameLinks_put (h : ∀ path, files.get? place ≠ some (.link path)) (mode : Mode)
    (content : Content) : files.SameLinks (files.put place (.file mode content)) := by
  intro there path
  rw [get?_put]
  split_ifs with hthere
  · subst hthere
    exact iff_of_false (h path) (by simp)
  · rfl

/-- A file that is put somewhere is there, and the other files are what they were. -/
theorem contentAt_put (files : FileSystem) (place there : Location) (mode : Mode)
    (content : Content) : (files.put place (.file mode content)).contentAt there =
      if place = there then some content else files.contentAt there := by
  rw [contentAt, get?_put]
  split_ifs <;> rfl

end FileSystem

/-- The request looks at files without changing any. -/
def Request.IsReading : Request → Prop
  | file operation => operation.IsReading
  | _ => False

/-- The request moves no file and calls no tool. -/
def Request.IsStatic : Request → Prop
  | file operation => operation.IsStatic
  | call _ => False
  | _ => True

/-- What takes nothing away moves nothing. -/
theorem FileOperation.Adds.isStatic {operation : FileOperation} (h : operation.Adds) :
    operation.IsStatic := by
  cases operation with
  | rename => cases h
  | _ => trivial

namespace FileSystem

/-- A history without tools in which nothing is moved leaves files with proper names. -/
theorem Evolves.wellNamed {files last : FileSystem} {place : Location} {history : History}
    (h : Evolves place files history last) (hstatic : ∀ entry ∈ history, entry.request.IsStatic)
    (hwell : files.WellNamed) : last.WellNamed := by
  induction h with
  | nil => exact hwell
  | file operation _ ih =>
    obtain ⟨hoperation, hrest⟩ := List.forall_mem_cons.mp hstatic
    exact ih hrest (wellNamed_run hoperation hwell)
  | call => cases hstatic _ List.mem_cons_self
  | other _ _ ih => exact ih (List.forall_mem_cons.mp hstatic).2 hwell

/-- A history in which nothing is taken away leaves the same links. -/
theorem Evolves.sameLinks_of_adds {files last : FileSystem} {place : Location} {history : History}
    (h : Evolves place files history last) (hadds : ∀ entry ∈ history, entry.request.Adds) :
    files.SameLinks last := by
  induction h with
  | nil => exact .refl _
  | file operation _ ih =>
    obtain ⟨hoperation, hrest⟩ := List.forall_mem_cons.mp hadds
    refine SameLinks.trans (fun there path => ⟨fun hlink => ?_, fun hlink => ?_⟩) (ih hrest)
    · obtain ⟨node, hnode, hlike⟩ :=
        FileOperation.extends_run (show operation.Adds from hoperation) place _ there _ hlink
      cases node with
      | link other => rwa [show path = other from hlike]
      | file | directory => cases hlike
    · exact FileOperation.link_of_run (FileOperation.Adds.isStatic hoperation) hlink
  | call => exact absurd (hadds _ List.mem_cons_self) id
  | other _ _ ih => exact ih (List.forall_mem_cons.mp hadds).2

end FileSystem

namespace Plan

variable {files last : FileSystem}

/-- Requests that take nothing away leave more files. -/
theorem Only.extends {α : Type} {plan : Plan α} {result : α} (h : plan.Only Request.Adds)
    (hrun : plan.run (world.answer stop) files = (result, last)) : files.Extends last := by
  have hevolves := world.evolves_history stop plan files
  rw [hrun] at hevolves
  exact hevolves.extends_of_adds fun _ hmem => h.request_of_mem (ends_run _ plan files) hmem

/-- Requests that take nothing away leave the same links. -/
theorem Only.sameLinks {α : Type} {plan : Plan α} {result : α} (h : plan.Only Request.Adds)
    (hrun : plan.run (world.answer stop) files = (result, last)) : files.SameLinks last := by
  have hevolves := world.evolves_history stop plan files
  rw [hrun] at hevolves
  exact hevolves.sameLinks_of_adds fun _ hmem => h.request_of_mem (ends_run _ plan files) hmem

/-- Requests that move nothing and call no tool leave files with proper names. -/
theorem Only.wellNamed {α : Type} {plan : Plan α} {result : α} (h : plan.Only Request.IsStatic)
    (hwell : files.WellNamed) (hrun : plan.run (world.answer stop) files = (result, last)) :
    last.WellNamed := by
  have hevolves := world.evolves_history stop plan files
  rw [hrun] at hevolves
  exact hevolves.wellNamed (fun _ hmem => h.request_of_mem (ends_run _ plan files) hmem) hwell

/-- Looking at files leaves them as they are. -/
theorem Only.run_snd_of_isReading {α : Type} {plan : Plan α} (h : plan.Only Request.IsReading)
    (files : FileSystem) : (plan.run (world.answer stop) files).2 = files := by
  induction h generalizing files with
  | done value => rfl
  | @step request next hrequest hnext ih =>
    match request, hrequest with
    | .file (.inspect path), _ | .file (.list path), _ | .file (.walk path), _
    | .file (.read path), _ | .file (.readToExtend path), _ => exact ih _ files

/-- A walk that is taken to the end has not come to a halt. -/
theorem of_run_throughout {root : Path} {found : FileWalk}
    (h : (throughout root found).run.run (world.answer stop) files = (.ok (), last)) :
    found.halt = none ∧ last = files := by
  rw [throughout] at h
  split at h
  · exact ⟨‹_›, (Prod.mk.inj h).2.symm⟩
  · cases (Prod.mk.inj h).1

/-- Creating directories changes no file. -/
theorem Only.sameFiles {α : Type} {plan : Plan α} (h : plan.Only Request.IsMaking)
    (files : FileSystem) : files.SameFiles (plan.run (world.answer stop) files).2 := by
  induction h generalizing files with
  | done value => exact .refl files
  | @step request next hrequest hnext ih =>
    match request, hrequest with
    | .file (.inspect path), _ => exact ih _ files
    | .file (.makeDirectory path), _ =>
      exact (FileSystem.SameFiles.makeDirectory world.place files path).trans (ih _ _)

theorem sameFiles_of_run_makeDirectories {path : Path} {result : Except Fault Unit}
    (h : (makeDirectories path).run.run (world.answer stop) files = (result, last)) :
    files.SameFiles last := by
  have honly : (makeDirectories path).run.Only Request.IsMaking :=
    only_makeDirectories (fun _ => trivial) (fun _ => trivial) path
  have hsame : files.SameFiles ((makeDirectories path).run.run (world.answer stop) files).2 :=
    honly.sameFiles files
  rwa [h] at hsame

theorem sameFiles_of_run_createDirectory {path : Path}
    (h : (createDirectory path).run.run (world.answer stop) files = (.ok (), last)) :
    files.SameFiles last :=
  sameFiles_of_run_makeDirectories (Attempt.of_run_during h)

/-- Behind removing a directory that exists nothing is left of it. -/
theorem cases_of_run_removeDirectory {path : Path} {activity : Activity}
    (h : (removeDirectory path activity).run.run (world.answer stop) files = (.ok (), last)) :
    (files.inspect world.place path).toBool = false ∧ last = files ∨
      ∃ place node, files.resolve world.place .kept path = .ok (.existing place node) ∧
        last = files.eraseTree place := by
  rw [removeDirectory, Attempt.run_bind_ok (Attempt.run_always (run_pathExists path))] at h
  cases hfound : (files.inspect world.place path).toBool with
  | false =>
    rw [hfound] at h
    obtain ⟨-, rfl⟩ := Prod.mk.inj h
    exact .inl ⟨rfl, rfl⟩
  | true =>
    rw [hfound] at h
    exact .inr (FileSystem.exists_of_removeTree_ok (Attempt.of_run_file (Attempt.of_run_during h)))

/-- A text has been read from the file to which the path leads. -/
theorem exists_of_run_readText {path : Path} {text : String}
    (h : (readText path).run.run (world.answer stop) files = (.ok text, last)) :
    last = files ∧ ∃ place mode content,
      files.find world.place path = .ok (place, .file mode content) ∧ content.text? = some text := by
  obtain ⟨content, between, hread, hdecoded⟩ := Attempt.exists_of_run_bind h
  obtain ⟨hresult, rfl⟩ := Prod.mk.inj (Attempt.of_run_file hread)
  obtain ⟨place, mode, hfind, -⟩ := FileSystem.read_eq_ok_iff.mp hresult
  split at hdecoded
  · rename_i hfound
    obtain ⟨hvalue, hfiles⟩ := Prod.mk.inj hdecoded
    exact ⟨hfiles.symm, place, mode, content, hfind,
      hfound.trans (congrArg some (Except.ok.inj hvalue))⟩
  · cases (Prod.mk.inj hdecoded).1

/-- Behind writing a text the file has the text, and no other file has changed. -/
theorem exists_of_run_writeTextFile {path : Path} {text : String}
    (h : (writeTextFile path text).run.run (world.answer stop) files = (.ok (), last)) :
    ∃ between target mode, files.SameFiles between ∧
      between.resolve world.place .created path = .ok target ∧
      last = between.put target.place (.file mode (.ofText text)) ∧
      last.find world.place path = .ok (target.place, .file mode (.ofText text)) := by
  obtain ⟨_, between, hmake, hwrite⟩ := Attempt.exists_of_run_bind h
  obtain ⟨target, mode, hresolve, rfl, hfind⟩ : ∃ target mode,
      between.resolve world.place .created path = .ok target ∧
        last = between.put target.place (.file mode (.ofText text)) ∧
        last.find world.place path = .ok (target.place, .file mode (.ofText text)) := by
    have hrun := Attempt.of_run_file (Attempt.of_run_during hwrite)
    obtain ⟨hresult, hlast⟩ := Prod.mk.inj hrun
    obtain ⟨changed, hchanged, hsettle⟩ := FileOperation.exists_of_settle hresult
    obtain ⟨target, mode, hresolve, hput, hextends⟩ := FileSystem.exists_of_overwrite hchanged
    obtain rfl : last = changed := hlast.symm.trans hsettle
    have hnode : last.get? target.place = some (.file mode (.ofText text)) := by
      rw [hput, FileSystem.get?_put_self]
    exact ⟨target, mode, hresolve, hput, FileSystem.find_eq_ok_iff.mpr
      (hextends.resolve_of_created (by decide) hresolve hnode)⟩
  refine ⟨between, target, mode, ?_, hresolve, rfl, hfind⟩
  cases hparent : path.parent? with
  | none =>
    rw [hparent] at hmake
    obtain ⟨-, rfl⟩ := Prod.mk.inj hmake
    exact .refl files
  | some parent =>
    rw [hparent] at hmake
    exact sameFiles_of_run_createDirectory hmake

/-- A file that has been written has a path that can be used. -/
theorem isUsable_of_run_writeTextFile {path : Path} {text : String}
    (h : (writeTextFile path text).run.run (world.answer stop) files = (.ok (), last)) :
    path.IsUsable := by
  obtain ⟨_, _, _, -, -, -, hfind⟩ := exists_of_run_writeTextFile h
  exact (FileSystem.resolve_eq_ok_iff.mp (FileSystem.find_eq_ok_iff.mp hfind)).1

end Plan

end SketchApk
