import SketchApk.Proofs.Path.Extension
import SketchApk.Proofs.Plan.Writing

/-!
# The directories on a way

A directory is created together with the directories above it that are missing. Whatever comes into
being is a new directory on the way to it, and in the end its path leads to a directory. A path that
exists without leading to a directory is an obstacle: nothing can be created at or behind it.

## Main definitions

* `FileSystem.MakesWay` : some directories on the way of a path have been created.

## Main statements

* `Plan.cases_of_run_makeChain_cons` : what creating the first of some directories consists of.
* `Plan.makesWay_of_run_makeDirectories` : nothing is created beside the way.
* `Plan.exists_of_run_makeDirectories` : behind creating a directory there is one.
* `Plan.run_makeDirectories_ne_ok` : nothing is created behind an obstacle.
-/

namespace SketchApk

open Plan

namespace FileSystem

variable {files between other last changed : FileSystem} {cwd place there : Location}
  {path above : Path} {links : Nat} {asDirectory wants : Bool} {names : List String}

/-- A directory that is put where a path ends is what the path leads to. -/
theorem Leads.of_vacant (h : files.Leads .kept links asDirectory place names (.vacant there wants))
    (mode : Mode) (later : Bool) :
    (files.put there (.directory mode)).Leads .followed links later place names
      (.existing there (.directory mode)) := by
  have hnone : files.get? there = none := h.get?_place
  have hextends := (Keeps.put hnone (.directory mode)).toExtends
  generalize htarget : Target.vacant there wants = target at h
  induction h generalizing later with
  | here => cases htarget
  | onward hpass _ ih =>
    exact .onward (hextends.pass_eq_onward (pass_of_onward hpass rfl)) (ih later htarget)
  | @ended links asDirectory place name rest target hpass =>
    subst htarget
    obtain ⟨hplace, -, hrest⟩ := get?_of_pass hpass
    obtain ⟨hadmits, -, -⟩ := pass_eq_ended_iff.mp hpass
    obtain rfl := List.isEmpty_iff.mp hrest
    have hnode : (files.put there (.directory mode)).get? (place ++ [name]) =
        some (.directory mode) := by
      rw [← hplace]
      exact get?_put_self files there _
    have honward : (files.put there (.directory mode)).pass .followed later place name [] =
        .onward (place ++ [name]) := by
      rw [pass_of_admits (hextends.admits hadmits) rfl, arrive_eq_onward_iff]
      exact ⟨rfl, mode, hnode⟩
    refine .onward honward ?_
    rw [← hplace] at hnode ⊢
    exact .here hnode
  | linked hpass _ ih =>
    exact .linked (hextends.pass_eq_linked (pass_of_linked hpass rfl (by simp))) (ih _ htarget)

/-- A path into a directory leads through the directory. -/
theorem exists_of_find_descend {mode : Mode} (hpath : path.isEmpty = false)
    (hnames : ∀ name ∈ names, Path.IsName name)
    (h : files.find cwd (path.descend names) = .ok (place, .directory mode)) :
    ∃ there bits, files.find cwd path = .ok (there, .directory bits) := by
  induction names using List.reverseRecOn generalizing place mode with
  | nil => exact ⟨place, mode, h⟩
  | append_singleton front last ih =>
    obtain ⟨hfront, hlast⟩ := List.forall_mem_append.mp hnames
    rw [Path.descend_concat] at h
    obtain ⟨there, bits, hdirectory, -⟩ := exists_of_resolve_div
      (List.forall_mem_singleton.mp hlast) (Path.isEmpty_descend hpath front)
      (find_eq_ok_iff.mp h)
    exact ih hfront hdirectory

/-- A directory that has been created is new, and its path leads to it. -/
theorem exists_of_makeDirectory (h : files.makeDirectory cwd path = .ok changed) :
    ∃ place, files.get? place = none ∧
      changed = files.put place (.directory Mode.newDirectory) ∧
      changed.HasDirectory cwd path place := by
  obtain ⟨hnames, place, wants, hresolve, rfl⟩ := eq_put_of_makeDirectory h
  obtain ⟨hway, hbare⟩ := Path.isOnWay_bare hnames
  obtain ⟨-, hleads⟩ := resolve_eq_ok_iff.mp hresolve
  refine ⟨place, get?_of_resolve hresolve, rfl, false, Mode.newDirectory, ?_⟩
  rw [← hway.start_eq, ← hbare]
  exact hleads.of_vacant _ _

/-- Some directories on the way of a path have been created, and nothing else has changed. -/
def MakesWay (files : FileSystem) (cwd : Location) (path : Path) (last : FileSystem) : Prop :=
  ∀ place, last.get? place = files.get? place ∨
    files.get? place = none ∧ last.get? place = some (.directory Mode.newDirectory) ∧
      ∃ other, other.IsOnWay path ∧ last.HasDirectory cwd other place

namespace MakesWay

theorem refl (files : FileSystem) (cwd : Location) (path : Path) : files.MakesWay cwd path files :=
  fun _ => .inl rfl

theorem keeps (h : files.MakesWay cwd path last) : files.Keeps last := by
  intro place node hnode
  rcases h place with hsame | ⟨hnone, -⟩
  · rw [hsame, hnode]
  · cases hnone.symm.trans hnode

theorem trans (h : files.MakesWay cwd path between) (h' : between.MakesWay cwd path last) :
    files.MakesWay cwd path last := by
  intro place
  rcases h place with hsame | ⟨hnone, hnew, other, hway, hother⟩
  · rw [← hsame]
    exact h' place
  · exact .inr ⟨hnone, h'.keeps _ _ hnew, other, hway, hother.keeps h'.keeps⟩

theorem mono (h : files.MakesWay cwd above last) (hway : above.IsOnWay path) :
    files.MakesWay cwd path last := fun place =>
  (h place).imp_right fun ⟨hnone, hnew, other, hother, hplace⟩ =>
    ⟨hnone, hnew, other, hother.trans hway, hplace⟩

theorem of_makeDirectory (h : files.makeDirectory cwd path = .ok changed) :
    files.MakesWay cwd path changed := by
  obtain ⟨place, hnone, rfl, hplace⟩ := exists_of_makeDirectory h
  intro there
  by_cases hthere : place = there
  · subst hthere
    exact .inr ⟨hnone, get?_put_self .., path, .refl path, hplace⟩
  · exact .inl (get?_put_of_ne hthere _)

/-- Nothing is created on the way to a directory that exists. -/
theorem eq_self (h : files.MakesWay cwd path last) (hpath : files.HasDirectory cwd path place) :
    last = files := by
  refine ext fun there => (h there).resolve_right ?_
  rintro ⟨hnone, -, other, hway, hother⟩
  obtain ⟨found, hfound⟩ := hpath.exists_of_isOnWay hway
  obtain rfl := (hfound.keeps h.keeps).eq_of_sameLinks (.refl last) hother
  obtain ⟨mode, hmode⟩ := hfound.get?_place
  cases hnone.symm.trans hmode

end MakesWay

end FileSystem

namespace Plan

variable {world : World} {stop : Bool} {files last : FileSystem} {path : Path}
  {containing : List Path} {result : Except FileError Unit}

/-- An error is none for a directory that exists. -/
theorem of_run_unlessDirectory {error : FileError}
    (h : (unlessDirectory path error).run (world.answer stop) files = (result, last)) :
    last = files ∧ (result = .ok () →
      ∃ place mode, last.find world.place path = .ok (place, .directory mode)) := by
  rw [unlessDirectory, bind_eq, run_bind, run_isDirectory] at h
  split at h
  · obtain ⟨rfl, rfl⟩ := Prod.mk.inj h
    exact ⟨rfl, fun _ => FileSystem.exists_of_isDirectory ‹_›⟩
  · obtain ⟨rfl, rfl⟩ := Prod.mk.inj h
    exact ⟨rfl, nofun⟩

/-- When a directory cannot be created, but none above it is missing, then the error is the result
unless there is a directory. -/
theorem run_makeChain_of_error {error : FileError} (hpath : path.isEmpty = false)
    (h : files.makeDirectory world.place path = .error error) (herror : error ≠ .notFound) :
    (makeChain (path :: containing)).run (world.answer stop) files =
      (unlessDirectory path error).run (world.answer stop) files := by
  rw [makeChain, hpath, if_neg Bool.false_ne_true, bind_eq, run_bind, run_ask_file,
    FileOperation.run, h]
  cases error with
  | notFound => exact absurd rfl herror
  | _ => rfl

/-- When a directory above it is missing, a directory is created behind those above it. -/
theorem cases_of_run_makeChain_of_notFound (hpath : path.isEmpty = false)
    (hmissing : files.makeDirectory world.place path = .error .notFound)
    (h : (makeChain (path :: containing)).run (world.answer stop) files = (result, last)) :
    (∃ error, (makeChain containing).run (world.answer stop) files = (.error error, last) ∧
      result = .error error) ∨
    ∃ between, (makeChain containing).run (world.answer stop) files = (.ok (), between) ∧
      (between.makeDirectory world.place path = .ok last ∨
        last = between ∧ (result = .ok () →
          ∃ place mode, last.find world.place path = .ok (place, .directory mode))) := by
  rw [makeChain, hpath, if_neg Bool.false_ne_true, bind_eq, run_bind, run_ask_file,
    FileOperation.run, hmissing] at h
  change ((makeChain containing).bind _).run (world.answer stop) files = _ at h
  rw [run_bind] at h
  rcases hchain : (makeChain containing).run (world.answer stop) files with ⟨error | _, between⟩
  · rw [hchain] at h
    obtain ⟨rfl, rfl⟩ := Prod.mk.inj h
    exact .inl ⟨error, rfl, rfl⟩
  · rw [hchain] at h
    refine .inr ⟨between, rfl, ?_⟩
    change ((ask (.file (.makeDirectory path))).bind _).run (world.answer stop) between = _ at h
    rw [run_bind, run_ask_file, FileOperation.run] at h
    cases hagain : between.makeDirectory world.place path with
    | ok changed =>
      rw [hagain] at h
      obtain ⟨-, rfl⟩ := Prod.mk.inj h
      exact .inl rfl
    | error error =>
      rw [hagain] at h
      exact .inr (of_run_unlessDirectory h)

/-- A directory is not created when one of those above it is missing and cannot be created. Otherwise
it is created, or it exists already. -/
theorem cases_of_run_makeChain_cons (hpath : path.isEmpty = false)
    (h : (makeChain (path :: containing)).run (world.answer stop) files = (result, last)) :
    (∃ error, (makeChain containing).run (world.answer stop) files = (.error error, last) ∧
      result = .error error) ∨
    ∃ between, (between = files ∨
        (makeChain containing).run (world.answer stop) files = (.ok (), between)) ∧
      (between.makeDirectory world.place path = .ok last ∨
        last = between ∧ (result = .ok () →
          ∃ place mode, last.find world.place path = .ok (place, .directory mode))) := by
  cases hmake : files.makeDirectory world.place path with
  | ok changed =>
    rw [makeChain, hpath, if_neg Bool.false_ne_true, bind_eq, run_bind, run_ask_file,
      FileOperation.run, hmake] at h
    obtain ⟨-, rfl⟩ := Prod.mk.inj h
    exact .inr ⟨files, .inl rfl, .inl hmake⟩
  | error error =>
    by_cases hmissing : error = .notFound
    · subst hmissing
      rcases cases_of_run_makeChain_of_notFound hpath hmake h with hfailed | ⟨between, hchain, hmade⟩
      · exact .inl hfailed
      · exact .inr ⟨between, .inr hchain, hmade⟩
    · rw [run_makeChain_of_error hpath hmake hmissing] at h
      exact .inr ⟨files, .inl rfl, .inr (of_run_unlessDirectory h)⟩

/-- Creating the first of some directories creates none but those. -/
theorem makesWay_of_run_makeChain {chain : List Path}
    (hchain : ∀ other ∈ chain, other.isEmpty = false → other.IsOnWay path)
    (h : (makeChain chain).run (world.answer stop) files = (result, last)) :
    files.MakesWay world.place path last := by
  induction chain generalizing files last result with
  | nil =>
    obtain ⟨-, rfl⟩ := Prod.mk.inj h
    exact .refl _ _ _
  | cons first containing ih =>
    cases hfirst : first.isEmpty with
    | true =>
      rw [makeChain, hfirst] at h
      obtain ⟨-, rfl⟩ := Prod.mk.inj h
      exact .refl _ _ _
    | false =>
      have hway : first.IsOnWay path := hchain first List.mem_cons_self hfirst
      have ih' {files last : FileSystem} {result : Except FileError Unit}
          (h : (makeChain containing).run (world.answer stop) files = (result, last)) :
          files.MakesWay world.place path last :=
        ih (fun other hother => hchain other (List.mem_cons_of_mem _ hother)) h
      rcases cases_of_run_makeChain_cons hfirst h with ⟨error, hrest, -⟩ | ⟨between, hbefore, hmade⟩
      · exact ih' hrest
      · have hbetween : files.MakesWay world.place path between := by
          rcases hbefore with rfl | hrest
          · exact .refl _ _ _
          · exact ih' hrest
        rcases hmade with hmake | ⟨rfl, -⟩
        · exact hbetween.trans ((FileSystem.MakesWay.of_makeDirectory hmake).mono hway)
        · exact hbetween

/-- Creating a directory creates none but that and those on the way to it. -/
theorem makesWay_of_run_makeDirectories {result : Except Fault Unit}
    (h : (makeDirectories path).run.run (world.answer stop) files = (result, last)) :
    files.MakesWay world.place path last := by
  rw [makeDirectories, ExceptT.run_mk, bind_eq, run_bind] at h
  rcases hchain : (makeChain path.ancestors).run (world.answer stop) files with ⟨chained, between⟩
  rw [hchain] at h
  obtain rfl : between = last := by cases chained <;> exact (Prod.mk.inj h).2
  exact makesWay_of_run_makeChain (fun _ => Path.isOnWay_of_mem_ancestors) hchain

theorem of_run_makeDirectories
    (h : (makeDirectories path).run.run (world.answer stop) files = (.ok (), last)) :
    (makeChain path.ancestors).run (world.answer stop) files = (.ok (), last) := by
  rw [makeDirectories, ExceptT.run_mk, bind_eq, run_bind] at h
  rcases hchain : (makeChain path.ancestors).run (world.answer stop) files with ⟨_ | _, between⟩
  · rw [hchain] at h
    cases (Prod.mk.inj h).1
  · rw [hchain] at h
    exact congrArg (Prod.mk _) (Prod.mk.inj h).2

/-- A path that has been created leads to a directory. -/
theorem exists_of_run_makeDirectories (hpath : path.isEmpty = false)
    (h : (makeDirectories path).run.run (world.answer stop) files = (.ok (), last)) :
    ∃ place, last.HasDirectory world.place path place := by
  have hchain := of_run_makeDirectories h
  obtain ⟨containing, hancestors⟩ := Path.exists_ancestorsUpTo path.text.length path
  rw [Path.ancestors, hancestors] at hchain
  rcases cases_of_run_makeChain_cons hpath hchain with
    ⟨error, -, hresult⟩ | ⟨between, -, hmake | ⟨-, hdirectory⟩⟩
  · cases hresult
  · obtain ⟨place, -, -, hplace⟩ := FileSystem.exists_of_makeDirectory hmake
    exact ⟨place, hplace⟩
  · obtain ⟨place, mode, hfind⟩ := hdirectory rfl
    exact ⟨place, .of_find hfind⟩

/-! ### Obstacles -/

variable {parent : Path} {name : String} {names : List String}

/-- Nothing is created at a path that exists without leading to a directory. -/
theorem run_makeChain_ne_ok_of_alreadyExists (hpath : path.isEmpty = false)
    (hexists : files.makeDirectory world.place path = .error .alreadyExists)
    (hnot : ∀ place mode, files.find world.place path ≠ .ok (place, .directory mode)) :
    (makeChain (path :: containing)).run (world.answer stop) files ≠ (.ok (), last) := by
  intro h
  rw [run_makeChain_of_error hpath hexists (by decide)] at h
  obtain ⟨rfl, hdirectory⟩ := of_run_unlessDirectory h
  obtain ⟨place, mode, hfind⟩ := hdirectory rfl
  exact hnot place mode hfind

/-- Nothing is created in a path that does not lead to a directory. -/
theorem makeDirectory_div_ne_ok (hname : Path.IsName name) (hpath : path.isEmpty = false)
    (hnot : ∀ place mode, files.find world.place path ≠ .ok (place, .directory mode)) :
    files.makeDirectory world.place (path / name) ≠ .ok last := by
  intro hmake
  obtain ⟨target, hresolve⟩ := FileSystem.exists_of_makeDirectory_div hname hmake
  obtain ⟨there, mode, hfind, -⟩ := FileSystem.exists_of_resolve_div hname hpath hresolve
  exact hnot there mode hfind

/-- Nothing is created at or behind a path that exists without leading to a directory. -/
theorem run_makeChain_ne_ok (hname : Path.IsName name) (hnames : ∀ name ∈ names, Path.IsName name)
    (hexists : files.makeDirectory world.place (parent / name) = .error .alreadyExists)
    (hnot : ∀ place mode, files.find world.place (parent / name) ≠ .ok (place, .directory mode))
    {count : Nat} :
    (makeChain (Path.ancestorsUpTo count ((parent / name).descend names))).run
      (world.answer stop) files ≠ (.ok (), last) := by
  have hroot : (parent / name).isEmpty = false := Path.isEmpty_div parent hname.ne_empty
  -- Behind the path there are no directories either.
  have hbehind {names : List String} (hnames : ∀ name ∈ names, Path.IsName name) (place : Location)
      (mode : Mode) : files.find world.place ((parent / name).descend names) ≠
        .ok (place, .directory mode) := fun hfind =>
    have ⟨there, bits, hdirectory⟩ := FileSystem.exists_of_find_descend hroot hnames hfind
    hnot there bits hdirectory
  induction names using List.reverseRecOn generalizing count last with
  | nil =>
    obtain ⟨containing, hancestors⟩ := Path.exists_ancestorsUpTo count (parent / name)
    rw [Path.descend_nil, hancestors]
    exact run_makeChain_ne_ok_of_alreadyExists hroot hexists hnot
  | append_singleton front entry ih =>
    obtain ⟨hfront, hsingle⟩ := List.forall_mem_append.mp hnames
    have hentry : Path.IsName entry := List.forall_mem_singleton.mp hsingle
    have hparent := Path.parent?_descend parent hname hfront hentry
    have hwhole := hbehind hnames
    rw [Path.descend_concat] at hwhole ⊢
    obtain ⟨containing, hancestors, hrest⟩ : ∃ containing,
        Path.ancestorsUpTo count ((parent / name).descend front / entry) =
          (parent / name).descend front / entry :: containing ∧
        ∀ last, (makeChain containing).run (world.answer stop) files ≠ (.ok (), last) := by
      cases count with
      | zero => exact ⟨[], rfl, fun _ h => by cases (Prod.mk.inj h).1⟩
      | succ count =>
        exact ⟨Path.ancestorsUpTo count ((parent / name).descend front),
          by rw [Path.ancestorsUpTo, hparent], fun _ => ih hfront⟩
    rw [hancestors]
    intro h
    rcases cases_of_run_makeChain_cons (Path.isEmpty_div _ hentry.ne_empty) h with
      ⟨error, -, hresult⟩ | ⟨between, rfl | hchain, hmade⟩
    · cases hresult
    · rcases hmade with hmake | ⟨rfl, hdirectory⟩
      · exact makeDirectory_div_ne_ok hentry (Path.isEmpty_descend hroot front) (hbehind hfront) hmake
      · obtain ⟨place, mode, hfind⟩ := hdirectory rfl
        exact hwhole place mode hfind
    · exact hrest _ hchain

theorem run_makeDirectories_ne_ok (hname : Path.IsName name)
    (hnames : ∀ name ∈ names, Path.IsName name)
    (hexists : files.makeDirectory world.place (parent / name) = .error .alreadyExists)
    (hnot : ∀ place mode, files.find world.place (parent / name) ≠ .ok (place, .directory mode)) :
    (makeDirectories ((parent / name).descend names)).run.run (world.answer stop) files ≠
      (.ok (), last) := fun h =>
  run_makeChain_ne_ok hname hnames hexists hnot (of_run_makeDirectories h)

/-- A text is written to a file when the directory of the file has been created. -/
theorem of_run_writeTextFile {text : String}
    (h : (writeTextFile path text).run.run (world.answer stop) files = (.ok (), last)) :
    ∃ between, (path.parent?.forM createDirectory).run.run (world.answer stop) files =
        (.ok (), between) ∧
      between.overwrite world.place path (.ofText text) none = .ok last := by
  obtain ⟨_, between, hmake, hwrite⟩ := Attempt.exists_of_run_bind h
  refine ⟨between, hmake, ?_⟩
  have hrun := Attempt.of_run_file (Attempt.of_run_during hwrite)
  obtain ⟨hresult, hlast⟩ := Prod.mk.inj hrun
  obtain ⟨changed, hchanged, hsettle⟩ := FileOperation.exists_of_settle hresult
  rw [hchanged, ← hlast.symm.trans hsettle]

/-- The directory of a file to which a text is written has been created before. -/
theorem exists_of_run_writeTextFile_of_parent? {text : String} (hparent : path.parent? = some parent)
    (h : (writeTextFile path text).run.run (world.answer stop) files = (.ok (), last)) :
    ∃ between, (makeDirectories parent).run.run (world.answer stop) files = (.ok (), between) ∧
      between.overwrite world.place path (.ofText text) none = .ok last := by
  obtain ⟨between, hmake, hwrite⟩ := of_run_writeTextFile h
  rw [hparent] at hmake
  exact ⟨between, Attempt.of_run_during hmake, hwrite⟩

end Plan

end SketchApk
