import SketchApk.Proofs.File.Branch
import SketchApk.Proofs.Plan.Directories

/-!
# Filling a new directory

In a directory that has just been created everything is as it has been put there. So creating
directories and writing files in it succeeds as long as the paths are not too long, and the
directory is described afterwards by what has been added.

## Main statements

* `Plan.run_createDirectory_plant` : creating a directory below a new one.
* `Plan.run_writeTextFile_plant` : writing a file below a new directory.
-/

namespace SketchApk

/-- Each name makes a path longer. -/
theorem Path.length_le_length_descend (path : Path) {names : List String}
    (h : ∀ name ∈ names, IsName name) : names.length ≤ (path.descend names).text.length := by
  induction names using List.reverseRecOn with
  | nil => exact Nat.zero_le _
  | append_singleton front name ih =>
    obtain ⟨hfront, hsingle⟩ := List.forall_mem_append.mp h
    have hname : IsName name := List.forall_mem_singleton.mp hsingle
    have hne : 0 < name.length := by
      rw [← String.length_toList]
      exact List.length_pos_iff.mpr (by simpa using hname.ne_empty)
    have hlead : (path.descend front).text.length ≤ (path.descend front).lead.length := by
      rw [lead]
      split <;> simp
    rw [descend_concat, text_div hname, String.length_append, List.length_append,
      List.length_singleton]
    have hlength := ih hfront
    omega

namespace Plan

variable {world : World} {stop : Bool} {files between last : FileSystem} {path : Path}
  {containing : List Path}

/-! ### Chains of directories -/

theorem run_makeChain_of_ok (hpath : path.isEmpty = false)
    (h : files.makeDirectory world.place path = .ok last) :
    (makeChain (path :: containing)).run (world.answer stop) files = (.ok (), last) := by
  rw [makeChain, hpath, if_neg Bool.false_ne_true, bind_eq, run_bind, run_ask_file,
    FileOperation.run, h]
  rfl

/-- A directory that exists need not be created. -/
theorem run_makeChain_of_alreadyExists {place : Location} {mode : Mode}
    (hpath : path.isEmpty = false) (h : files.makeDirectory world.place path = .error .alreadyExists)
    (hfind : files.find world.place path = .ok (place, .directory mode)) :
    (makeChain (path :: containing)).run (world.answer stop) files = (.ok (), files) := by
  have hdirectory : (files.inspect world.place path).toOption.any (·.kind = .directory) = true := by
    rw [FileSystem.inspect, hfind]
    rfl
  rw [run_makeChain_of_error hpath h (by decide), unlessDirectory, bind_eq, run_bind,
    run_isDirectory, hdirectory]
  rfl

/-- A directory is created behind those above it. -/
theorem run_makeChain_of_notFound (hpath : path.isEmpty = false)
    (h : files.makeDirectory world.place path = .error .notFound)
    (hchain : (makeChain containing).run (world.answer stop) files = (.ok (), between))
    (hmake : between.makeDirectory world.place path = .ok last) :
    (makeChain (path :: containing)).run (world.answer stop) files = (.ok (), last) := by
  have hask : (ask (.file (.makeDirectory path))).run (world.answer stop) between =
      (.ok (), last) := by
    rw [run_ask_file, FileOperation.run, hmake]
    rfl
  rw [makeChain, hpath, if_neg Bool.false_ne_true, bind_eq, run_bind, run_ask_file,
    FileOperation.run, h]
  change ((makeChain containing).bind _).run (world.answer stop) files = _
  rw [run_bind, hchain]
  change ((ask (.file (.makeDirectory path))).bind _).run (world.answer stop) between = _
  rw [run_bind, hask]
  rfl

theorem run_makeDirectories (h : (makeChain path.ancestors).run (world.answer stop) files =
    (.ok (), last)) : (makeDirectories path).run.run (world.answer stop) files = (.ok (), last) := by
  rw [makeDirectories, ExceptT.run_mk, bind_eq, run_bind, h]
  rfl

/-- A file with a text is read. -/
theorem run_readText {text : String} (h : files.read world.place path = .ok (.ofText text)) :
    (readText path).run.run (world.answer stop) files = (.ok text, files) := by
  have htext : (Content.ofText text).text? = some text := by
    rw [Content.text?, Bytes.text?, String.fromUTF8?, Content.toBytes_ofText]
    simpa using ⟨text.isValidUTF8, rfl⟩
  have hread : (Attempt.file (.read path)).run.run (world.answer stop) files =
      (.ok (.ofText text), files) := by
    rw [Attempt.run_file, FileOperation.run, h]
    rfl
  refine (Attempt.run_bind_ok hread).trans ?_
  rw [htext]
  rfl

/-- A directory that is missing need not be removed. -/
theorem run_removeDirectory_of_missing {activity : Activity} {error : FileError}
    (h : files.find world.place path = .error error) :
    (removeDirectory path activity).run.run (world.answer stop) files = (.ok (), files) := by
  have hmissing : (files.inspect world.place path).toBool = false := by
    rw [FileSystem.inspect, h]
    rfl
  refine (Attempt.run_bind_ok (Attempt.run_always (run_pathExists path))).trans ?_
  rw [hmissing]
  rfl

/-! ### Below a new directory -/

variable {base : Location} {parent : Path} {name target : String} {branch : Branch}
  {names : List String}

section Site

variable (hsite : files.IsSite world.place parent name base) (hgrown : branch.IsGrown)

include hsite hgrown

theorem run_makeChain_plant (hadmits : branch.Admits names)
    (husable : ((parent / name).descend names).IsUsable) {count : Nat} (hcount : names.length ≤ count) :
    (makeChain (Path.ancestorsUpTo count ((parent / name).descend names))).run (world.answer stop)
        (files.plant (base ++ [name]) branch) =
      (.ok (), files.plant (base ++ [name]) (branch.withDirectories [] names)) := by
  have hroot : (parent / name).isEmpty = false := Path.isEmpty_div parent hsite.isName.ne_empty
  induction names using List.reverseRecOn generalizing count with
  | nil =>
    obtain ⟨containing, hancestors⟩ := Path.exists_ancestorsUpTo count (parent / name)
    have hfind := hsite.find hgrown hgrown.lookup_nil husable
    rw [Path.descend_nil] at hfind husable ⊢
    rw [Branch.withDirectories, hancestors]
    exact run_makeChain_of_alreadyExists hroot (hsite.makeDirectory_root hgrown husable) hfind
  | append_singleton front last ih =>
    obtain ⟨hfront, hsingle⟩ := List.forall_mem_append.mp hadmits.isName
    have hlast : Path.IsName last := List.forall_mem_singleton.mp hsingle
    have hshort : last.utf8ByteSize ≤ maxNameBytes := hadmits.short last (by simp)
    have hempty : ((parent / name).descend front / last).isEmpty = false :=
      Path.isEmpty_div _ hlast.ne_empty
    have hparent := Path.parent?_descend parent hsite.isName hfront hlast
    obtain ⟨count, rfl⟩ : ∃ before, count = before + 1 :=
      Nat.exists_eq_add_one.mpr (Nat.lt_of_lt_of_le (by simp) hcount)
    have hcount' : front.length ≤ count := by simpa using hcount
    have hlookup : (branch.withDirectories [] front).lookup (front ++ [last]) =
        branch.lookup (front ++ [last]) := Branch.lookup_withDirectories (by simp)
    obtain ⟨hgrown', hfront'⟩ := hgrown.withDirectories hadmits.of_concat
    rw [Branch.withDirectories_concat, List.nil_append, hlookup]
    have husable' := husable
    rw [Path.descend_concat] at husable ⊢
    rw [Path.ancestorsUpTo, hparent]
    cases hnode : branch.lookup (front ++ [last]) with
    | some node =>
      obtain rfl := hadmits.directory _ node (List.prefix_refl _) hnode
      obtain ⟨hdirectory, -⟩ := hgrown.of_lookup_concat hnode
      have hmake := hsite.makeDirectory hgrown hdirectory hlast hshort husable
      have hfind := hsite.find hgrown hnode husable'
      rw [hnode] at hmake
      rw [Path.descend_concat] at hfind
      rw [hgrown.withDirectories_eq_self hdirectory]
      exact run_makeChain_of_alreadyExists hempty hmake hfind
    | none =>
      cases hdirectory : branch.lookup front with
      | some node =>
        obtain rfl := hadmits.directory _ node (List.prefix_append _ _) hdirectory
        have hmake := hsite.makeDirectory hgrown hdirectory hlast hshort husable
        rw [hnode] at hmake
        rw [hgrown.withDirectories_eq_self hdirectory]
        exact run_makeChain_of_ok hempty hmake
      | none =>
        -- The directory is missing, so it is created before, and then there is nothing in it.
        have hchain := ih hadmits.of_concat
          (FileSystem.isUsable_of_isUsable_div hlast (Path.isEmpty_descend hroot front) husable) hcount'
        have hmake := hsite.makeDirectory hgrown' hfront' hlast hshort husable
        rw [hlookup, hnode] at hmake
        have hmissing := hsite.makeDirectory_eq_notFound hgrown hadmits hdirectory husable
        exact run_makeChain_of_notFound hempty hmissing hchain hmake

/-- A directory is created with those above it. -/
theorem run_createDirectory_plant (hadmits : branch.Admits names)
    (husable : ((parent / name).descend names).IsUsable) :
    (createDirectory ((parent / name).descend names)).run.run (world.answer stop)
        (files.plant (base ++ [name]) branch) =
      (.ok (), files.plant (base ++ [name]) (branch.withDirectories [] names)) :=
  Attempt.run_during_ok (run_makeDirectories (run_makeChain_plant hsite hgrown hadmits husable
    (Path.length_le_length_descend _ hadmits.isName)))

/-- A file is written in a directory, which is created with those above it. -/
theorem run_writeTextFile_plant (hadmits : branch.Admits names)
    (hnew : branch.lookup (names ++ [target]) = none) (htarget : Path.IsName target)
    (hshort : target.utf8ByteSize ≤ maxNameBytes)
    (husable : ((parent / name).descend names / target).IsUsable) (text : String) :
    (writeTextFile ((parent / name).descend names / target) text).run.run (world.answer stop)
        (files.plant (base ++ [name]) branch) =
      (.ok (), files.plant (base ++ [name]) ((names ++ [target], .file Mode.newFile (.ofText text)) ::
        branch.withDirectories [] names)) := by
  have hroot : (parent / name).isEmpty = false := Path.isEmpty_div parent hsite.isName.ne_empty
  obtain ⟨hgrown', hnames⟩ := hgrown.withDirectories hadmits
  have husable' : ((parent / name).descend names).IsUsable :=
    FileSystem.isUsable_of_isUsable_div htarget (Path.isEmpty_descend hroot names) husable
  have hlookup : (branch.withDirectories [] names).lookup (names ++ [target]) = none := by
    rw [Branch.lookup_withDirectories (by simp), hnew]
  have hwrite := hsite.overwrite hgrown' hnames hlookup htarget hshort husable (.ofText text)
  rw [writeTextFile, Path.parent?_descend parent hsite.isName hadmits.isName htarget]
  refine (Attempt.run_bind_ok (run_createDirectory_plant hsite hgrown hadmits husable')).trans
    (Attempt.run_during_ok ?_)
  rw [Attempt.run_file, FileOperation.run, hwrite]
  rfl

end Site

end Plan

namespace Attempt

variable {α β : Type} {world : World} {stop : Bool} {files : FileSystem} {place base : Location}
  {attempt : Attempt α} {f : α → Attempt β} {branch between next : Branch} {value : α} {result : β}
  {parent : Path} {name target : String} {names : List String}

/-- The attempt succeeds with a value and makes one branch of new files out of another one. -/
structure Grows (world : World) (stop : Bool) (files : FileSystem) (place : Location)
    (branch : Branch) (attempt : Attempt α) (value : α) (next : Branch) : Prop where
  run : attempt.run.run (world.answer stop) (files.plant place branch) =
    (.ok value, files.plant place next)
  isGrown : next.IsGrown

namespace Grows

theorem bind (h : attempt.Grows world stop files place branch value between)
    (h' : between.IsGrown → (f value).Grows world stop files place between result next) :
    (attempt >>= f).Grows world stop files place branch result next :=
  ⟨(run_bind_ok h.run).trans (h' h.isGrown).run, (h' h.isGrown).isGrown⟩

/-- An attempt that leaves the branch as it is may come first. -/
theorem bind_of_run
    (h : attempt.run.run (world.answer stop) (files.plant place branch) =
      (.ok value, files.plant place branch))
    (h' : (f value).Grows world stop files place branch result next) :
    (attempt >>= f).Grows world stop files place branch result next :=
  ⟨(run_bind_ok h).trans h'.run, h'.isGrown⟩

theorem of_pure (h : branch.IsGrown) (value : α) :
    (pure value : Attempt α).Grows world stop files place branch value branch :=
  ⟨rfl, h⟩

variable (hsite : files.IsSite world.place parent name base) (hgrown : branch.IsGrown)

include hsite hgrown

theorem createDirectory (hadmits : branch.Admits names)
    (husable : ((parent / name).descend names).IsUsable)
    (hnext : branch.withDirectories [] names = next) :
    (Plan.createDirectory ((parent / name).descend names)).Grows world stop files (base ++ [name])
      branch () next :=
  ⟨hnext ▸ Plan.run_createDirectory_plant hsite hgrown hadmits husable,
    hnext ▸ (hgrown.withDirectories hadmits).1⟩

theorem writeTextFile (hadmits : branch.Admits names)
    (hnew : branch.lookup (names ++ [target]) = none) (htarget : Path.IsName target)
    (hshort : target.utf8ByteSize ≤ maxNameBytes)
    (husable : ((parent / name).descend names / target).IsUsable) (text : String)
    (hnext : branch.withDirectories [] names = next) :
    (Plan.writeTextFile ((parent / name).descend names / target) text).Grows world stop files
      (base ++ [name]) branch ()
      ((names ++ [target], .file Mode.newFile (.ofText text)) :: next) := by
  subst hnext
  obtain ⟨hgrown', hnames⟩ := hgrown.withDirectories hadmits
  have hlookup : (branch.withDirectories [] names).lookup (names ++ [target]) = none := by
    rw [Branch.lookup_withDirectories (by simp), hnew]
  exact ⟨Plan.run_writeTextFile_plant hsite hgrown hadmits hnew htarget hshort husable text,
    .cons hgrown' hnames htarget hshort hlookup (by simp)⟩

end Grows

end Attempt

end SketchApk
