import SketchApk.Proofs.File.Deposit

/-!
# Files with contents that do not show

Two file systems agree but for the contents of some files when everything else is the same, the
permissions of these files included. Then every path leads to the same place in both. What it means
to write or remove one of these files is settled by its directory alone, as long as its name is not
the name of a link.

## Main definitions

* `FileSystem.AgreeBut` : file systems that are the same but for the contents of some files.
* `FileSystem.Takes` : a directory in which files of some names may be written and removed.
* `FileSystem.AgreeIn` : file systems that are the same but for the contents of files of such names.
* `FileSystem.accepts` : a file that is written in a directory stays there until it is removed.

## Main statements

* `FileSystem.Takes.overwrite_div`, `FileSystem.Takes.removeFile_div` : writing and removing a file
  in such a directory.
* `FileSystem.AgreeIn.write`, `FileSystem.AgreeIn.remove` : a file hides its content from when it is
  written until it is removed.
* `FileSystem.exists_takes_of_accepts` : a file cannot be written unless its directory takes files.
-/

namespace SketchApk.FileSystem

variable {files other : FileSystem} {cwd place : Location} {directory : Path} {name : String}
  {hidden : List Location} {mode : Mode}

/-! ### Contents that do not show -/

/-- The file systems are the same but for the contents of files at some locations. -/
def AgreeBut (hidden : List Location) (files other : FileSystem) : Prop :=
  ∀ place, files.get? place = other.get? place ∨
    place ∈ hidden ∧ ∃ mode content content', files.get? place = some (.file mode content) ∧
      other.get? place = some (.file mode content')

namespace AgreeBut

theorem refl (hidden : List Location) (files : FileSystem) : AgreeBut hidden files files :=
  fun _ => .inl rfl

theorem symm (h : AgreeBut hidden files other) : AgreeBut hidden other files := by
  intro place
  rcases h place with heq | ⟨hmem, mode, content, content', hnode, hnode'⟩
  · exact .inl heq.symm
  · exact .inr ⟨hmem, mode, content', content, hnode', hnode⟩

theorem mono {more : List Location} (h : AgreeBut hidden files other) (hmore : hidden ⊆ more) :
    AgreeBut more files other :=
  fun place => (h place).imp_right fun ⟨hmem, hfile⟩ => ⟨hmore hmem, hfile⟩

/-- Where there is nothing at any of the places, nothing is hidden. -/
theorem eq_of_forall_none (h : AgreeBut hidden files other)
    (hnone : ∀ place ∈ hidden, files.get? place = none) : files = other := by
  refine ext fun place => (h place).resolve_right ?_
  rintro ⟨hmem, _, _, _, hfile, -⟩
  rw [hnone place hmem] at hfile
  cases hfile

/-- Contents make no difference to paths. -/
theorem toExtends (h : AgreeBut hidden files other) : files.Extends other := by
  intro place node hnode
  rcases h place with heq | ⟨-, mode, content, content', hfile, hfile'⟩
  · exact ⟨node, heq ▸ hnode, .refl node⟩
  · obtain rfl := Option.some.inj (hfile.symm.trans hnode)
    exact ⟨_, hfile', trivial⟩

/-- A file that is put into both hides its contents. -/
theorem put (h : AgreeBut hidden files other) (place : Location) (mode : Mode)
    (content content' : Content) :
    AgreeBut (hidden ++ [place]) (files.put place (.file mode content))
      (other.put place (.file mode content')) := by
  intro there
  rw [get?_put, get?_put]
  by_cases hplace : place = there
  · rw [if_pos hplace, if_pos hplace]
    exact .inr ⟨by simp [hplace], mode, content, content', rfl, rfl⟩
  · rw [if_neg hplace, if_neg hplace]
    exact h.mono (List.subset_append_left _ _) there

/-- A node that is put into both hides nothing. -/
theorem put_same (h : AgreeBut hidden files other) (place : Location) (node : Node) :
    AgreeBut hidden (files.put place node) (other.put place node) := by
  intro there
  rw [get?_put, get?_put]
  by_cases hplace : place = there
  · rw [if_pos hplace, if_pos hplace]
    exact .inl rfl
  · rw [if_neg hplace, if_neg hplace]
    exact h there

/-- A place from which a file is removed hides nothing. -/
theorem eraseTree (h : AgreeBut (place :: hidden) files other) :
    AgreeBut hidden (files.eraseTree place) (other.eraseTree place) := by
  intro there
  rw [get?_eraseTree, get?_eraseTree]
  by_cases hplace : place.isPrefixOf there
  · rw [if_pos hplace, if_pos hplace]
    exact .inl rfl
  · rw [if_neg hplace, if_neg hplace]
    refine (h there).imp_right fun ⟨hmem, hfile⟩ => ⟨?_, hfile⟩
    rcases List.mem_cons.mp hmem with rfl | hmem
    · exact absurd (by simp) hplace
    · exact hmem

/-- A place at which there is nothing hides nothing. -/
theorem of_none (h : AgreeBut (place :: hidden) files other) (hnone : files.get? place = none) :
    AgreeBut hidden files other := by
  intro there
  refine (h there).imp_right fun ⟨hmem, hfile⟩ => ⟨?_, hfile⟩
  rcases List.mem_cons.mp hmem with rfl | hmem
  · obtain ⟨_, _, _, hsome, -⟩ := hfile
    rw [hnone] at hsome
    cases hsome
  · exact hmem

end AgreeBut

/-! ### Files that are removed -/

/-- There is a file at the location, or nothing. -/
def isOpen (files : FileSystem) (place : Location) : Bool :=
  match files.get? place with
  | none | some (.file ..) => true
  | _ => false

theorem isOpen_iff : files.isOpen place = true ↔
    files.get? place = none ∨ ∃ mode content, files.get? place = some (.file mode content) := by
  rw [isOpen]
  rcases files.get? place with _ | ⟨_ | _ | _⟩ <;> simp

theorem get?_eraseTree_of_not_below {there : Location} (h : place.isPrefixOf there = false) :
    (files.eraseTree place).get? there = files.get? there := by
  rw [get?_eraseTree, h, if_neg Bool.false_ne_true]

theorem not_concat_prefix_self (place : Location) (name : String) : ¬place ++ [name] <+: place := by
  intro h
  have hlength := h.length_le
  rw [List.length_append, List.length_singleton] at hlength
  omega

theorem isPrefixOf_concat {there : Location} (h : place.isPrefixOf there = false)
    (hne : place ≠ there ++ [name]) : place.isPrefixOf (there ++ [name]) = false := by
  rw [Bool.eq_false_iff, ne_eq, List.isPrefixOf_iff_prefix, List.prefix_concat_iff] at *
  exact fun hor => hor.elim hne h

theorem isPrefixOf_dropLast {there : Location} (h : place.isPrefixOf there = false) :
    place.isPrefixOf there.dropLast = false := by
  rw [Bool.eq_false_iff, ne_eq, List.isPrefixOf_iff_prefix] at *
  exact fun hbegins => h (hbegins.trans (List.dropLast_prefix there))

/-- A name that leads on somewhere does so without a file that is not on its way. -/
theorem pass_eraseTree {last : LastName} {asDirectory : Bool} {here : Location}
    {rest : List String} (hopen : files.isOpen place = true) (hhere : place.isPrefixOf here = false) :
    (∀ next, files.pass last asDirectory here name rest = .onward next →
      (files.eraseTree place).pass last asDirectory here name rest = .onward next ∧
        place.isPrefixOf next = false) ∧
    ∀ path, files.pass last asDirectory here name rest = .linked path →
      (files.eraseTree place).pass last asDirectory here name rest = .linked path := by
  have hsearchable : (files.eraseTree place).isSearchable here = files.isSearchable here := by
    rw [isSearchable, isSearchable, get?_eraseTree_of_not_below hhere]
  have hentry (hne : place ≠ here ++ [name]) :
      (files.eraseTree place).get? (here ++ [name]) = files.get? (here ++ [name]) :=
    get?_eraseTree_of_not_below (isPrefixOf_concat hhere hne)
  constructor
  · intro next h
    rw [pass] at h ⊢
    rw [hsearchable]
    split_ifs at h ⊢
    · cases h
      exact ⟨rfl, hhere⟩
    · cases h
      exact ⟨rfl, isPrefixOf_dropLast hhere⟩
    · obtain ⟨rfl, mode, hmode⟩ := arrive_eq_onward_iff.mp h
      have hne : place ≠ here ++ [name] := by
        rintro rfl
        rw [isOpen, hmode] at hopen
        cases hopen
      exact ⟨arrive_eq_onward_iff.mpr ⟨rfl, mode, (hentry hne).trans hmode⟩,
        isPrefixOf_concat hhere hne⟩
  · intro path h
    rw [pass] at h ⊢
    rw [hsearchable]
    split_ifs at h ⊢
    have hlink := arrive_eq_linked h
    have hne : place ≠ here ++ [name] := by
      rintro rfl
      rw [isOpen, hlink] at hopen
      cases hopen
    rw [arrive, hlink] at h
    rw [arrive, hentry hne, hlink]
    exact h

theorem Leads.eraseTree {last : LastName} {links : Nat} {asDirectory : Bool} {here there : Location}
    {names : List String} (hopen : files.isOpen place = true) (hroot : place ≠ [])
    (hhere : place.isPrefixOf here = false)
    (h : files.Leads last links asDirectory here names (.existing there (.directory mode))) :
    (files.eraseTree place).Leads last links asDirectory here names
      (.existing there (.directory mode)) := by
  generalize htarget : Target.existing there (.directory mode) = target at h
  induction h with
  | here hnode => exact .here ((get?_eraseTree_of_not_below hhere).trans hnode)
  | onward hpass _ ih =>
    obtain ⟨hpass, hnext⟩ := (pass_eraseTree hopen hhere).1 _ hpass
    exact .onward hpass (ih hnext htarget)
  | ended hpass =>
    subst htarget
    obtain ⟨-, -, harrive⟩ := pass_eq_ended_iff.mp hpass
    obtain ⟨-, hnode, -⟩ := get?_of_pass hpass
    rw [arrive, hnode] at harrive
    cases harrive
  | @linked _ _ _ _ _ path _ hpass _ ih =>
    refine .linked ((pass_eraseTree hopen hhere).2 _ hpass) (ih ?_ htarget)
    split
    · rw [Bool.eq_false_iff, ne_eq, List.isPrefixOf_iff_prefix, List.prefix_nil]
      exact hroot
    · exact hhere

/-- A directory is found without a file that is not above the working directory. -/
theorem find_eraseTree {path : Path} {there : Location} (hopen : files.isOpen place = true)
    (hroot : place ≠ []) (hcwd : place.isPrefixOf cwd = false)
    (h : files.find cwd path = .ok (there, .directory mode)) :
    (files.eraseTree place).find cwd path = .ok (there, .directory mode) := by
  obtain ⟨husable, hleads⟩ := resolve_eq_ok_iff.mp (find_eq_ok_iff.mp h)
  refine find_eq_ok_iff.mpr (resolve_eq_ok_iff.mpr ⟨husable, hleads.eraseTree hopen hroot ?_⟩)
  split
  · rw [Bool.eq_false_iff, ne_eq, List.isPrefixOf_iff_prefix, List.prefix_nil]
    exact hroot
  · exact hcwd

/-! ### Directories that take files -/

/-- A name in a directory, with a path that can be given to the system. -/
structure IsEntry (directory : Path) (name : String) : Prop where
  isName : Path.IsName name
  short : name.utf8ByteSize ≤ maxNameBytes
  usable : (directory / name).IsUsable

instance (directory : Path) : DecidablePred (IsEntry directory) := fun name =>
  decidable_of_iff
    (Path.IsName name ∧ name.utf8ByteSize ≤ maxNameBytes ∧ (directory / name).IsUsable)
    ⟨fun ⟨hname, hshort, husable⟩ => ⟨hname, hshort, husable⟩,
      fun ⟨hname, hshort, husable⟩ => ⟨hname, hshort, husable⟩⟩

/-- The path leads to a directory at a place, and files of some names may be written and removed
there. -/
structure Takes (files : FileSystem) (cwd : Location) (directory : Path) (place : Location)
    (names : List String) : Prop where
  found : ∃ mode, files.find cwd directory = .ok (place, .directory mode) ∧
    mode.isWritable = true ∧ mode.isExecutable = true
  isOpen : ∀ name ∈ names, files.isOpen (place ++ [name]) = true
  not_below : ∀ name ∈ names, (place ++ [name]).isPrefixOf cwd = false

/-- The permission bits of a file that is written at a location. -/
def modeFor (files : FileSystem) (place : Location) : Except FileError Mode :=
  match files.get? place with
  | some (.file old _) => if old.isWritable then .ok old.afterWriting else .error .permissionDenied
  | _ => .ok Mode.newFile

theorem AgreeBut.modeFor_eq (h : AgreeBut hidden files other) (place : Location) :
    other.modeFor place = files.modeFor place := by
  rw [modeFor, modeFor]
  rcases h place with heq | ⟨-, mode, content, content', hnode, hnode'⟩
  · rw [heq]
  · rw [hnode, hnode']

/-- A directory is found in a file system with more nodes. -/
theorem Extends.find_directory (h : files.Extends other) {path : Path}
    (hfind : files.find cwd path = .ok (place, .directory mode)) :
    other.find cwd path = .ok (place, .directory mode) := by
  obtain ⟨later, hlike, hlater⟩ := h.resolve (find_eq_ok_iff.mp hfind)
  cases later with
  | directory mode' =>
    obtain rfl := hlike
    exact find_eq_ok_iff.mpr hlater
  | file | link => cases hlike

theorem AgreeBut.isOpen_eq (h : AgreeBut hidden files other) (place : Location) :
    other.isOpen place = files.isOpen place := by
  rw [FileSystem.isOpen, FileSystem.isOpen]
  rcases h place with heq | ⟨-, mode, content, content', hnode, hnode'⟩
  · rw [heq]
  · rw [hnode, hnode']

namespace Takes

variable {names : List String}

theorem of_agreeBut (h : files.Takes cwd directory place names) (hagree : AgreeBut hidden files other) :
    other.Takes cwd directory place names where
  found := by
    obtain ⟨mode, hfind, hmode⟩ := h.found
    exact ⟨mode, hagree.toExtends.find_directory hfind, hmode⟩
  isOpen name hname := (hagree.isOpen_eq _).trans (h.isOpen name hname)
  not_below := h.not_below

theorem mono {fewer : List String} (h : files.Takes cwd directory place names)
    (hfewer : fewer ⊆ names) : files.Takes cwd directory place fewer where
  found := h.found
  isOpen name hname := h.isOpen name (hfewer hname)
  not_below name hname := h.not_below name (hfewer hname)

theorem isChangeable (h : files.Takes cwd directory place names) (name : String) :
    files.isChangeable (place ++ [name]).dropLast = true := by
  obtain ⟨mode, hfind, hwritable, hexecutable⟩ := h.found
  rw [List.dropLast_concat, FileSystem.isChangeable, get?_of_find hfind]
  simp [hwritable, hexecutable]

theorem resolve_div (h : files.Takes cwd directory place names) (hmem : name ∈ names)
    (hentry : IsEntry directory name) (last : LastName) :
    files.resolve cwd last (directory / name) = .ok (files.targetAt (place ++ [name])) := by
  obtain ⟨mode, hfind, -, hexecutable⟩ := h.found
  refine FileSystem.resolve_div hentry.isName hentry.usable hentry.short hfind hexecutable ?_
  intro path hlink
  have hopen := h.isOpen name hmem
  rw [FileSystem.isOpen, hlink] at hopen
  cases hopen

/-- Writing a file puts it into the directory, if the file that it replaces permits that. -/
theorem overwrite_div (h : files.Takes cwd directory place names) (hmem : name ∈ names)
    (hentry : IsEntry directory name) (content : Content) :
    files.overwrite cwd (directory / name) content none =
      (files.modeFor (place ++ [name])).map fun bits =>
        files.put (place ++ [name]) (.file bits content) := by
  rw [overwrite, h.resolve_div hmem hentry, targetAt, modeFor]
  rcases isOpen_iff.mp (h.isOpen name hmem) with hnone | ⟨old, content', hfile⟩
  · rw [hnone]
    simp only [create, h.isChangeable, if_true, Option.map_none, Option.getD_none, Except.map]
  · rw [hfile]
    simp only [Option.map_none, Option.getD_none]
    split <;> rfl

/-- Setting permission bits is a matter of the file, if there is one. -/
theorem setMode_div (h : files.Takes cwd directory place names) (hmem : name ∈ names)
    (hentry : IsEntry directory name) (mode : Mode) :
    (files.get? (place ++ [name]) = none ∧
      files.setMode cwd (directory / name) mode = .error .notFound) ∨
    ∃ old content, files.get? (place ++ [name]) = some (.file old content) ∧
      files.setMode cwd (directory / name) mode =
        .ok (files.put (place ++ [name]) (.file mode content)) := by
  rcases isOpen_iff.mp (h.isOpen name hmem) with hnone | ⟨old, content, hfile⟩
  · refine .inl ⟨hnone, ?_⟩
    rw [setMode, find, h.resolve_div hmem hentry, targetAt, hnone]
  · refine .inr ⟨old, content, hfile, ?_⟩
    rw [setMode, find, h.resolve_div hmem hentry, targetAt, hfile]

/-- Removing a file takes it out of the directory. -/
theorem removeFile_div (h : files.Takes cwd directory place names) (hmem : name ∈ names)
    (hentry : IsEntry directory name) :
    files.removeFile cwd (directory / name) =
      if (files.get? (place ++ [name])).isSome then .ok (files.eraseTree (place ++ [name]))
      else .error .notFound := by
  rw [removeFile, h.resolve_div hmem hentry, targetAt]
  rcases isOpen_iff.mp (h.isOpen name hmem) with hnone | ⟨old, content', hfile⟩
  · rw [hnone]
    rfl
  · rw [hfile]
    simp only [discardNode, h.isChangeable, if_true, Option.isSome_some]

/-- A directory takes files after a file has been put where there was none, or another one. -/
theorem put (h : files.Takes cwd directory place names) {there : Location}
    (hopen : files.isOpen there = true) (mode : Mode) (content : Content) :
    (files.put there (.file mode content)).Takes cwd directory place names where
  found := by
    obtain ⟨bits, hfind, hbits⟩ := h.found
    have hextends : files.Extends (files.put there (.file mode content)) := by
      refine extends_put fun old hold => ?_
      rcases isOpen_iff.mp hopen with hnone | ⟨_, _, hfile⟩
      · rw [hnone] at hold
        cases hold
      · obtain rfl := Option.some.inj (hfile.symm.trans hold)
        trivial
    exact ⟨bits, hextends.find_directory hfind, hbits⟩
  isOpen other hother := by
    rw [isOpen_iff, get?_put]
    split
    · exact .inr ⟨mode, content, rfl⟩
    · exact isOpen_iff.mp (h.isOpen other hother)
  not_below := h.not_below

/-- A directory takes files after one has been removed from it. -/
theorem eraseTree (h : files.Takes cwd directory place names) (hmem : name ∈ names) :
    (files.eraseTree (place ++ [name])).Takes cwd directory place names where
  found := by
    obtain ⟨mode, hfind, hmode⟩ := h.found
    exact ⟨mode, find_eraseTree (h.isOpen name hmem) (by simp) (h.not_below name hmem) hfind, hmode⟩
  isOpen other hother := by
    rw [isOpen_iff, get?_eraseTree]
    split
    · exact .inl rfl
    · exact isOpen_iff.mp (h.isOpen other hother)
  not_below := h.not_below

end Takes

/-! ### Directories that accept a file -/

/-- A file that is written under a name in a directory is put into the directory, and it can be
removed from there: the name is not the name of a link, and the entries of the directory can be
changed if it is the name of a file. In a tree of files the working directory is not below a file.
-/
def accepts (files : FileSystem) (cwd : Location) (directory : Path) (name : String) : Bool :=
  match files.find cwd directory with
  | .ok (place, .directory mode) =>
    match files.get? (place ++ [name]) with
    | some (.link _) => false
    | some (.directory _) => true
    | some (.file ..) => mode.isWritable && !(place ++ [name]).isPrefixOf cwd
    | none => !(place ++ [name]).isPrefixOf cwd
  | _ => true

theorem exists_resolve_eq_error {path : Path} (h : ¬path.IsUsable) :
    ∃ error, ∀ (files : FileSystem) (cwd : Location) (last : LastName),
      files.resolve cwd last path = .error error := by
  by_cases hnull : '\x00' ∈ path.text.toList
  · exact ⟨.nullInPath, fun _ _ _ => by rw [resolve, if_pos hnull]⟩
  · by_cases hempty : path.isEmpty
    · exact ⟨.notFound, fun _ _ _ => by rw [resolve, if_neg hnull, if_pos hempty]⟩
    · refine ⟨.nameTooLong, fun _ _ _ => ?_⟩
      have hlong : maxPathBytes < path.text.utf8ByteSize := by
        by_contra hlong
        exact h ⟨hnull, by simpa using hempty, Nat.le_of_not_lt hlong⟩
      rw [resolve, if_neg hnull, if_neg hempty, if_pos hlong]

theorem overwrite_eq_error {path : Path} {error : FileError}
    (h : files.resolve cwd .created path = .error error) (content : Content) (mode : Option Mode) :
    files.overwrite cwd path content mode = .error error := by
  rw [overwrite, h]

/-- A file cannot be written in a directory that accepts it, unless the directory takes files. -/
theorem exists_takes_of_accepts (hname : Path.IsName name) (hshort : name.utf8ByteSize ≤ maxNameBytes)
    (hdirectory : directory.isEmpty = false) (h : files.accepts cwd directory name = true) :
    (∃ error, ∀ content, files.overwrite cwd (directory / name) content none = .error error) ∨
      ∃ place, files.Takes cwd directory place [] := by
  cases hresolve : files.resolve cwd .created (directory / name) with
  | error error => exact .inl ⟨error, fun _ => overwrite_eq_error hresolve _ _⟩
  | ok target =>
    obtain ⟨husable, -⟩ := resolve_eq_ok_iff.mp hresolve
    obtain ⟨place, mode, hfind, hexecutable, -⟩ := exists_of_resolve_div hname hdirectory hresolve
    cases hwritable : mode.isWritable with
    | true => exact .inr ⟨place, ⟨mode, hfind, hwritable, hexecutable⟩, by simp, by simp⟩
    | false =>
      rw [accepts, hfind] at h
      have hnode : files.get? (place ++ [name]) = none ∨
          ∃ bits, files.get? (place ++ [name]) = some (.directory bits) := by
        rcases hnode : files.get? (place ++ [name]) with _ | ⟨_ | bits | _⟩ <;>
          simp [hnode, hwritable] at h ⊢
      have hlink (path : Path) : files.get? (place ++ [name]) ≠ some (.link path) := by
        rcases hnode with hnone | ⟨bits, hnode⟩ <;> simp_all
      have htarget : files.resolve cwd .created (directory / name) =
          .ok (files.targetAt (place ++ [name])) :=
        FileSystem.resolve_div hname husable hshort hfind hexecutable hlink
      have hfixed : files.isChangeable (place ++ [name]).dropLast = false := by
        rw [List.dropLast_concat, isChangeable, get?_of_find hfind]
        simp [hwritable]
      rcases hnode with hnone | ⟨bits, hnode⟩
      · refine .inl ⟨.permissionDenied, fun content => ?_⟩
        rw [overwrite, htarget, targetAt, hnone]
        simp only [create, hfixed, Bool.false_eq_true, if_false]
      · refine .inl ⟨.isADirectory, fun content => ?_⟩
        rw [overwrite, htarget, targetAt, hnode]

/-- A file that is to be written in a directory that takes files and accepts it cannot be written at
all, or the directory takes it. -/
theorem Takes.concat {names : List String} (h : files.Takes cwd directory place names)
    (hname : Path.IsName name) (hshort : name.utf8ByteSize ≤ maxNameBytes)
    (haccepts : files.accepts cwd directory name = true) (hidden : List Location) :
    (∃ error, ∀ other, AgreeBut hidden files other → ∀ content,
      other.overwrite cwd (directory / name) content none = .error error) ∨
      IsEntry directory name ∧ files.Takes cwd directory place (names ++ [name]) := by
  by_cases husable : (directory / name).IsUsable
  · obtain ⟨mode, hfind, hwritable, hexecutable⟩ := h.found
    have hentry : IsEntry directory name := ⟨hname, hshort, husable⟩
    have htakes (hopen : files.isOpen (place ++ [name]) = true)
        (hbelow : (place ++ [name]).isPrefixOf cwd = false) :
        files.Takes cwd directory place (names ++ [name]) := by
      refine ⟨h.found, ?_, ?_⟩
      · simpa [or_imp, forall_and] using ⟨h.isOpen, hopen⟩
      · simpa [or_imp, forall_and] using ⟨h.not_below, hbelow⟩
    rw [accepts, hfind] at haccepts
    rcases hnode : files.get? (place ++ [name]) with _ | ⟨_ | bits | _⟩
    · exact .inr ⟨hentry, htakes (isOpen_iff.mpr (.inl hnode)) (by simpa [hnode] using haccepts)⟩
    · refine .inr ⟨hentry, htakes (isOpen_iff.mpr (.inr ⟨_, _, hnode⟩)) ?_⟩
      simpa [hnode, hwritable] using haccepts
    · refine .inl ⟨.isADirectory, fun other hagree content => ?_⟩
      have hother : other.get? (place ++ [name]) = some (.directory bits) := by
        rcases hagree (place ++ [name]) with heq | ⟨-, _, _, _, hfile, -⟩
        · exact heq.symm.trans hnode
        · rw [hnode] at hfile
          cases hfile
      rw [overwrite, FileSystem.resolve_div hname husable hshort
        (hagree.toExtends.find_directory hfind) hexecutable (by simp [hother]), targetAt, hother]
    · simp [hnode] at haccepts
  · obtain ⟨error, herror⟩ := exists_resolve_eq_error husable
    exact .inl ⟨error, fun _ _ content => overwrite_eq_error (herror _ _ _) content none⟩

/-! ### Two file systems -/

/-- The files agree but for the contents of files of some names in a directory, which takes them. -/
structure AgreeIn (cwd : Location) (directory : Path) (place : Location) (names : List String)
    (files other : FileSystem) : Prop where
  takes : files.Takes cwd directory place names
  agree : AgreeBut (names.map fun name => place ++ [name]) files other

namespace AgreeIn

variable {names : List String}

theorem takes_other (h : AgreeIn cwd directory place names files other) :
    other.Takes cwd directory place names :=
  h.takes.of_agreeBut h.agree

theorem map_concat (place : Location) (names : List String) (name : String) :
    (names ++ [name]).map (fun name => place ++ [name]) =
      names.map (fun name => place ++ [name]) ++ [place ++ [name]] := by
  rw [List.map_append, List.map_singleton]

/-- A file that is written in a directory that takes it hides its content. -/
theorem write (h : AgreeIn cwd directory place names files other)
    (htakes : files.Takes cwd directory place (names ++ [name])) (hentry : IsEntry directory name)
    (content content' : Content) :
    ((FileOperation.write (directory / name) content).run cwd files).1 =
        ((FileOperation.write (directory / name) content').run cwd other).1 ∧
      AgreeIn cwd directory place (names ++ [name])
        ((FileOperation.write (directory / name) content).run cwd files).2
        ((FileOperation.write (directory / name) content').run cwd other).2 := by
  have hmem : name ∈ names ++ [name] := List.mem_concat_self
  have hwrite := htakes.overwrite_div hmem hentry content
  have hwrite' := (htakes.of_agreeBut h.agree).overwrite_div hmem hentry content'
  rw [h.agree.modeFor_eq] at hwrite'
  simp only [FileOperation.run, hwrite, hwrite']
  cases files.modeFor (place ++ [name]) with
  | error error =>
    refine ⟨rfl, htakes, ?_⟩
    rw [map_concat]
    exact h.agree.mono (List.subset_append_left _ _)
  | ok bits =>
    refine ⟨rfl, htakes.put (htakes.isOpen name hmem) _ _, ?_⟩
    rw [map_concat]
    exact h.agree.put _ _ _ _

/-- Permission bits are the same for hidden contents. -/
theorem setMode (h : AgreeIn cwd directory place names files other) (hmem : name ∈ names)
    (hentry : IsEntry directory name) (mode : Mode) :
    ((FileOperation.setMode (directory / name) mode).run cwd files).1 =
        ((FileOperation.setMode (directory / name) mode).run cwd other).1 ∧
      AgreeIn cwd directory place names
        ((FileOperation.setMode (directory / name) mode).run cwd files).2
        ((FileOperation.setMode (directory / name) mode).run cwd other).2 := by
  have hplace : place ++ [name] ∈ names.map fun name => place ++ [name] :=
    List.mem_map_of_mem hmem
  rcases h.takes.setMode_div hmem hentry mode with ⟨hnone, hset⟩ | ⟨_, content, hfile, hset⟩ <;>
    rcases h.takes_other.setMode_div hmem hentry mode with
      ⟨hnone', hset'⟩ | ⟨_, content', hfile', hset'⟩
  · simp only [FileOperation.run, hset, hset']
    exact ⟨rfl, h⟩
  · rcases h.agree (place ++ [name]) with heq | ⟨-, _, _, _, hsome, -⟩ <;> simp_all
  · rcases h.agree (place ++ [name]) with heq | ⟨-, _, _, _, -, hsome⟩ <;> simp_all
  · simp only [FileOperation.run, hset, hset']
    refine ⟨rfl, h.takes.put (h.takes.isOpen name hmem) _ _, (h.agree.put _ _ _ _).mono ?_⟩
    exact List.append_subset.mpr ⟨List.Subset.refl _, List.cons_subset.mpr ⟨hplace, List.nil_subset _⟩⟩

/-- A file that is removed hides nothing. -/
theorem remove (h : AgreeIn cwd directory place (name :: names) files other)
    (hentry : IsEntry directory name) :
    ((FileOperation.removeFile (directory / name)).run cwd files).1 =
        ((FileOperation.removeFile (directory / name)).run cwd other).1 ∧
      AgreeIn cwd directory place names
        ((FileOperation.removeFile (directory / name)).run cwd files).2
        ((FileOperation.removeFile (directory / name)).run cwd other).2 := by
  have hmem : name ∈ name :: names := List.mem_cons_self
  obtain ⟨htakes, hagree⟩ := h
  have hremove := htakes.removeFile_div hmem hentry
  have hremove' := (htakes.of_agreeBut hagree).removeFile_div hmem hentry
  have hsome : (other.get? (place ++ [name])).isSome = (files.get? (place ++ [name])).isSome := by
    rcases hagree (place ++ [name]) with heq | ⟨-, _, _, _, hfile, hfile'⟩
    · rw [heq]
    · rw [hfile, hfile']
      rfl
  rw [hsome] at hremove'
  cases hexists : (files.get? (place ++ [name])).isSome with
  | false =>
    simp only [hexists, Bool.false_eq_true, if_false] at hremove hremove'
    simp only [FileOperation.run, hremove, hremove']
    refine ⟨rfl, htakes.mono (List.subset_cons_self _ _), hagree.of_none ?_⟩
    exact Option.not_isSome_iff_eq_none.mp (Bool.eq_false_iff.mp hexists)
  | true =>
    simp only [hexists, if_true] at hremove hremove'
    simp only [FileOperation.run, hremove, hremove']
    exact ⟨rfl, (htakes.eraseTree hmem).mono (List.subset_cons_self _ _), hagree.eraseTree⟩

end AgreeIn

/-- The files agree but for the contents of files of some names in a directory, which takes them or
has lost them. -/
def AgreeOutside (cwd : Location) (directory : Path) (place : Location) (names : List String)
    (files other : FileSystem) : Prop :=
  AgreeIn cwd directory place names files other ∨
    files = other ∧ ∀ name ∈ names, files.get? (place ++ [name]) = none

/-- When a file is removed there is nothing new elsewhere. -/
theorem get?_removeFile {path : Path} (hnone : files.get? place = none) :
    ((FileOperation.removeFile path).run cwd files).2.get? place = none := by
  rw [FileOperation.run]
  cases hremove : files.removeFile cwd path with
  | error error => exact hnone
  | ok changed =>
    have herase : ∃ there, changed = files.eraseTree there := by
      rw [removeFile] at hremove
      split at hremove
      · split at hremove <;> cases hremove
      · rw [discardNode] at hremove
        split at hremove
        · cases hremove
          exact ⟨_, rfl⟩
        · cases hremove
      · cases hremove
      · cases hremove
    obtain ⟨there, rfl⟩ := herase
    rw [FileOperation.settle, get?_eraseTree, hnone, ite_self]

namespace AgreeOutside

variable {names : List String}

/-- Where no file hides its contents the files are the same. -/
theorem eq (h : AgreeOutside cwd directory place [] files other) : files = other :=
  h.elim (fun hagree => hagree.agree.eq_of_forall_none (List.forall_mem_nil _)) And.left

/-- A file that is removed hides nothing, whether it was there or not. -/
theorem remove (h : AgreeOutside cwd directory place (name :: names) files other)
    (hentry : IsEntry directory name) :
    ((FileOperation.removeFile (directory / name)).run cwd files).1 =
        ((FileOperation.removeFile (directory / name)).run cwd other).1 ∧
      AgreeOutside cwd directory place names
        ((FileOperation.removeFile (directory / name)).run cwd files).2
        ((FileOperation.removeFile (directory / name)).run cwd other).2 := by
  rcases h with hagree | ⟨rfl, hnone⟩
  · obtain ⟨hanswer, hlater⟩ := hagree.remove hentry
    exact ⟨hanswer, .inl hlater⟩
  · refine ⟨rfl, .inr ⟨rfl, fun other hother => get?_removeFile ?_⟩⟩
    exact hnone other (List.mem_cons_of_mem _ hother)

/-- Where a file has been removed there is nothing. -/
theorem get?_remove (h : AgreeOutside cwd directory place (name :: names) files other)
    (hentry : IsEntry directory name) :
    ((FileOperation.removeFile (directory / name)).run cwd files).2.get? (place ++ [name]) =
      none := by
  rcases h with ⟨htakes, -⟩ | ⟨-, hnone⟩
  · simp only [FileOperation.run, htakes.removeFile_div List.mem_cons_self hentry]
    split
    · rw [FileOperation.settle, get?_eraseTree, if_pos (by simp)]
    · exact Option.not_isSome_iff_eq_none.mp ‹_›
  · exact get?_removeFile (hnone name List.mem_cons_self)

end AgreeOutside

end SketchApk.FileSystem
