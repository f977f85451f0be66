import SketchApk.Proofs.File.Touch

/-!
# Places that paths lead to

A path leads to a place by the links that it meets. So as long as there are the same links, a path
that leads anywhere leads to the same place as before, whatever has become of the files. Below a
directory without links a path leads where its text says, if it leads anywhere.

## Main definitions

* `FileSystem.SameLinks` : two file systems have the same links.
* `FileSystem.LinkFree`, `FileSystem.LinkFreeAlong` : there are no links at or below a place, or on
  the way from there along some names.
* `FileSystem.HasDirectory` : a path leads to the directory at a place.
* `FileSystem.WellNamed` : locations consist of the names of entries.

## Main statements

* `FileSystem.SameLinks.place_eq` : with the same links, names lead to the same place.
* `FileSystem.LinkFreeAlong.place_eq` : on a way without links, names lead where they say.
* `FileSystem.exists_of_resolve_within` : where a path leads that lies within another one.
* `FileSystem.HasDirectory.resolve_div` : where the path of an entry leads that is no link.
* `FileSystem.HasDirectory.resolve_eq_notFound` : a path on whose way there is nothing.
* `FileSystem.wellNamed_run` : operations make no other locations.
-/

namespace SketchApk

namespace FileSystem

variable {files other third : FileSystem} {last last' : LastName} {links links' : Nat}
  {asDirectory wants : Bool} {place next there : Location} {name : String}
  {names rest rest' : List String} {target target' : Target} {cwd : Location} {path base whole : Path}

/-! ### Single names -/

/-- What leads onward is one or two dots, or the name of a directory. -/
theorem cases_of_pass_onward (h : files.pass last asDirectory place name rest = .onward next) :
    (name = "." ∧ next = place) ∨ (name = ".." ∧ next = place.dropLast) ∨
      (name ≠ "." ∧ name ≠ ".." ∧ next = place ++ [name] ∧
        ∃ mode, files.get? (place ++ [name]) = some (.directory mode)) := by
  rw [pass] at h
  split_ifs at h with hsearch hdot hdots
  · exact .inl ⟨hdot, by cases h; rfl⟩
  · exact .inr (.inl ⟨hdots, by cases h; rfl⟩)
  · exact .inr (.inr ⟨hdot, hdots, arrive_eq_onward_iff.mp h⟩)

/-- What is followed as a link is the name of a link. -/
theorem of_pass_linked (h : files.pass last asDirectory place name rest = .linked path) :
    name ≠ "." ∧ name ≠ ".." ∧ files.get? (place ++ [name]) = some (.link path) := by
  rw [pass] at h
  split_ifs at h with hsearch hdot hdots
  exact ⟨hdot, hdots, arrive_eq_linked h⟩

/-- Where a name leads on to is a matter of the name. -/
theorem eq_of_pass_onward (h : files.pass last asDirectory place name rest = .onward next) :
    next = if name = "." then place else if name = ".." then place.dropLast else place ++ [name] := by
  rcases cases_of_pass_onward h with ⟨rfl, rfl⟩ | ⟨rfl, rfl⟩ | ⟨hdot, hdots, rfl, -⟩
  · rw [if_pos rfl]
  · rw [if_neg (by decide), if_pos rfl]
  · rw [if_neg hdot, if_neg hdots]

/-- A name at which a path may end leads on to the directory of this name. -/
theorem eq_concat_of_pass_onward (h : files.pass last asDirectory place name rest = .onward next)
    (h' : other.pass last' wants place name rest' = .ended target) :
    next = place ++ [name] ∧ target.place = place ++ [name] := by
  obtain ⟨hadmits, -, -⟩ := pass_eq_ended_iff.mp h'
  refine ⟨?_, (get?_of_pass h').1⟩
  rcases cases_of_pass_onward h with ⟨hname, -⟩ | ⟨hname, -⟩ | ⟨-, -, hnext, -⟩
  · exact absurd hname hadmits.ne_dot
  · exact absurd hname hadmits.ne_dots
  · exact hnext

/-! ### Links -/

/-- Two file systems have the same links. -/
def SameLinks (files other : FileSystem) : Prop :=
  ∀ place path, files.get? place = some (.link path) ↔ other.get? place = some (.link path)

/-- There are no links at or below a place. -/
def LinkFree (files : FileSystem) (place : Location) : Prop :=
  ∀ rest path, files.get? (place ++ rest) ≠ some (.link path)

/-- There are no links on the way from a place along some names. -/
def LinkFreeAlong (files : FileSystem) (place : Location) (names : List String) : Prop :=
  ∀ front path, front ≠ [] → front <+: names → files.get? (place ++ front) ≠ some (.link path)

theorem LinkFree.along (h : files.LinkFree place) (names : List String) :
    files.LinkFreeAlong place names :=
  fun front path _ _ => h front path

theorem LinkFree.along_cons (h : files.LinkFree (place ++ [name])) (names : List String) :
    files.LinkFreeAlong place (name :: names) := by
  intro front path hne hfront
  obtain ⟨first, rest, rfl⟩ := List.exists_cons_of_ne_nil hne
  obtain rfl : first = name := (List.cons_prefix_cons.mp hfront).1
  rw [List.append_cons]
  exact h rest path

/-- On the way to a file there are directories. -/
theorem IsTree.linkFreeAlong {content : Content} (h : files.IsTree)
    (hfile : files.contentAt (place ++ names) = some content) : files.LinkFreeAlong place names := by
  rintro front path - ⟨rest, rfl⟩ hlink
  obtain ⟨mode, hnode⟩ := contentAt_eq_some_iff.mp hfile
  rw [← List.append_assoc] at hnode
  rcases List.eq_nil_or_concat rest with rfl | ⟨behind, last, rfl⟩
  · rw [List.append_nil, hlink] at hnode
    cases hnode
  · obtain ⟨mode, hmode⟩ := h.exists_directory (by simp) hnode
    cases hlink.symm.trans hmode

theorem LinkFreeAlong.of_cons (h : files.LinkFreeAlong place (name :: names)) :
    files.LinkFreeAlong (place ++ [name]) names := by
  intro front path _ hfront
  rw [List.append_assoc]
  exact h _ path (List.cons_ne_nil _ _) (List.cons_prefix_cons.mpr ⟨rfl, hfront⟩)

/-- Names that do not lead upwards lead where they say when there are no links on the way. -/
theorem LinkFreeAlong.place_eq (h : files.LinkFreeAlong place (names.filter (· ≠ ".")))
    (hleads : files.Leads last links asDirectory place names target) (hup : ".." ∉ names) :
    target.place = place ++ names.filter (· ≠ ".") := by
  induction hleads with
  | here => simp [Target.place]
  | @onward links asDirectory place name rest next target hpass hrest ih =>
    rcases cases_of_pass_onward hpass with ⟨rfl, rfl⟩ | ⟨rfl, rfl⟩ | ⟨hdot, hdots, rfl, -⟩
    · simpa using ih (by simpa using h) (fun hmem => hup (List.mem_cons_of_mem _ hmem))
    · exact absurd List.mem_cons_self hup
    · rw [List.filter_cons_of_pos (by simpa using hdot)] at h ⊢
      rw [ih h.of_cons fun hmem => hup (List.mem_cons_of_mem _ hmem), List.append_assoc,
        List.singleton_append]
  | @ended links asDirectory place name rest target hpass =>
    obtain ⟨hplace, -, hnil⟩ := get?_of_pass hpass
    obtain rfl : rest = [] := List.isEmpty_iff.mp hnil
    have hdot : name ≠ "." := (pass_eq_ended_iff.mp hpass).1.ne_dot
    rw [hplace, List.filter_cons_of_pos (by simpa using hdot), List.filter_nil]
  | @linked links asDirectory place name rest path target hpass =>
    obtain ⟨hdot, -, hlink⟩ := of_pass_linked hpass
    rw [List.filter_cons_of_pos (by simpa using hdot)] at h
    refine absurd hlink (h [name] path (List.cons_ne_nil _ _) ?_)
    exact List.cons_prefix_cons.mpr ⟨rfl, List.nil_prefix⟩

namespace SameLinks

theorem refl (files : FileSystem) : files.SameLinks files :=
  fun _ _ => Iff.rfl

theorem symm (h : files.SameLinks other) : other.SameLinks files :=
  fun place path => (h place path).symm

theorem trans (h : files.SameLinks other) (h' : other.SameLinks third) : files.SameLinks third :=
  fun place path => (h place path).trans (h' place path)

theorem linkFree (h : files.SameLinks other) (hfree : files.LinkFree place) :
    other.LinkFree place :=
  fun rest path hlink => hfree rest path ((h _ path).mpr hlink)

theorem linkFreeAlong (h : files.SameLinks other) (hfree : files.LinkFreeAlong place names) :
    other.LinkFreeAlong place names :=
  fun front path hne hfront hlink => hfree front path hne hfront ((h _ path).mpr hlink)

/-- A name that leads on is not the name of a link in files with the same links. -/
theorem not_linked_of_onward (h : files.SameLinks other)
    (hpass : files.pass last asDirectory place name rest = .onward next) :
    other.pass last' wants place name rest' ≠ .linked path := by
  intro hpass'
  obtain ⟨hdot, hdots, hlink⟩ := of_pass_linked hpass'
  rcases cases_of_pass_onward hpass with ⟨hname, -⟩ | ⟨hname, -⟩ | ⟨-, -, -, mode, hmode⟩
  · exact hdot hname
  · exact hdots hname
  · cases hmode.symm.trans ((h _ _).mpr hlink)

/-- A name at which a path ends is that of the link at its end in files with the same links. -/
theorem node?_of_linked (h : files.SameLinks other)
    (hpass : files.pass last asDirectory place name rest = .ended target)
    (hpass' : other.pass last' wants place name rest' = .linked path) :
    target.node? = some (.link path) :=
  (get?_of_pass hpass).2.1.symm.trans ((h _ _).mpr (of_pass_linked hpass').2.2)

/-- With the same links, names that lead somewhere other than to a link lead to the same place. -/
theorem place_eq (h : files.SameLinks other)
    (hleads : files.Leads last links asDirectory place names target)
    (hleads' : other.Leads last' links' wants place names target')
    (hnode : ∀ path, target.node? ≠ some (.link path))
    (hnode' : ∀ path, target'.node? ≠ some (.link path)) : target'.place = target.place := by
  induction hleads generalizing links' wants with
  | here =>
    cases hleads'
    rfl
  | @onward links asDirectory place name rest next target hpass hrest ih =>
    cases hleads' with
    | onward hpass' hrest' =>
      obtain rfl := (eq_of_pass_onward hpass').trans (eq_of_pass_onward hpass).symm
      exact ih hrest' hnode
    | ended hpass' =>
      obtain ⟨rfl, hplace⟩ := eq_concat_of_pass_onward hpass hpass'
      obtain rfl : rest = [] := List.isEmpty_iff.mp (get?_of_pass hpass').2.2
      cases hrest
      exact hplace
    | linked hpass' => exact absurd hpass' (h.not_linked_of_onward hpass)
  | @ended links asDirectory place name rest target hpass =>
    cases hleads' with
    | onward hpass' hrest' =>
      obtain ⟨rfl, hplace⟩ := eq_concat_of_pass_onward hpass' hpass
      obtain rfl : rest = [] := List.isEmpty_iff.mp (get?_of_pass hpass).2.2
      cases hrest'
      exact hplace.symm
    | ended hpass' => exact (get?_of_pass hpass').1.trans (get?_of_pass hpass).1.symm
    | linked hpass' => exact absurd (h.node?_of_linked hpass hpass') (hnode _)
  | @linked links asDirectory place name rest path target hpass hrest ih =>
    cases hleads' with
    | onward hpass' hrest' => exact absurd hpass (h.symm.not_linked_of_onward hpass')
    | ended hpass' => exact absurd (h.symm.node?_of_linked hpass' hpass) (hnode' _)
    | linked hpass' hrest' =>
      cases (of_pass_linked hpass').2.2.symm.trans ((h _ _).mp (of_pass_linked hpass).2.2)
      exact ih hrest' hnode

end SameLinks

/-! ### Directories -/

/-- A path leads to the directory at a place. -/
def HasDirectory (files : FileSystem) (cwd : Location) (path : Path) (place : Location) : Prop :=
  ∃ wants mode, files.Leads .followed maxLinks wants (path.start cwd) path.names
    (.existing place (.directory mode))

/-- Names that lead to a directory lead there also when they do not say that it is one. -/
theorem Leads.of_directory {mode : Mode}
    (h : files.Leads .followed links asDirectory place names (.existing there (.directory mode)))
    (wants : Bool) :
    files.Leads .followed links wants place names (.existing there (.directory mode)) := by
  generalize htarget : Target.existing there (.directory mode) = target at h ⊢
  induction h generalizing wants with
  | here hnode => exact .here hnode
  | onward hpass hrest ih => exact .onward (pass_of_onward hpass (by simp)) (ih wants htarget)
  | ended hpass =>
    subst htarget
    obtain ⟨-, -, harrive⟩ := pass_eq_ended_iff.mp hpass
    obtain ⟨-, hnode, -⟩ := get?_of_pass hpass
    rw [arrive, hnode] at harrive
    cases harrive
  | linked hpass hrest ih =>
    exact .linked (pass_of_linked hpass (by simp) (by simp)) (ih _ htarget)

namespace HasDirectory

theorem get?_place (h : files.HasDirectory cwd path place) :
    ∃ mode, files.get? place = some (.directory mode) := by
  obtain ⟨_, mode, hleads⟩ := h
  exact ⟨mode, hleads.get?_place⟩

theorem of_find {mode : Mode} (h : files.find cwd path = .ok (place, .directory mode)) :
    files.HasDirectory cwd path place :=
  ⟨_, mode, (resolve_eq_ok_iff.mp (find_eq_ok_iff.mp h)).2⟩

theorem find {mode : Mode} (h : files.HasDirectory cwd path place) (husable : path.IsUsable)
    (hmode : files.get? place = some (.directory mode)) :
    files.find cwd path = .ok (place, .directory mode) := by
  obtain ⟨_, bits, hleads⟩ := h
  cases hleads.get?_place.symm.trans hmode
  exact find_eq_ok_iff.mpr (resolve_eq_ok_iff.mpr ⟨husable, hleads.of_directory _⟩)

/-- Whatever is added, the path leads to the directory. -/
theorem keeps (h : files.HasDirectory cwd path place) (hkeeps : files.Keeps other) :
    other.HasDirectory cwd path place := by
  obtain ⟨wants, mode, hleads⟩ := h
  obtain ⟨later, -, hlater⟩ := hkeeps.toExtends.leads hleads
  have hmode := hkeeps _ _ hleads.get?_place
  cases hmode.symm.trans hlater.get?_place
  exact ⟨wants, mode, hlater⟩

/-- With the same links, a path leads to the same directory if it leads to one. -/
theorem eq_of_sameLinks (h : files.HasDirectory cwd path place) (hlinks : files.SameLinks other)
    (h' : other.HasDirectory cwd path there) : there = place := by
  obtain ⟨_, _, hleads⟩ := h
  obtain ⟨_, _, hleads'⟩ := h'
  exact hlinks.place_eq hleads hleads' (by simp [Target.node?]) (by simp [Target.node?])

/-- On the way to a directory there are directories. -/
theorem exists_of_isOnWay (h : files.HasDirectory cwd path place) (hway : base.IsOnWay path) :
    ∃ there, files.HasDirectory cwd base there := by
  obtain ⟨wants, mode, hleads⟩ := h
  obtain ⟨rest, hnames⟩ := hway.prefix_names
  rw [← hnames, ← hway.start_eq] at hleads
  cases rest with
  | nil =>
    rw [List.append_nil] at hleads
    exact ⟨place, wants, mode, hleads⟩
  | cons name rest =>
    obtain ⟨there, bits, -, -, hthere, -⟩ :=
      hleads.exists_of_append (List.cons_ne_nil _ _) wants
    exact ⟨there, wants, bits, hthere⟩

/-- Where the path of an entry leads that is no link. -/
theorem resolve_div (h : files.HasDirectory cwd base place) (hname : Path.IsName name)
    (husable : (base / name).IsUsable) (hadmits : files.Admits place name)
    (hlink : ∀ path, files.get? (place ++ [name]) ≠ some (.link path)) :
    files.resolve cwd last (base / name) = .ok (files.targetAt (place ++ [name])) := by
  have hwithin : base.IsWithin (base / name) [name] := (Path.IsWithin.refl base).div hname
  obtain ⟨wants, mode, hleads⟩ := h
  rw [resolve_eq_ok_iff, hwithin.names_eq, hwithin.isAbsolute_eq, hname.wantsDirectory_div]
  exact ⟨husable, hleads.concat fun _ => leads_singleton hadmits hlink⟩

/-- A directory in a directory. -/
theorem div {mode : Mode} (h : files.HasDirectory cwd base place) (hname : Path.IsName name)
    (hadmits : files.Admits place name)
    (hnode : files.get? (place ++ [name]) = some (.directory mode)) :
    files.HasDirectory cwd (base / name) (place ++ [name]) := by
  have hwithin : base.IsWithin (base / name) [name] := (Path.IsWithin.refl base).div hname
  obtain ⟨wants, bits, hleads⟩ := h
  refine ⟨false, mode, ?_⟩
  rw [Path.start, hwithin.names_eq, hwithin.isAbsolute_eq]
  refine hleads.concat fun _ => ?_
  have hentry : files.targetAt (place ++ [name]) = .existing (place ++ [name]) (.directory mode) := by
    rw [targetAt, hnode]
  exact hentry ▸ leads_singleton hadmits (by simp [hnode])

/-- A path leads nowhere when there is nothing on its way. -/
theorem resolve_eq_notFound (h : files.HasDirectory cwd base place) (hadmits : files.Admits place name)
    (hnone : files.get? (place ++ [name]) = none) (hwithin : base.IsWithin path (name :: rest))
    (hrest : rest ≠ []) (husable : path.IsUsable) (hwants : path.wantsDirectory = false) :
    files.resolve cwd last path = .error .notFound := by
  obtain ⟨hnull, hempty, hshort⟩ := husable
  obtain ⟨wants, bits, hleads⟩ := h
  have hpass : files.pass last false place name rest = .blocked .notFound := by
    rw [pass_of_admits hadmits (by simp), arrive, hnone]
    simp [hrest]
  obtain ⟨links', hlinks'⟩ := hleads.exists_resolveNames_append (List.cons_ne_nil name rest)
  rw [resolve, if_neg hnull, hempty, if_neg Bool.false_ne_true, if_neg (Nat.not_lt.mpr hshort),
    hwants, hwithin.names_eq, hwithin.isAbsolute_eq]
  refine hlinks'.trans ?_
  cases links' <;> rw [resolveNames, descend_cons, hpass]

end HasDirectory

/-- A path that lies within another one leads to a place below the one that the other path leads
to, unless it meets links on the way from there. -/
theorem exists_of_resolve_within (hwithin : base.IsWithin path rest) (hrest : rest ≠ [])
    (h : files.resolve cwd last path = .ok target) :
    ∃ place, files.HasDirectory cwd base place ∧
      (files.LinkFreeAlong place (rest.filter (· ≠ ".")) →
        target.place = place ++ rest.filter (· ≠ ".")) := by
  obtain ⟨-, hleads⟩ := resolve_eq_ok_iff.mp h
  rw [hwithin.names_eq, hwithin.isAbsolute_eq] at hleads
  obtain ⟨place, mode, links', asDirectory', hplace, -, hlast⟩ :=
    hleads.exists_of_append hrest base.wantsDirectory
  exact ⟨place, ⟨_, mode, hplace⟩, fun hfree => hfree.place_eq hlast hwithin.not_mem⟩

/-- Where there is nothing on the way of a path within another one, the path ends before the other
one, or the place lies below the one that the other path leads to, unless there are links. -/
theorem exists_of_vacant_within (hwithin : base.IsWithin whole rest) (hway : path.IsOnWay whole)
    (h : files.resolve cwd last path = .ok (.vacant there asDirectory)) :
    path.IsOnWay base ∨ ∃ front place, front ≠ [] ∧ front <+: rest ∧
      files.HasDirectory cwd base place ∧
        (files.LinkFree place → there = place ++ front.filter (· ≠ ".")) := by
  have habsolute := hway.isAbsolute_eq.trans hwithin.isAbsolute_eq
  have hnames := hway.prefix_names
  rw [hwithin.names_eq] at hnames
  rcases List.prefix_or_prefix_of_prefix hnames (List.prefix_append _ _) with hbefore | ⟨front, hfront⟩
  · exact .inl ⟨habsolute, hbefore⟩
  · by_cases hnil : front = []
    · subst hnil
      exact .inl ⟨habsolute, by simp [← hfront]⟩
    · rw [← hfront, List.prefix_append_right_inj] at hnames
      have hpath : base.IsWithin path front :=
        ⟨habsolute, hfront.symm, fun hmem => hwithin.not_mem (hnames.subset hmem)⟩
      obtain ⟨place, hplace, hthere⟩ := exists_of_resolve_within hpath hnil h
      exact .inr ⟨front, place, hnil, hnames, hplace, fun hfree => hthere (hfree.along _)⟩

/-! ### Names of entries -/

/-- Locations consist of the names of entries. -/
def WellNamed (files : FileSystem) : Prop :=
  ∀ place node, files.get? place = some node → ∀ name ∈ place, Path.IsName name

theorem wellNamed_root : FileSystem.root.WellNamed := by
  intro place node hnode name hname
  rw [get?_root_of_ne_nil (List.ne_nil_of_mem hname)] at hnode
  cases hnode

theorem WellNamed.put (h : files.WellNamed) (hnames : ∀ name ∈ place, Path.IsName name)
    (node : Node) : (files.put place node).WellNamed := by
  intro there found hfound
  rw [get?_put] at hfound
  split at hfound
  · rename_i hsame
    exact hsame ▸ hnames
  · exact h there found hfound

/-- Paths lead to locations that consist of the names of entries. -/
theorem WellNamed.isName_of_leads (h : files.WellNamed)
    (hleads : files.Leads last links asDirectory place names target)
    (hnames : ∀ name ∈ names, '/' ∉ name.toList ∧ name ≠ "") :
    ∀ name ∈ target.place, Path.IsName name := by
  induction hleads with
  | here hnode => exact h _ _ hnode
  | onward hpass hrest ih => exact ih fun name hname => hnames name (List.mem_cons_of_mem _ hname)
  | @ended links asDirectory place name rest target hpass =>
    obtain ⟨hplace, -, -⟩ := get?_of_pass hpass
    obtain ⟨hadmits, -, -⟩ := pass_eq_ended_iff.mp hpass
    obtain ⟨mode, hmode, -⟩ := exists_of_isSearchable hadmits.searchable
    obtain ⟨hslash, hempty⟩ := hnames name List.mem_cons_self
    intro other hother
    rw [hplace, List.mem_append, List.mem_singleton] at hother
    rcases hother with hother | rfl
    · exact h _ _ hmode other hother
    · exact ⟨hslash, hempty, hadmits.ne_dot, hadmits.ne_dots⟩
  | @linked links asDirectory place name rest path target hpass hrest ih =>
    refine ih fun other hother => ?_
    rcases List.mem_append.mp hother with hother | hother
    · exact Path.of_mem_names hother
    · exact hnames other (List.mem_cons_of_mem _ hother)

theorem WellNamed.isName_of_resolve (h : files.WellNamed)
    (hresolve : files.resolve cwd last path = .ok target) :
    ∀ name ∈ target.place, Path.IsName name :=
  h.isName_of_leads (resolve_eq_ok_iff.mp hresolve).2 fun _ => Path.of_mem_names

/-- Operations that move nothing make no other locations. -/
theorem wellNamed_run {operation : FileOperation} (hstatic : operation.IsStatic)
    (h : files.WellNamed) : (operation.run cwd files).2.WellNamed := by
  intro place node hnode
  by_cases htouch : operation.Touches cwd files place
  · cases operation with
    | inspect | list | walk | read | readToExtend => cases htouch
    | rename => cases hstatic
    | write | ensureFile | copy | setMode =>
      obtain ⟨target, hresolve, rfl⟩ := htouch
      exact h.isName_of_resolve hresolve
    | makeDirectory =>
      obtain ⟨-, asDirectory, hresolve⟩ := htouch
      exact h.isName_of_resolve hresolve
    | removeFile path =>
      refine FileOperation.settle_of_forall
        (fun changed => changed.get? place = some node → ∀ name ∈ place, Path.IsName name)
        (h _ _) (fun changed hchanged hnode => ?_) hnode
      obtain ⟨there, gone, -, rfl⟩ := eq_eraseTree_of_removeFile hchanged
      exact h _ _ (Keeps.eraseTree files there _ _ hnode)
    | removeTree path => exact h _ _ (keeps_of_removeTree files cwd path _ _ hnode)
  · rw [FileOperation.get?_run htouch] at hnode
    exact h _ _ hnode

end FileSystem

end SketchApk
