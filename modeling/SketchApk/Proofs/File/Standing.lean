import SketchApk.Proofs.File.Way

/-!
# What there is under a path

Under a path there is an entry, and a link in its place leads further. Both stay what they are while
nodes are added on the way, unless one of these is what the path leads to. A file that comes into
being lies on no way, so it shows under those paths alone that lead to its place. A file that is
given another name is found under the new one, and nothing is left under the old one. A file or a
link that is removed takes no other file with it.

## Main definitions

* `FileSystem.nodeOf?` : the node to which a path leads.
* `FileSystem.standing` : the entry under a path, and what it leads to.

## Main statements

* `FileSystem.Leads.of_put_file` : a file that comes into being lies on no way.
* `FileSystem.nodeOf?_put_file` : under other paths there is what there was.
* `FileSystem.Keeps.standing_eq` : what there is while nodes are added.
* `FileSystem.exists_of_rename_file` : giving a file another name.
* `FileSystem.Vacates.contentAt_eq` : the files that stay when one is removed.
-/

namespace SketchApk

namespace FileSystem

variable {files other last changed : FileSystem} {cwd place there : Location} {base path : Path}
  {name : String} {node : Node} {target : Target} {links : Nat} {asDirectory : Bool}
  {names : List String} {lastName : LastName} {mode : Mode} {content : Content}

/-- The node to which a path leads. -/
def nodeOf? (files : FileSystem) (cwd : Location) (lastName : LastName) (path : Path) :
    Option Node :=
  (files.resolve cwd lastName path).toOption.bind Target.node?

/-- What there is under a path: its entry, and what the entry leads to if it is a link. -/
def standing (files : FileSystem) (cwd : Location) (path : Path) : Option Node × Option Node :=
  (files.nodeOf? cwd .kept path, files.nodeOf? cwd .followed path)

theorem nodeOf?_eq_some_iff : files.nodeOf? cwd lastName path = some node ↔
    ∃ place, files.resolve cwd lastName path = .ok (.existing place node) := by
  rw [nodeOf?]
  cases files.resolve cwd lastName path with
  | error error => simp [Except.toOption]
  | ok target => cases target <;> simp [Except.toOption, Target.node?]

/-- A link that leads to something is an entry. -/
theorem nodeOf?_followed_eq_none (h : files.nodeOf? cwd .kept path = none) :
    files.nodeOf? cwd .followed path = none := by
  refine Option.eq_none_iff_forall_ne_some.mpr fun node hnode => ?_
  obtain ⟨place, hresolve⟩ := nodeOf?_eq_some_iff.mp hnode
  obtain ⟨there, entry, hkept⟩ := exists_resolve_kept (find_eq_ok_iff.mpr hresolve)
  cases h.symm.trans (nodeOf?_eq_some_iff.mpr ⟨there, hkept⟩)

theorem standing_eq_none (h : files.nodeOf? cwd .kept path = none) :
    files.standing cwd path = (none, none) := by
  rw [standing, h, nodeOf?_followed_eq_none h]

/-- An entry that is no link is all that there is. -/
theorem standing_eq_of_find (h : files.resolve cwd .kept path = .ok (.existing place node))
    (hfind : files.find cwd path = .ok (place, node)) :
    files.standing cwd path = (some node, some node) := by
  rw [standing, nodeOf?_eq_some_iff.mpr ⟨place, h⟩,
    nodeOf?_eq_some_iff.mpr ⟨place, find_eq_ok_iff.mp hfind⟩]

/-! ### Entries of directories -/

/-- There is no entry of what is no directory. -/
theorem nodeOf?_div_eq_none (hname : Path.IsName name)
    (h : ∀ place, ¬files.HasDirectory cwd base place) :
    files.nodeOf? cwd lastName (base / name) = none := by
  refine Option.eq_none_iff_forall_ne_some.mpr fun node hnode => ?_
  obtain ⟨place, hresolve⟩ := nodeOf?_eq_some_iff.mp hnode
  obtain ⟨there, hthere, -⟩ := exists_of_resolve_within ((Path.IsWithin.refl base).div hname)
    (List.cons_ne_nil name []) hresolve
  exact h there hthere

/-- An entry of a directory is what there is in its place. -/
theorem HasDirectory.nodeOf?_div_eq_none (h : files.HasDirectory cwd base place)
    (hname : Path.IsName name) (hnone : files.get? (place ++ [name]) = none) :
    files.nodeOf? cwd .kept (base / name) = none := by
  refine Option.eq_none_iff_forall_ne_some.mpr fun node hnode => ?_
  obtain ⟨there, hresolve⟩ := nodeOf?_eq_some_iff.mp hnode
  have hplace : there = place ++ [name] := h.place_of_resolve_kept hname hresolve
  have hget : files.get? there = some node := get?_of_resolve hresolve
  rw [hplace, hnone] at hget
  cases hget

/-- A directory with an entry admits its name. -/
theorem HasDirectory.admits_of_resolve (h : files.HasDirectory cwd base place)
    (hname : Path.IsName name) (hresolve : files.resolve cwd lastName (base / name) = .ok target) :
    files.Admits place name := by
  have hwithin : base.IsWithin (base / name) [name] := (Path.IsWithin.refl base).div hname
  obtain ⟨-, hleads⟩ := resolve_eq_ok_iff.mp hresolve
  rw [hwithin.names_eq, hwithin.isAbsolute_eq] at hleads
  obtain ⟨there, bits, links', later, hthere, -, hlast⟩ :=
    hleads.exists_of_append (List.cons_ne_nil name []) base.wantsDirectory
  obtain rfl := h.eq_of_sameLinks (.refl files) ⟨_, bits, hthere⟩
  cases hlast with
  | onward hpass =>
    have hsearchable := isSearchable_of_pass hpass (by simp)
    rw [pass, hsearchable] at hpass
    split_ifs at hpass with hnot hdot hdots hcreated hshort
    · exact absurd hdot hname.ne_dot
    · exact absurd hdots hname.ne_dots
    · exact ⟨hsearchable, hname.ne_dot, hname.ne_dots, hshort⟩
  | ended hpass => exact (pass_eq_ended_iff.mp hpass).1
  | linked hpass => exact (admits_of_linked hpass).1

/-- Names that lead to a directory lead there from one. -/
theorem Leads.exists_start
    (h : files.Leads lastName links asDirectory place names (.existing there (.directory mode))) :
    ∃ bits, files.get? place = some (.directory bits) := by
  have hsearched (hsearchable : files.isSearchable place = true) :
      ∃ bits, files.get? place = some (.directory bits) := by
    obtain ⟨bits, hbits, -⟩ := exists_of_isSearchable hsearchable
    exact ⟨bits, hbits⟩
  cases h with
  | here hnode => exact ⟨mode, hnode⟩
  | onward hpass => exact hsearched (isSearchable_of_pass hpass (by simp))
  | ended hpass => exact hsearched (pass_eq_ended_iff.mp hpass).1.searchable
  | linked hpass => exact hsearched (admits_of_linked hpass).1.searchable

theorem HasDirectory.exists_start (h : files.HasDirectory cwd path place) :
    ∃ mode, files.get? (path.start cwd) = some (.directory mode) := by
  obtain ⟨wants, bits, hleads⟩ := h
  exact hleads.exists_start

/-! ### Adding nodes -/

theorem Keeps.nodeOf?_eq_some (h : files.Keeps other)
    (hnode : files.nodeOf? cwd lastName path = some node) :
    other.nodeOf? cwd lastName path = some node := by
  obtain ⟨place, hresolve⟩ := nodeOf?_eq_some_iff.mp hnode
  exact nodeOf?_eq_some_iff.mpr ⟨place, h.resolve hresolve⟩

/-- What there is in the end was there all the time if it was there at the beginning. -/
theorem Keeps.standing_eq (h : files.Keeps other) (h' : other.Keeps last)
    (hsame : last.standing cwd path = files.standing cwd path) :
    other.standing cwd path = files.standing cwd path := by
  have heq (lastName : LastName)
      (hsame : last.nodeOf? cwd lastName path = files.nodeOf? cwd lastName path) :
      other.nodeOf? cwd lastName path = files.nodeOf? cwd lastName path := by
    refine Option.ext fun node => ⟨fun hnode => ?_, h.nodeOf?_eq_some⟩
    rw [← hsame]
    exact h'.nodeOf?_eq_some hnode
  obtain ⟨hkept, hfollowed⟩ := Prod.mk.inj hsame
  rw [standing, standing, heq .kept hkept, heq .followed hfollowed]

/-! ### Files that come into being -/

/-- A name leads on to a directory, so never to a place at which there is none. -/
theorem IsTree.ne_of_pass_onward {next : Location} {rest : List String} (htree : files.IsTree)
    (hthere : there ≠ []) (hdirectory : ∀ bits, files.get? there ≠ some (.directory bits))
    (hplace : place ≠ there) (h : files.pass lastName asDirectory place name rest = .onward next) :
    next ≠ there := by
  rcases cases_of_pass_onward h with ⟨-, rfl⟩ | ⟨-, rfl⟩ | ⟨-, -, rfl, bits, hbits⟩
  · exact hplace
  · -- The place would be above a directory that is searched.
    intro habove
    obtain ⟨bits, hbits, -⟩ := exists_of_isSearchable (isSearchable_of_pass h (by simp))
    rcases List.eq_nil_or_concat place with rfl | ⟨front, last, rfl⟩
    · exact hthere habove.symm
    · rw [List.concat_eq_append, List.dropLast_concat] at habove
      subst habove
      rw [List.concat_eq_append] at hbits
      obtain ⟨mode, hmode⟩ := htree.exists_directory (List.cons_ne_nil last []) hbits
      exact hdirectory mode hmode
  · exact fun hsame => hdirectory bits (hsame ▸ hbits)

/-- A path that ends at a file ended there before, if there was neither a directory nor a link. -/
theorem exists_arrive_of_put_file {rest : List String}
    (hold : ∀ old, files.get? there = some old → old.IsLike (.file mode content))
    (hrest : rest.isEmpty = true)
    (h : (files.put there (.file mode content)).arrive lastName asDirectory place rest =
      .ended target) (htarget : target.place = place) :
    ∃ before, files.arrive lastName asDirectory place rest = .ended before ∧ before.place = place := by
  by_cases hplace : there = place
  · subst hplace
    rw [arrive, get?_put_self] at h
    dsimp only at h
    split_ifs at h with hlast
    cases hnode : files.get? there with
    | none => exact ⟨.vacant _ asDirectory, by rw [arrive, hnode]; exact if_pos hrest, rfl⟩
    | some old =>
      cases old with
      | file bits held => exact ⟨.existing _ _, by rw [arrive, hnode]; exact if_pos hlast, rfl⟩
      | directory | link => cases hold _ hnode
  · rw [arrive, get?_put_of_ne hplace] at h
    exact ⟨target, h, htarget⟩

/-- A file that is put where there is neither a directory nor a link lies on no way. -/
theorem Leads.of_put_file (htree : (files.put there (.file mode content)).IsTree)
    (hthere : there ≠ [])
    (hold : ∀ old, files.get? there = some old → old.IsLike (.file mode content))
    (h : (files.put there (.file mode content)).Leads lastName links asDirectory place names target)
    (hplace : place ≠ there) :
    ∃ before, files.Leads lastName links asDirectory place names before ∧
      before.place = target.place := by
  have hways : (files.put there (.file mode content)).KeepsWays files := .of_put_file
  have hdirectory (bits : Mode) :
      (files.put there (.file mode content)).get? there ≠ some (.directory bits) := by
    simp [get?_put_self]
  induction h with
  | here hnode =>
    rw [get?_put_of_ne hplace.symm] at hnode
    exact ⟨_, .here hnode, rfl⟩
  | onward hpass _ ih =>
    obtain ⟨before, hbefore, hsame⟩ := ih (htree.ne_of_pass_onward hthere hdirectory hplace hpass)
    exact ⟨before, .onward (hways.pass_eq_onward hpass) hbefore, hsame⟩
  | ended hpass =>
    obtain ⟨htarget, -, hrest⟩ := get?_of_pass hpass
    obtain ⟨hadmits, hcreated, harrive⟩ := pass_eq_ended_iff.mp hpass
    have hadmits' : files.Admits _ _ := { hadmits with
      searchable := hways.isSearchable hadmits.searchable }
    obtain ⟨before, hbefore, hsame⟩ := exists_arrive_of_put_file hold hrest harrive htarget
    exact ⟨before, .ended (pass_eq_ended_iff.mpr ⟨hadmits', hcreated, hbefore⟩),
      hsame.trans htarget.symm⟩
  | @linked links asDirectory place name rest path target hpass hrest ih =>
    have hstart : (if path.isAbsolute then [] else place) ≠ there := by
      split_ifs
      · exact hthere.symm
      · exact hplace
    obtain ⟨before, hbefore, hsame⟩ := ih hstart
    exact ⟨before, .linked (hways.pass_eq_linked hpass) hbefore, hsame⟩

/-- A file that comes into being does not show under a path that leads elsewhere. -/
theorem nodeOf?_put_file (htree : (files.put there (.file mode content)).IsTree)
    (hthere : there ≠ []) (hstart : path.start cwd ≠ there)
    (hold : ∀ old, files.get? there = some old → old.IsLike (.file mode content))
    (hne : ∀ target, files.resolve cwd lastName path = .ok target → target.place ≠ there) :
    (files.put there (.file mode content)).nodeOf? cwd lastName path =
      files.nodeOf? cwd lastName path := by
  refine Option.ext fun node => ⟨fun hnode => ?_, fun hnode => ?_⟩
  · obtain ⟨found, hresolve⟩ := nodeOf?_eq_some_iff.mp hnode
    obtain ⟨husable, hleads⟩ := resolve_eq_ok_iff.mp hresolve
    obtain ⟨before, hbefore, hsame⟩ := hleads.of_put_file htree hthere hold hstart
    have hresolve' := resolve_eq_ok_iff.mpr ⟨husable, hbefore⟩
    have hget : (files.put there (.file mode content)).get? found = some node :=
      get?_of_resolve hresolve
    have hget' := get?_of_resolve hresolve'
    rw [get?_put_of_ne (hsame ▸ hne before hresolve').symm] at hget
    rw [hsame, Target.place, hget] at hget'
    rw [nodeOf?, hresolve']
    exact hget'.symm
  · obtain ⟨found, hresolve⟩ := nodeOf?_eq_some_iff.mp hnode
    obtain ⟨later, -, hlater⟩ := (extends_put hold).resolve hresolve
    have hget : files.get? found = some node := get?_of_resolve hresolve
    have hget' : (files.put there (.file mode content)).get? found = some later :=
      get?_of_resolve hlater
    have hfound : found ≠ there := hne _ hresolve
    rw [get?_put_of_ne hfound.symm, hget] at hget'
    obtain rfl := Option.some.inj hget'
    exact nodeOf?_eq_some_iff.mpr ⟨found, hlater⟩

/-! ### Files that are given another name -/

/-- A file is given the name of an entry that is no directory. -/
theorem exists_of_rename_file {source target : Path}
    (h : files.rename cwd source target = .ok changed)
    (hsource : files.resolve cwd .kept source = .ok (.existing place (.file mode content))) :
    ∃ there, files.resolve cwd .kept target = .ok there ∧
      (there.place = place ∨ (∀ bits, there.node? ≠ some (.directory bits)) ∧
        changed = files.moveTree place there.place (.file mode content)) := by
  rw [rename] at h
  split_ifs at h
  · cases hfind : files.find cwd target <;> rw [hfind] at h <;> cases h
  · cases hfind : files.find cwd source <;> rw [hfind] at h <;> cases h
  · rw [renameNode, hsource] at h
    cases htarget : files.resolve cwd .kept target with
    | error error => simp [htarget] at h
    | ok there =>
      refine ⟨there, rfl, ?_⟩
      cases there with
      | vacant other asDirectory =>
        simp only [htarget] at h
        split_ifs at h
        exact .inr ⟨by simp [Target.node?], (Except.ok.inj h).symm⟩
      | existing other old =>
        by_cases hsame : place = other
        · exact .inl hsame.symm
        · cases old <;> simp only [htarget, if_neg hsame] at h <;> split_ifs at h
          all_goals exact .inr ⟨by simp [Target.node?], (Except.ok.inj h).symm⟩

/-- A file lies on no way, so its place may be left empty. -/
theorem IsTree.keepsWays_eraseTree (h : files.IsTree)
    (hfile : ∀ node, files.get? there = some node → ∃ mode content, node = .file mode content) :
    files.KeepsWays (files.eraseTree there) := by
  intro other node hnode hnot
  rw [get?_eraseTree, if_neg, hnode]
  intro hbelow
  obtain ⟨rest, rfl⟩ := List.isPrefixOf_iff_prefix.mp hbelow
  by_cases hrest : rest = []
  · subst hrest
    rw [List.append_nil] at hnode
    obtain ⟨mode, content, rfl⟩ := hfile node hnode
    exact hnot mode content rfl
  · obtain ⟨mode, hmode⟩ := h.exists_directory hrest hnode
    obtain ⟨_, _, hcases⟩ := hfile _ hmode
    cases hcases

/-! ### Files that are removed -/

/-- Removing what is no directory changes no other file. -/
theorem IsTree.contentAt_eraseTree (h : files.IsTree)
    (hnode : ∀ mode, files.get? there ≠ some (.directory mode))
    (hplace : place = there → files.contentAt there = none) :
    (files.eraseTree there).contentAt place = files.contentAt place := by
  cases hbelow : there.isPrefixOf place with
  | false => exact contentAt_congr (get?_eraseTree_of_not_below hbelow)
  | true =>
    have hgone : (files.eraseTree there).contentAt place = none := by
      rw [contentAt, get?_eraseTree, hbelow]
      rfl
    rw [hgone]
    obtain ⟨rest, rfl⟩ := List.isPrefixOf_iff_prefix.mp hbelow
    by_cases hrest : rest = []
    · subst hrest
      rw [List.append_nil] at hplace ⊢
      exact (hplace rfl).symm
    · cases hcontent : files.contentAt (there ++ rest) with
      | none => rfl
      | some content =>
        obtain ⟨bits, hfile⟩ := contentAt_eq_some_iff.mp hcontent
        obtain ⟨mode, hmode⟩ := h.exists_directory hrest hfile
        exact absurd hmode (hnode mode)

namespace Vacates

variable {vacated : FileSystem}

/-- A file that is removed is the one in whose place another one is created. -/
theorem eq_of_file (htree : files.IsTree)
    (hkept : files.resolve cwd .kept path = .ok (.existing place (.file mode content)))
    (hcreated : (files.eraseTree place).resolve cwd .created path = .ok (.vacant there asDirectory)) :
    there = place := by
  have hlinks : files.SameLinks (files.eraseTree place) := by
    intro other target
    refine ⟨fun hlink => ?_, fun hlink => Keeps.eraseTree files place other _ hlink⟩
    refine htree.keepsWays_eraseTree (fun node hnode => ?_) other _ hlink (by simp)
    exact ⟨mode, content, Option.some.inj (hnode.symm.trans (get?_of_resolve hkept))⟩
  exact hlinks.place_eq (resolve_eq_ok_iff.mp hkept).2 (resolve_eq_ok_iff.mp hcreated).2
    (by simp [Target.node?]) (by simp [Target.node?])

/-- No file is removed elsewhere than where another one can be created. -/
theorem contentAt_eq (h : files.Vacates cwd path vacated) (htree : files.IsTree)
    (hcreated : vacated.resolve cwd .created path = .ok (.vacant there asDirectory))
    (hne : place ≠ there) : vacated.contentAt place = files.contentAt place := by
  rcases h.eq_or with rfl | ⟨gone, node, hkept, hnode, rfl⟩
  · rfl
  · have hgone : files.get? gone = some node := get?_of_resolve hkept
    refine htree.contentAt_eraseTree (fun mode hmode => ?_) fun heq => ?_
    · exact hnode mode (Option.some.inj (hgone.symm.trans hmode))
    · cases node with
      | file bits content => exact absurd (heq.trans (eq_of_file htree hkept hcreated).symm) hne
      | directory mode => exact absurd rfl (hnode mode)
      | link target => rw [contentAt, hgone]

/-- The directories are where they were, unless a link has been removed. -/
theorem keepsWays (h : files.Vacates cwd path vacated) (htree : files.IsTree)
    (hlinks : ∀ place target, files.get? place = some (.link target) →
      vacated.get? place = some (.link target)) : files.KeepsWays vacated := by
  rcases h.eq_or with rfl | ⟨gone, node, hkept, hnode, rfl⟩
  · exact .of_keeps (.refl vacated)
  · refine htree.keepsWays_eraseTree fun other hother => ?_
    obtain rfl := Option.some.inj ((get?_of_resolve hkept).symm.trans hother)
    cases node with
    | file bits content => exact ⟨bits, content, rfl⟩
    | directory mode => exact absurd rfl (hnode mode)
    | link target =>
      have hlink := hlinks gone target hother
      rw [get?_eraseTree, List.isPrefixOf_iff_prefix.mpr List.prefix_rfl] at hlink
      cases hlink

end Vacates

end FileSystem

end SketchApk
