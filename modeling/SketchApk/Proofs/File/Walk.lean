import SketchApk.Proofs.File.Located

/-!
# What a walk comes across

A walk through the tree of a directory lists the regular files below it in the order of their
locations, all of them unless it comes to a halt.

## Main definitions

* `FileSystem.walked` : what a walk comes across, whether it can begin or not.

## Main statements

* `FileSystem.exists_of_mem_walk` : what is listed is a regular file below the directory.
* `FileSystem.mem_walk` : a walk that does not come to a halt lists every regular file.
* `FileSystem.pairwise_files_walk` : the files are listed in order.
* `FileSystem.files_walk_eq` : what is listed depends on the tree alone.
-/

namespace SketchApk.FileSystem

variable {files other : FileSystem} {cwd place : Location} {root : Path} {names : List String}
  {mode : Mode} {content : Content} {entries : List (Location × Node)} {found : FileWalk}

theorem exists_of_mem_walkBelow (h : names ∈ (files.walkBelow cwd root entries).files) :
    ∃ mode content, (names, .file mode content) ∈ entries := by
  induction entries with
  | nil => cases h
  | cons entry rest ih =>
    obtain ⟨first, node⟩ := entry
    have hrest (h : names ∈ (files.walkBelow cwd root rest).files) :
        ∃ mode content, (names, .file mode content) ∈ (first, node) :: rest := by
      obtain ⟨mode, content, hmem⟩ := ih h
      exact ⟨mode, content, List.mem_cons_of_mem _ hmem⟩
    cases node with
    | file mode content =>
      rcases List.mem_cons.mp h with rfl | h
      · exact ⟨mode, content, List.mem_cons_self⟩
      · exact hrest h
    | directory mode =>
      rw [walkBelow] at h
      split at h
      · exact hrest h
      · cases h
    | link target => exact hrest h

theorem mem_walkBelow (hhalt : (files.walkBelow cwd root entries).halt = none)
    (h : (names, .file mode content) ∈ entries) :
    names ∈ (files.walkBelow cwd root entries).files := by
  induction entries with
  | nil => cases h
  | cons entry rest ih =>
    obtain ⟨first, node⟩ := entry
    cases node with
    | file mode' content' =>
      rcases List.mem_cons.mp h with heq | h
      · obtain ⟨rfl, -⟩ := Prod.mk.inj heq
        exact List.mem_cons_self
      · exact List.mem_cons_of_mem _ (ih hhalt h)
    | directory mode' =>
      have hmem := (List.mem_cons.mp h).resolve_left (by simp)
      rw [walkBelow] at hhalt ⊢
      split at hhalt
      · exact ih hhalt hmem
      · cases hhalt
    | link target => exact ih hhalt ((List.mem_cons.mp h).resolve_left (by simp))

/-- A path that leads to a file while links at its end stand for themselves does not lead to a
directory. -/
theorem find_ne_of_resolve_kept {there : Location} {bits : Mode}
    (h : files.resolve cwd .kept root = .ok (.existing there (.file mode content))) :
    files.find cwd root ≠ .ok (place, .directory bits) := by
  intro hfind
  have hleads := (resolve_eq_ok_iff.mp h).2
  have hleads' := (resolve_eq_ok_iff.mp (find_eq_ok_iff.mp hfind)).2
  have hplace : place = there :=
    (SameLinks.refl files).place_eq hleads hleads' (by simp [Target.node?]) (by simp [Target.node?])
  subst hplace
  cases hleads.get?_place.symm.trans hleads'.get?_place

/-- A walk through a directory goes through what is below it. Apart from that at most the root is
listed. -/
theorem cases_of_walk (h : files.walk cwd root = .ok found) :
    (∃ place mode, files.find cwd root = .ok (place, .directory mode) ∧
      found = files.walkBelow cwd root (files.below place)) ∨
    (∀ place mode, files.find cwd root ≠ .ok (place, .directory mode)) ∧
      found.files.Sublist [[]] := by
  have hdirectory (h : files.walkDirectory cwd root = .ok found) :
      ∃ place mode, files.find cwd root = .ok (place, .directory mode) ∧
        found = files.walkBelow cwd root (files.below place) := by
    rw [walkDirectory, findListable] at h
    split at h
    · rename_i place mode hfind
      split_ifs at h <;> cases h
      exact ⟨place, mode, hfind, rfl⟩
    · cases h
    · cases h
  rw [walk] at h
  split at h
  · exact .inl (hdirectory h)
  · rename_i there mode content hresolve
    cases h
    exact .inr ⟨fun place bits => find_ne_of_resolve_kept hresolve, List.Sublist.refl _⟩
  · split at h
    · exact .inl (hdirectory h)
    · rename_i hother hleads
      cases h
      refine .inr ⟨fun place bits hfind => ?_, List.nil_sublist _⟩
      exact hother _ _ (Except.ok.inj (hleads.symm.trans hfind))
    · cases h
  · cases h
  · cases h

/-- What is listed is a regular file below the directory. -/
theorem exists_of_mem_walk (hwalk : files.walk cwd root = .ok found)
    (hroot : files.find cwd root = .ok (place, .directory mode)) (h : names ∈ found.files) :
    names ≠ [] ∧ ∃ mode content, files.get? (place ++ names) = some (.file mode content) := by
  rcases cases_of_walk hwalk with ⟨there, bits, hfind, rfl⟩ | ⟨hnone, -⟩
  · cases hfind.symm.trans hroot
    obtain ⟨mode, content, hmem⟩ := exists_of_mem_walkBelow h
    exact ⟨(mem_below.mp hmem).1, mode, content, (mem_below.mp hmem).2⟩
  · exact absurd hroot (hnone _ _)

/-- A walk that does not come to a halt lists every regular file below the directory. -/
theorem mem_walk (hwalk : files.walk cwd root = .ok found)
    (hroot : files.find cwd root = .ok (place, .directory mode)) (hhalt : found.halt = none)
    (hne : names ≠ []) {bits : Mode} (h : files.get? (place ++ names) = some (.file bits content)) :
    names ∈ found.files := by
  rcases cases_of_walk hwalk with ⟨there, mode', hfind, rfl⟩ | ⟨hnone, -⟩
  · cases hfind.symm.trans hroot
    exact mem_walkBelow hhalt (mem_below.mpr ⟨hne, h⟩)
  · exact absurd hroot (hnone _ _)

/-- The names that lead to a listed file are the names of entries. -/
theorem WellNamed.isName_of_mem_walk (h : files.WellNamed) (hwalk : files.walk cwd root = .ok found)
    (hnames : names ∈ found.files) : ∀ name ∈ names, Path.IsName name := by
  rcases cases_of_walk hwalk with ⟨place, mode, hfind, -⟩ | ⟨-, hroot⟩
  · obtain ⟨-, mode, content, hfile⟩ := exists_of_mem_walk hwalk hfind hnames
    exact fun name hname => h _ _ hfile name (List.mem_append_right _ hname)
  · rw [List.mem_singleton.mp (hroot.subset hnames)]
    exact fun name hname => absurd hname List.not_mem_nil

/-- What a walk comes across, which comes to a halt at the root if it does not begin. -/
def walked (files : FileSystem) (cwd : Location) (root : Path) : FileWalk :=
  match files.walk cwd root with
  | .ok found => found
  | .error error => { files := [], halt := some ([], error) }

theorem walk_eq_ok_walked (h : (files.walked cwd root).halt = none) :
    files.walk cwd root = .ok (files.walked cwd root) := by
  rw [walked] at h ⊢
  cases hwalk : files.walk cwd root with
  | ok found => rfl
  | error error =>
    rw [hwalk] at h
    cases h

/-! ### The order of a walk -/

/-- Names that lead on from the same location are ordered as the locations are. -/
theorem compare_append (front names others : Location) :
    compare (front ++ names) (front ++ others) = compare names others := by
  induction front with
  | nil => rfl
  | cons name front ih =>
    change List.compareLex compare _ _ = _
    rw [List.cons_append, List.cons_append, List.compareLex_cons_cons, Std.compare_self]
    exact ih

/-- What is below a directory is in order. -/
theorem pairwise_below (files : FileSystem) (place : Location) :
    (files.below place).Pairwise fun entry other => compare entry.1 other.1 = .lt := by
  refine List.Pairwise.filterMap _ (fun entry other hlt named hnamed behind hbehind => ?_)
    Std.ExtTreeMap.ordered_keys_toList
  obtain ⟨hentry, hnamed⟩ := Option.ite_none_right_eq_some.mp hnamed
  obtain ⟨hother, hbehind⟩ := Option.ite_none_right_eq_some.mp hbehind
  obtain rfl := Option.some.inj hnamed
  obtain rfl := Option.some.inj hbehind
  rw [Bool.and_eq_true, List.isPrefixOf_iff_prefix] at hentry hother
  obtain ⟨⟨rest, hrest⟩, -⟩ := hentry
  obtain ⟨⟨rest', hrest'⟩, -⟩ := hother
  dsimp only
  rw [← hrest, ← hrest', List.drop_left, List.drop_left, ← compare_append place]
  rwa [hrest, hrest']

theorem files_walkBelow_sublist (files : FileSystem) (cwd : Location) (root : Path)
    (entries : List (Location × Node)) :
    (files.walkBelow cwd root entries).files.Sublist (entries.map Prod.fst) := by
  induction entries with
  | nil => exact List.Sublist.refl _
  | cons entry rest ih =>
    obtain ⟨names, node⟩ := entry
    cases node with
    | file => exact ih.cons_cons names
    | directory =>
      rw [walkBelow]
      split
      · exact ih.cons names
      · exact List.nil_sublist _
    | link => exact ih.cons names

/-- A walk lists files in order. -/
theorem pairwise_files_walk (hwalk : files.walk cwd root = .ok found)
    (hroot : files.find cwd root = .ok (place, .directory mode)) :
    found.files.Pairwise fun names others => compare names others = .lt := by
  rcases cases_of_walk hwalk with ⟨there, bits, -, rfl⟩ | ⟨hnone, -⟩
  · refine List.Pairwise.sublist (files_walkBelow_sublist files cwd root _) ?_
    exact List.pairwise_map.mpr (pairwise_below files there)
  · exact absurd hroot (hnone _ _)

/-- A walk lists no file twice. -/
theorem nodup_files_walk (hwalk : files.walk cwd root = .ok found) : found.files.Nodup := by
  rcases cases_of_walk hwalk with ⟨place, mode, hfind, -⟩ | ⟨-, hroot⟩
  · refine (pairwise_files_walk hwalk hfind).imp fun {names others} hlt heq => ?_
    rw [heq, Std.compare_self] at hlt
    cases hlt
  · exact hroot.nodup (List.pairwise_singleton _ _)

/-! ### Walks through the same tree -/

/-- What is below a directory depends on the nodes there alone. -/
theorem below_congr (h : ∀ rest, files.get? (place ++ rest) = other.get? (place ++ rest)) :
    files.below place = other.below place := by
  have hfilter : files.nodes.filter (fun there _ => place.isPrefixOf there) =
      other.nodes.filter (fun there _ => place.isPrefixOf there) := by
    refine Std.ExtTreeMap.ext_getElem? fun there => ?_
    rw [Std.ExtTreeMap.getElem?_filter', Std.ExtTreeMap.getElem?_filter']
    cases hbelow : place.isPrefixOf there with
    | false => simp
    | true =>
      obtain ⟨rest, rfl⟩ := List.isPrefixOf_iff_prefix.mp hbelow
      rw [show files.nodes[place ++ rest]? = _ from h rest]
      rfl
  have hbelow (files : FileSystem) : files.below place =
      (files.nodes.filter fun there _ => place.isPrefixOf there).toList.filterMap fun entry =>
        if place.isPrefixOf entry.1 && place.length < entry.1.length then
          some (entry.1.drop place.length, entry.2) else none := by
    rw [below, Std.ExtTreeMap.toList_filter, List.filterMap_filter]
    refine List.filterMap_congr fun entry _ => ?_
    cases place.isPrefixOf entry.1 <;> simp
  rw [hbelow, hbelow, hfilter]

/-- What is below a directory with one node. -/
theorem below_eq_singleton {node : Node}
    (h : ∀ others other, others ≠ [] → (files.get? (place ++ others) = some other ↔
      others = names ∧ other = node)) (hne : names ≠ []) :
    files.below place = [(names, node)] := by
  have hmem (entry : Location × Node) : entry ∈ files.below place ↔ entry = (names, node) := by
    rw [mem_below, Prod.ext_iff]
    refine ⟨fun ⟨hnil, hnode⟩ => (h _ _ hnil).mp hnode, fun heq => ?_⟩
    have hnil : entry.1 ≠ [] := heq.1 ▸ hne
    exact ⟨hnil, (h _ _ hnil).mpr heq⟩
  have hlt := pairwise_below files place
  rcases hbelow : files.below place with _ | ⟨first, _ | ⟨second, rest⟩⟩ <;>
    rw [hbelow] at hmem hlt
  · exact absurd ((hmem _).mpr rfl) List.not_mem_nil
  · rw [(hmem first).mp List.mem_cons_self]
  · -- No node is there twice.
    have hfirst := (List.pairwise_cons.mp hlt).1 second List.mem_cons_self
    rw [(hmem first).mp List.mem_cons_self,
      (hmem second).mp (List.mem_cons_of_mem _ List.mem_cons_self), Std.compare_self] at hfirst
    cases hfirst

/-- A walk that does not come to a halt lists the files among the entries. -/
theorem files_walkBelow_eq (hhalt : (files.walkBelow cwd root entries).halt = none) :
    (files.walkBelow cwd root entries).files = entries.filterMap fun entry =>
      match entry with
      | (names, .file ..) => some names
      | _ => none := by
  induction entries with
  | nil => rfl
  | cons entry rest ih =>
    obtain ⟨names, node⟩ := entry
    cases node with
    | file mode content => exact congrArg (names :: ·) (ih hhalt)
    | directory mode =>
      rw [walkBelow] at hhalt ⊢
      split at hhalt
      · exact ih hhalt
      · cases hhalt
    | link target => exact ih hhalt

/-- Two walks through the same tree that do not come to a halt list the same files. -/
theorem files_walk_eq {found' : FileWalk} {bits : Mode}
    (h : ∀ rest, files.get? (place ++ rest) = other.get? (place ++ rest))
    (hwalk : files.walk cwd root = .ok found) (hwalk' : other.walk cwd root = .ok found')
    (hroot : files.find cwd root = .ok (place, .directory mode))
    (hroot' : other.find cwd root = .ok (place, .directory bits)) (hhalt : found.halt = none)
    (hhalt' : found'.halt = none) : found.files = found'.files := by
  have hfiles {files : FileSystem} {found : FileWalk} {mode : Mode}
      (hwalk : files.walk cwd root = .ok found) (hroot : files.find cwd root = .ok (place, .directory mode))
      (hhalt : found.halt = none) : found.files = (files.below place).filterMap fun entry =>
        match entry with
        | (names, .file ..) => some names
        | _ => none := by
    rcases cases_of_walk hwalk with ⟨there, bits, hfind, rfl⟩ | ⟨hnone, -⟩
    · cases hfind.symm.trans hroot
      exact files_walkBelow_eq hhalt
    · exact absurd hroot (hnone _ _)
  rw [hfiles hwalk hroot hhalt, hfiles hwalk' hroot' hhalt', below_congr h]

end SketchApk.FileSystem
