import SketchApk.Proofs.File.Agreement
import SketchApk.Proofs.File.Kept
import SketchApk.Proofs.File.Located

/-!
# What leads to a directory

A path leads to a directory through directories and links, and what else there is does not matter.
So a directory is still found when files are added, and none is found that was not there before. The
entry of a directory lies in the directory, unless it is a link that is followed.

## Main definitions

* `FileSystem.KeepsWays` : every directory and every link stays.

## Main statements

* `FileSystem.KeepsWays.leads` : with the directories and links, ways to directories stay.
* `FileSystem.HasDirectory.resolve_kept_div` : where the path of an entry leads if it is not
  followed.
* `FileSystem.HasDirectory.find_div_of_extends` : an entry is found if its path leads somewhere later.
-/

namespace SketchApk

namespace FileSystem

variable {files later last other : FileSystem} {cwd place there : Location} {base path : Path}
  {name : String} {node : Node} {target : Target} {links : Nat} {asDirectory : Bool}
  {rest names : List String} {lastName : LastName}

/-- Every directory and every link of some files is in other files as well. -/
def KeepsWays (files other : FileSystem) : Prop :=
  ∀ place node, files.get? place = some node → (∀ mode content, node ≠ .file mode content) →
    other.get? place = some node

namespace KeepsWays

theorem trans (h : files.KeepsWays later) (h' : later.KeepsWays last) : files.KeepsWays last :=
  fun place node hnode hfile => h' place node (h place node hnode hfile) hfile

/-- Adding nodes leaves every directory and every link. -/
theorem of_keeps (h : files.Keeps other) : files.KeepsWays other :=
  fun place node hnode _ => h place node hnode

theorem of_put_file {mode : Mode} {content : Content} :
    (files.put there (.file mode content)).KeepsWays files := by
  intro place node hnode hfile
  rw [get?_put] at hnode
  split at hnode
  · cases hnode
    exact absurd rfl (hfile mode content)
  · exact hnode

/-- A file is no way, so another one may take its place. -/
theorem put_file {mode bits : Mode} {content held : Content}
    (hfile : files.get? there = some (.file bits held)) :
    files.KeepsWays (files.put there (.file mode content)) := by
  intro place node hnode hnot
  by_cases hplace : there = place
  · subst hplace
    exact absurd (Option.some.inj (hnode.symm.trans hfile)) (hnot bits held)
  · rwa [get?_put_of_ne hplace]

theorem isSearchable (h : files.KeepsWays other) (hplace : files.isSearchable place = true) :
    other.isSearchable place = true := by
  obtain ⟨mode, hmode, hexecutable⟩ := exists_of_isSearchable hplace
  rw [FileSystem.isSearchable, h place _ hmode (by simp)]
  exact hexecutable

theorem pass_eq_onward (h : files.KeepsWays other) {next : Location}
    (hpass : files.pass lastName asDirectory place name rest = .onward next) :
    other.pass lastName asDirectory place name rest = .onward next := by
  have hsearchable := isSearchable_of_pass hpass (by simp)
  rw [pass, hsearchable] at hpass
  rw [pass, h.isSearchable hsearchable]
  split_ifs at hpass ⊢
  · exact hpass
  · exact hpass
  · obtain ⟨rfl, mode, hmode⟩ := arrive_eq_onward_iff.mp hpass
    exact arrive_eq_onward_iff.mpr ⟨rfl, mode, h _ _ hmode (by simp)⟩

theorem pass_eq_linked (h : files.KeepsWays other)
    (hpass : files.pass lastName asDirectory place name rest = .linked path) :
    other.pass lastName asDirectory place name rest = .linked path := by
  have hsearchable := isSearchable_of_pass hpass (by simp)
  rw [pass, hsearchable] at hpass
  rw [pass, h.isSearchable hsearchable]
  split_ifs at hpass ⊢
  have hlink := arrive_eq_linked hpass
  rw [arrive, hlink] at hpass
  rw [arrive, h _ _ hlink (by simp)]
  exact hpass

/-- A directory is found through directories and links alone. -/
theorem leads (h : files.KeepsWays other) {mode : Mode}
    (hleads : files.Leads lastName links asDirectory place names (.existing there (.directory mode))) :
    other.Leads lastName links asDirectory place names (.existing there (.directory mode)) := by
  generalize htarget : Target.existing there (.directory mode) = found at hleads
  induction hleads with
  | here hnode =>
    cases htarget
    exact .here (h _ _ hnode (by simp))
  | onward hpass _ ih => exact .onward (h.pass_eq_onward hpass) (ih htarget)
  | ended hpass =>
    subst htarget
    obtain ⟨-, -, harrive⟩ := pass_eq_ended_iff.mp hpass
    obtain ⟨-, hnode, -⟩ := get?_of_pass hpass
    rw [arrive, hnode] at harrive
    cases harrive
  | linked hpass _ ih => exact .linked (h.pass_eq_linked hpass) (ih htarget)

theorem find (h : files.KeepsWays other) {mode : Mode}
    (hfind : files.find cwd path = .ok (there, .directory mode)) :
    other.find cwd path = .ok (there, .directory mode) := by
  obtain ⟨husable, hleads⟩ := resolve_eq_ok_iff.mp (find_eq_ok_iff.mp hfind)
  exact find_eq_ok_iff.mpr (resolve_eq_ok_iff.mpr ⟨husable, h.leads hleads⟩)

end KeepsWays

/-- A path leads to a directory still when nothing has been taken away. -/
theorem HasDirectory.extends (h : files.HasDirectory cwd path place) (hextends : files.Extends other) :
    other.HasDirectory cwd path place := by
  obtain ⟨wants, mode, hleads⟩ := h
  obtain ⟨later, hlike, hlater⟩ := hextends.leads hleads
  cases later with
  | directory => exact ⟨wants, _, hlater⟩
  | file | link => cases hlike

/-- Where the path of an entry leads if it is not followed. -/
theorem HasDirectory.resolve_kept_div (h : files.HasDirectory cwd base place)
    (hname : Path.IsName name) (husable : (base / name).IsUsable) (hadmits : files.Admits place name) :
    files.resolve cwd .kept (base / name) = .ok (files.targetAt (place ++ [name])) := by
  cases hnode : files.get? (place ++ [name]) with
  | none => exact h.resolve_div hname husable hadmits (by simp [hnode])
  | some node =>
    cases node with
    | file | directory => exact h.resolve_div hname husable hadmits (by simp [hnode])
    | link target =>
      have hwithin : base.IsWithin (base / name) [name] := (Path.IsWithin.refl base).div hname
      obtain ⟨wants, mode, hleads⟩ := h
      rw [resolve_eq_ok_iff, hwithin.names_eq, hwithin.isAbsolute_eq, hname.wantsDirectory_div]
      refine ⟨husable, hleads.concat fun _ => .ended ?_⟩
      rw [pass_of_admits hadmits rfl, arrive, targetAt, hnode]
      rfl

/-- The entry of a directory that is not followed lies in the directory. -/
theorem HasDirectory.place_of_resolve_kept (h : files.HasDirectory cwd base place)
    (hname : Path.IsName name) (hresolve : files.resolve cwd .kept (base / name) = .ok target) :
    target.place = place ++ [name] := by
  have hwithin : base.IsWithin (base / name) [name] := (Path.IsWithin.refl base).div hname
  obtain ⟨wants, mode, hleads⟩ := h
  obtain ⟨-, hleads'⟩ := resolve_eq_ok_iff.mp hresolve
  obtain ⟨links', hlinks'⟩ := hleads.exists_resolveNames_append (List.cons_ne_nil name [])
  rw [hname.wantsDirectory_div, hwithin.names_eq, hwithin.isAbsolute_eq] at hleads'
  replace hleads' := resolveNames_eq_ok_iff.mp
    (hlinks'.symm.trans (resolveNames_eq_ok_iff.mpr hleads'))
  cases hleads' with
  | onward hpass hrest =>
    rcases cases_of_pass_onward hpass with ⟨rfl, -⟩ | ⟨rfl, -⟩ | ⟨-, -, rfl, -⟩
    · exact absurd rfl hname.ne_dot
    · exact absurd rfl hname.ne_dots
    · cases hrest
      rfl
  | ended hpass => exact (get?_of_pass hpass).1
  | linked hpass hrest =>
    obtain ⟨-, hlink⟩ := admits_of_linked hpass
    rw [pass] at hpass
    split_ifs at hpass
    rw [arrive, hlink] at hpass
    cases hpass

/-- A directory admits the name of an entry whose path leads somewhere later. -/
theorem HasDirectory.admits_of_extends (h : files.HasDirectory cwd base place)
    (hname : Path.IsName name) (hshort : ¬maxNameBytes < name.utf8ByteSize)
    (hempty : base.isEmpty = false) (hextends : files.Extends later)
    (hlater : later.resolve cwd lastName (base / name) = .ok target) : files.Admits place name := by
  obtain ⟨there, bits, hfind, hexecutable, -⟩ := exists_of_resolve_div hname hempty hlater
  obtain rfl : there = place :=
    (h.extends hextends).eq_of_sameLinks (.refl later) (.of_find hfind)
  obtain ⟨mode, hmode⟩ := h.get?_place
  obtain ⟨node, hnode, hlike⟩ := hextends _ _ hmode
  cases hnode.symm.trans (get?_of_find hfind)
  refine ⟨?_, hname.ne_dot, hname.ne_dots, hshort⟩
  rw [FileSystem.isSearchable, hmode]
  exact (show mode = bits from hlike) ▸ hexecutable

/-- An entry of a directory that is no link is found if its path leads somewhere later. -/
theorem HasDirectory.find_div_of_extends (h : files.HasDirectory cwd base place)
    (hname : Path.IsName name) (hshort : ¬maxNameBytes < name.utf8ByteSize)
    (hempty : base.isEmpty = false) (hnode : files.get? (place ++ [name]) = some node)
    (hlink : ∀ path, node ≠ .link path) (hextends : files.Extends later)
    (hlater : later.resolve cwd lastName (base / name) = .ok target) :
    files.find cwd (base / name) = .ok (place ++ [name], node) := by
  rw [find_eq_ok_iff, h.resolve_div hname (resolve_eq_ok_iff.mp hlater).1
    (h.admits_of_extends hname hshort hempty hextends hlater) (by simpa [hnode] using hlink),
    targetAt, hnode]

end FileSystem

end SketchApk
