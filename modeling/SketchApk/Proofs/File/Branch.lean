import Mathlib.Data.List.Infix
import SketchApk.Proofs.File.Walk
import SketchApk.Proofs.Path.Extension

/-!
# Branches of new files

When a directory is created and filled, nothing but what has been put there is in it. So the
directory is described by the list of the nodes that have been put, and what is found under a path
into it is looked up in the list.

## Main definitions

* `Path.addedBytes` : how much longer names make a path.
* `Branch` : nodes by the names that lead to them from some place.
* `FileSystem.plant` : the files with the nodes of a branch below a place.
* `Branch.IsGrown` : the branches that result from filling a new directory.
* `FileSystem.IsSite` : the names of a directory under which a directory can be created.

## Main statements

* `FileSystem.get?_plant` : below the place are the nodes of the branch.
* `FileSystem.IsSite.find` : what is found under a path into the directory.
* `FileSystem.IsSite.makeDirectory`, `FileSystem.IsSite.overwrite` : one more directory, and one more
  file.
-/

namespace SketchApk

/-- The number of bytes that names add to the path of an entry behind which they are put. -/
def Path.addedBytes (names : List String) : Nat :=
  (String.join (names.map ("/" ++ ·))).utf8ByteSize

theorem Path.addedBytes_append (names others : List String) :
    addedBytes (names ++ others) = addedBytes names + addedBytes others := by
  rw [addedBytes, List.map_append, String.join_append, String.utf8ByteSize_append, addedBytes,
    addedBytes]

/-- A path with names behind an entry can be given to the system when one with as many bytes behind
the entry can be given to it. -/
theorem Path.IsUsable.descend_of_le {path : Path} {name : String} {names others : List String}
    (h : ((path / name).descend names).IsUsable) (hname : Path.IsName name)
    (hnames : ∀ name ∈ names, Path.IsName name) (hothers : ∀ name ∈ others, Path.IsName name)
    (hnull : ∀ name ∈ others, '\x00' ∉ name.toList)
    (hle : Path.addedBytes others ≤ Path.addedBytes names) :
    ((path / name).descend others).IsUsable := by
  obtain ⟨hnone, -, hlong⟩ := h
  rw [Path.text_descend path hname hnames] at hnone hlong
  rw [String.toList_append, List.mem_append, not_or] at hnone
  rw [String.utf8ByteSize_append] at hlong
  refine ⟨?_, Path.isEmpty_descend (Path.isEmpty_div path hname.ne_empty) others, ?_⟩
  · rw [Path.text_descend path hname hothers, String.toList_append, List.mem_append, not_or,
      String.toList_join, List.flatMap_map, List.mem_flatMap]
    refine ⟨hnone.1, fun ⟨other, hmem, hother⟩ => ?_⟩
    rw [String.toList_append, List.mem_append] at hother
    exact hother.elim (by decide) (hnull other hmem)
  · rw [Path.text_descend path hname hothers, String.utf8ByteSize_append]
    rw [Path.addedBytes, Path.addedBytes] at hle
    omega

/-- Nodes by the names that lead to them from some place. The first node for some names counts. -/
abbrev Branch := List (Location × Node)

/-- A new directory. -/
abbrev Node.newDirectory : Node := .directory Mode.newDirectory

namespace Branch

variable {branch : Branch} {front names : List String} {name : String} {node : Node}

theorem lookup_cons_of_ne {others : List String} (h : names ≠ others) :
    List.lookup names ((others, node) :: branch) = branch.lookup names := by
  rw [List.lookup_cons, beq_eq_false_iff_ne.mpr h]

/-- The branch consists of a directory and nodes that have been put into it, one after the other,
each where there was nothing and in a directory of the branch. -/
inductive IsGrown : Branch → Prop
  | root : IsGrown [([], .newDirectory)]
  | cons {branch : Branch} {front : List String} {name : String} {node : Node} (h : IsGrown branch)
      (hfront : branch.lookup front = some .newDirectory) (hname : Path.IsName name)
      (hshort : name.utf8ByteSize ≤ maxNameBytes) (hnew : branch.lookup (front ++ [name]) = none)
      (hnode : ∀ path, node ≠ .link path) : IsGrown ((front ++ [name], node) :: branch)

namespace IsGrown

theorem lookup_nil (h : branch.IsGrown) : branch.lookup [] = some .newDirectory := by
  induction h with
  | root => rfl
  | cons _ _ _ _ _ _ ih => rwa [lookup_cons_of_ne (by simp)]

/-- A node of the branch has a name and lies in a directory of the branch. -/
theorem of_lookup_concat (h : branch.IsGrown) (hnode : branch.lookup (front ++ [name]) = some node) :
    branch.lookup front = some .newDirectory ∧ Path.IsName name ∧
      name.utf8ByteSize ≤ maxNameBytes ∧ ∀ path, node ≠ .link path := by
  induction h with
  | root =>
    rw [lookup_cons_of_ne (by simp)] at hnode
    cases hnode
  | @cons branch front' name' node' _ hfront hname hshort hnew hlink ih =>
    by_cases hnames : front ++ [name] = front' ++ [name']
    · obtain ⟨rfl, heq⟩ := List.append_inj' hnames rfl
      obtain rfl := List.singleton_inj.mp heq
      rw [List.lookup_cons_self] at hnode
      obtain rfl := Option.some.inj hnode
      exact ⟨by rwa [lookup_cons_of_ne (by simp)], hname, hshort, hlink⟩
    · rw [lookup_cons_of_ne hnames] at hnode
      obtain ⟨hfound, hrest⟩ := ih hnode
      refine ⟨?_, hrest⟩
      rwa [lookup_cons_of_ne]
      rintro rfl
      cases hnew.symm.trans hfound

/-- Names that lead to nothing lead through a directory in which there is nothing of a name. -/
theorem exists_of_lookup_eq_none (h : branch.IsGrown) (hnone : branch.lookup names = none)
    (hdirectory : ∀ front node, front <+: names → branch.lookup front = some node →
      node = .newDirectory) :
    ∃ front name rest, names = front ++ name :: rest ∧
      branch.lookup front = some .newDirectory ∧ branch.lookup (front ++ [name]) = none := by
  induction names using List.reverseRecOn with
  | nil => cases h.lookup_nil.symm.trans hnone
  | append_singleton front name ih =>
    cases hfront : branch.lookup front with
    | some node =>
      obtain rfl := hdirectory front node (List.prefix_append _ _) hfront
      exact ⟨front, name, [], rfl, hfront, hnone⟩
    | none =>
      obtain ⟨before, first, rest, rfl, hbefore, hfirst⟩ := ih hfront fun front' node hpart =>
        hdirectory front' node (hpart.trans (List.prefix_append _ _))
      exact ⟨before, first, rest ++ [name], by simp, hbefore, hfirst⟩

end IsGrown

/-- The branch with the directories to which names lead one after the other, behind some others. -/
def withDirectories (branch : Branch) (front : List String) : List String → Branch
  | [] => branch
  | name :: rest =>
    match branch.lookup (front ++ [name]) with
    | some _ => withDirectories branch (front ++ [name]) rest
    | none => withDirectories ((front ++ [name], .newDirectory) :: branch) (front ++ [name]) rest

theorem withDirectories_concat (branch : Branch) (front names : List String) (name : String) :
    branch.withDirectories front (names ++ [name]) =
      match (branch.withDirectories front names).lookup (front ++ names ++ [name]) with
      | some _ => branch.withDirectories front names
      | none => (front ++ names ++ [name], .newDirectory) :: branch.withDirectories front names := by
  induction names generalizing branch front with
  | nil =>
    simp only [List.nil_append, withDirectories, List.append_nil]
  | cons first rest ih =>
    simp only [List.cons_append, withDirectories]
    split <;> simpa using ih _ (front ++ [first])

/-- Names that are longer lead to what they led to. -/
theorem lookup_withDirectories {others : List String}
    (h : front.length + names.length < others.length) :
    (branch.withDirectories front names).lookup others = branch.lookup others := by
  induction names generalizing branch front with
  | nil => rfl
  | cons first rest ih =>
    have hlonger : (front ++ [first]).length + rest.length < others.length := by
      simpa [Nat.add_right_comm, Nat.add_assoc] using h
    rw [withDirectories]
    split
    · exact ih hlonger
    · rw [ih hlonger, lookup_cons_of_ne]
      rintro rfl
      simp at h

/-- Directories that are there are not put again. -/
theorem IsGrown.withDirectories_eq_self (h : branch.IsGrown) (hnode : branch.lookup names = some node) :
    branch.withDirectories [] names = branch := by
  induction names using List.reverseRecOn generalizing node with
  | nil => rfl
  | append_singleton front name ih =>
    rw [withDirectories_concat, ih (h.of_lookup_concat hnode).1, List.nil_append, hnode]

/-- Names may be those of a directory of the branch and of the directories on the way to it. -/
structure Admits (branch : Branch) (names : List String) : Prop where
  isName : ∀ name ∈ names, Path.IsName name
  short : ∀ name ∈ names, name.utf8ByteSize ≤ maxNameBytes
  directory : ∀ front node, front <+: names → branch.lookup front = some node →
    node = .newDirectory

theorem Admits.of_inits (hnames : ∀ name ∈ names, Path.IsName name ∧ name.utf8ByteSize ≤ maxNameBytes)
    (hinits : ∀ front ∈ names.inits, branch.lookup front = none ∨
      branch.lookup front = some .newDirectory) : branch.Admits names where
  isName name hmem := (hnames name hmem).1
  short name hmem := (hnames name hmem).2
  directory front node hpart hnode := by
    rcases hinits front (List.mem_inits front names |>.mpr hpart) with hnone | hdirectory
    · cases hnone.symm.trans hnode
    · exact Option.some.inj (hnode.symm.trans hdirectory)

theorem Admits.of_concat (h : branch.Admits (names ++ [name])) : branch.Admits names where
  isName other hmem := h.isName other (List.mem_append_left _ hmem)
  short other hmem := h.short other (List.mem_append_left _ hmem)
  directory front node hpart := h.directory front node (hpart.trans (List.prefix_append _ _))

/-- The directories to which names lead are there in the end. -/
theorem IsGrown.withDirectories (h : branch.IsGrown) (hadmits : branch.Admits names) :
    (branch.withDirectories [] names).IsGrown ∧
      (branch.withDirectories [] names).lookup names = some .newDirectory := by
  induction names using List.reverseRecOn with
  | nil => exact ⟨h, h.lookup_nil⟩
  | append_singleton front name ih =>
    obtain ⟨hgrown, hfront⟩ := ih hadmits.of_concat
    have hlookup : (branch.withDirectories [] front).lookup (front ++ [name]) =
        branch.lookup (front ++ [name]) := lookup_withDirectories (by simp)
    rw [withDirectories_concat, List.nil_append, hlookup]
    cases hnode : branch.lookup (front ++ [name]) with
    | some node =>
      obtain rfl := hadmits.directory _ node (List.prefix_refl _) hnode
      exact ⟨hgrown, hlookup.trans hnode⟩
    | none =>
      refine ⟨.cons hgrown hfront (hadmits.isName name (by simp)) (hadmits.short name (by simp))
        (hlookup.trans hnode) (by simp), List.lookup_cons_self⟩

end Branch

namespace FileSystem

variable {files : FileSystem} {cwd base place : Location} {branch : Branch} {parent : Path}
  {front names : List String} {name last : String} {node : Node}

/-- The files with the nodes of a branch at a place and below. -/
def plant (files : FileSystem) (place : Location) : Branch → FileSystem
  | [] => files
  | (names, node) :: rest => (files.plant place rest).put (place ++ names) node

/-- At the place and below are the nodes of the branch. -/
theorem get?_plant (h : ∀ names, files.get? (place ++ names) = none) (branch : Branch)
    (names : List String) : (files.plant place branch).get? (place ++ names) = branch.lookup names := by
  induction branch with
  | nil => exact h names
  | cons entry rest ih =>
    obtain ⟨others, node⟩ := entry
    rw [plant, get?_put]
    by_cases hnames : others = names
    · subst hnames
      rw [if_pos rfl, List.lookup_cons_self]
    · rw [if_neg (by simpa using hnames), Branch.lookup_cons_of_ne (Ne.symm hnames), ih]

/-- Nothing is taken away where there was nothing. -/
theorem keeps_plant (h : ∀ names, files.get? (place ++ names) = none) (branch : Branch) :
    files.Keeps (files.plant place branch) := by
  intro there node hnode
  induction branch with
  | nil => exact hnode
  | cons entry rest ih =>
    rw [plant, get?_put_of_ne, ih]
    rintro rfl
    rw [h] at hnode
    cases hnode

/-- A path leads to the directory at a place, where entries may be created, and there is nothing of
some name. -/
structure IsSite (files : FileSystem) (cwd : Location) (parent : Path) (name : String)
    (base : Location) : Prop where
  isEmpty_eq : parent.isEmpty = false
  hasParent : files.HasDirectory cwd parent base
  changeable : files.isChangeable base = true
  isName : Path.IsName name
  short : name.utf8ByteSize ≤ maxNameBytes
  vacant : ∀ names, files.get? (base ++ [name] ++ names) = none

namespace IsSite

variable (h : files.IsSite cwd parent name base)

include h

theorem admits : files.Admits base name :=
  admits_of_isChangeable h.changeable h.isName h.short

theorem get?_plant (branch : Branch) (names : List String) :
    (files.plant (base ++ [name]) branch).get? (base ++ [name] ++ names) = branch.lookup names :=
  FileSystem.get?_plant h.vacant branch names

/-- A directory of the branch admits names. -/
theorem admits_of_lookup (hfront : branch.lookup front = some .newDirectory)
    (hname : Path.IsName last) (hshort : last.utf8ByteSize ≤ maxNameBytes) :
    (files.plant (base ++ [name]) branch).Admits (base ++ [name] ++ front) last := by
  refine ⟨?_, hname.ne_dot, hname.ne_dots, Nat.not_lt.mpr hshort⟩
  rw [isSearchable, h.get?_plant, hfront]
  rfl

theorem isChangeable_of_lookup (hfront : branch.lookup front = some .newDirectory) :
    (files.plant (base ++ [name]) branch).isChangeable (base ++ [name] ++ front) = true := by
  rw [isChangeable, h.get?_plant, hfront]
  rfl

/-- The paths of the directories of the branch. -/
theorem hasDirectory (hgrown : branch.IsGrown) (hnames : branch.lookup names = some .newDirectory) :
    (files.plant (base ++ [name]) branch).HasDirectory cwd ((parent / name).descend names)
      (base ++ [name] ++ names) := by
  induction names using List.reverseRecOn with
  | nil =>
    have hkeeps := keeps_plant h.vacant branch
    have hroot : (files.plant (base ++ [name]) branch).get? (base ++ [name]) =
        some .newDirectory := by
      simpa [hgrown.lookup_nil] using h.get?_plant branch []
    rw [List.append_nil]
    exact (h.hasParent.keeps hkeeps).div h.isName (hkeeps.toExtends.admits h.admits) hroot
  | append_singleton front last ih =>
    obtain ⟨hfront, hname, hshort, -⟩ := hgrown.of_lookup_concat hnames
    have hnode := h.get?_plant branch (front ++ [last])
    rw [hnames, ← List.append_assoc] at hnode
    rw [Path.descend_concat, ← List.append_assoc]
    exact (ih hfront).div hname (h.admits_of_lookup hfront hname hshort) hnode

/-- Where the path of an entry leads whose directory belongs to the branch. -/
theorem resolve (hgrown : branch.IsGrown) (hfront : branch.lookup front = some .newDirectory)
    (hname : Path.IsName last) (hshort : last.utf8ByteSize ≤ maxNameBytes)
    (husable : ((parent / name).descend front / last).IsUsable) (lastName : LastName) :
    (files.plant (base ++ [name]) branch).resolve cwd lastName ((parent / name).descend front / last) =
      .ok ((files.plant (base ++ [name]) branch).targetAt
        (base ++ [name] ++ (front ++ [last]))) := by
  rw [← List.append_assoc]
  refine (h.hasDirectory hgrown hfront).resolve_div hname husable
    (h.admits_of_lookup hfront hname hshort) fun path hlink => ?_
  rw [List.append_assoc, h.get?_plant] at hlink
  exact (hgrown.of_lookup_concat hlink).2.2.2 path rfl

/-- Under a path to nothing in a directory of the branch nothing is found. -/
theorem find_eq_notFound (hgrown : branch.IsGrown) (hfront : branch.lookup front = some .newDirectory)
    (hnone : branch.lookup (front ++ [last]) = none) (hname : Path.IsName last)
    (hshort : last.utf8ByteSize ≤ maxNameBytes)
    (husable : ((parent / name).descend front / last).IsUsable) :
    (files.plant (base ++ [name]) branch).find cwd ((parent / name).descend front / last) =
      .error .notFound := by
  rw [FileSystem.find, h.resolve hgrown hfront hname hshort husable, targetAt, h.get?_plant, hnone]

/-- Under the path of a node of the branch the node is found. -/
theorem find (hgrown : branch.IsGrown) (hnames : branch.lookup names = some node)
    (husable : ((parent / name).descend names).IsUsable) :
    (files.plant (base ++ [name]) branch).find cwd ((parent / name).descend names) =
      .ok (base ++ [name] ++ names, node) := by
  have hnode := h.get?_plant branch names
  rw [hnames] at hnode
  rcases List.eq_nil_or_concat names with rfl | ⟨front, last, rfl⟩
  · obtain rfl := Option.some.inj (hgrown.lookup_nil.symm.trans hnames)
    exact (h.hasDirectory hgrown hnames).find husable hnode
  · rw [List.concat_eq_append] at hnames hnode husable ⊢
    obtain ⟨hfront, hname, hshort, -⟩ := hgrown.of_lookup_concat hnames
    rw [Path.descend_concat] at husable ⊢
    rw [find_eq_ok_iff, h.resolve hgrown hfront hname hshort husable .followed, targetAt, hnode]

/-- A path through a name that is not there leads nowhere. -/
theorem resolve_eq_notFound (hgrown : branch.IsGrown) {rest : List String}
    (hfront : branch.lookup front = some .newDirectory)
    (hnone : branch.lookup (front ++ [last]) = none) (hrest : rest ≠ [])
    (hnames : ∀ name ∈ front ++ last :: rest, Path.IsName name)
    (hshort : last.utf8ByteSize ≤ maxNameBytes)
    (husable : ((parent / name).descend (front ++ last :: rest)).IsUsable) (lastName : LastName) :
    (files.plant (base ++ [name]) branch).resolve cwd lastName
      ((parent / name).descend (front ++ last :: rest)) = .error .notFound := by
  have hbehind : ∀ name ∈ last :: rest, Path.IsName name :=
    fun name hmem => hnames name (List.mem_append_right _ hmem)
  have hlast : Path.IsName last := hbehind last List.mem_cons_self
  have hwithin : ((parent / name).descend front).IsWithin
      ((parent / name).descend (front ++ last :: rest)) (last :: rest) := by
    rw [Path.descend_append]
    exact (Path.IsWithin.refl _).descend hbehind
  have hwants : ((parent / name).descend (front ++ last :: rest)).wantsDirectory = false := by
    obtain ⟨before, name', hconcat⟩ := List.eq_nil_or_concat rest |>.resolve_left hrest
    have hname' : Path.IsName name' := hnames name' (by simp [hconcat])
    rw [hconcat, List.concat_eq_append, ← List.cons_append, ← List.append_assoc,
      Path.descend_concat]
    exact hname'.wantsDirectory_div
  refine (h.hasDirectory hgrown hfront).resolve_eq_notFound
    (h.admits_of_lookup hfront hlast hshort) ?_ hwithin hrest husable hwants
  rw [List.append_assoc, h.get?_plant, hnone]

/-- The directory at the place of the branch exists. -/
theorem makeDirectory_root (hgrown : branch.IsGrown) (husable : (parent / name).IsUsable) :
    (files.plant (base ++ [name]) branch).makeDirectory cwd (parent / name) =
      .error .alreadyExists := by
  have hkeeps := keeps_plant h.vacant branch
  have hnode : (files.plant (base ++ [name]) branch).get? (base ++ [name]) =
      some .newDirectory := by
    simpa [hgrown.lookup_nil] using h.get?_plant branch []
  rw [makeDirectory_div parent h.isName, (h.hasParent.keeps hkeeps).resolve_div h.isName husable
    (hkeeps.toExtends.admits h.admits) (by simp [hnode]), targetAt, hnode]

/-- A directory cannot be created alone when its directory is missing. -/
theorem makeDirectory_eq_notFound (hgrown : branch.IsGrown) (hadmits : branch.Admits (front ++ [last]))
    (hnone : branch.lookup front = none)
    (husable : ((parent / name).descend front / last).IsUsable) :
    (files.plant (base ++ [name]) branch).makeDirectory cwd ((parent / name).descend front / last) =
      .error .notFound := by
  obtain ⟨before, first, rest, rfl, hbefore, hfirst⟩ :=
    hgrown.exists_of_lookup_eq_none hnone hadmits.of_concat.directory
  rw [← Path.descend_concat, List.append_assoc, List.cons_append] at husable
  have hresolve := h.resolve_eq_notFound hgrown hbefore hfirst (by simp)
    (by simpa using hadmits.isName) (hadmits.short first (by simp)) husable .kept
  rw [← List.cons_append, ← List.append_assoc, Path.descend_concat] at hresolve
  rw [makeDirectory_div _ (hadmits.isName last (by simp)), hresolve]

/-- One more directory, in a directory of the branch. -/
theorem makeDirectory (hgrown : branch.IsGrown) (hfront : branch.lookup front = some .newDirectory)
    (hname : Path.IsName last) (hshort : last.utf8ByteSize ≤ maxNameBytes)
    (husable : ((parent / name).descend front / last).IsUsable) :
    (files.plant (base ++ [name]) branch).makeDirectory cwd ((parent / name).descend front / last) =
      match branch.lookup (front ++ [last]) with
      | some _ => .error .alreadyExists
      | none => .ok (files.plant (base ++ [name]) ((front ++ [last], .newDirectory) :: branch)) := by
  have hnode := h.get?_plant branch (front ++ [last])
  rw [makeDirectory_div _ hname, h.resolve hgrown hfront hname hshort husable, targetAt, hnode]
  cases branch.lookup (front ++ [last]) with
  | some node => rfl
  | none =>
    dsimp only
    rw [create, ← List.append_assoc, List.dropLast_concat,
      h.isChangeable_of_lookup hfront, if_pos rfl, plant, List.append_assoc]

/-- One more file, in a directory of the branch. -/
theorem overwrite (hgrown : branch.IsGrown) (hfront : branch.lookup front = some .newDirectory)
    (hnew : branch.lookup (front ++ [last]) = none) (hname : Path.IsName last)
    (hshort : last.utf8ByteSize ≤ maxNameBytes)
    (husable : ((parent / name).descend front / last).IsUsable) (content : Content) :
    (files.plant (base ++ [name]) branch).overwrite cwd ((parent / name).descend front / last)
      content none = .ok (files.plant (base ++ [name])
        ((front ++ [last], .file Mode.newFile content) :: branch)) := by
  have hnode := h.get?_plant branch (front ++ [last])
  rw [FileSystem.overwrite, h.resolve hgrown hfront hname hshort husable, targetAt, hnode, hnew]
  dsimp only
  rw [create, ← List.append_assoc, List.dropLast_concat, h.isChangeable_of_lookup hfront, if_pos rfl,
    plant, List.append_assoc]
  rfl

end IsSite

end FileSystem

end SketchApk
