import SketchApk.Proofs.File.Agreement
import SketchApk.Proofs.File.Kept

/-!
# Entries that may be removed

Some entries of a directory may be left from an earlier time. They matter to nobody who does not
pass through them. Removing all of them, each with everything below it, leaves the *bare* file
system, whatever they were. Removing an entry that is not there leaves the files as they are.

## Main definitions

* `FileSystem.bare` : a file system without what lies at or below some places.
* `FileSystem.IsTree` : every node but the root lies in a directory.
* `FileSystem.Cluttered` : a path leads to a directory without passing through some of its entries.
* `FileSystem.SameWithout` : two file systems that are the same without these entries.

## Main statements

* `FileSystem.eq_eraseTree_of_removeTree` : what is left when an entry has been removed.
* `FileSystem.bare_eraseTree` : removing an entry makes no difference to the bare file system.
* `FileSystem.SameWithout.put_program` : nor does it make a difference to change the permission bits
  of a program in both file systems.
-/

namespace SketchApk

namespace FileSystem

variable {files other changed : FileSystem} {cwd place there : Location} {path root : Path}
  {node : Node} {names : List String} {name : String} {places : List Location}

/-- Every node but the root lies in a directory. -/
def IsTree (files : FileSystem) : Prop :=
  ∀ place name node, files.get? (place ++ [name]) = some node →
    ∃ mode, files.get? place = some (.directory mode)

/-- Below a place without a node there is none. -/
theorem IsTree.get?_eq_none (h : files.IsTree) (hnone : files.get? place = none)
    (rest : List String) : files.get? (place ++ rest) = none := by
  induction rest using List.reverseRecOn with
  | nil => simpa using hnone
  | append_singleton rest name ih =>
    cases hnode : files.get? (place ++ (rest ++ [name])) with
    | none => rfl
    | some node =>
      rw [← List.append_assoc] at hnode
      obtain ⟨mode, hmode⟩ := h _ _ _ hnode
      rw [ih] at hmode
      cases hmode

/-- A place with a node below it is a directory. -/
theorem IsTree.exists_directory (h : files.IsTree) {rest : List String} (hne : rest ≠ [])
    (hnode : files.get? (place ++ rest) = some node) :
    ∃ mode, files.get? place = some (.directory mode) := by
  induction rest using List.reverseRecOn generalizing node with
  | nil => exact absurd rfl hne
  | append_singleton front name ih =>
    rw [← List.append_assoc] at hnode
    obtain ⟨mode, hmode⟩ := h _ _ _ hnode
    cases front with
    | nil => exact ⟨mode, by simpa using hmode⟩
    | cons first rest => exact ih (List.cons_ne_nil _ _) hmode

theorem get?_root_nil : FileSystem.root.get? [] = some (.directory Mode.newDirectory) := by
  simp [FileSystem.root, get?]

/-- There is nothing below the root of the file system that consists of it. -/
theorem get?_root_of_ne_nil (h : place ≠ []) : FileSystem.root.get? place = none := by
  simpa [FileSystem.root, get?] using h

theorem isTree_root : FileSystem.root.IsTree := by
  intro place name node hnode
  simp [FileSystem.root, get?] at hnode

/-- A new entry of a directory belongs to the tree. -/
theorem IsTree.put {mode : Mode} (h : files.IsTree) (place : Location) (name : String)
    (hdirectory : files.get? place = some (.directory mode))
    (hnone : files.get? (place ++ [name]) = none) (node : Node) :
    (files.put (place ++ [name]) node).IsTree := by
  intro parent last found hfound
  obtain ⟨mode', hparent⟩ : ∃ mode, files.get? parent = some (.directory mode) := by
    rw [get?_put] at hfound
    split at hfound
    · rename_i hsame
      obtain ⟨rfl, -⟩ := List.append_inj' hsame rfl
      exact ⟨mode, hdirectory⟩
    · exact h _ _ _ hfound
  refine ⟨mode', ?_⟩
  rw [get?_put, if_neg, hparent]
  rintro rfl
  cases hnone.symm.trans hparent

/-- A file in place of another one. -/
theorem IsTree.put_file {mode : Mode} {content : Content} (h : files.IsTree)
    (hfile : files.get? place = some (.file mode content)) (bits : Mode) (written : Content) :
    (files.put place (.file bits written)).IsTree := by
  intro parent name node hnode
  rw [get?_put] at hnode
  obtain ⟨old, hold⟩ : ∃ old, files.get? (parent ++ [name]) = some old := by
    split at hnode
    · rename_i heq
      exact ⟨_, heq ▸ hfile⟩
    · exact ⟨node, hnode⟩
  obtain ⟨mode', hmode⟩ := h _ _ _ hold
  refine ⟨mode', ?_⟩
  rw [get?_put, if_neg, hmode]
  rintro rfl
  cases hmode.symm.trans hfile

/-- A directory stays when one of its entries is erased. -/
theorem get?_eraseTree_concat (files : FileSystem) (place : Location) (name : String) :
    (files.eraseTree (place ++ [name])).get? place = files.get? place := by
  refine get?_eraseTree_of_not_below ?_
  rw [Bool.eq_false_iff, ne_eq, List.isPrefixOf_iff_prefix]
  exact not_concat_prefix_self place name

theorem IsTree.eraseTree (h : files.IsTree) (place : Location) :
    (files.eraseTree place).IsTree := by
  intro there name node hnode
  rw [get?_eraseTree] at hnode
  split at hnode
  · cases hnode
  · rename_i hbelow
    obtain ⟨mode, hmode⟩ := h _ _ _ hnode
    refine ⟨mode, ?_⟩
    rw [get?_eraseTree_of_not_below, hmode]
    rw [Bool.eq_false_iff, ne_eq, List.isPrefixOf_iff_prefix] at *
    exact fun hbegins => hbelow (hbegins.trans (List.prefix_append _ _))

/-- Erasing what is not there changes nothing. -/
theorem IsTree.eraseTree_eq_self (h : files.IsTree) (hnone : files.get? place = none) :
    files.eraseTree place = files := by
  refine ext fun there => ?_
  rw [get?_eraseTree]
  split
  · rename_i hbelow
    obtain ⟨rest, rfl⟩ := List.isPrefixOf_iff_prefix.mp hbelow
    exact (h.get?_eq_none hnone rest).symm
  · rfl

/-! ### File systems without some entries -/

/-- The file system without what lies at or below some places. -/
def bare (files : FileSystem) (places : List Location) : FileSystem :=
  places.foldl eraseTree files

/-- One of some places is a place or lies above it. -/
def covers (places : List Location) (place : Location) : Bool :=
  places.any (·.isPrefixOf place)

theorem get?_bare (files : FileSystem) (places : List Location) (there : Location) :
    (files.bare places).get? there = if covers places there then none else files.get? there := by
  induction places generalizing files with
  | nil => rfl
  | cons first rest ih =>
    rw [bare, List.foldl_cons, ← bare, ih, get?_eraseTree]
    have hcovers : covers (first :: rest) there =
        (first.isPrefixOf there || covers rest there) := rfl
    rw [hcovers]
    cases first.isPrefixOf there <;> cases covers rest there <;> rfl

theorem keeps_bare (files : FileSystem) (places : List Location) :
    (files.bare places).Keeps files := by
  intro there node hnode
  rw [get?_bare] at hnode
  split at hnode
  · cases hnode
  · exact hnode

/-- More is left when less is taken away. -/
theorem keeps_bare_bare {others : List Location}
    (h : ∀ there, covers others there = true → covers places there = true) :
    (files.bare places).Keeps (files.bare others) := by
  intro there node hnode
  rw [get?_bare] at hnode ⊢
  split at hnode
  · cases hnode
  · rwa [if_neg fun hthere => ‹¬_› (h there hthere)]

/-- What is kept apart from some places is kept without them. -/
theorem keeps_bare_of_keeps (h : (files.bare places).Keeps other) :
    (files.bare places).Keeps (other.bare places) := by
  intro there node hnode
  have hother := h there node hnode
  rw [get?_bare] at hnode ⊢
  split at hnode
  · cases hnode
  · rwa [if_neg ‹_›]

/-- The bare file systems are the same if there is the same elsewhere. -/
theorem bare_eq_bare_iff : files.bare places = other.bare places ↔
    ∀ there, covers places there = false → files.get? there = other.get? there := by
  constructor
  · intro h there hthere
    have hget := congrArg (·.get? there) h
    simpa only [get?_bare, hthere, Bool.false_eq_true, if_false] using hget
  · intro h
    refine ext fun there => ?_
    rw [get?_bare, get?_bare]
    cases hthere : covers places there with
    | true => rfl
    | false => exact h there hthere

/-- Erasing one of the places makes no difference to the bare file system. -/
theorem bare_eraseTree (h : place ∈ places) :
    (files.eraseTree place).bare places = files.bare places := by
  refine bare_eq_bare_iff.mpr fun there hthere => get?_eraseTree_of_not_below ?_
  exact List.any_eq_false.mp hthere place h |> Bool.eq_false_iff.mpr

/-- What is put below one of the places makes no difference to the bare file system. -/
theorem bare_put (h : covers places there = true) (node : Node) :
    (files.put there node).bare places = files.bare places := by
  refine bare_eq_bare_iff.mpr fun elsewhere helsewhere => ?_
  rw [get?_put, if_neg]
  rintro rfl
  exact Bool.false_ne_true (helsewhere.symm.trans h)

theorem isTree_bare (h : files.IsTree) (places : List Location) : (files.bare places).IsTree := by
  induction places generalizing files with
  | nil => exact h
  | cons first rest ih => exact ih (h.eraseTree first)

/-- Where nothing is left there is nothing to be removed. -/
theorem IsTree.bare_eq_self (h : files.IsTree)
    (hnone : ∀ place ∈ places, (files.get? place).isNone = true) : files.bare places = files := by
  induction places with
  | nil => rfl
  | cons first rest ih =>
    obtain ⟨hfirst, hrest⟩ := List.forall_mem_cons.mp hnone
    rw [bare, List.foldl_cons, h.eraseTree_eq_self (Option.isNone_iff_eq_none.mp hfirst)]
    exact ih hrest

/-! ### Removing entries -/

/-- Removing nodes one after the other leaves everything else, also when it does not succeed. -/
theorem get?_discardAll {gone : List Location} (files : FileSystem)
    (hgone : ∀ other ∈ gone, other.isPrefixOf there = false) :
    (discardAll gone files).2.get? there = files.get? there := by
  induction gone generalizing files with
  | nil => rfl
  | cons first rest ih =>
    obtain ⟨hfirst, hrest⟩ := List.forall_mem_cons.mp hgone
    rw [discardAll]
    split
    · rfl
    · rw [discardNode]
      split
      · rename_i hremaining
        split at hremaining <;> cases hremaining
        rw [ih _ hrest, get?_eraseTree_of_not_below hfirst]
      · rfl

/-- When the tree of a directory has been removed, the rest of the files is left. -/
theorem eq_eraseTree_of_removeTree {mode : Mode}
    (hresolve : files.resolve cwd .kept path = .ok (.existing place (.directory mode)))
    (h : files.removeTree cwd path = (.ok (), changed)) : changed = files.eraseTree place := by
  simp only [removeTree, hresolve] at h
  split at h
  · cases (Prod.mk.inj h).1
  · rcases hdiscard :
        discardAll ((files.below place).reverse.map fun entry => place ++ entry.1) files with ⟨error | ⟨⟩, remaining⟩
    · rw [hdiscard] at h
      cases (Prod.mk.inj h).1
    · rw [hdiscard, discardNode] at h
      simp only at h
      split at h
      · cases (Prod.mk.inj h).1
      · cases (Prod.mk.inj h).1
      · rename_i hrest
        split at hrest <;> cases hrest
        obtain ⟨-, rfl⟩ := Prod.mk.inj h
        -- What has been removed before lies below the place.
        refine ext fun there => ?_
        rw [get?_eraseTree, get?_eraseTree]
        cases hbelow : place.isPrefixOf there with
        | true => rfl
        | false =>
          rw [if_neg Bool.false_ne_true, if_neg Bool.false_ne_true,
            show remaining = (discardAll _ files).2 from (congrArg Prod.snd hdiscard).symm]
          refine get?_discardAll files fun other hmem => ?_
          obtain ⟨entry, -, rfl⟩ := List.mem_map.mp hmem
          rw [Bool.eq_false_iff, ne_eq, List.isPrefixOf_iff_prefix] at *
          exact fun hbegins => hbelow ((List.prefix_append _ _).trans hbegins)

/-! ### Cluttered directories -/

/-- The places of entries of a directory. -/
def entryPlaces (place : Location) (names : List String) : List Location :=
  names.map fun name => place ++ [name]

theorem mem_entryPlaces (h : name ∈ names) : place ++ [name] ∈ entryPlaces place names :=
  List.mem_map_of_mem h

theorem covers_entryPlaces_iff :
    covers (entryPlaces place names) there = true ↔ ∃ name ∈ names, place ++ [name] <+: there := by
  simp [covers, entryPlaces, List.isPrefixOf_iff_prefix]

/-- The directory itself stays. -/
theorem get?_bare_entryPlaces (files : FileSystem) (place : Location) (names : List String) :
    (files.bare (entryPlaces place names)).get? place = files.get? place := by
  rw [get?_bare, if_neg]
  rw [covers_entryPlaces_iff]
  rintro ⟨name, -, hbegins⟩
  exact not_concat_prefix_self place name hbegins

theorem concat_prefix_concat_iff {other : String} :
    place ++ [name] <+: place ++ [other] ↔ name = other := by
  rw [List.prefix_append_right_inj]
  simp

/-- The directory at a path may have entries with some names, none of which is a link. The path
leads to the directory also without them. -/
structure Cluttered (files : FileSystem) (cwd : Location) (root : Path) (place : Location)
    (names : List String) : Prop where
  tree : files.IsTree
  found : ∃ mode,
    (files.bare (entryPlaces place names)).find cwd root = .ok (place, .directory mode)
  isEntry : ∀ name ∈ names, IsEntry root name
  not_link : ∀ name ∈ names, ∀ target, files.get? (place ++ [name]) ≠ some (.link target)

/-- Another file in the place of a file makes no difference. -/
theorem Cluttered.put_file (h : files.Cluttered cwd root place names) {mode bits : Mode}
    {content written : Content} (hfile : files.get? there = some (.file mode content)) :
    (files.put there (.file bits written)).Cluttered cwd root place names where
  tree := h.tree.put_file hfile bits written
  found := by
    obtain ⟨mode', hfind⟩ := h.found
    refine ⟨mode', Extends.find_directory (fun other node hnode => ?_) hfind⟩
    rw [get?_bare] at hnode ⊢
    split at hnode
    · cases hnode
    · rw [if_neg ‹_›, get?_put]
      split
      · subst other
        obtain rfl := Option.some.inj (hfile.symm.trans hnode)
        exact ⟨_, rfl, trivial⟩
      · exact ⟨node, hnode, .refl node⟩
  isEntry := h.isEntry
  not_link other hother target hlink := by
    rw [get?_put] at hlink
    split at hlink
    · cases hlink
    · exact h.not_link other hother target hlink

/-! ### Two file systems -/

/-- Two file systems are the same without some entries of a directory. A program at one of some
paths is the same one in both, or it belongs to these entries in both. -/
structure SameWithout (files : FileSystem) (cwd : Location) (root : Path) (place : Location)
    (names : List String) (programs : List Path) (other : FileSystem) : Prop where
  cluttered : files.Cluttered cwd root place names
  cluttered_other : other.Cluttered cwd root place names
  bare_eq : files.bare (entryPlaces place names) = other.bare (entryPlaces place names)
  program : ∀ path ∈ programs, ∀ there node there' node',
    files.find cwd path = .ok (there, node) → other.find cwd path = .ok (there', node') →
      there = there' ∨ covers (entryPlaces place names) there = true ∧
        covers (entryPlaces place names) there' = true

/-- Another file in the place of a file leads nowhere else. -/
theorem exists_of_find_put {mode bits : Mode} {content written : Content}
    (hfile : files.get? there = some (.file mode content)) {found : Location}
    (hfind : (files.put there (.file bits written)).find cwd path = .ok (found, node)) :
    ∃ old, files.find cwd path = .ok (found, old) := by
  have hextends : (files.put there (.file bits written)).Extends files := by
    intro other node hnode
    rw [get?_put] at hnode
    split at hnode
    · subst other
      cases hnode
      exact ⟨_, hfile, trivial⟩
    · exact ⟨node, hnode, .refl node⟩
  obtain ⟨old, -, hold⟩ := hextends.resolve (find_eq_ok_iff.mp hfind)
  exact ⟨old, find_eq_ok_iff.mpr hold⟩

/-- The permission bits of a program change in the same way in both. -/
theorem SameWithout.put_program {programs : List Path} {change : Mode → Mode} {mode mode' : Mode}
    {content content' : Content} {there' : Location}
    (h : files.SameWithout cwd root place names programs other) (hpath : path ∈ programs)
    (hfind : files.find cwd path = .ok (there, .file mode content))
    (hfind' : other.find cwd path = .ok (there', .file mode' content')) :
    (files.put there (.file (change mode) content)).SameWithout cwd root place names programs
      (other.put there' (.file (change mode') content')) where
  cluttered := h.cluttered.put_file (get?_of_find hfind)
  cluttered_other := h.cluttered_other.put_file (get?_of_find hfind')
  bare_eq := by
    have hbare := bare_eq_bare_iff.mp h.bare_eq
    refine bare_eq_bare_iff.mpr fun elsewhere helsewhere => ?_
    rw [get?_put, get?_put]
    rcases h.program path hpath _ _ _ _ hfind hfind' with rfl | ⟨hthere, hthere'⟩
    · split
      · subst elsewhere
        have hsame := hbare there helsewhere
        rw [get?_of_find hfind, get?_of_find hfind'] at hsame
        cases hsame
        rfl
      · exact hbare elsewhere helsewhere
    · rw [if_neg, if_neg]
      · exact hbare elsewhere helsewhere
      · rintro rfl
        exact Bool.false_ne_true (helsewhere.symm.trans hthere')
      · rintro rfl
        exact Bool.false_ne_true (helsewhere.symm.trans hthere)
  program path hpath found node found' node' hfound hfound' := by
    obtain ⟨old, hold⟩ := exists_of_find_put (get?_of_find hfind) hfound
    obtain ⟨old', hold'⟩ := exists_of_find_put (get?_of_find hfind') hfound'
    exact h.program path hpath _ _ _ _ hold hold'

end FileSystem

end SketchApk
