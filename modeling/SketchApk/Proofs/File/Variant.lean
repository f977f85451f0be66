import SketchApk.Proofs.File.Agreement

/-!
# Files with one of two contents

A file system is a variant of another one if the two are the same, except that files with one
content here may have another content there. Nothing but reading such a file can tell the two apart:
paths lead to the same places, and what is renamed in one can be renamed in the other.

## Main definitions

* `FileSystem.Variant` : file systems that are the same up to files with two contents.

## Main statements

* `FileSystem.Variant.resolve` : paths lead to the same places.
* `FileSystem.get?_moveTree` : what is where after a tree has been moved.
* `FileSystem.Variant.run_rename` : renaming keeps variants.
* `FileSystem.variant_run_write` : writing one content or the other yields variants.
-/

namespace SketchApk.FileSystem

variable {files other : FileSystem} {cwd place there source target : Location} {node node' : Node}
  {content content' : Content} {path : Path}

/-! ### Moving trees -/

/-- What lies below a place. -/
theorem mem_below {entry : Location × Node} : entry ∈ files.below place ↔
    entry.1 ≠ [] ∧ files.get? (place ++ entry.1) = some entry.2 := by
  obtain ⟨rest, node⟩ := entry
  rw [below, List.mem_filterMap]
  constructor
  · rintro ⟨⟨there, found⟩, hnode, hentry⟩
    split at hentry
    · rename_i hbelow
      rw [Bool.and_eq_true, List.isPrefixOf_iff_prefix, decide_eq_true_eq] at hbelow
      obtain ⟨⟨more, rfl⟩, hlength⟩ := hbelow
      rw [List.drop_left, Option.some.injEq, Prod.mk.injEq] at hentry
      obtain ⟨rfl, rfl⟩ := hentry
      refine ⟨?_, Std.ExtTreeMap.mem_toList_iff_getElem?_eq_some.mp hnode⟩
      rintro rfl
      simp at hlength
    · cases hentry
  · rintro ⟨hne, hnode⟩
    refine ⟨(place ++ rest, node), Std.ExtTreeMap.mem_toList_iff_getElem?_eq_some.mpr hnode, ?_⟩
    have hlength : 0 < rest.length := List.length_pos_iff.mpr hne
    simp [isPrefixOf_append, hlength]

/-- Nodes that are put at places below a target, where they are given by their places. -/
theorem get?_foldl_put_append (nodeAt : Location → Option Node) {entries : List (Location × Node)}
    (h : ∀ entry ∈ entries, nodeAt entry.1 = some entry.2) (files : FileSystem) (rest : Location) :
    (entries.foldl (fun moved entry => moved.put (target ++ entry.1) entry.2) files).get?
        (target ++ rest) =
      if rest ∈ entries.map Prod.fst then nodeAt rest else files.get? (target ++ rest) := by
  induction entries generalizing files with
  | nil => rfl
  | cons entry entries ih =>
    obtain ⟨hentry, hrest⟩ := List.forall_mem_cons.mp h
    rw [List.foldl_cons, ih hrest, get?_put, List.map_cons]
    by_cases hmem : rest ∈ entries.map Prod.fst
    · rw [if_pos hmem, if_pos (List.mem_cons_of_mem _ hmem)]
    · rw [if_neg hmem]
      by_cases hplace : entry.1 = rest
      · subst hplace
        rw [if_pos rfl, if_pos List.mem_cons_self, hentry]
      · rw [if_neg (mt List.append_cancel_left hplace), if_neg]
        exact fun hcons => (List.mem_cons.mp hcons).elim (Ne.symm hplace) hmem

/-- After a tree has been moved, its nodes are at the target. -/
theorem get?_moveTree_append (files : FileSystem) (source target : Location) (node : Node)
    (rest : Location) : (files.moveTree source target node).get? (target ++ rest) =
      if rest = [] then some node else files.get? (source ++ rest) := by
  have hmem : rest ∈ (files.below source).map Prod.fst ↔
      rest ≠ [] ∧ ∃ found, files.get? (source ++ rest) = some found := by
    rw [List.mem_map]
    constructor
    · rintro ⟨entry, hentry, rfl⟩
      exact ⟨(mem_below.mp hentry).1, _, (mem_below.mp hentry).2⟩
    · rintro ⟨hne, found, hfound⟩
      exact ⟨(rest, found), mem_below.mpr ⟨hne, hfound⟩, rfl⟩
  have hself : target = target ++ rest ↔ rest = [] :=
    ⟨fun h => List.append_cancel_left (h.symm.trans (List.append_nil target).symm),
      fun h => by simp [h]⟩
  rw [moveTree, get?_foldl_put_append (fun rest => files.get? (source ++ rest))
    fun entry hentry => (mem_below.mp hentry).2, get?_put, get?_eraseTree,
    if_pos (isPrefixOf_append target rest)]
  simp only [hself]
  by_cases hrest : rest = []
  · rw [if_pos hrest, if_neg fun h => (hmem.mp h).1 hrest, if_pos hrest]
  · rw [if_neg hrest, if_neg hrest]
    split
    · rfl
    · cases hfound : files.get? (source ++ rest) with
      | none => rfl
      | some found => exact absurd (hmem.mpr ⟨hrest, found, hfound⟩) ‹_›

/-- After a tree has been moved, everything else has stayed in its place. -/
theorem get?_moveTree (h : target.isPrefixOf there = false) (files : FileSystem) (source : Location)
    (node : Node) :
    (files.moveTree source target node).get? there = (files.eraseTree source).get? there := by
  rw [moveTree, get?_foldl_put h, get?_put, if_neg, get?_eraseTree_of_not_below h]
  rintro rfl
  rw [← List.append_nil target, List.append_nil, ← Bool.not_eq_true] at h
  exact h (List.isPrefixOf_iff_prefix.mpr (List.prefix_refl _))

/-! ### Variants -/

/-- The file systems are the same, except that files with the first content here may have the second
one there. -/
def Variant (content content' : Content) (files other : FileSystem) : Prop :=
  ∀ place, files.get? place = other.get? place ∨
    ∃ mode, files.get? place = some (.file mode content) ∧
      other.get? place = some (.file mode content')

namespace Variant

variable (h : Variant content content' files other)

include h

theorem isSearchable (place : Location) : other.isSearchable place = files.isSearchable place := by
  rw [FileSystem.isSearchable, FileSystem.isSearchable]
  rcases h place with heq | ⟨mode, hfile, hfile'⟩
  · rw [heq]
  · rw [hfile, hfile']

theorem isChangeable (place : Location) : other.isChangeable place = files.isChangeable place := by
  rw [FileSystem.isChangeable, FileSystem.isChangeable]
  rcases h place with heq | ⟨mode, hfile, hfile'⟩
  · rw [heq]
  · rw [hfile, hfile']

end Variant

/-- Two answers to the question where a path leads are the same, or they are files with two
contents. -/
def Target.Varies (content content' : Content) (answer answer' : Except FileError Target) : Prop :=
  answer = answer' ∨ ∃ place mode, answer = .ok (.existing place (.file mode content)) ∧
    answer' = .ok (.existing place (.file mode content'))

/-- A name leads to the same. -/
theorem Variant.pass (h : Variant content content' files other) (last : LastName)
    (asDirectory : Bool) (place : Location) (name : String) (rest : List String) :
    files.pass last asDirectory place name rest = other.pass last asDirectory place name rest ∨
      ∃ there mode, files.pass last asDirectory place name rest =
          .ended (.existing there (.file mode content)) ∧
        other.pass last asDirectory place name rest =
          .ended (.existing there (.file mode content')) := by
  rw [FileSystem.pass, FileSystem.pass, h.isSearchable]
  split_ifs
  any_goals exact .inl rfl
  rw [arrive, arrive]
  rcases h (place ++ [name]) with heq | ⟨mode, hfile, hfile'⟩
  · rw [heq]
    exact .inl rfl
  · rw [hfile, hfile']
    cases hlast : rest.isEmpty && !asDirectory with
    | true => exact .inr ⟨place ++ [name], mode, rfl, rfl⟩
    | false => exact .inl rfl

theorem Variant.descend {last : LastName} {asDirectory : Bool}
    {jump jump' : Location → Path → List String → Except FileError Target}
    (hjump : ∀ here path rest,
      Target.Varies content content' (jump here path rest) (jump' here path rest))
    (h : Variant content content' files other) (place : Location) (names : List String) :
    Target.Varies content content' (files.descend last asDirectory jump place names)
      (other.descend last asDirectory jump' place names) := by
  induction names generalizing place with
  | nil =>
    rw [descend_nil, descend_nil]
    rcases h place with heq | ⟨mode, hfile, hfile'⟩
    · rw [heq]
      exact .inl rfl
    · rw [hfile, hfile']
      exact .inr ⟨place, mode, rfl, rfl⟩
  | cons name rest ih =>
    rw [descend_cons, descend_cons]
    rcases h.pass last asDirectory place name rest with heq | ⟨there, mode, hended, hended'⟩
    · rw [heq]
      cases other.pass last asDirectory place name rest with
      | onward next => exact ih next
      | linked path => exact hjump place path rest
      | ended | blocked => exact .inl rfl
    · rw [hended, hended']
      exact .inr ⟨there, mode, rfl, rfl⟩

theorem Variant.resolveNames {last : LastName} (h : Variant content content' files other)
    (links : Nat) (asDirectory : Bool) (place : Location) (names : List String) :
    Target.Varies content content' (files.resolveNames last links asDirectory place names)
      (other.resolveNames last links asDirectory place names) := by
  induction links generalizing asDirectory place names with
  | zero => exact h.descend (fun _ _ _ => .inl rfl) place names
  | succ links ih => exact h.descend (fun _ _ _ => ih _ _ _) place names

/-- Paths lead to the same places. -/
theorem Variant.resolve (h : Variant content content' files other) (cwd : Location)
    (last : LastName) (path : Path) :
    Target.Varies content content' (files.resolve cwd last path) (other.resolve cwd last path) := by
  rw [FileSystem.resolve, FileSystem.resolve]
  split_ifs
  any_goals exact .inl rfl
  all_goals exact h.resolveNames _ _ _ _

/-! ### Changes -/

theorem Variant.refl (content content' : Content) (files : FileSystem) :
    Variant content content' files files :=
  fun _ => .inl rfl

namespace Variant

variable (h : Variant content content' files other)

include h

theorem isEmpty_below (place : Location) :
    (other.below place).isEmpty = (files.below place).isEmpty := by
  have hsome (there : Location) : (∃ node, other.get? there = some node) ↔
      ∃ node, files.get? there = some node := by
    rcases h there with heq | ⟨mode, hfile, hfile'⟩
    · rw [heq]
    · simp [hfile, hfile']
  have hmem {files : FileSystem} : (files.below place).isEmpty = false ↔
      ∃ rest, rest ≠ [] ∧ ∃ node, files.get? (place ++ rest) = some node := by
    rw [List.isEmpty_eq_false_iff_exists_mem]
    simp only [mem_below, Prod.exists, exists_and_left]
  rw [Bool.eq_iff_iff, ← not_iff_not, Bool.not_eq_true, Bool.not_eq_true, hmem, hmem]
  simp only [hsome]

/-- Moving a tree keeps variants. -/
theorem moveTree (source target : Location)
    (hnode : node = node' ∨ ∃ mode, node = .file mode content ∧ node' = .file mode content') :
    Variant content content' (files.moveTree source target node)
      (other.moveTree source target node') := by
  intro there
  cases htarget : target.isPrefixOf there with
  | false =>
    rw [get?_moveTree htarget, get?_moveTree htarget, get?_eraseTree, get?_eraseTree]
    split
    · exact .inl rfl
    · exact h there
  | true =>
    obtain ⟨rest, rfl⟩ := List.isPrefixOf_iff_prefix.mp htarget
    rw [get?_moveTree_append, get?_moveTree_append]
    split
    · rcases hnode with rfl | ⟨mode, rfl, rfl⟩
      · exact .inl rfl
      · exact .inr ⟨mode, rfl, rfl⟩
    · exact h _

end Variant

/-- What has been given another name in one variant has it in the other one as well. -/
theorem Variant.renameNode (h : Variant content content' files other) (cwd : Location)
    (source target : Path) :
    Variant content content' (FileOperation.settle files (files.renameNode cwd source target)).2
      (FileOperation.settle other (other.renameNode cwd source target)).2 := by
  have hcan (place there : Location) :
      other.canRename place there = files.canRename place there := by
    rw [canRename, canRename, h.isChangeable, h.isChangeable]
  rw [FileSystem.renameNode, FileSystem.renameNode]
  rcases h.resolve cwd .kept source with hsource | ⟨place, mode, hsource, hsource'⟩ <;>
    rcases h.resolve cwd .kept target with htarget | ⟨there, mode', htarget, htarget'⟩
  · rw [hsource, htarget]
    rcases other.resolve cwd .kept source with error | ⟨place, _ | _ | _⟩ | _ <;>
      rcases other.resolve cwd .kept target with error' | ⟨there, _ | _ | _⟩ | ⟨there, asDirectory⟩ <;>
      simp only [hcan, h.isEmpty_below] <;> try split_ifs
    all_goals first | exact h | exact h.moveTree _ _ (.inl rfl)
  · rw [hsource, htarget, htarget']
    rcases other.resolve cwd .kept source with error | ⟨place, _ | _ | _⟩ | _ <;>
      simp only [hcan] <;> try split_ifs
    all_goals first | exact h | exact h.moveTree _ _ (.inl rfl)
  · rw [hsource, hsource', htarget]
    rcases other.resolve cwd .kept target with error' | ⟨there, _ | _ | _⟩ | ⟨there, asDirectory⟩ <;>
      simp only [hcan] <;> try split_ifs
    all_goals first | exact h | exact h.moveTree _ _ (.inr ⟨mode, rfl, rfl⟩)
  · rw [hsource, hsource', htarget, htarget']
    simp only [hcan]
    split_ifs
    all_goals first | exact h | exact h.moveTree _ _ (.inr ⟨mode, rfl, rfl⟩)

/-- Renaming keeps variants. -/
theorem Variant.run_rename (h : Variant content content' files other) (cwd : Location)
    (source target : Path) :
    Variant content content' ((FileOperation.rename source target).run cwd files).2
      ((FileOperation.rename source target).run cwd other).2 := by
  -- A path that ends in dots cannot be renamed, wherever it leads.
  have hbusy (files : FileSystem) (path : Path) : (FileOperation.settle files (do
      discard (files.find cwd path)
      (.error .busy : Except FileError FileSystem))).2 = files := by
    cases files.find cwd path <;> rfl
  simp only [FileOperation.run, rename]
  split_ifs
  · rw [hbusy, hbusy]
    exact h
  · rw [hbusy, hbusy]
    exact h
  · exact h.renameNode cwd source target

/-- Writing one content or the other has the same answer, and it yields variants. -/
theorem variant_run_write (content content' : Content) (cwd : Location) (path : Path)
    (files : FileSystem) :
    ((FileOperation.write path content).run cwd files).1 =
        ((FileOperation.write path content').run cwd files).1 ∧
      Variant content content' ((FileOperation.write path content).run cwd files).2
        ((FileOperation.write path content').run cwd files).2 := by
  have hput (place : Location) (mode : Mode) : Variant content content'
      (files.put place (.file mode content)) (files.put place (.file mode content')) := by
    intro there
    rw [get?_put, get?_put]
    split
    · exact .inr ⟨mode, rfl, rfl⟩
    · exact .inl rfl
  simp only [FileOperation.run, overwrite, create, Option.map_none, Option.getD_none]
  split
  · split
    · exact ⟨rfl, hput _ _⟩
    · exact ⟨rfl, .refl _ _ files⟩
  · exact ⟨rfl, .refl _ _ files⟩
  · split
    · exact ⟨rfl, hput _ _⟩
    · exact ⟨rfl, .refl _ _ files⟩
  · exact ⟨rfl, .refl _ _ files⟩

end SketchApk.FileSystem
