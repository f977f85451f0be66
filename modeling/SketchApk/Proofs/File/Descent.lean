import SketchApk.Proofs.File.Kept
import SketchApk.Proofs.File.Leftover
import SketchApk.Proofs.File.Walk

/-!
# Descents in place

A walk can be carried out in place. Each directory is listed when the walk comes to it, its entries
are put in order by the bytes of their names, and what is below an entry is gone through before the
next entry. In what order the system lists the entries of a directory is open. It makes no difference:
the files are found in the order of their locations, compared name by name.

## Main definitions

* `FileSystem.nameBytes` : the bytes of a name.
* `FileSystem.byName` : entries in the order of the bytes of their names.
* `FileSystem.descent` : what a descent comes across.

## Main statements

* `FileSystem.nameBytes_lt_of_lt` : names are ordered as their bytes are.
* `FileSystem.below_eq_flatMap` : what is below a directory, entry by entry.
* `FileSystem.descent_eq` : a descent comes across what a walk does.
-/

namespace SketchApk

/-- One walk after the other. The second one does not begin if the first one comes to a halt. -/
def FileWalk.andThen (first second : FileWalk) : FileWalk :=
  match first.halt with
  | none => { second with files := first.files ++ second.files }
  | some _ => first

namespace FileSystem

/-! ### The bytes of names -/

/-- The bytes of a name. -/
def nameBytes (name : String) : List UInt8 :=
  name.toUTF8.data.toList

theorem toNat_val_lt (c : Char) : c.val.toNat < 0x110000 := by
  rcases c.valid with h | h
  · exact Nat.lt_trans h (by decide)
  · exact h.2

/-- The bytes of characters are ordered as the characters are, whatever follows. Both are compared
by the digits to the base 64. -/
theorem utf8EncodeChar_append_lt {c d : Char} (h : c < d) (rest others : List UInt8) :
    String.utf8EncodeChar c ++ rest < String.utf8EncodeChar d ++ others := by
  have hlt : c.val.toNat < d.val.toNat := h
  have hbound := toNat_val_lt d
  rw [String.utf8EncodeChar, String.utf8EncodeChar]
  generalize c.val.toNat = v at hlt
  generalize d.val.toNat = w at hlt hbound
  split_ifs <;>
    simp (disch := omega) only [List.cons_append, List.cons_lt_cons_iff, UInt8.lt_iff_toNat_lt,
      ← UInt8.toNat_inj, UInt8.toNat_ofNat', Nat.mod_eq_of_lt] <;>
    omega

theorem flatMap_utf8EncodeChar_lt {text other : List Char} (h : text < other) :
    text.flatMap String.utf8EncodeChar < other.flatMap String.utf8EncodeChar := by
  induction h with
  | @nil c rest =>
    obtain ⟨byte, bytes, hbytes⟩ := List.exists_cons_of_ne_nil (String.utf8EncodeChar_ne_nil (c := c))
    rw [List.flatMap_nil, List.flatMap_cons, hbytes]
    exact List.nil_lt_cons _ _
  | cons _ ih =>
    rw [List.flatMap_cons, List.flatMap_cons]
    exact List.append_left_lt ih
  | rel hlt =>
    rw [List.flatMap_cons, List.flatMap_cons]
    exact utf8EncodeChar_append_lt hlt _ _

theorem nameBytes_eq (name : String) : nameBytes name = name.toList.flatMap String.utf8EncodeChar := by
  rw [nameBytes, String.toUTF8_eq_toByteArray, ← String.utf8Encode_toList, List.utf8Encode,
    List.data_toByteArray]

/-- Names are ordered as their bytes are. -/
theorem nameBytes_lt_of_lt {name other : String} (h : name < other) :
    nameBytes name < nameBytes other := by
  rw [nameBytes_eq, nameBytes_eq]
  exact flatMap_utf8EncodeChar_lt h

theorem nameBytes_injective : Function.Injective nameBytes := fun _ _ h =>
  String.toByteArray_inj.mp (ByteArray.ext (Array.toList_inj.mp h))

theorem lt_of_compare {name other : String} (h : compare name other = .lt) : name < other :=
  (compareOfLessAndEq_eq_lt).mp h

/-- Locations are ordered name by name, by the bytes of the names. -/
theorem map_nameBytes_lt_of_compare {names others : List String} (h : compare names others = .lt) :
    names.map nameBytes < others.map nameBytes := by
  induction names generalizing others with
  | nil =>
    cases others with
    | nil => cases h
    | cons other others => exact List.nil_lt_cons _ _
  | cons name names ih =>
    cases others with
    | nil => cases h
    | cons other others =>
      rw [List.compare_cons_cons, Ordering.then_eq_lt] at h
      rw [List.map_cons, List.map_cons, List.cons_lt_cons_iff]
      rcases h with h | ⟨heq, h⟩
      · exact .inl (nameBytes_lt_of_lt (lt_of_compare h))
      · exact .inr ⟨congrArg nameBytes (Std.LawfulEqOrd.eq_of_compare heq), ih h⟩

variable {files : FileSystem} {cwd place : Location} {root : Path} {names : List String}
  {name : String} {node : Node} {mode : Mode}

/-! ### Below a directory, entry by entry -/

theorem mem_children : (name, node) ∈ files.children place ↔
    files.get? (place ++ [name]) = some node := by
  rw [children, List.mem_filterMap]
  constructor
  · rintro ⟨⟨others, found⟩, hbelow, hentry⟩
    split at hentry
    · rename_i first hfirst
      obtain ⟨rfl, rfl⟩ := Prod.mk.inj (Option.some.inj hentry)
      obtain rfl : others = [first] := hfirst
      exact (mem_below.mp hbelow).2
    · cases hentry
  · exact fun h => ⟨([name], node), mem_below.mpr ⟨List.cons_ne_nil _ _, h⟩, rfl⟩

/-- The entries of a directory are in order. -/
theorem pairwise_children (files : FileSystem) (place : Location) :
    (files.children place).Pairwise fun entry other => compare entry.1 other.1 = .lt := by
  refine List.Pairwise.filterMap _ (fun entry other hlt named hnamed behind hbehind => ?_)
    (pairwise_below files place)
  split at hnamed
  · rename_i name hname
    obtain rfl := Option.some.inj hnamed
    split at hbehind
    · rename_i last hlast
      obtain rfl := Option.some.inj hbehind
      rw [hname, hlast] at hlt
      simpa using hlt
    · cases hbehind
  · cases hnamed

/-- A node with the names that lead to it from further up. -/
def shift (front : List String) (entry : Location × Node) : Location × Node :=
  (front ++ entry.1, entry.2)

/-- An entry of a directory with everything below it. -/
def branchOf (files : FileSystem) (place : Location) (entry : String × Node) :
    List (Location × Node) :=
  ([entry.1], entry.2) :: (files.below (place ++ [entry.1])).map (shift [entry.1])

theorem mem_branchOf {entry : Location × Node} : entry ∈ files.branchOf place (name, node) ↔
    entry = ([name], node) ∨ ∃ rest, rest ≠ [] ∧ entry.1 = name :: rest ∧
      files.get? (place ++ [name] ++ rest) = some entry.2 := by
  rw [branchOf, List.mem_cons, List.mem_map]
  refine or_congr Iff.rfl ⟨?_, ?_⟩
  · rintro ⟨⟨rest, other⟩, hbelow, rfl⟩
    obtain ⟨hne, hother⟩ := mem_below.mp hbelow
    exact ⟨rest, hne, rfl, hother⟩
  · rintro ⟨rest, hne, hentry, hother⟩
    exact ⟨(rest, entry.2), mem_below.mpr ⟨hne, hother⟩, Prod.ext hentry.symm rfl⟩

theorem mem_flatMap_branchOf (htree : files.IsTree) {entry : Location × Node} :
    entry ∈ (files.children place).flatMap (files.branchOf place) ↔ entry ∈ files.below place := by
  rw [List.mem_flatMap, mem_below]
  constructor
  · rintro ⟨⟨name, node⟩, hchild, hentry⟩
    rcases mem_branchOf.mp hentry with rfl | ⟨rest, -, hnames, hnode⟩
    · exact ⟨List.cons_ne_nil _ _, mem_children.mp hchild⟩
    · rw [hnames, List.append_cons]
      exact ⟨List.cons_ne_nil _ _, hnode⟩
  · rintro ⟨hne, hnode⟩
    obtain ⟨name, rest, hnames⟩ := List.exists_cons_of_ne_nil hne
    rw [hnames, List.append_cons] at hnode
    by_cases hrest : rest = []
    · subst hrest
      rw [List.append_nil] at hnode
      exact ⟨(name, entry.2), mem_children.mpr hnode, mem_branchOf.mpr (.inl (Prod.ext hnames rfl))⟩
    · obtain ⟨mode, hmode⟩ := htree.exists_directory hrest hnode
      exact ⟨(name, .directory mode), mem_children.mpr hmode,
        mem_branchOf.mpr (.inr ⟨rest, hrest, hnames, hnode⟩)⟩

/-- An entry comes before everything below it. -/
theorem pairwise_branchOf (files : FileSystem) (place : Location) (entry : String × Node) :
    (files.branchOf place entry).Pairwise fun first second => compare first.1 second.1 = .lt := by
  refine List.pairwise_cons.mpr ⟨List.forall_mem_map.mpr fun below hbelow => ?_, ?_⟩
  · obtain ⟨name, rest, hnames⟩ := List.exists_cons_of_ne_nil (mem_below.mp hbelow).1
    rw [shift, ← List.append_nil [entry.1], List.append_assoc, compare_append, hnames]
    rfl
  · refine List.pairwise_map.mpr ((pairwise_below files _).imp fun {first second} hlt => ?_)
    rwa [shift, shift, compare_append]

theorem head?_of_mem_branchOf {entry : String × Node} {below : Location × Node}
    (h : below ∈ files.branchOf place entry) : ∃ rest, below.1 = entry.1 :: rest := by
  rcases mem_branchOf.mp h with rfl | ⟨rest, -, hnames, -⟩
  · exact ⟨[], rfl⟩
  · exact ⟨rest, hnames⟩

/-- What is below a directory, entry by entry. -/
theorem below_eq_flatMap (htree : files.IsTree) (place : Location) :
    files.below place = (files.children place).flatMap (files.branchOf place) := by
  have hordered : ((files.children place).flatMap (files.branchOf place)).Pairwise
      fun entry other => compare entry.1 other.1 = .lt := by
    refine List.pairwise_flatMap.mpr ⟨fun entry _ => pairwise_branchOf files place entry, ?_⟩
    refine (pairwise_children files place).imp fun {entry other} hlt first hfirst second hsecond => ?_
    obtain ⟨rest, hrest⟩ := head?_of_mem_branchOf hfirst
    obtain ⟨rest', hrest'⟩ := head?_of_mem_branchOf hsecond
    rw [hrest, hrest', List.compare_cons_cons, hlt]
    rfl
  have hnodup {entries : List (Location × Node)}
      (h : entries.Pairwise fun entry other => compare entry.1 other.1 = .lt) : entries.Nodup :=
    h.imp fun {entry other} hlt heq => by
      rw [heq, Std.compare_self] at hlt
      cases hlt
  have hperm : (files.below place).Perm ((files.children place).flatMap (files.branchOf place)) :=
    (List.perm_ext_iff_of_nodup (hnodup (pairwise_below files place)) (hnodup hordered)).mpr
      fun entry => (mem_flatMap_branchOf htree).symm
  refine hperm.eq_of_pairwise (fun entry other _ _ hlt hgt => ?_) (pairwise_below files place) hordered
  have hswap : compare entry.1 other.1 = (compare other.1 entry.1).swap := Std.OrientedCmp.eq_swap
  rw [hswap, hgt] at hlt
  cases hlt

/-! ### Entries by name -/

/-- Entries in the order of the bytes of their names. -/
def byName (entries : List (String × Node)) : List (String × Node) :=
  entries.mergeSort fun entry other => nameBytes entry.1 ≤ nameBytes other.1

/-- In whatever order a directory is listed, its entries have one order by name. -/
theorem byName_eq_children {entries : List (String × Node)}
    (h : entries.Perm (files.children place)) : byName entries = files.children place := by
  have hsorted : (byName entries).Pairwise fun entry other => nameBytes entry.1 ≤ nameBytes other.1 := by
    refine (List.pairwise_mergeSort ?_ ?_ entries).imp fun {entry other} => of_decide_eq_true
    · exact fun first second third h h' =>
        decide_eq_true (List.le_trans (of_decide_eq_true h) (of_decide_eq_true h'))
    · exact fun first second => by simpa using List.le_total (nameBytes first.1) (nameBytes second.1)
  have hchildren : (files.children place).Pairwise fun entry other =>
      nameBytes entry.1 ≤ nameBytes other.1 :=
    (pairwise_children files place).imp fun hlt => List.le_of_lt (nameBytes_lt_of_lt (lt_of_compare hlt))
  have hperm : (byName entries).Perm (files.children place) := (List.mergeSort_perm entries _).trans h
  refine hperm.eq_of_pairwise (fun entry other hentry hother hle hge => ?_) hsorted hchildren
  have hname : entry.1 = other.1 := nameBytes_injective (List.le_antisymm hle hge)
  have hnode := mem_children.mp (hperm.subset hentry)
  rw [hname] at hnode
  exact Prod.ext hname (Option.some.inj (hnode.symm.trans (mem_children.mp hother)))

/-! ### Descents -/

/-- What a descent comes across at the entries of a directory, given what it comes across at the
directories among them. -/
def descentThrough (inner : String → FileWalk) (names : List String) :
    List (String × Node) → FileWalk
  | [] => { files := [] }
  | (name, .file ..) :: rest =>
    FileWalk.andThen { files := [names ++ [name]] } (descentThrough inner names rest)
  | (name, .directory _) :: rest => (inner name).andThen (descentThrough inner names rest)
  | (_, .link _) :: rest => descentThrough inner names rest

/-- What a descent comes across in the directory to which names lead from the root, and below it, up
to a depth. A directory is listed in any order. -/
def descent (files : FileSystem) (cwd : Location) (root : Path)
    (listing : List String → List (String × Node)) : (depth : Nat) → List String → FileWalk
  | 0, _ => { files := [] }
  | depth + 1, names =>
    match files.findListable cwd (root.descend names) with
    | .ok _ =>
      descentThrough (fun name => descent files cwd root listing depth (names ++ [name])) names
        (byName (listing names))
    | .error error => { files := [], halt := some (names, error) }

/-- The depth of the tree below a directory. -/
def height (files : FileSystem) (place : Location) : Nat :=
  ((files.below place).map (·.1.length)).foldr max 0

theorem le_foldr_max {n : Nat} {ns : List Nat} (h : n ∈ ns) : n ≤ ns.foldr max 0 := by
  induction ns with
  | nil => cases h
  | cons m ns ih =>
    rw [List.foldr_cons]
    rcases List.mem_cons.mp h with rfl | h
    · exact Nat.le_max_left _ _
    · exact (ih h).trans (Nat.le_max_right _ _)

theorem length_le_height (h : files.get? (place ++ names) = some node) :
    names.length ≤ files.height place := by
  rcases eq_or_ne names [] with rfl | hne
  · exact Nat.zero_le _
  · exact le_foldr_max (List.mem_map.mpr ⟨(names, node), mem_below.mpr ⟨hne, h⟩, rfl⟩)

theorem walkBelow_append (files : FileSystem) (cwd : Location) (root : Path)
    (entries others : List (Location × Node)) :
    files.walkBelow cwd root (entries ++ others) =
      (files.walkBelow cwd root entries).andThen (files.walkBelow cwd root others) := by
  induction entries with
  | nil => rfl
  | cons entry rest ih =>
    obtain ⟨names, node⟩ := entry
    cases node with
    | file mode content =>
      rw [List.cons_append, walkBelow, walkBelow, ih, FileWalk.andThen, FileWalk.andThen]
      cases hhalt : (files.walkBelow cwd root rest).halt <;> simp [hhalt]
    | directory mode =>
      rw [List.cons_append, walkBelow, walkBelow, ih]
      split <;> rfl
    | link target => exact ih

/-- What stands below a directory at the entries of another one. -/
theorem descentThrough_eq {inner : String → FileWalk} {entries : List (String × Node)}
    (hinner : ∀ name mode, (name, .directory mode) ∈ entries → inner name =
      files.walkBelow cwd root ((files.branchOf (place ++ names) (name, .directory mode)).map (shift names)))
    (hleaf : ∀ entry ∈ entries, (∀ mode, entry.2 ≠ .directory mode) →
      files.below (place ++ names ++ [entry.1]) = []) :
    descentThrough inner names entries = files.walkBelow cwd root
      ((entries.flatMap (files.branchOf (place ++ names))).map (shift names)) := by
  induction entries with
  | nil => rfl
  | cons entry rest ih =>
    obtain ⟨hentry, hrest⟩ := List.forall_mem_cons.mp hleaf
    have hbehind := ih (fun name mode hmem => hinner name mode (List.mem_cons_of_mem _ hmem)) hrest
    obtain ⟨name, node⟩ := entry
    rw [List.flatMap_cons, List.map_append, walkBelow_append, ← hbehind]
    cases node with
    | file mode content =>
      rw [branchOf, hentry (by simp)]
      rfl
    | directory mode => rw [descentThrough, hinner name mode List.mem_cons_self]
    | link target =>
      rw [branchOf, hentry (by simp)]
      rfl

/-- Only directories have something below them. -/
theorem below_eq_nil (htree : files.IsTree) (h : files.get? place = some node)
    (hnode : ∀ mode, node ≠ .directory mode) : files.below place = [] := by
  refine List.eq_nil_iff_forall_not_mem.mpr fun entry hentry => ?_
  obtain ⟨hne, hbelow⟩ := mem_below.mp hentry
  obtain ⟨mode, hmode⟩ := htree.exists_directory hne hbelow
  exact hnode mode (Option.some.inj (h.symm.trans hmode))

theorem map_shift_append (entries : List (Location × Node)) (front rest : List String) :
    (entries.map (shift rest)).map (shift front) = entries.map (shift (front ++ rest)) := by
  rw [List.map_map]
  exact List.map_congr_left fun entry _ => Prod.ext (List.append_assoc front rest entry.1).symm rfl

/-- A descent comes across what a walk does. The induction is on the depth; at each directory the
entries have their order by name, in which what is below it is given entry by entry. -/
theorem descent_eq_walkBelow (htree : files.IsTree) {listing : List String → List (String × Node)}
    (hlisting : ∀ names, (listing names).Perm (files.children (place ++ names))) (depth : Nat)
    (h : files.get? (place ++ names) = some (.directory mode))
    (hdepth : ∀ entry ∈ files.below (place ++ names), entry.1.length ≤ depth) :
    files.descent cwd root listing (depth + 1) names = files.walkBelow cwd root
      ((names, .directory mode) :: (files.below (place ++ names)).map (shift names)) := by
  induction depth using Nat.strong_induction_on generalizing names mode with
  | _ depth ih =>
    rw [descent, walkBelow]
    cases hlist : files.findListable cwd (root.descend names) with
    | error error => rfl
    | ok there =>
      dsimp only
      rw [byName_eq_children (hlisting names)]
      conv_rhs => rw [below_eq_flatMap htree]
      refine descentThrough_eq (fun name bits hmem => ?_) fun entry hentry hleaf =>
        below_eq_nil htree (mem_children.mp hentry) hleaf
      have hchild := mem_children.mp hmem
      have hbelow : ∀ entry ∈ files.below (place ++ (names ++ [name])), entry.1.length + 1 ≤ depth := by
        intro entry hentry
        obtain ⟨-, hnode⟩ := mem_below.mp hentry
        rw [List.append_assoc, List.append_assoc, ← List.append_assoc place] at hnode
        exact hdepth (name :: entry.1, entry.2) (mem_below.mpr ⟨List.cons_ne_nil _ _, hnode⟩)
      have hone : 1 ≤ depth :=
        hdepth ([name], .directory bits) (mem_below.mpr ⟨List.cons_ne_nil _ _, hchild⟩)
      obtain ⟨less, rfl⟩ := Nat.exists_eq_add_of_le' hone
      rw [List.append_assoc] at hchild
      rw [ih less (Nat.lt_succ_self less) hchild fun entry hentry =>
        Nat.le_of_succ_le_succ (hbelow entry hentry), branchOf, List.map_cons, map_shift_append,
        List.append_assoc]
      rfl

/-- A walk through a directory begins with listing it, also if its path ends in a link. -/
theorem walk_eq_walkDirectory (h : files.find cwd root = .ok (place, .directory mode)) :
    files.walk cwd root = files.walkDirectory cwd root := by
  obtain ⟨there, node, hkept⟩ := exists_resolve_kept h
  rw [walk, hkept]
  cases node with
  | directory bits => rfl
  | link target =>
    dsimp only
    rw [h]
  | file bits content => exact absurd h (find_ne_of_resolve_kept hkept)

theorem findListable_eq_or (h : files.find cwd root = .ok (place, .directory mode)) :
    files.findListable cwd root = .ok place ∨ ∃ error, files.findListable cwd root = .error error := by
  rw [findListable, h]
  dsimp only
  split_ifs
  · exact .inl rfl
  · exact .inr ⟨_, rfl⟩

/-- A walk goes through a directory and what is below it. -/
theorem walked_eq (h : files.find cwd root = .ok (place, .directory mode)) :
    files.walked cwd root =
      files.walkBelow cwd root (([], .directory mode) :: files.below place) := by
  rw [walked, walk_eq_walkDirectory h, walkDirectory, walkBelow, Path.descend_nil]
  rcases findListable_eq_or h with hlist | ⟨error, hlist⟩ <;> rw [hlist] <;> rfl

/-- A descent into a tree comes across what a walk does. -/
theorem descent_eq (htree : files.IsTree) (h : files.find cwd root = .ok (place, .directory mode))
    {listing : List String → List (String × Node)}
    (hlisting : ∀ names, (listing names).Perm (files.children (place ++ names))) :
    files.descent cwd root listing (files.height place + 1) [] = files.walked cwd root := by
  have hplace : files.get? (place ++ []) = some (.directory mode) := by
    rw [List.append_nil]
    exact get?_of_find h
  have hshift : (files.below place).map (shift []) = files.below place := List.map_id _
  rw [descent_eq_walkBelow htree hlisting _ hplace, List.append_nil, hshift, walked_eq h]
  rw [List.append_nil]
  exact fun entry hentry => length_le_height (mem_below.mp hentry).2

/-! ### Where walks come to a halt -/

/-- A walk comes to a halt at a directory that cannot be listed. -/
theorem findListable_of_halt {entries : List (Location × Node)} {error : FileError}
    (h : (files.walkBelow cwd root entries).halt = some (names, error)) :
    (∃ mode, (names, .directory mode) ∈ entries) ∧
      files.findListable cwd (root.descend names) = .error error := by
  induction entries with
  | nil => cases h
  | cons entry rest ih =>
    have hrest (h : (files.walkBelow cwd root rest).halt = some (names, error)) :
        (∃ mode, (names, .directory mode) ∈ entry :: rest) ∧
          files.findListable cwd (root.descend names) = .error error := by
      obtain ⟨⟨mode, hmem⟩, hlist⟩ := ih h
      exact ⟨⟨mode, List.mem_cons_of_mem _ hmem⟩, hlist⟩
    obtain ⟨others, node⟩ := entry
    cases node with
    | file mode content => exact hrest h
    | link target => exact hrest h
    | directory mode =>
      rw [walkBelow] at h
      split at h
      · exact hrest h
      · rename_i hlist
        obtain ⟨rfl, rfl⟩ := Prod.mk.inj (Option.some.inj h)
        exact ⟨⟨mode, List.mem_cons_self⟩, hlist⟩

/-- A walk that does not come to a halt has listed all directories. -/
theorem exists_findListable {entries : List (Location × Node)}
    (h : (files.walkBelow cwd root entries).halt = none)
    (hmem : (names, .directory mode) ∈ entries) :
    ∃ there, files.findListable cwd (root.descend names) = .ok there := by
  induction entries with
  | nil => cases hmem
  | cons entry rest ih =>
    obtain ⟨others, node⟩ := entry
    cases node with
    | file mode' content => exact ih h ((List.mem_cons.mp hmem).resolve_left (by simp))
    | link target => exact ih h ((List.mem_cons.mp hmem).resolve_left (by simp))
    | directory bits =>
      rw [walkBelow] at h
      split at h
      · rename_i there hlist
        rcases List.mem_cons.mp hmem with heq | hmem
        · cases heq
          exact ⟨there, hlist⟩
        · exact ih h hmem
      · cases h

end FileSystem

end SketchApk
