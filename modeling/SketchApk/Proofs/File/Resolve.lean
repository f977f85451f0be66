import Mathlib.Tactic.SplitIfs
import SketchApk.File.Operation

/-!
# Following paths

A path is followed one name at a time, and what a name leads to depends on the directory that it is
looked up in. Nothing is lost by following a path in a file system that has more nodes, as long as
directories keep their permissions and links their targets: whatever a path leads to in the one, it
leads to in the other.

## Main definitions

* `FileSystem.Passage`, `FileSystem.pass` : what a single name leads to.
* `Node.IsLike`, `FileSystem.Extends` : nodes that paths pass alike, and file systems with more
  nodes.

## Main statements

* `FileSystem.descend_cons` : names are followed one at a time.
* `FileSystem.get?_of_resolve` : the target of a path is what there is at its location.
* `FileSystem.Extends.resolve` : a file system with more nodes has the targets of the other one.
* `FileSystem.Extends.resolve_of_created` : a path under which a file is created leads to the file.
-/

namespace SketchApk

/-- The text of a path can be given to the system. -/
def Path.IsUsable (path : Path) : Prop :=
  '\x00' ∉ path.text.toList ∧ path.isEmpty = false ∧ path.text.utf8ByteSize ≤ maxPathBytes

instance : DecidablePred Path.IsUsable := fun _ => inferInstanceAs (Decidable (_ ∧ _))

/-- The nodes are of the same kind. Directories have the same permissions, and links the same
target. -/
def Node.IsLike : Node → Node → Prop
  | .file .., .file .. => True
  | .directory mode, .directory other => mode = other
  | .link target, .link other => target = other
  | _, _ => False

namespace Target

/-- The location that a path leads to. -/
def place : Target → Location
  | existing place _ => place
  | vacant place _ => place

/-- The node that a path leads to, if there is one. -/
def node? : Target → Option Node
  | existing _ node => some node
  | vacant _ _ => none

end Target

namespace FileSystem

variable (files : FileSystem) (last : LastName)

/-- What a name leads to. -/
inductive Passage where
  /-- A directory. -/
  | onward (place : Location)
  /-- The target of the path. -/
  | ended (target : Target)
  /-- A link to another path. -/
  | linked (target : Path)
  /-- An error. -/
  | blocked (error : FileError)

/-- What a location leads to at which a name has arrived, with the names behind it. -/
def arrive (asDirectory : Bool) (place : Location) (rest : List String) : Passage :=
  match files.get? place with
  | none => if rest.isEmpty then .ended (.vacant place asDirectory) else .blocked .notFound
  | some (.directory _) => .onward place
  | some (.file mode content) =>
    if rest.isEmpty && !asDirectory then .ended (.existing place (.file mode content))
    else .blocked .notADirectory
  | some (.link target) =>
    if rest.isEmpty && last = .kept && !asDirectory then .ended (.existing place (.link target))
    else .linked target

/-- What a name leads to in the directory at a place, with the names behind it. -/
def pass (asDirectory : Bool) (place : Location) (name : String) (rest : List String) : Passage :=
  if !files.isSearchable place then .blocked .permissionDenied
  else if name = "." then .onward place
  else if name = ".." then .onward place.dropLast
  else if last = .created && asDirectory && rest.isEmpty then .blocked .isADirectory
  else if maxNameBytes < name.utf8ByteSize then .blocked .nameTooLong
  else files.arrive last asDirectory (place ++ [name]) rest

variable {files last} {asDirectory : Bool} {jump : Location → Path → List String → Except FileError Target}
  {place : Location} {name : String} {rest names : List String}

theorem descend_nil :
    files.descend last asDirectory jump place [] =
      match files.get? place with
      | some node => .ok (.existing place node)
      | none => .error .notFound :=
  rfl

/-- Names are followed one at a time. -/
theorem descend_cons :
    files.descend last asDirectory jump place (name :: rest) =
      match files.pass last asDirectory place name rest with
      | .onward place => files.descend last asDirectory jump place rest
      | .ended target => .ok target
      | .linked target => jump place target rest
      | .blocked error => .error error := by
  rcases hnode : files.get? (place ++ [name]) with _ | ⟨_ | _ | _⟩ <;>
    simp only [descend, pass, arrive, hnode] <;> split_ifs <;> rfl

/-- What names lead to, following at most `links` links. -/
inductive Leads (files : FileSystem) (last : LastName) :
    (links : Nat) → (asDirectory : Bool) → Location → List String → Target → Prop
  | here {links asDirectory place node} (h : files.get? place = some node) :
      Leads files last links asDirectory place [] (.existing place node)
  | onward {links asDirectory place name rest next target}
      (h : files.pass last asDirectory place name rest = .onward next)
      (hrest : Leads files last links asDirectory next rest target) :
      Leads files last links asDirectory place (name :: rest) target
  | ended {links asDirectory place name rest target}
      (h : files.pass last asDirectory place name rest = .ended target) :
      Leads files last links asDirectory place (name :: rest) target
  | linked {links asDirectory place name rest path target}
      (h : files.pass last asDirectory place name rest = .linked path)
      (hrest : Leads files last links (asDirectory || rest.isEmpty && path.wantsDirectory)
        (if path.isAbsolute then [] else place) (path.names ++ rest) target) :
      Leads files last (links + 1) asDirectory place (name :: rest) target

variable {links : Nat} {target : Target}

theorem leads_of_descend
    (hjump : ∀ place name rest path,
      files.pass last asDirectory place name rest = .linked path →
      jump place path rest = .ok target →
      files.Leads last links asDirectory place (name :: rest) target)
    (h : files.descend last asDirectory jump place names = .ok target) :
    files.Leads last links asDirectory place names target := by
  induction names generalizing place with
  | nil =>
    rw [descend_nil] at h
    split at h
    · cases h
      exact .here ‹_›
    · cases h
  | cons name rest ih =>
    rw [descend_cons] at h
    split at h
    · exact .onward ‹_› (ih h)
    · cases h
      exact .ended ‹_›
    · exact hjump _ _ _ _ ‹_› h
    · cases h

/-- Names lead to their target. -/
theorem resolveNames_eq_ok_iff :
    files.resolveNames last links asDirectory place names = .ok target ↔
      files.Leads last links asDirectory place names target := by
  constructor
  · intro h
    induction links generalizing asDirectory place names with
    | zero => exact leads_of_descend (fun _ _ _ _ _ hjump => by cases hjump) h
    | succ links ih => exact leads_of_descend (fun _ _ _ _ hpass hjump => .linked hpass (ih hjump)) h
  · intro h
    induction h with
    | @here links _ _ _ h => cases links <;> rw [resolveNames, descend_nil, h]
    | @onward links _ _ _ _ _ _ h _ ih =>
      cases links <;> simpa only [resolveNames, descend_cons, h] using ih
    | @ended links _ _ _ _ _ h => cases links <;> rw [resolveNames, descend_cons, h]
    | linked h _ ih => simpa only [resolveNames, descend_cons, h] using ih

/-- A path leads to its target. -/
theorem resolve_eq_ok_iff {cwd : Location} {path : Path} :
    files.resolve cwd last path = .ok target ↔ path.IsUsable ∧
      files.Leads last maxLinks path.wantsDirectory (if path.isAbsolute then [] else cwd)
        path.names target := by
  rw [← resolveNames_eq_ok_iff, resolve, Path.IsUsable]
  generalize (if path.isAbsolute then [] else cwd) = start
  split_ifs with hnull hempty hlong
  · exact iff_of_false (fun h => by cases h) fun h => h.1.1 hnull
  · exact iff_of_false (fun h => by cases h) fun h => Bool.eq_false_iff.mp h.1.2.1 hempty
  · exact iff_of_false (fun h => by cases h) fun h => Nat.not_le_of_lt hlong h.1.2.2
  · exact (and_iff_right ⟨hnull, Bool.eq_false_iff.mpr hempty, Nat.le_of_not_lt hlong⟩).symm

/-- Names behind which a file may be created are followed like any others. -/
theorem pass_of_pass_created {later : LastName} (hlater : later ≠ .kept) {passage : Passage}
    (h : files.pass .created asDirectory place name rest = passage)
    (hpassage : passage ≠ .blocked .isADirectory) :
    files.pass later asDirectory place name rest = passage := by
  rw [← h] at hpassage ⊢
  cases later with
  | kept => exact absurd rfl hlater
  | created => rfl
  | followed =>
    simp only [pass, arrive] at hpassage ⊢
    split_ifs at hpassage ⊢ <;> simp_all

/-- A name can be looked up in the directory at a place. -/
structure Admits (files : FileSystem) (place : Location) (name : String) : Prop where
  searchable : files.isSearchable place = true
  ne_dot : name ≠ "."
  ne_dots : name ≠ ".."
  short : ¬maxNameBytes < name.utf8ByteSize

theorem pass_of_admits (h : files.Admits place name)
    (hcreated : (last = .created && asDirectory && rest.isEmpty) = false) :
    files.pass last asDirectory place name rest =
      files.arrive last asDirectory (place ++ [name]) rest := by
  rw [pass, h.searchable, if_neg (by decide), if_neg h.ne_dot, if_neg h.ne_dots,
    if_neg (by simpa using hcreated), if_neg h.short]

/-- A path ends only with a name that is looked up. -/
theorem pass_eq_ended_iff :
    files.pass last asDirectory place name rest = .ended target ↔
      files.Admits place name ∧ (last = .created && asDirectory && rest.isEmpty) = false ∧
        files.arrive last asDirectory (place ++ [name]) rest = .ended target := by
  constructor
  · intro h
    rw [pass] at h
    split_ifs at h with hsearch hdot hdots hcreated hshort
    exact ⟨⟨by simpa using hsearch, hdot, hdots, hshort⟩, by simpa using hcreated, h⟩
  · rintro ⟨hadmits, hcreated, h⟩
    rw [pass_of_admits hadmits hcreated, h]

/-- Where a path ends, there is what its target says. -/
theorem get?_of_pass (h : files.pass last asDirectory place name rest = .ended target) :
    target.place = place ++ [name] ∧ files.get? (place ++ [name]) = target.node? ∧
      rest.isEmpty = true := by
  obtain ⟨-, -, h⟩ := pass_eq_ended_iff.mp h
  rw [arrive] at h
  cases hnode : files.get? (place ++ [name]) with
  | none =>
    simp only [hnode] at h
    split_ifs at h with hrest
    cases h
    exact ⟨rfl, rfl, hrest⟩
  | some node =>
    cases node with
    | directory mode => simp only [hnode, reduceCtorEq] at h
    | file mode content | link path =>
      simp only [hnode] at h
      split_ifs at h with hrest
      cases h
      exact ⟨rfl, rfl, by simp_all⟩

/-- The target of names is what there is at its location. -/
theorem Leads.get?_place (h : files.Leads last links asDirectory place names target) :
    files.get? target.place = target.node? := by
  induction h with
  | here h => exact h
  | onward h hrest ih => exact ih
  | linked h hrest ih => exact ih
  | ended h =>
    obtain ⟨hplace, hnode, -⟩ := get?_of_pass h
    rw [hplace, hnode]

/-- The target of a path is what there is at its location. -/
theorem get?_of_resolve {cwd : Location} {path : Path}
    (h : files.resolve cwd last path = .ok target) : files.get? target.place = target.node? :=
  (resolve_eq_ok_iff.mp h).2.get?_place

/-! ### File systems with more nodes -/

/-- All nodes of a file system are nodes of another one, where directories have the same permissions
and links the same targets. -/
def Extends (files other : FileSystem) : Prop :=
  ∀ place node, files.get? place = some node →
    ∃ later, other.get? place = some later ∧ node.IsLike later

/-- What a name leads to in one of two file systems, if it leads somewhere, and in the other one. -/
inductive Passage.Kept (other : FileSystem) : Passage → Passage → Prop
  | onward (place : Location) : Kept other (.onward place) (.onward place)
  | linked (path : Path) : Kept other (.linked path) (.linked path)
  | existing {place : Location} {node later : Node} (hlater : other.get? place = some later)
      (hlike : node.IsLike later) :
      Kept other (.ended (.existing place node)) (.ended (.existing place later))
  | vacant (place : Location) (asDirectory : Bool) (passage : Passage) :
      Kept other (.ended (.vacant place asDirectory)) passage
  | blocked (error : FileError) (passage : Passage) : Kept other (.blocked error) passage

namespace Extends

variable {other : FileSystem}

theorem isSearchable (h : files.Extends other) (hplace : files.isSearchable place = true) :
    other.isSearchable place = true := by
  rw [FileSystem.isSearchable] at hplace ⊢
  split at hplace
  · obtain ⟨later, hlater, hlike⟩ := h _ _ ‹_›
    cases later with
    | directory mode =>
      obtain rfl := hlike
      rw [hlater]
      exact hplace
    | file | link => cases hlike
  · cases hplace

theorem arrive (h : files.Extends other) :
    Passage.Kept other (files.arrive last asDirectory place rest)
      (other.arrive last asDirectory place rest) := by
  cases hnode : files.get? place with
  | none =>
    rw [FileSystem.arrive, hnode]
    dsimp only
    split
    · exact .vacant _ _ _
    · exact .blocked _ _
  | some node =>
    obtain ⟨later, hlater, hlike⟩ := h _ _ hnode
    rw [FileSystem.arrive, FileSystem.arrive, hnode, hlater]
    rcases node with _ | _ | _ <;> rcases later with _ | _ | _ <;> try cases hlike
    · dsimp only
      split
      · exact .existing hlater trivial
      · exact .blocked _ _
    · exact .onward _
    · dsimp only
      split
      · exact .existing hlater rfl
      · exact .linked _

theorem pass (h : files.Extends other) :
    Passage.Kept other (files.pass last asDirectory place name rest)
      (other.pass last asDirectory place name rest) := by
  rw [FileSystem.pass, FileSystem.pass]
  cases hplace : files.isSearchable place with
  | false => exact .blocked _ _
  | true =>
    rw [h.isSearchable hplace]
    split_ifs
    · exact .blocked _ _
    · exact .onward _
    · exact .onward _
    · exact .blocked _ _
    · exact .blocked _ _
    · exact h.arrive

theorem pass_eq_onward (h : files.Extends other) {next : Location}
    (hpass : files.pass last asDirectory place name rest = .onward next) :
    other.pass last asDirectory place name rest = .onward next := by
  have hkept : Passage.Kept other (files.pass last asDirectory place name rest) _ := h.pass
  rw [hpass] at hkept
  generalize other.pass last asDirectory place name rest = passage at hkept ⊢
  cases hkept
  rfl

theorem pass_eq_linked (h : files.Extends other) {path : Path}
    (hpass : files.pass last asDirectory place name rest = .linked path) :
    other.pass last asDirectory place name rest = .linked path := by
  have hkept : Passage.Kept other (files.pass last asDirectory place name rest) _ := h.pass
  rw [hpass] at hkept
  generalize other.pass last asDirectory place name rest = passage at hkept ⊢
  cases hkept
  rfl

theorem pass_eq_existing (h : files.Extends other) {there : Location} {node : Node}
    (hpass : files.pass last asDirectory place name rest = .ended (.existing there node)) :
    ∃ later, node.IsLike later ∧
      other.pass last asDirectory place name rest = .ended (.existing there later) := by
  have hkept : Passage.Kept other (files.pass last asDirectory place name rest) _ := h.pass
  rw [hpass] at hkept
  generalize other.pass last asDirectory place name rest = passage at hkept ⊢
  cases hkept with
  | existing hlater hlike => exact ⟨_, hlike, rfl⟩

theorem leads (h : files.Extends other) {there : Location} {node : Node}
    (hleads : files.Leads last links asDirectory place names (.existing there node)) :
    ∃ later, node.IsLike later ∧
      other.Leads last links asDirectory place names (.existing there later) := by
  generalize htarget : Target.existing there node = target at hleads
  induction hleads with
  | here hnode =>
    cases htarget
    obtain ⟨later, hlater, hlike⟩ := h _ _ hnode
    exact ⟨later, hlike, .here hlater⟩
  | onward hpass _ ih =>
    obtain ⟨later, hlike, hlater⟩ := ih htarget
    exact ⟨later, hlike, .onward (h.pass_eq_onward hpass) hlater⟩
  | ended hpass =>
    cases htarget
    obtain ⟨later, hlike, hlater⟩ := h.pass_eq_existing hpass
    exact ⟨later, hlike, .ended hlater⟩
  | linked hpass _ ih =>
    obtain ⟨later, hlike, hlater⟩ := ih htarget
    exact ⟨later, hlike, .linked (h.pass_eq_linked hpass) hlater⟩

/-- A file system with more nodes has the targets of the other one. -/
theorem resolve (h : files.Extends other) {cwd : Location} {path : Path} {node : Node}
    (hresolve : files.resolve cwd last path = .ok (.existing place node)) :
    ∃ later, node.IsLike later ∧ other.resolve cwd last path = .ok (.existing place later) := by
  obtain ⟨husable, hleads⟩ := resolve_eq_ok_iff.mp hresolve
  obtain ⟨later, hlike, hlater⟩ := h.leads hleads
  exact ⟨later, hlike, resolve_eq_ok_iff.mpr ⟨husable, hlater⟩⟩

theorem admits (h : files.Extends other) (hadmits : files.Admits place name) :
    other.Admits place name :=
  { hadmits with searchable := h.isSearchable hadmits.searchable }

/-- Where a path under which a file is created ends, there is the file later. -/
theorem pass_of_created (h : files.Extends other) {later : LastName} {mode : Mode} {content : Content}
    (hpass : files.pass .created asDirectory place name rest = .ended target)
    (hfile : other.get? target.place = some (.file mode content)) :
    other.pass later asDirectory place name rest =
      .ended (.existing target.place (.file mode content)) := by
  obtain ⟨hplace, -, hrest⟩ := get?_of_pass hpass
  obtain ⟨hadmits, hcreated, -⟩ := pass_eq_ended_iff.mp hpass
  have hfile' : asDirectory = false := by simpa [hrest] using hcreated
  rw [hplace] at hfile ⊢
  refine pass_eq_ended_iff.mpr ⟨h.admits hadmits, by simp [hfile'], ?_⟩
  rw [FileSystem.arrive, hfile]
  simp [hrest, hfile']

theorem leads_of_created (h : files.Extends other) {later : LastName} (hlater : later ≠ .kept)
    {mode : Mode} {content : Content}
    (hleads : files.Leads .created links asDirectory place names target)
    (hfile : other.get? target.place = some (.file mode content)) :
    other.Leads later links asDirectory place names
      (.existing target.place (.file mode content)) := by
  generalize hlast : LastName.created = last at hleads
  induction hleads with
  | here hnode => exact .here hfile
  | onward hpass _ ih =>
    subst hlast
    exact .onward (h.pass_eq_onward (pass_of_pass_created hlater hpass (by simp))) (ih hfile)
  | ended hpass =>
    subst hlast
    exact .ended (h.pass_of_created hpass hfile)
  | linked hpass _ ih =>
    subst hlast
    exact .linked (h.pass_eq_linked (pass_of_pass_created hlater hpass (by simp))) (ih hfile)

/-- A path under which a file is created leads to the file later. -/
theorem resolve_of_created (h : files.Extends other) {later : LastName} (hlater : later ≠ .kept)
    {cwd : Location} {path : Path} {mode : Mode} {content : Content}
    (hresolve : files.resolve cwd .created path = .ok target)
    (hfile : other.get? target.place = some (.file mode content)) :
    other.resolve cwd later path = .ok (.existing target.place (.file mode content)) := by
  obtain ⟨husable, hleads⟩ := resolve_eq_ok_iff.mp hresolve
  exact resolve_eq_ok_iff.mpr ⟨husable, h.leads_of_created hlater hleads hfile⟩

end Extends

end FileSystem

end SketchApk
