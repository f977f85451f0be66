import Mathlib.Data.List.Basic
import SketchApk.Proofs.File.Resolve
import SketchApk.Proofs.Path.Within

/-!
# Entries of directories

A path that consists of a directory and a name leads to the entry of that name in the directory, or
to whatever that entry is a link to.

## Main statements

* `Path.names_div` : the names on the way to an entry are those on the way to its directory and its
  own.
* `FileSystem.exists_of_resolve_div` : where the path of an entry leads, if it leads anywhere.
* `FileSystem.resolve_div` : where the path of an entry leads that is no link.
-/

namespace SketchApk

namespace Path

variable {directory : Path} {name : String}

/-- The names on the way to an entry are those on the way to its directory and its own. -/
theorem names_div (hname : IsName name) (hdirectory : directory.isEmpty = false) :
    (directory / name).names = directory.names ++ [name] := by
  have hlast : ((Text.split '/' name.toList).map String.ofList).filter (!·.isEmpty) = [name] := by
    rw [Text.split_eq_singleton hname.not_mem]
    simp [hname.ne_empty]
  rcases toList_text_div_of_isName hname hdirectory with htext | ⟨front, hfront, htext⟩
  · rw [names, segments, htext, Text.split_append_separator, List.map_append, List.filter_append, hlast,
      names, segments]
  · rw [names, segments, htext, Text.split_append_separator, List.map_append, List.filter_append, hlast,
      names, segments, hfront, Text.split_append_separator]
    simp

theorem isAbsolute_div (hname : IsName name) (hdirectory : directory.isEmpty = false) :
    (directory / name).isAbsolute = directory.isAbsolute := by
  have hne : directory.text.toList ≠ [] := by
    simpa [isEmpty, String.isEmpty_iff] using hdirectory
  rcases toList_text_div_of_isName hname hdirectory with htext | ⟨front, hfront, htext⟩
  · rw [isAbsolute, isAbsolute, htext, List.head?_append_of_ne_nil _ hne]
  · rw [isAbsolute, isAbsolute, htext, hfront]
    cases front <;> rfl

end Path

namespace FileSystem

variable {files : FileSystem} {last : LastName} {links : Nat} {asDirectory : Bool} {place : Location}
  {name : String} {rest names : List String} {target : Target}

theorem arrive_eq_onward_iff {next : Location} :
    files.arrive last asDirectory place rest = .onward next ↔
      next = place ∧ ∃ mode, files.get? place = some (.directory mode) := by
  rw [arrive]
  rcases files.get? place with _ | ⟨_ | _ | _⟩ <;> dsimp only <;> (try split_ifs) <;> simp [eq_comm]

theorem arrive_eq_linked {path : Path}
    (h : files.arrive last asDirectory place rest = .linked path) :
    files.get? place = some (.link path) := by
  rw [arrive] at h
  split at h <;> (try split_ifs at h) <;> cases h
  assumption

/-- A name that leads onward to a directory does so whatever is behind it. -/
theorem pass_of_onward {other : LastName} {wants : Bool} {others : List String} {next : Location}
    (h : files.pass last asDirectory place name rest = .onward next)
    (hcreated : (other = .created && wants && others.isEmpty) = false) :
    files.pass other wants place name others = .onward next := by
  rw [pass] at h ⊢
  rw [hcreated, if_neg Bool.false_ne_true]
  split_ifs at h ⊢
  · exact h
  · exact h
  · exact arrive_eq_onward_iff.mpr (arrive_eq_onward_iff.mp h)

/-- A link that is followed is followed whatever is behind it, unless it stands for itself. -/
theorem pass_of_linked {other : LastName} {wants : Bool} {others : List String} {path : Path}
    (h : files.pass last asDirectory place name rest = .linked path)
    (hcreated : (other = .created && wants && others.isEmpty) = false)
    (hkept : (others.isEmpty && other = .kept && !wants) = false) :
    files.pass other wants place name others = .linked path := by
  rw [pass] at h ⊢
  rw [hcreated, if_neg Bool.false_ne_true]
  split_ifs at h ⊢
  rw [arrive, arrive_eq_linked h]
  simp only [hkept, Bool.false_eq_true, if_false]

theorem isSearchable_of_pass {passage : Passage}
    (h : files.pass last asDirectory place name rest = passage)
    (hpassage : passage ≠ .blocked .permissionDenied) : files.isSearchable place = true := by
  by_contra hplace
  rw [pass, Bool.eq_false_iff.mpr hplace] at h
  exact hpassage h.symm

theorem exists_of_isSearchable (h : files.isSearchable place = true) :
    ∃ mode, files.get? place = some (.directory mode) ∧ mode.isExecutable = true := by
  rw [isSearchable] at h
  split at h
  · exact ⟨_, ‹_›, h⟩
  · cases h

/-- Names that lead somewhere lead to a directory first, from where those behind them lead on. -/
theorem Leads.exists_of_append (h : files.Leads last links asDirectory place (names ++ rest) target)
    (hrest : rest ≠ []) (wants : Bool) :
    ∃ directory mode links' asDirectory', files.Leads .followed links wants place names
        (.existing directory (.directory mode)) ∧ mode.isExecutable = true ∧
      files.Leads last links' asDirectory' directory rest target := by
  generalize hall : names ++ rest = all at h
  induction h generalizing names wants with
  | here => exact absurd (List.append_eq_nil_iff.mp hall).2 hrest
  | @onward links asDirectory place first behind next target hpass hbehind ih =>
    cases names with
    | nil =>
      obtain ⟨mode, hmode, hexecutable⟩ :=
        exists_of_isSearchable (isSearchable_of_pass hpass (by simp))
      rw [← List.nil_append rest, hall]
      exact ⟨place, mode, links, asDirectory, .here hmode, hexecutable, .onward hpass hbehind⟩
    | cons first' names =>
      obtain ⟨rfl, hnames⟩ := List.cons.inj hall
      obtain ⟨directory, mode, links', asDirectory', hleads, hexecutable, hlast⟩ := ih wants hnames
      exact ⟨directory, mode, links', asDirectory', .onward (pass_of_onward hpass (by simp)) hleads,
        hexecutable, hlast⟩
  | @ended links asDirectory place first behind target hpass =>
    cases names with
    | nil =>
      obtain ⟨mode, hmode, hexecutable⟩ :=
        exists_of_isSearchable (isSearchable_of_pass hpass (by simp))
      rw [← List.nil_append rest, hall]
      exact ⟨place, mode, links, asDirectory, .here hmode, hexecutable, .ended hpass⟩
    | cons first' names =>
      obtain ⟨rfl, rfl⟩ := List.cons.inj hall
      obtain ⟨-, -, hbehind⟩ := get?_of_pass hpass
      exact absurd (List.append_eq_nil_iff.mp (List.isEmpty_iff.mp hbehind)).2 hrest
  | @linked links asDirectory place first behind path target hpass hbehind ih =>
    cases names with
    | nil =>
      obtain ⟨mode, hmode, hexecutable⟩ :=
        exists_of_isSearchable (isSearchable_of_pass hpass (by simp))
      rw [← List.nil_append rest, hall]
      exact ⟨place, mode, links + 1, asDirectory, .here hmode, hexecutable, .linked hpass hbehind⟩
    | cons first' names =>
      obtain ⟨rfl, rfl⟩ := List.cons.inj hall
      obtain ⟨directory, mode, links', asDirectory', hleads, hexecutable, hlast⟩ :=
        ih (wants || names.isEmpty && path.wantsDirectory) (List.append_assoc _ _ _)
      exact ⟨directory, mode, links', asDirectory',
        .linked (pass_of_linked hpass (by simp) (by simp)) hleads, hexecutable,
        hlast⟩

/-- Names that lead to a directory, with a name that leads on from there. -/
theorem Leads.concat {directory : Location} {mode : Mode}
    (h : files.Leads .followed links asDirectory place names
      (.existing directory (.directory mode)))
    (hlast : ∀ links', files.Leads last links' false directory [name] target) :
    files.Leads last links false place (names ++ [name]) target := by
  generalize hdirectory : Target.existing directory (.directory mode) = found at h
  induction h with
  | here =>
    cases hdirectory
    exact hlast _
  | onward hpass hrest ih => exact .onward (pass_of_onward hpass (by simp)) (ih hdirectory)
  | @ended links asDirectory place name rest target hpass =>
    subst hdirectory
    obtain ⟨-, -, harrive⟩ := pass_eq_ended_iff.mp hpass
    obtain ⟨-, hnode, -⟩ := get?_of_pass hpass
    rw [arrive, hnode] at harrive
    cases harrive
  | @linked links asDirectory place first rest path target hpass hrest ih =>
    rw [List.cons_append]
    refine .linked (pass_of_linked hpass (by simp) (by simp)) ?_
    have hwants : (false || (rest ++ [name]).isEmpty && path.wantsDirectory) = false := by simp
    rw [← List.append_assoc, hwants]
    exact ih hdirectory

/-- From the directory to which the first names lead, the other names are followed. -/
theorem Leads.exists_resolveNames_append {directory : Location} {mode : Mode}
    (h : files.Leads .followed links asDirectory place names
      (.existing directory (.directory mode))) (hrest : rest ≠ []) :
    ∃ links', files.resolveNames last links false place (names ++ rest) =
      files.resolveNames last links' false directory rest := by
  generalize hdirectory : Target.existing directory (.directory mode) = found at h
  induction h with
  | @here links =>
    cases hdirectory
    exact ⟨links, rfl⟩
  | @onward links _ place name front next target hpass hrest' ih =>
    obtain ⟨links', hlinks'⟩ := ih hdirectory
    have hpass' : files.pass last false place name (front ++ rest) = .onward next :=
      pass_of_onward hpass (by simp)
    refine ⟨links', hlinks'.symm.trans ?_ |>.symm⟩
    cases links <;> rw [resolveNames, resolveNames, List.cons_append, descend_cons, hpass']
  | @ended links asDirectory place name front target hpass =>
    subst hdirectory
    obtain ⟨-, -, harrive⟩ := pass_eq_ended_iff.mp hpass
    obtain ⟨-, hnode, -⟩ := get?_of_pass hpass
    rw [arrive, hnode] at harrive
    cases harrive
  | @linked links asDirectory place first front path target hpass hrest' ih =>
    obtain ⟨links', hlinks'⟩ := ih hdirectory
    have hpass' : files.pass last false place first (front ++ rest) = .linked path :=
      pass_of_linked hpass (by simp) (by simp [hrest])
    have hwants : (false || (front ++ rest).isEmpty && path.wantsDirectory) = false := by
      simp [hrest]
    refine ⟨links', hlinks'.symm.trans ?_ |>.symm⟩
    rw [resolveNames, List.cons_append, descend_cons, hpass']
    dsimp only
    rw [hwants, List.append_assoc]

/-- Where the name of an entry leads that is no link. -/
theorem Leads.place_of_singleton (h : files.Leads last links asDirectory place [name] target)
    (hname : Path.IsName name) (hlink : ∀ path, files.get? (place ++ [name]) ≠ some (.link path)) :
    target.place = place ++ [name] := by
  cases h with
  | onward hpass hrest =>
    rw [pass] at hpass
    split_ifs at hpass with hsearch hdot hdots
    · exact absurd hdot hname.ne_dot
    · exact absurd hdots hname.ne_dots
    · obtain ⟨rfl, -⟩ := arrive_eq_onward_iff.mp hpass
      cases hrest
      rfl
  | ended hpass => exact (get?_of_pass hpass).1
  | linked hpass =>
    rw [pass] at hpass
    split_ifs at hpass
    exact absurd (arrive_eq_linked hpass) (hlink _)

/-- What there is at a location that a path leads to. -/
def targetAt (files : FileSystem) (place : Location) : Target :=
  match files.get? place with
  | some node => .existing place node
  | none => .vacant place false

theorem place_targetAt (files : FileSystem) (place : Location) :
    (files.targetAt place).place = place := by
  rw [targetAt]
  split <;> rfl

/-- The name of an entry that is no link leads to the entry. -/
theorem leads_singleton (h : files.Admits place name)
    (hlink : ∀ path, files.get? (place ++ [name]) ≠ some (.link path)) :
    files.Leads last links false place [name] (files.targetAt (place ++ [name])) := by
  have hpass : files.pass last false place name [] = files.arrive last false (place ++ [name]) [] :=
    pass_of_admits h (by simp)
  cases hnode : files.get? (place ++ [name]) with
  | none =>
    rw [targetAt, hnode]
    refine .ended ?_
    rw [hpass, arrive, hnode]
    rfl
  | some node =>
    rw [targetAt, hnode]
    cases node with
    | directory mode => exact .onward (hpass.trans (by rw [arrive, hnode])) (.here hnode)
    | file mode content =>
      refine .ended ?_
      rw [hpass, arrive, hnode]
      rfl
    | link path => exact absurd hnode (hlink path)

/-! ### Paths of entries -/

variable {cwd : Location} {directory : Path}

theorem isUsable_of_isUsable_div (hname : Path.IsName name) (hdirectory : directory.isEmpty = false)
    (h : (directory / name).IsUsable) : directory.IsUsable := by
  obtain ⟨tail, htext⟩ : ∃ tail, (directory / name).text = directory.text ++ tail := by
    rcases Path.toList_text_div_of_isName hname hdirectory with htext | ⟨front, hfront, htext⟩
    · exact ⟨String.ofList ('/' :: name.toList), String.toList_inj.mp (by simp [htext])⟩
    · exact ⟨name, String.toList_inj.mp (by simp [htext, hfront])⟩
  obtain ⟨hnull, -, hlong⟩ := h
  rw [htext] at hnull hlong
  rw [String.utf8ByteSize_append] at hlong
  refine ⟨fun hmem => hnull ?_, hdirectory, Nat.le_of_add_right_le hlong⟩
  rw [String.toList_append]
  exact List.mem_append_left _ hmem

/-- Where the path of an entry leads, if it leads anywhere. -/
theorem exists_of_resolve_div (hname : Path.IsName name) (hdirectory : directory.isEmpty = false)
    (h : files.resolve cwd last (directory / name) = .ok target) :
    ∃ place mode, files.find cwd directory = .ok (place, .directory mode) ∧
      mode.isExecutable = true ∧
        ((∃ path, files.get? (place ++ [name]) = some (.link path)) ∨
          target.place = place ++ [name]) := by
  obtain ⟨husable, hleads⟩ := resolve_eq_ok_iff.mp h
  rw [Path.names_div hname hdirectory, Path.isAbsolute_div hname hdirectory] at hleads
  obtain ⟨place, mode, links', asDirectory', hdirectoryLeads, hexecutable, hlast⟩ :=
    hleads.exists_of_append (List.cons_ne_nil _ _) directory.wantsDirectory
  refine ⟨place, mode, ?_, hexecutable, ?_⟩
  · rw [find, resolve_eq_ok_iff.mpr ⟨isUsable_of_isUsable_div hname hdirectory husable,
      hdirectoryLeads⟩]
  · by_cases hlink : ∃ path, files.get? (place ++ [name]) = some (.link path)
    · exact .inl hlink
    · exact .inr (hlast.place_of_singleton hname (not_exists.mp hlink))

/-- Where the path of an entry leads that is no link. -/
theorem resolve_div {place : Location} {mode : Mode} (hname : Path.IsName name)
    (husable : (directory / name).IsUsable) (hshort : name.utf8ByteSize ≤ maxNameBytes)
    (hfind : files.find cwd directory = .ok (place, .directory mode))
    (hexecutable : mode.isExecutable = true)
    (hlink : ∀ path, files.get? (place ++ [name]) ≠ some (.link path)) :
    files.resolve cwd last (directory / name) = .ok (files.targetAt (place ++ [name])) := by
  have hresolve : files.resolve cwd .followed directory = .ok (.existing place (.directory mode)) := by
    rw [find] at hfind
    split at hfind <;> cases hfind
    assumption
  obtain ⟨⟨-, hdirectory, -⟩, hleads⟩ := resolve_eq_ok_iff.mp hresolve
  have hadmits : files.Admits place name := by
    refine ⟨?_, hname.ne_dot, hname.ne_dots, Nat.not_lt.mpr hshort⟩
    have hnode : files.get? place = some (.directory mode) := get?_of_resolve hresolve
    rw [isSearchable, hnode]
    exact hexecutable
  rw [resolve_eq_ok_iff, Path.names_div hname hdirectory, Path.isAbsolute_div hname hdirectory,
    hname.wantsDirectory_div]
  exact ⟨husable, hleads.concat fun _ => leads_singleton hadmits hlink⟩

end FileSystem

end SketchApk
