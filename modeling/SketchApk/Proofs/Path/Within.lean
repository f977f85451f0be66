import Mathlib.Data.List.Basic
import SketchApk.File.Resolve
import SketchApk.Proofs.Path.Name

/-!
# Paths that lie within another one

The names on the way of a joined path are those of its two parts, and the directories above a path
are on its way. So a path that continues another one by names that do not lead upwards stays within
it, as far as this can be seen from the texts.

## Main definitions

* `Path.start` : the location at which a path begins.
* `Path.IsOnWay` : a path names an initial part of the way of another one.
* `Path.IsWithin` : a path continues another one and does not lead upwards again.

## Main statements

* `Path.names_join`, `Path.isAbsolute_join` : the parts of a joined path.
* `Path.isOnWay_of_mem_ancestors` : the directories above a path are on its way.
* `Path.IsWithin.join`, `Path.IsWithin.div` : joining a path that does not lead upwards.
-/

namespace SketchApk

namespace Path

open Text

variable {path other base : Path} {name : String}

/-! ### Joined paths -/

@[simp] theorem names_empty : (⟨""⟩ : Path).names = [] := by decide

/-- A slash separates the names on both sides of it. -/
theorem names_of_text {front back : Path}
    (h : path.text.toList = front.text.toList ++ '/' :: back.text.toList) :
    path.names = front.names ++ back.names := by
  rw [names, segments, h, split_append_separator, List.map_append, List.filter_append]
  rfl

/-- The text of a joined path, unless the second part is absolute. -/
theorem toList_text_join (path : Path) (h : other.isAbsolute = false) :
    path.isEmpty = true ∧ (path.join other).text = other.text ∨
      (∃ front, path.text.toList = front ++ ['/'] ∧
        (path.join other).text.toList = front ++ '/' :: other.text.toList) ∨
      path.isEmpty = false ∧
        (path.join other).text.toList = path.text.toList ++ '/' :: other.text.toList := by
  rw [join, h, if_neg Bool.false_ne_true]
  cases hempty : path.isEmpty with
  | true =>
    have htext : path.text = "" := String.isEmpty_iff.mp hempty
    exact .inl ⟨rfl, by simp [htext]⟩
  | false =>
    by_cases hlast : path.text.toList.getLast? = some '/'
    · obtain ⟨front, hfront⟩ := List.getLast?_eq_some_iff.mp hlast
      exact .inr (.inl ⟨front, hfront, by simp [hfront]⟩)
    · exact .inr (.inr ⟨rfl, by simp [hlast]⟩)

/-- The names on the way of a joined path are those of both parts. -/
theorem names_join (h : other.isAbsolute = false) :
    (path.join other).names = path.names ++ other.names := by
  rcases toList_text_join path h with ⟨hempty, htext⟩ | ⟨front, hfront, htext⟩ | ⟨-, htext⟩
  · obtain rfl : path = ⟨""⟩ := congrArg Path.mk (String.isEmpty_iff.mp hempty)
    rw [names_empty, List.nil_append, names, segments, htext]
    rfl
  · have hpath : path.names = (⟨String.ofList front⟩ : Path).names ++ (⟨""⟩ : Path).names :=
      names_of_text (by simp [hfront])
    rw [hpath, names_empty, List.append_nil]
    exact names_of_text (by simp [htext])
  · exact names_of_text htext

theorem isAbsolute_join (h : other.isAbsolute = false) :
    (path.join other).isAbsolute = path.isAbsolute := by
  rcases toList_text_join path h with ⟨hempty, htext⟩ | ⟨front, hfront, htext⟩ |
    ⟨hempty, htext⟩
  · obtain rfl : path = ⟨""⟩ := congrArg Path.mk (String.isEmpty_iff.mp hempty)
    rw [isAbsolute, htext]
    exact h
  · rw [isAbsolute, isAbsolute, htext, hfront]
    cases front <;> rfl
  · have hne : path.text.toList ≠ [] := by simpa [isEmpty, String.isEmpty_iff] using hempty
    rw [isAbsolute, isAbsolute, htext, List.head?_append_of_ne_nil _ hne]

theorem IsName.isAbsolute_eq_false (h : IsName name) : (⟨name⟩ : Path).isAbsolute = false :=
  decide_eq_false fun hhead => h.not_mem (List.mem_of_mem_head? hhead)

theorem IsName.names_eq (h : IsName name) : (⟨name⟩ : Path).names = [name] := by
  rw [names, segments, split_eq_singleton h.not_mem]
  simp [h.ne_empty]

/-- A name at the end of a path wants no directory. -/
theorem IsName.wantsDirectory_div (h : IsName name) : (path / name).wantsDirectory = false := by
  have hlast : name.toList.getLast? ≠ some '/' := fun h' => h.not_mem (List.mem_of_getLast? h')
  have hne : name.toList ≠ [] := by simpa using h.ne_empty
  have hcons (front : List Char) : (front ++ '/' :: name.toList).getLast? = name.toList.getLast? := by
    rw [List.append_cons, List.getLast?_append_of_ne_nil _ hne]
  rw [wantsDirectory, decide_eq_false_iff_not]
  rcases toList_text_join path h.isAbsolute_eq_false with
    ⟨-, htext⟩ | ⟨front, -, htext⟩ | ⟨-, htext⟩
  · rwa [show (path / name).text = name from htext]
  · rwa [show (path / name).text.toList = front ++ '/' :: name.toList from htext, hcons]
  · rwa [show (path / name).text.toList = path.text.toList ++ '/' :: name.toList from htext, hcons]

/-! ### Directories above a path -/

/-- The location at which a path begins, seen from a working directory. -/
def start (path : Path) (cwd : Location) : Location :=
  if path.isAbsolute then [] else cwd

/-- A path names an initial part of the way of another one. -/
structure IsOnWay (path other : Path) : Prop where
  isAbsolute_eq : path.isAbsolute = other.isAbsolute
  prefix_names : path.names <+: other.names

theorem IsOnWay.refl (path : Path) : path.IsOnWay path :=
  ⟨rfl, List.prefix_rfl⟩

theorem IsOnWay.trans {third : Path} (h : path.IsOnWay other) (h' : other.IsOnWay third) :
    path.IsOnWay third :=
  ⟨h.isAbsolute_eq.trans h'.isAbsolute_eq, h.prefix_names.trans h'.prefix_names⟩

theorem IsOnWay.start_eq (h : path.IsOnWay other) (cwd : Location) :
    path.start cwd = other.start cwd := by
  rw [start, start, h.isAbsolute_eq]

/-- Segments without slashes are the segments of the path that is made of them. -/
theorem segments_ofSegments {pieces : List String} (hne : pieces ≠ [])
    (h : ∀ piece ∈ pieces, '/' ∉ piece.toList) : (ofSegments pieces).segments = pieces := by
  have hsplit (texts : List (List Char)) (hne : texts ≠ []) (h : ∀ text ∈ texts, '/' ∉ text) :
      split '/' (Text.join '/' texts) = texts := by
    induction texts with
    | nil => exact absurd rfl hne
    | cons text rest ih =>
      obtain ⟨htext, hrest⟩ := List.forall_mem_cons.mp h
      cases rest with
      | nil => exact split_eq_singleton htext
      | cons next rest =>
        rw [Text.join, split_append_cons htext, ih (by simp) hrest]
        simp
  rw [segments, toList_text_ofSegments, hsplit _ (by simpa using hne) (by simpa using h)]
  simp [Function.comp_def]

theorem not_mem_of_mem_segments {segment : String} (h : segment ∈ path.segments) :
    '/' ∉ segment.toList := by
  obtain ⟨piece, hpiece, rfl⟩ := List.mem_map.mp h
  rw [String.toList_ofList]
  exact not_mem_of_mem_split hpiece

theorem of_mem_names (h : name ∈ path.names) : '/' ∉ name.toList ∧ name ≠ "" := by
  obtain ⟨hmem, hempty⟩ := List.mem_filter.mp h
  exact ⟨not_mem_of_mem_segments hmem, by simpa using hempty⟩

/-- The characters of a name on the way stand in the text. -/
theorem mem_toList_of_mem_names (h : name ∈ path.names) {c : Char} (hc : c ∈ name.toList) :
    c ∈ path.text.toList := by
  obtain ⟨piece, hpiece, rfl⟩ := List.mem_map.mp (List.mem_of_mem_filter h)
  rw [String.toList_ofList] at hc
  exact subset_of_mem_split hpiece hc

theorem dropSilentEnd_prefix_self (pieces : List String) : dropSilentEnd pieces <+: pieces := by
  rw [← List.reverse_suffix, dropSilentEnd, List.reverse_reverse]
  exact List.dropWhile_suffix _

/-- A path begins with an empty segment, with others behind it, when it is absolute. -/
theorem isAbsolute_iff {first : String} {rest : List String} (h : path.segments = first :: rest) :
    path.isAbsolute = true ↔ first = "" ∧ rest ≠ [] := by
  rw [segments] at h
  rw [isAbsolute, decide_eq_true_iff]
  cases htext : path.text.toList with
  | nil =>
    rw [htext] at h
    obtain ⟨-, rfl⟩ := List.cons.inj h
    simp
  | cons c text =>
    rw [htext, split] at h
    split_ifs at h with hc
    · obtain ⟨rfl, rfl⟩ := List.cons.inj h
      simp [hc, split_ne_nil]
    · obtain ⟨piece, pieces, hsplit⟩ := List.exists_cons_of_ne_nil (split_ne_nil '/' text)
      rw [hsplit] at h
      obtain ⟨rfl, -⟩ := List.cons.inj h
      simp [hc]

/-- The directory of a path is on its way, or it is the working directory. -/
theorem isOnWay_of_parent? (h : path.parent? = some other) (hne : other.isEmpty = false) :
    other.IsOnWay path := by
  obtain ⟨⟨_, last⟩, hlast, rfl⟩ := Option.map_eq_some_iff.mp h
  rw [splitLast?] at hlast
  cases hsegments : path.segments with
  | nil => simp [hsegments] at hlast
  | cons first rest =>
    simp only [hsegments] at hlast
    split at hlast
    · rename_i found hfound
      split_ifs at hlast with hroot
      · obtain ⟨rfl, -⟩ := Prod.mk.inj (Option.some.inj hlast)
        rw [Bool.and_eq_true] at hroot
        exact ⟨(show (⟨"/"⟩ : Path).isAbsolute = true by decide).trans hroot.1.symm,
          by simp [names, segments, split]⟩
      · obtain ⟨rfl, -⟩ := Prod.mk.inj (Option.some.inj hlast)
        have hprefix : first :: dropSilentEnd (dropSilentEnd rest).dropLast <+: first :: rest :=
          (List.prefix_cons_inj first).mpr <| (dropSilentEnd_prefix_self _).trans <|
            (List.dropLast_prefix _).trans (dropSilentEnd_prefix_self rest)
        have hbefore : (ofSegments (first :: dropSilentEnd (dropSilentEnd rest).dropLast)).segments =
            first :: dropSilentEnd (dropSilentEnd rest).dropLast :=
          segments_ofSegments (List.cons_ne_nil _ _) fun piece hpiece =>
            not_mem_of_mem_segments (hsegments ▸ hprefix.subset hpiece)
        refine ⟨?_, ?_⟩
        · rw [Bool.eq_iff_iff, isAbsolute_iff hbefore, isAbsolute_iff hsegments]
          refine and_congr_right fun hfirst => ?_
          have hrest : rest ≠ [] := by
            rintro rfl
            simp [dropSilentEnd] at hfound
          refine ⟨fun _ => hrest, fun _ hnil => hroot ?_⟩
          rw [hnil]
          simpa using (isAbsolute_iff hsegments).mpr ⟨hfirst, hrest⟩
        · rw [names, names, hbefore, hsegments]
          exact hprefix.filter _
    · split_ifs at hlast
      cases hlast
      cases hne

/-- A path comes before the directories above it. -/
theorem exists_ancestorsUpTo (count : Nat) (path : Path) :
    ∃ containing, ancestorsUpTo count path = path :: containing := by
  cases count with
  | zero => exact ⟨[], rfl⟩
  | succ count =>
    rw [ancestorsUpTo]
    split
    · exact ⟨_, rfl⟩
    · exact ⟨[], rfl⟩

/-- The directories above a path are on its way, up to the working directory. -/
theorem isOnWay_of_mem_ancestors (h : other ∈ path.ancestors) (hne : other.isEmpty = false) :
    other.IsOnWay path := by
  suffices hupTo : ∀ count, other ∈ ancestorsUpTo count path → other.IsOnWay path from hupTo _ h
  clear h
  intro count
  induction count generalizing path with
  | zero =>
    intro h
    rw [List.mem_singleton.mp h]
    exact .refl path
  | succ count ih =>
    intro h
    rw [ancestorsUpTo] at h
    split at h
    · rename_i parent hparent
      rcases List.mem_cons.mp h with rfl | h
      · exact .refl other
      · have hother := ih h
        by_cases hempty : parent.isEmpty = true
        · -- Nothing lies above the working directory.
          obtain rfl : parent = ⟨""⟩ := congrArg Path.mk (String.isEmpty_iff.mp hempty)
          have hnone : (⟨""⟩ : Path).parent? = none := by decide
          cases count <;> simp only [ancestorsUpTo, hnone, List.mem_singleton] at h <;>
            exact absurd hempty (by rw [← h, hne]; exact Bool.false_ne_true)
        · exact hother.trans (isOnWay_of_parent? hparent (by simpa using hempty))
    · rw [List.mem_singleton.mp h]
      exact .refl path

/-- The directories above that of a path are on its way, up to the working directory. -/
theorem isOnWay_of_mem_ancestors_parent {parent : Path} (hparent : path.parent? = some parent)
    (h : other ∈ parent.ancestors) (hne : other.isEmpty = false) : other.IsOnWay path := by
  have hother := isOnWay_of_mem_ancestors h hne
  cases hempty : parent.isEmpty with
  | false => exact hother.trans (isOnWay_of_parent? hparent hempty)
  | true =>
    obtain rfl : parent = ⟨""⟩ := congrArg Path.mk (String.isEmpty_iff.mp hempty)
    have hancestors : (⟨""⟩ : Path).ancestors = [⟨""⟩] := by decide
    rw [hancestors, List.mem_singleton] at h
    rw [h] at hne
    cases hne

/-! ### Paths within a base -/

/-- A path continues another one by names that do not lead upwards. -/
structure IsWithin (base path : Path) (rest : List String) : Prop where
  isAbsolute_eq : path.isAbsolute = base.isAbsolute
  names_eq : path.names = base.names ++ rest
  not_mem : ".." ∉ rest

namespace IsWithin

variable {rest : List String}

theorem refl (path : Path) : path.IsWithin path [] :=
  ⟨rfl, (List.append_nil _).symm, List.not_mem_nil⟩

theorem join (h : base.IsWithin path rest) (hother : other.isAbsolute = false)
    (hup : ".." ∉ other.names) : base.IsWithin (path.join other) (rest ++ other.names) where
  isAbsolute_eq := (isAbsolute_join hother).trans h.isAbsolute_eq
  names_eq := by rw [names_join hother, h.names_eq, List.append_assoc]
  not_mem := by
    rw [List.mem_append, not_or]
    exact ⟨h.not_mem, hup⟩

theorem div (h : base.IsWithin path rest) (hname : IsName name) :
    base.IsWithin (path / name) (rest ++ [name]) := by
  have hjoin : base.IsWithin (path.join ⟨name⟩) (rest ++ (⟨name⟩ : Path).names) :=
    h.join hname.isAbsolute_eq_false (by
      rw [hname.names_eq, List.mem_singleton]
      exact hname.ne_dots.symm)
  rwa [hname.names_eq] at hjoin

theorem descend (h : base.IsWithin path rest) {names : List String}
    (hnames : ∀ name ∈ names, IsName name) :
    base.IsWithin (path.descend names) (rest ++ names) := by
  induction names generalizing path rest with
  | nil => simpa [Path.descend] using h
  | cons name names ih =>
    obtain ⟨hname, hnames⟩ := List.forall_mem_cons.mp hnames
    simpa [Path.descend] using ih (h.div hname) hnames

theorem trans {third : Path} {others : List String} (h : base.IsWithin path rest)
    (h' : path.IsWithin third others) : base.IsWithin third (rest ++ others) where
  isAbsolute_eq := h'.isAbsolute_eq.trans h.isAbsolute_eq
  names_eq := by rw [h'.names_eq, h.names_eq, List.append_assoc]
  not_mem := by
    rw [List.mem_append, not_or]
    exact ⟨h.not_mem, h'.not_mem⟩

end IsWithin

end Path

end SketchApk
