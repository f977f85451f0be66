import SketchApk.Proofs.Path.Within

/-!
# Extensions of file names

A name that is put behind a directory is the file name of the path. When the path gets another
extension, it is the entry of the same directory whose name has that extension in place of its own.

## Main definitions

* `Path.lead` : what stands in front of a name that is put behind a directory.

## Main statements

* `Path.fileName?_div` : the file name of an entry.
* `Path.parent?_div_div`, `Path.join_name` : the parent of an entry, and several names at once.
* `Path.withExtension_div` : the path of an entry with another extension.
* `Path.eq_of_splitName` : a name consists of its stem and its extension.
-/

namespace SketchApk

/-- The last piece stands behind the others and a separator. -/
theorem Text.join_concat {separator : Char} {pieces : List (List Char)} (h : pieces ≠ [])
    (last : List Char) : join separator (pieces ++ [last]) =
      join separator pieces ++ separator :: last := by
  induction pieces with
  | nil => exact absurd rfl h
  | cons piece rest ih =>
    cases rest with
    | nil => rfl
    | cons next rest =>
      change piece ++ separator :: join separator (next :: rest ++ [last]) =
        piece ++ separator :: join separator (next :: rest) ++ separator :: last
      rw [ih (List.cons_ne_nil _ _), List.append_assoc, List.cons_append]

namespace Path

open Text

variable {path other : Path} {name stem extension : String}

/-- What stands in front of a name that is put behind a directory. -/
def lead (path : Path) : String :=
  if path.isEmpty || path.text.toList.getLast? = some '/' then path.text else path.text ++ "/"

theorem text_join (h : other.isAbsolute = false) :
    (path.join other).text = path.lead ++ other.text := by
  rw [join, h, if_neg Bool.false_ne_true, lead]
  split <;> simp

theorem text_div (h : IsName name) : (path / name).text = path.lead ++ name :=
  text_join h.isAbsolute_eq_false

theorem utf8ByteSize_le_lead (path : Path) : path.text.utf8ByteSize ≤ path.lead.utf8ByteSize := by
  rw [lead]
  split_ifs
  · exact Nat.le_refl _
  · rw [String.utf8ByteSize_append]
    exact Nat.le_add_right _ _

theorem lead_eq_or (path : Path) : path.lead = "" ∨ ∃ before, path.lead.toList = before ++ ['/'] := by
  rw [lead]
  split_ifs with h
  · rcases Bool.or_eq_true_iff.mp h with hempty | hlast
    · exact .inl (String.isEmpty_iff.mp hempty)
    · exact .inr (List.getLast?_eq_some_iff.mp (of_decide_eq_true hlast))
  · exact .inr ⟨path.text.toList, by simp⟩

theorem IsName.isSilent_eq_false (h : IsName name) : isSilent name = false := by
  simp [isSilent, h.ne_empty, h.ne_dot]

theorem IsName.dropSilentEnd_concat (h : IsName name) (front : List String) :
    dropSilentEnd (front ++ [name]) = front ++ [name] := by
  rw [dropSilentEnd, List.reverse_concat,
    List.dropWhile_cons_of_neg (by rw [h.isSilent_eq_false]; exact Bool.false_ne_true),
    List.reverse_cons, List.reverse_reverse]

/-- The segments of an entry: nothing or the segments of a text stand in front of its name. -/
theorem segments_div (path : Path) (h : IsName name) :
    path.lead = "" ∧ (path / name).segments = [name] ∨
      ∃ before : Path, path.lead = before.text ++ "/" ∧
        (path / name).segments = before.segments ++ [name] := by
  rcases path.lead_eq_or with hlead | ⟨before, hbefore⟩
  · refine .inl ⟨hlead, ?_⟩
    rw [segments, text_div h, hlead, String.toList_append, String.toList_empty, List.nil_append,
      split_eq_singleton h.not_mem]
    simp
  · refine .inr ⟨⟨String.ofList before⟩, String.toList_inj.mp (by simp [hbefore]), ?_⟩
    rw [segments, text_div h, String.toList_append, hbefore, List.append_assoc,
      List.singleton_append, split_append_separator, split_eq_singleton h.not_mem, List.map_append,
      segments]
    simp

/-- The path of an entry splits before its name. -/
theorem exists_splitLast?_div (path : Path) (h : IsName name) :
    ∃ parent, (path / name).splitLast? = some (parent, name) := by
  rw [splitLast?]
  rcases segments_div path h with ⟨hlead, hsegments⟩ | ⟨before, -, hsegments⟩
  · have habsolute : (path / name).isAbsolute = false := by
      rw [isAbsolute, text_div h, hlead, String.toList_append, String.toList_empty, List.nil_append]
      exact decide_eq_false fun hhead => h.not_mem (List.mem_of_mem_head? hhead)
    have hempty : name.isEmpty = false := by simpa using h.ne_empty
    simp [hsegments, dropSilentEnd, habsolute, hempty]
  · obtain ⟨first, rest, hbefore⟩ := List.exists_cons_of_ne_nil
      (show before.segments ≠ [] by simpa [segments] using split_ne_nil '/' before.text.toList)
    simp only [hsegments, hbefore, List.cons_append, h.dropSilentEnd_concat, List.getLast?_concat]
    split <;> exact ⟨_, rfl⟩

/-- The file name of an entry is its name. -/
theorem fileName?_div (path : Path) (h : IsName name) : (path / name).fileName? = some name := by
  obtain ⟨parent, hsplit⟩ := exists_splitLast?_div path h
  simp [fileName?, hsplit, h.isSilent_eq_false, h.ne_dots]

theorem stem?_div (path : Path) (h : IsName name) :
    (path / name).stem? = some (splitName name).1 := by
  rw [stem?, fileName?_div path h, Option.map_some]

theorem extension?_div (path : Path) (h : IsName name) :
    (path / name).extension? = (splitName name).2 := by
  rw [extension?, fileName?_div path h, Option.bind_some]

/-- A slash stands between the name of an entry and what is put behind it. -/
theorem lead_div (path : Path) (h : IsName name) : (path / name).lead = (path / name).text ++ "/" := by
  have hwants : (path / name).wantsDirectory = false := h.wantsDirectory_div
  have hslash : (path / name).text.toList.getLast? ≠ some '/' := by simpa [wantsDirectory] using hwants
  rw [lead, isEmpty_div path h.ne_empty, Bool.false_or, if_neg (by simpa using hslash)]

/-- The directory of what is put behind an entry. -/
theorem parent?_div_div (path : Path) {last : String} (h : IsName name) (hlast : IsName last) :
    (path / name / last).parent? = some (path / name) := by
  have hsegments : (path / name / last).segments = (path / name).segments ++ [last] := by
    rw [segments, text_div hlast, lead_div path h, String.toList_append, String.toList_append,
      List.append_assoc, show "/".toList = ['/'] from rfl, List.singleton_append,
      split_append_separator, split_eq_singleton hlast.not_mem, List.map_append, segments]
    simp
  have hself : ofSegments (path / name).segments = path / name := ofSegments_segments _
  rw [parent?, splitLast?, hsegments]
  rcases segments_div path h with ⟨hlead, hentry⟩ | ⟨before, -, hentry⟩
  · have habsolute : (path / name / last).isAbsolute = false := by
      rw [Bool.eq_false_iff, ne_eq, isAbsolute_iff (hsegments.trans (by rw [hentry]; rfl))]
      exact fun hempty => h.ne_empty hempty.1
    have hbehind : dropSilentEnd [last] = [last] := hlast.dropSilentEnd_concat []
    rw [hentry] at hself ⊢
    simp only [List.singleton_append, hbehind, List.getLast?_singleton, List.dropLast_singleton,
      habsolute, Bool.false_and, Bool.false_eq_true, if_false, Option.map_some]
    exact congrArg some hself
  · obtain ⟨first, rest, hbefore⟩ := List.exists_cons_of_ne_nil
      (show before.segments ≠ [] by simpa [segments] using split_ne_nil '/' before.text.toList)
    rw [hbefore] at hentry
    rw [hentry] at hself ⊢
    simp only [List.cons_append, hlast.dropSilentEnd_concat, List.getLast?_concat,
      List.dropLast_concat, h.dropSilentEnd_concat]
    simpa using hself

/-- What is put behind an entry name by name adds the names with slashes to its text. -/
theorem text_descend (path : Path) (h : IsName name) {names : List String}
    (hnames : ∀ name ∈ names, IsName name) : ((path / name).descend names).text =
      (path / name).text ++ String.join (names.map ("/" ++ ·)) := by
  induction names generalizing path name with
  | nil => simp [descend]
  | cons first rest ih =>
    obtain ⟨hfirst, hrest⟩ := List.forall_mem_cons.mp hnames
    have htext : (path / name / first).text = (path / name).text ++ ("/" ++ first) := by
      rw [text_div hfirst, lead_div path h, String.append_assoc]
    rw [List.map_cons, String.join_cons, ← String.append_assoc, ← htext]
    exact ih (path / name) hfirst hrest

theorem text_ofSegments_concat {front : List String} (h : front ≠ []) (last : String) :
    (ofSegments (front ++ [last])).text = (ofSegments front).text ++ "/" ++ last := by
  refine String.toList_inj.mp ?_
  rw [toList_text_ofSegments, List.map_append, List.map_singleton, join_concat (by simpa using h)]
  simp [toList_text_ofSegments]

/-- What is put behind a path name by name is put there at once, with slashes between the names. -/
theorem text_descend_eq (path : Path) {names : List String} (hne : names ≠ [])
    (h : ∀ name ∈ names, IsName name) :
    (path.descend names).text = path.lead ++ (ofSegments names).text := by
  induction names using List.reverseRecOn with
  | nil => exact absurd rfl hne
  | append_singleton front last ih =>
    obtain ⟨hfront, hlast⟩ := List.forall_mem_append.mp h
    rw [descend_concat, text_div (hlast last (List.mem_singleton_self last))]
    rcases List.eq_nil_or_concat' front with rfl | ⟨before, name, rfl⟩
    · simp [descend, ofSegments]
    · have hfront' : before ++ [name] ≠ [] := by simp
      rw [text_ofSegments_concat hfront', ← String.append_assoc, ← String.append_assoc,
        ← ih hfront' hfront, descend_concat, lead_div _ (hfront name (by simp))]

/-- Different names lead to different paths. -/
theorem eq_of_descend_eq {path : Path} {names others : List String} (hne : names ≠ [])
    (hne' : others ≠ []) (h : ∀ name ∈ names, IsName name) (h' : ∀ name ∈ others, IsName name)
    (heq : path.descend names = path.descend others) : names = others := by
  have htext : (ofSegments names).text = (ofSegments others).text := by
    have hlead := congrArg text heq
    rw [text_descend_eq path hne h, text_descend_eq path hne' h'] at hlead
    exact String.append_right_inj _ |>.mp hlead
  have hsegments := congrArg (fun text => (Path.mk text).segments) htext
  rwa [segments_ofSegments hne fun name hname => (h name hname).not_mem,
    segments_ofSegments hne' fun name hname => (h' name hname).not_mem] at hsegments

theorem parent?_descend (path : Path) (h : IsName name) {names : List String} {last : String}
    (hnames : ∀ name ∈ names, IsName name) (hlast : IsName last) :
    ((path / name).descend names / last).parent? = some ((path / name).descend names) := by
  rcases List.eq_nil_or_concat names with rfl | ⟨front, entry, rfl⟩
  · exact parent?_div_div path h hlast
  · rw [List.concat_eq_append] at hnames ⊢
    rw [descend_concat]
    exact parent?_div_div _ (hnames entry (by simp)) hlast

/-- A text with slashes is put behind a path name by name. -/
theorem join_name (path : Path) (h : IsName name) {rest : String}
    (hrest : rest.toList.head? ≠ some '/') :
    path.join ⟨name ++ "/" ++ rest⟩ = path / name / rest := by
  have habsolute : (⟨name ++ "/" ++ rest⟩ : Path).isAbsolute = false := by
    rw [← h.isAbsolute_eq_false, isAbsolute, isAbsolute, String.append_assoc, String.toList_append,
      List.head?_append_of_ne_nil _ (by simpa using h.ne_empty)]
  have hbehind : (path / name / rest).text = (path / name).lead ++ rest :=
    text_join (decide_eq_false hrest)
  have htext : (path.join ⟨name ++ "/" ++ rest⟩).text = (path / name / rest).text := by
    rw [text_join habsolute, hbehind, lead_div path h, text_div h, String.append_assoc,
      String.append_assoc, String.append_assoc]
  exact congrArg Path.mk htext

theorem beforeLast_div (h : IsName name) : (path / name).beforeLast = path.lead := by
  rw [beforeLast]
  rcases segments_div path h with ⟨hlead, hsegments⟩ | ⟨before, hlead, hsegments⟩
  · simp [hsegments, dropSilentEnd, hlead]
  · have hparts : "/".intercalate before.segments = before.text :=
      congrArg Path.text (ofSegments_segments before)
    obtain ⟨first, rest, hbefore⟩ := List.exists_cons_of_ne_nil
      (show before.segments ≠ [] by simpa [segments] using split_ne_nil '/' before.text.toList)
    simp only [hsegments, hbefore, List.cons_append, h.dropSilentEnd_concat]
    rw [if_neg (by simp), List.dropLast_concat, ← hbefore, hparts, hlead]

/-! ### Extensions -/

/-- A name consists of its stem, which is not empty, and its extension. -/
theorem eq_of_splitName (h : splitName name = (stem, some extension)) :
    name = stem ++ "." ++ extension ∧ stem ≠ "" ∧ '.' ∉ extension.toList := by
  rw [splitName] at h
  split at h
  · rename_i last previous earlier hpieces
    dsimp only at h
    split_ifs at h with hstem
    · cases (Prod.mk.inj h).2
    obtain ⟨rfl, hlast⟩ := Prod.mk.inj h
    obtain rfl := Option.some.inj hlast
    have hsplit : split '.' name.toList = (previous :: earlier).reverse ++ [last] := by
      rw [← List.reverse_reverse (split '.' name.toList), hpieces, List.reverse_cons]
    refine ⟨String.toList_inj.mp ?_, ?_, ?_⟩
    · rw [← join_split '.' name.toList, hsplit, join_concat (by simp)]
      simp
    · simpa using hstem
    · rw [String.toList_ofList]
      exact not_mem_of_mem_split (hsplit ▸ List.mem_append_right _ (List.mem_singleton_self last))
  · cases h

/-- A name is split at its last dot, unless there is nothing in front of it. -/
theorem splitName_append (hstem : stem ≠ "") (hdot : '.' ∉ extension.toList) :
    splitName (stem ++ "." ++ extension) = (stem, some extension) := by
  have hpieces : split '.' (stem ++ "." ++ extension).toList =
      split '.' stem.toList ++ [extension.toList] := by
    rw [String.toList_append, String.toList_append, List.append_assoc,
      show ".".toList = ['.'] from rfl, List.singleton_append, split_append_separator,
      split_eq_singleton hdot]
  obtain ⟨previous, earlier, hreverse⟩ := List.exists_cons_of_ne_nil
    (show (split '.' stem.toList).reverse ≠ [] by simpa using split_ne_nil '.' stem.toList)
  have hback : (previous :: earlier).reverse = split '.' stem.toList := by
    rw [← hreverse, List.reverse_reverse]
  have hempty : stem.toList.isEmpty = false := by simpa using hstem
  rw [splitName, hpieces, List.reverse_concat, hreverse]
  simp only [hback, join_split, hempty, Bool.false_eq_true, if_false, String.ofList_toList]

/-- The path of an entry with another extension is the entry whose name has that extension. -/
theorem withExtension_div (path : Path) (h : IsName name)
    (hname : IsName ((splitName name).1 ++ "." ++ extension)) :
    (path / name).withExtension extension = path / ((splitName name).1 ++ "." ++ extension) := by
  have htext : (path / name).beforeLast ++ (splitName name).1 ++ "." ++ extension =
      (path / ((splitName name).1 ++ "." ++ extension)).text := by
    rw [beforeLast_div h, text_div hname, String.append_assoc, String.append_assoc,
      String.append_assoc]
  rw [withExtension, stem?_div path h]
  exact congrArg Path.mk htext

/-- A name with another extension is the name of an entry. -/
theorem IsName.withExtension (h : IsName name) {extension : String} (hslash : '/' ∉ extension.toList)
    (hdot : '.' ∉ extension.toList) (hempty : extension ≠ "") :
    IsName ((splitName name).1 ++ "." ++ extension) := by
  have hstem : '/' ∉ (splitName name).1.toList := by
    cases hsplit : splitName name with
    | mk stem found =>
      cases found with
      | none =>
        have hname : stem = name := by
          rw [splitName] at hsplit
          split at hsplit
          · dsimp only at hsplit
            split_ifs at hsplit
            · exact (Prod.mk.inj hsplit).1.symm
            · cases (Prod.mk.inj hsplit).2
          · exact (Prod.mk.inj hsplit).1.symm
        rw [hname]
        exact h.not_mem
      | some own =>
        obtain ⟨hname, -, -⟩ := eq_of_splitName hsplit
        intro hmem
        exact h.not_mem (by rw [hname]; simp [hmem])
  obtain ⟨front, last, hlast⟩ := List.eq_nil_or_concat _ |>.resolve_left
    (show extension.toList ≠ [] by simpa using hempty)
  have hend : ((splitName name).1 ++ "." ++ extension).toList.getLast? = some last := by
    rw [String.toList_append, hlast, List.concat_eq_append, ← List.append_assoc,
      List.getLast?_concat]
  have hne (text : String) (htext : text.toList.getLast? ≠ some last) :
      (splitName name).1 ++ "." ++ extension ≠ text := by
    intro heq
    rw [heq] at hend
    exact htext hend
  have hlastdot : last ≠ '.' := by
    rintro rfl
    exact hdot (by simp [hlast])
  refine ⟨by simp [hstem, hslash], hne "" (by simp), hne "." ?_, hne ".." ?_⟩ <;>
    exact fun heq => hlastdot (Option.some.inj heq).symm

end Path

end SketchApk
