import SketchApk.Proofs.Config.RoundTrip

/-!
# Saving again

What is read back of a value is left as it is when it is saved and read once more: what reading
strips off uncovers nothing that the next reading would strip off. So a configuration that has been
saved and read once survives every further time, whatever it was at first. A text that somebody
else wrote takes one more step, because an escaped blank in it is read, but not written as such.

## Main definitions

* `BuildConfig.reload` : save a configuration and read it.
* `BuildConfig.resave`, `BuildConfig.resaves` : read a text and save it, once or several times.

## Main statements

* `ItemList.rereads_joinStrings` : a list is read back of the value that saves it.
* `BuildConfig.survives_reread` : what has been read back survives.
* `BuildConfig.reload_stable` : reading back reaches a fixed point.
-/

namespace SketchApk

open Text

/-! ### Values -/

namespace Properties

/-- What is read back of a value is read back as it is. -/
theorem isFirm_kept (text : List Char) : IsFirm (kept text) := by
  by_cases hspace : text.head? = some ' '
  · obtain ⟨rest, rfl⟩ := List.head?_eq_some_iff.mp hspace
    rw [← kept_eq_self_iff, kept_cons_space, kept_cons_space]
  · intro c hc
    rw [kept_of_ne_space hspace] at hc
    have hdropped := eq_false_of_mem_head?_dropWhile c hc
    rw [isDropped, Bool.and_eq_false_imp] at hdropped
    -- fewer blanks are written as they are than are dropped
    rw [isBareBlank, Bool.and_eq_false_imp]
    intro hblank
    have hcontrol := hdropped hblank
    rw [decide_eq_false_iff_not, not_not] at hcontrol ⊢
    exact List.mem_cons_of_mem ' ' hcontrol

end Properties

theorem keptString_keptString (text : String) : keptString (keptString text) = keptString text :=
  keptString_eq_self_iff.mpr (String.toList_ofList ▸ Properties.isFirm_kept text.toList)

theorem trimmed_trimmed (text : String) : trimmed (trimmed text) = trimmed text := by
  rw [trimmed, trimmed, String.toList_ofList, trim_trim]

namespace ItemList

/-- The items that are read back are read back as they are. -/
theorem forall_mem_reread (items : List String) :
    ∀ item ∈ reread items, item ≠ "" ∧ trimmed item = item := by
  intro item hitem
  obtain ⟨hmem, hne⟩ := List.mem_filter.mp hitem
  obtain ⟨other, -, rfl⟩ := List.mem_map.mp hmem
  exact ⟨of_decide_eq_true hne, trimmed_trimmed other⟩

/-- What a value lists is what is read back of its pieces. -/
theorem splitString_eq_reread (value : String) :
    splitString value = reread ((pieces [] value.toList).map String.ofList) := by
  have hempty (piece : List Char) : trimmed (String.ofList piece) ≠ "" ↔ trim piece ≠ [] := by
    simp [trimmed]
  rw [splitString, split, reread, List.map_map]
  simp only [List.filter_map, List.map_map, Function.comp_def, hempty]
  simp [trimmed]

/-- What is listed by the value that saves some items are the items, trimmed, and without those of
which nothing is left. A list that comes from a value is listed again as it is, whatever the value
was. -/
theorem rereads_joinStrings :
    (∀ items : List String,
      splitString (joinStrings items) = (items.map trimmed).filter (· ≠ "")) ∧
    ∀ value : String, splitString (joinStrings (splitString value)) = splitString value := by
  constructor
  · exact splitString_joinStrings_eq
  · intro value
    rw [splitString_joinStrings_eq, splitString_eq_reread]
    exact reread_eq_self (forall_mem_reread _)

/-- A backslash at the end of a value is read as nothing, and an item of blanks is lost. -/
example : splitString " a\\,b , ,\\\\\\" = ["a,b", "\\"] ∧
    joinStrings ["a,b", "\\"] = "a\\,b,\\\\" := by
  decide +kernel

end ItemList

namespace BuildConfig

/-- The optional path that is read back is not empty, and its text is read back as it is. -/
theorem rereadPath_survives (path : Option Path) : rereadPath path ≠ some ⟨""⟩ ∧
    ∀ text ∈ ((rereadPath path).map Path.text).toList, keptString text = text := by
  cases path with
  | none => simp [rereadPath, optionalPath]
  | some path =>
    by_cases hempty : keptString path.text = ""
    · simp [rereadPath, optionalPath, hempty]
    · rw [rereadPath_some_of_ne hempty]
      simp [hempty, keptString_keptString]

theorem map_text_rereadPaths (paths : List Path) :
    (rereadPaths paths).map Path.text = ItemList.reread (paths.map Path.text) := by
  rw [rereadPaths, List.map_map]
  exact List.map_id _

/-! ### Configurations -/

theorem fixedTexts_reread (config : BuildConfig) :
    config.reread.fixedTexts = config.fixedTexts.map keptString :=
  rfl

theorem optionalTexts_reread (config : BuildConfig) :
    config.reread.optionalTexts = config.optionalTexts.map (Option.map keptString) :=
  rfl

theorem itemLists_reread (config : BuildConfig) :
    config.reread.itemLists = config.itemLists.map ItemList.reread := by
  simp only [itemLists, List.map_cons, List.map_nil]
  rw [← map_text_rereadPaths, ← map_text_rereadPaths]
  rfl

/-- What has been read back survives. -/
theorem survives_reread (config : BuildConfig) : config.reread.Survives := by
  rw [survives_iff, fixedTexts_reread, fixedPaths_reread, optionalTexts_reread,
    optionalPaths_reread, itemLists_reread]
  simp only [List.forall_mem_map]
  refine ⟨?_, ?_, ?_, ?_, ?_⟩
  · exact fun text _ => keptString_keptString text
  · exact fun path _ => keptString_keptString path.text
  · rintro value - text htext
    obtain ⟨other, -, rfl⟩ := Option.map_eq_some_iff.mp (Option.mem_toList.mp htext)
    exact keptString_keptString other
  · exact fun path _ => rereadPath_survives path
  · exact fun items _ => ItemList.forall_mem_reread items

theorem reread_reread (config : BuildConfig) : config.reread.reread = config.reread :=
  reread_eq_self config.survives_reread

/-- Save a configuration and read it. -/
def reload (config : BuildConfig) : Except ConfigError BuildConfig :=
  ofText config.toProperties

/-- Read a text and save it. -/
def resave (text : String) : Except ConfigError String := do
  return (← ofText text).toProperties

/-- Read a text and save it several times. -/
def resaves : Nat → String → Except ConfigError String
  | 0, text => .ok text
  | count + 1, text => do resaves count (← resave text)

theorem reload_eq (config : BuildConfig) : config.reload = .ok config.reread :=
  config.ofText_toProperties

theorem resave_of_ofText {text : String} {config : BuildConfig} (h : ofText text = .ok config) :
    resave text = .ok config.toProperties := by
  rw [resave, h]
  rfl

theorem resaves_succ {text next : String} (h : resave text = .ok next) (count : Nat) :
    resaves (count + 1) text = resaves count next := by
  rw [resaves, h]
  rfl

/-- A text that is saved as it was read stays as it is. -/
theorem resaves_of_resave {text : String} (h : resave text = .ok text) (count : Nat) :
    resaves count text = .ok text := by
  induction count with
  | zero => rfl
  | succ count ih => rw [resaves_succ h, ih]

/-- A saved configuration is the same from the second time on, and a text is the same once it has
been read and saved twice. -/
theorem reload_stable :
    (∀ config : BuildConfig, ∃ once twice, config.reload = .ok once ∧ once.reload = .ok twice ∧
      twice = once ∧ twice.toProperties = once.toProperties) ∧
    ∀ (text : String) (config : BuildConfig), ofText text = .ok config →
      ∃ stable, ∀ count, resaves (count + 2) text = .ok stable := by
  constructor
  · intro config
    exact ⟨config.reread, config.reread, config.reload_eq,
      config.reread.reload_eq.trans (congrArg _ config.reread_reread), rfl, rfl⟩
  · intro text config hconfig
    have hfirst := resave_of_ofText hconfig
    have hsecond := resave_of_ofText config.ofText_toProperties
    have hthird := resave_of_ofText config.reread.ofText_toProperties
    rw [reread_reread] at hthird
    refine ⟨config.reread.toProperties, fun count => ?_⟩
    rw [resaves_succ hfirst, resaves_succ hsecond, resaves_of_resave hthird]

/-- A blank that was escaped is read the first time only. -/
theorem reload_stable_sample :
    ofText "appName=\\\u00a0x" = .ok { appName := "\u00a0x" } ∧
    reload { appName := "\u00a0x" } = .ok { appName := "x" } ∧
    ∃ stable, ∀ count, resaves (count + 2) "appName=\\\u00a0x" = .ok stable := by
  have hread : ofText "appName=\\\u00a0x" = .ok { appName := "\u00a0x" } := rfl
  exact ⟨hread, (reload_eq _).trans rfl, reload_stable.2 _ _ hread⟩

end BuildConfig

end SketchApk
