import SketchApk.Config.Persisted
import SketchApk.Proofs.Config.ItemList
import SketchApk.Proofs.Path.Trim
import SketchApk.Proofs.Text.Number

/-!
# Reading configurations back

A configuration that is saved and read again comes back as it was, up to the spelling of its paths,
under three conditions: no text or path begins with a blank that is written as it is, no optional
path is empty, and no item of a list is empty or has a blank at an end. In all other cases it comes
back changed.

## Main definitions

* `BuildConfig.reread` : what comes back of a configuration.
* `BuildConfig.Survives` : the configurations that come back as they were.

## Main statements

* `BuildConfig.ofProperties_insertKept` : what is read back of the entries of a configuration.
* `BuildConfig.isSame_reread_iff` : the configurations that come back as they were.
-/

namespace SketchApk

open Text

/-! ### Values -/

/-- What is read back of a string. -/
def keptString (text : String) : String :=
  String.ofList (Properties.kept text.toList)

theorem keptString_eq_self_iff {text : String} :
    keptString text = text ↔ Properties.IsFirm text.toList := by
  rw [← Properties.kept_eq_self_iff, keptString, ← String.toList_inj, String.toList_ofList]

/-- A string without blanks is read back as it was. -/
theorem keptString_of_forall {text : String} (h : ∀ c ∈ text.toList, isBlank c = false) :
    keptString text = text :=
  keptString_eq_self_iff.mpr fun c hc => by
    simp [Properties.isBareBlank, h c (List.mem_of_mem_head? hc)]

namespace BuildConfig

theorem readNumber_numberValue (key : String) (n : UInt32) :
    readNumber key (keptString (numberValue n)) = .ok n := by
  have hblank : ∀ c ∈ (numberValue n).toList, isBlank c = false := by
    rw [numberValue, String.toList_ofList]
    exact fun c hc => (isBlank_of_mem_decimal hc).1
  have hread := readUnsigned?_decimal (Nat.le_of_lt_succ n.toNat_lt)
  rw [keptString_of_forall hblank, readNumber, trim_eq_self_of_forall hblank, numberValue,
    String.toList_ofList, hread]
  exact congrArg Except.ok UInt32.ofNat_toNat

theorem readByte_byteValue (key : String) (n : UInt8) :
    readByte key (keptString (byteValue n)) = .ok n := by
  have hblank : ∀ c ∈ (byteValue n).toList, isBlank c = false := by
    rw [byteValue, String.toList_ofList]
    exact List.forall_mem_cons.mpr ⟨by decide, List.forall_mem_cons.mpr
      ⟨by decide, fun c hc => (isBlank_of_mem_hexadecimal hc).1⟩⟩
  have hread := readUnsigned?_hexadecimal 2 (Nat.le_of_lt_succ n.toNat_lt)
  rw [keptString_of_forall hblank, readByte, trim_eq_self_of_forall hblank, byteValue,
    String.toList_ofList]
  simp only [hread]
  exact congrArg Except.ok UInt8.ofNat_toNat

theorem readFlag_flagValue (key : String) (flag : Bool) :
    readFlag key (keptString (flagValue flag)) = .ok flag := by
  cases flag <;> rfl

/-- What is read back of an optional path. -/
def rereadPath (path : Option Path) : Option Path :=
  optionalPath ((path.map Path.text).map keptString)

/-- What is read back of some paths. -/
def rereadPaths (paths : List Path) : List Path :=
  (ItemList.reread (paths.map Path.text)).map Path.mk

theorem splitString_joinStrings (items : List String) :
    ItemList.splitString (keptString (ItemList.joinStrings items)) = ItemList.reread items :=
  ItemList.splitString_kept items

theorem readPaths_pathsValue (paths : List Path) :
    readPaths (keptString (pathsValue paths)) = rereadPaths paths := by
  rw [readPaths, pathsValue, splitString_joinStrings, rereadPaths]

/-- What comes back of a configuration that is saved and read again. -/
def reread (config : BuildConfig) : BuildConfig :=
  { config with
    appName := keptString config.appName
    appPackage := keptString config.appPackage
    versionName := keptString config.versionName
    javaVersion := keptString config.javaVersion
    androidJar := ⟨keptString config.androidJar.text⟩
    buildPath := ⟨keptString config.buildPath.text⟩
    manifestPath := ⟨keptString config.manifestPath.text⟩
    resDir := ⟨keptString config.resDir.text⟩
    assetsDir := rereadPath config.assetsDir
    nativeLibsDir := rereadPath config.nativeLibsDir
    proguardRules := rereadPath config.proguardRules
    desugarLibrary := rereadPath config.desugarLibrary
    javaSources := rereadPaths config.javaSources
    classpath := rereadPaths config.classpath
    permissions := ItemList.reread config.permissions
    signing := {
      useKeystore := config.signing.useKeystore
      keystore := {
        path := rereadPath config.signing.keystore.path
        keyAlias := config.signing.keystore.keyAlias.map keptString
        storePassword := config.signing.keystore.storePassword.map keptString
        keyPassword := config.signing.keystore.keyPassword.map keptString }
      keyPair := {
        key := rereadPath config.signing.keyPair.key
        certificate := rereadPath config.signing.keyPair.certificate } } }

/-! ### Entries -/

/-- All fields by key, in order. A field that holds nothing has no entry. -/
def fields (config : BuildConfig) : List (String × Option String) :=
  [("appName", config.appName),
    ("appPackage", config.appPackage),
    ("packageId", byteValue config.packageId),
    ("versionName", config.versionName),
    ("versionCode", numberValue config.versionCode),
    ("minSdk", numberValue config.minSdk),
    ("targetSdk", numberValue config.targetSdk),
    ("javaVersion", config.javaVersion),
    ("androidJarPath", config.androidJar.text),
    ("buildPath", config.buildPath.text),
    ("manifestPath", config.manifestPath.text),
    ("resDir", config.resDir.text),
    ("assetsDir", config.assetsDir.map Path.text),
    ("nativeLibsDir", config.nativeLibsDir.map Path.text),
    ("proguardRulesPath", config.proguardRules.map Path.text),
    ("desugarJdkLibsPath", config.desugarLibrary.map Path.text),
    ("javaSources", pathsValue config.javaSources),
    ("classpath", pathsValue config.classpath),
    ("permissions", ItemList.joinStrings config.permissions),
    ("debugMode", flagValue config.debugMode),
    ("r8enabled", flagValue config.shrinkEnabled),
    ("apkAlignEnable", flagValue config.alignEnabled),
    ("apkSignEnable", flagValue config.signEnabled),
    ("aapt2OptimizeEnable", flagValue config.optimizeEnabled),
    ("useKeystore", flagValue config.signing.useKeystore),
    ("keystorePath", config.signing.keystore.path.map Path.text),
    ("keyAlias", config.signing.keystore.keyAlias),
    ("storePassword", config.signing.keystore.storePassword),
    ("keyPassword", config.signing.keystore.keyPassword),
    ("keyPath", config.signing.keyPair.key.map Path.text),
    ("certPath", config.signing.keyPair.certificate.map Path.text)]

/-- The keys of all fields. -/
def keys : List String :=
  (fields default).map Prod.fst

variable (config : BuildConfig)

theorem map_fst_fields : config.fields.map Prod.fst = keys :=
  rfl

theorem keys_nodup : keys.Nodup := by
  simp [keys, fields]

theorem isPlainKey_of_mem_keys : ∀ key ∈ keys, Properties.IsPlainKey key := by
  decide +kernel

theorem entries_eq_flatMap :
    config.entries = config.fields.flatMap fun field => optionalEntry field.1 field.2 := by
  simp only [entries, fields, optionalPathEntry, List.flatMap_cons, List.flatMap_nil,
    List.append_assoc, List.cons_append, List.nil_append, List.append_nil]
  rfl

theorem map_fst_optionalEntry_sublist (key : String) (value : Option String) :
    ((optionalEntry key value).map Prod.fst).Sublist [key] := by
  cases value with
  | none => exact List.nil_sublist [key]
  | some text => exact List.Sublist.refl [key]

/-- A field has at most one entry. -/
theorem map_fst_flatMap_sublist (fields : List (String × Option String)) :
    ((fields.flatMap fun field => optionalEntry field.1 field.2).map Prod.fst).Sublist
      (fields.map Prod.fst) := by
  induction fields with
  | nil => exact List.Sublist.refl []
  | cons field fields ih =>
    rw [List.flatMap_cons, List.map_append, List.map_cons]
    exact (map_fst_optionalEntry_sublist field.1 field.2).append ih

theorem map_fst_entries_sublist : (config.entries.map Prod.fst).Sublist keys := by
  rw [entries_eq_flatMap, ← config.map_fst_fields]
  exact map_fst_flatMap_sublist config.fields

theorem lookup_optionalEntry (key other : String) (value : Option String) :
    (optionalEntry key value).lookup other = if other == key then value else none := by
  cases value <;> simp [optionalEntry]

/-- Of fields with different keys the value of each is found. -/
theorem lookup_flatMap {fields : List (String × Option String)}
    (hnodup : (fields.map Prod.fst).Nodup) {key : String} {value : Option String}
    (hmem : (key, value) ∈ fields) :
    (fields.flatMap fun field => optionalEntry field.1 field.2).lookup key = value := by
  induction fields with
  | nil => cases hmem
  | cons field fields ih =>
    rw [List.map_cons, List.nodup_cons] at hnodup
    rw [List.flatMap_cons, List.lookup_append, lookup_optionalEntry]
    rcases List.mem_cons.mp hmem with rfl | hmem
    · have hnone :
          (fields.flatMap fun field => optionalEntry field.1 field.2).lookup key = none := by
        refine List.lookup_eq_none_iff.mpr fun entry hentry => ?_
        have hkey := (map_fst_flatMap_sublist fields).mem (List.mem_map_of_mem hentry)
        have hne : key ≠ entry.1 := fun heq => hnodup.1 (heq ▸ hkey)
        simp [hne]
      simp [hnone]
    · have hne : key ≠ field.1 := fun heq =>
        hnodup.1 (heq ▸ List.mem_map_of_mem (f := Prod.fst) hmem)
      simp [hne, ih hnodup.2 hmem]

/-- What is found under the key of a field. -/
theorem getElem?_insertKept_entries {key : String} {value : Option String}
    (hmem : (key, value) ∈ config.fields) :
    (Properties.insertKept config.entries ∅)[key]? = value.map keptString := by
  have hnodup := keys_nodup.sublist config.map_fst_entries_sublist
  rw [Properties.getElem?_insertKept hnodup, Std.ExtTreeMap.getElem?_empty, Option.or_none,
    entries_eq_flatMap, lookup_flatMap (config.map_fst_fields ▸ keys_nodup) hmem]
  rfl

/-- What is read back of the entries of a configuration. -/
theorem ofProperties_insertKept :
    ofProperties (Properties.insertKept config.entries ∅) = .ok config.reread := by
  have hfields : ∀ field ∈ config.fields,
      (Properties.insertKept config.entries ∅)[field.1]? = field.2.map keptString :=
    fun field hmem => config.getElem?_insertKept_entries hmem
  generalize Properties.insertKept config.entries ∅ = properties at hfields ⊢
  simp only [fields, List.forall_mem_cons, Option.map_some] at hfields
  simp only [ofProperties, readField, hfields, readByte_byteValue, readNumber_numberValue,
    readFlag_flagValue, Option.map_some, Option.getD_some, readPaths_pathsValue,
    splitString_joinStrings]
  rfl

/-! ### Coming back -/

/-- The texts that are always present. -/
def fixedTexts : List String :=
  [config.appName, config.appPackage, config.versionName, config.javaVersion]

/-- The paths that are always present. -/
def fixedPaths : List Path :=
  [config.androidJar, config.buildPath, config.manifestPath, config.resDir]

/-- The optional texts. -/
def optionalTexts : List (Option String) :=
  [config.signing.keystore.keyAlias, config.signing.keystore.storePassword,
    config.signing.keystore.keyPassword]

/-- The optional paths. -/
def optionalPaths : List (Option Path) :=
  [config.assetsDir, config.nativeLibsDir, config.proguardRules, config.desugarLibrary,
    config.signing.keystore.path, config.signing.keyPair.key, config.signing.keyPair.certificate]

/-- The texts and the paths that are written as they are, where they are present. -/
def scalarTexts : List String :=
  config.fixedTexts ++ config.fixedPaths.map Path.text ++
    config.optionalTexts.flatMap Option.toList ++
    config.optionalPaths.flatMap fun path => (path.map Path.text).toList

/-- The lists of items. -/
def itemLists : List (List String) :=
  [config.javaSources.map Path.text, config.classpath.map Path.text, config.permissions]

/-- The items of all lists. -/
def listedItems : List String :=
  config.itemLists.flatten

/-- The conditions under which a configuration comes back as it was. -/
structure Survives : Prop where
  /-- No text begins with a blank, unless it is a space, a tab, a newline or a carriage return. -/
  head_scalarTexts : ∀ text ∈ config.scalarTexts, ∀ c ∈ text.toList.head?, isBlank c = true →
    c ∈ [' ', '\t', '\n', '\r']
  /-- No optional path is present but empty. -/
  ne_optionalPaths : ∀ path ∈ config.optionalPaths, path ≠ some ⟨""⟩
  /-- No item of a list is empty. -/
  ne_listedItems : ∀ item ∈ config.listedItems, item ≠ ""
  /-- No item of a list begins with a blank. -/
  head_listedItems : ∀ item ∈ config.listedItems, ∀ c ∈ item.toList.head?, isBlank c = false
  /-- No item of a list ends with a blank. -/
  last_listedItems : ∀ item ∈ config.listedItems, ∀ c ∈ item.toList.getLast?, isBlank c = false

theorem isFirm_iff {text : List Char} : Properties.IsFirm text ↔
    ∀ c ∈ text.head?, isBlank c = true → c ∈ [' ', '\t', '\n', '\r'] := by
  refine forall₂_congr fun c _ => ?_
  rw [Properties.isBareBlank, Bool.and_eq_false_imp, decide_eq_false_iff_not, not_not]

theorem trimmed_eq_self_iff {text : String} : trimmed text = text ↔
    (∀ c ∈ text.toList.head?, isBlank c = false) ∧
      ∀ c ∈ text.toList.getLast?, isBlank c = false := by
  rw [← trim_eq_self_iff, trimmed, ← String.toList_inj, String.toList_ofList]

/-- A path comes back with its components if and only if its text comes back. -/
theorem components_keptString_iff (path : Path) :
    path.components = (Path.mk (keptString path.text)).components ↔
      keptString path.text = path.text := by
  constructor
  · intro h
    obtain ⟨p, hp, hkept⟩ := Properties.exists_kept path.text.toList
    rw [keptString, hkept] at h ⊢
    rw [Path.dropWhile_eq_self_of_components_eq hp h.symm, String.ofList_toList]
  · intro h
    rw [h]

theorem rereadPath_some_of_ne {path : Path} (h : keptString path.text ≠ "") :
    rereadPath (some path) = some ⟨keptString path.text⟩ := by
  simp [rereadPath, optionalPath, h]

/-- An optional path comes back with its components if and only if it is not empty and its text
comes back. -/
theorem map_components_rereadPath_iff (path : Option Path) :
    path.map Path.components = (rereadPath path).map Path.components ↔
      path ≠ some ⟨""⟩ ∧ ∀ text ∈ (path.map Path.text).toList, keptString text = text := by
  cases path with
  | none => simp [rereadPath, optionalPath]
  | some path =>
    by_cases hkept : keptString path.text = ""
    · have hnone : rereadPath (some path) = none := by simp [rereadPath, optionalPath, hkept]
      rw [hnone]
      refine iff_of_false (by simp) fun ⟨hne, htext⟩ => hne ?_
      have hempty : path.text = "" := (htext path.text (by simp)).symm.trans hkept
      exact congrArg (fun text => some (Path.mk text)) hempty
    · rw [rereadPath_some_of_ne hkept]
      simp only [Option.map_some, Option.some.injEq, components_keptString_iff, Option.toList_some,
        List.mem_singleton, forall_eq]
      refine ⟨fun heq => ⟨?_, heq⟩, And.right⟩
      rintro ⟨rfl⟩
      exact hkept rfl

/-- An optional path that is not empty comes back as it was if its text does. -/
theorem rereadPath_eq_self {path : Option Path} (hne : path ≠ some ⟨""⟩)
    (htext : ∀ text ∈ (path.map Path.text).toList, keptString text = text) :
    rereadPath path = path := by
  cases path with
  | none => rfl
  | some path =>
    have heq := htext path.text (by simp)
    rw [rereadPath_some_of_ne, heq]
    rw [heq]
    exact fun hempty => hne (congrArg (fun text => some (Path.mk text)) hempty)

theorem rereadPaths_eq_self {paths : List Path}
    (h : ∀ item ∈ paths.map Path.text, item ≠ "" ∧ trimmed item = item) :
    rereadPaths paths = paths := by
  rw [rereadPaths, ItemList.reread_eq_self h, List.map_map]
  exact paths.map_id

/-- Paths come back with their components if and only if none is empty or has a blank at an end. -/
theorem map_components_rereadPaths_iff (paths : List Path) :
    paths.map Path.components = (rereadPaths paths).map Path.components ↔
      ∀ item ∈ paths.map Path.text, item ≠ "" ∧ trimmed item = item := by
  rw [← ItemList.map_reread_eq_iff (g := fun item => (Path.mk item).components)
    fun _ => Path.trimmed_eq_self_of_components_eq, rereadPaths, List.map_map, List.map_map]
  exact eq_comm

variable {config : BuildConfig}

/-- The conditions group by group. -/
theorem survives_iff : config.Survives ↔
    (∀ text ∈ config.fixedTexts, keptString text = text) ∧
    (∀ path ∈ config.fixedPaths, keptString path.text = path.text) ∧
    (∀ value ∈ config.optionalTexts, ∀ text ∈ value.toList, keptString text = text) ∧
    (∀ path ∈ config.optionalPaths, path ≠ some ⟨""⟩ ∧
      ∀ text ∈ (path.map Path.text).toList, keptString text = text) ∧
    ∀ items ∈ config.itemLists, ∀ item ∈ items, item ≠ "" ∧ trimmed item = item := by
  have hscalar : (∀ text ∈ config.scalarTexts, keptString text = text) ↔
      (∀ text ∈ config.fixedTexts, keptString text = text) ∧
      (∀ path ∈ config.fixedPaths, keptString path.text = path.text) ∧
      (∀ value ∈ config.optionalTexts, ∀ text ∈ value.toList, keptString text = text) ∧
      ∀ path ∈ config.optionalPaths, ∀ text ∈ (path.map Path.text).toList,
        keptString text = text := by
    simp only [scalarTexts, List.forall_mem_append, List.forall_mem_map, List.forall_mem_flatMap,
      and_assoc]
  have hitems : (∀ item ∈ config.listedItems, item ≠ "" ∧ trimmed item = item) ↔
      ∀ items ∈ config.itemLists, ∀ item ∈ items, item ≠ "" ∧ trimmed item = item :=
    List.forall_mem_flatten
  simp only [keptString_eq_self_iff, isFirm_iff, trimmed_eq_self_iff] at hscalar hitems ⊢
  rw [← hitems]
  constructor
  · intro h
    obtain ⟨htexts, hpaths, hoptional, hpath⟩ := hscalar.mp h.head_scalarTexts
    exact ⟨htexts, hpaths, hoptional,
      fun path hmem => ⟨h.ne_optionalPaths path hmem, hpath path hmem⟩, fun item hmem =>
      ⟨h.ne_listedItems item hmem, h.head_listedItems item hmem, h.last_listedItems item hmem⟩⟩
  · rintro ⟨htexts, hpaths, hoptional, hpath, hitem⟩
    exact ⟨hscalar.mpr ⟨htexts, hpaths, hoptional, fun path hmem => (hpath path hmem).2⟩,
      fun path hmem => (hpath path hmem).1, fun item hmem => (hitem item hmem).1,
      fun item hmem => (hitem item hmem).2.1, fun item hmem => (hitem item hmem).2.2⟩

theorem fixedPaths_reread : config.reread.fixedPaths =
    config.fixedPaths.map fun path => ⟨keptString path.text⟩ :=
  rfl

theorem optionalPaths_reread :
    config.reread.optionalPaths = config.optionalPaths.map rereadPath :=
  rfl

theorem map_keptString_eq_self_iff {value : Option String} :
    value.map keptString = value ↔ ∀ text ∈ value.toList, keptString text = text := by
  cases value with
  | none => simp
  | some text => simp

theorem mk_keptString_eq_self {path : Path} (h : keptString path.text = path.text) :
    Path.mk (keptString path.text) = path :=
  congrArg Path.mk h

theorem reread_eq_self (h : config.Survives) : config.reread = config := by
  obtain ⟨htexts, hpaths, hoptional, hpath, hitems⟩ := survives_iff.mp h
  simp only [fixedTexts, List.forall_mem_cons] at htexts
  replace hpaths := fun path hmem => mk_keptString_eq_self (hpaths path hmem)
  simp only [fixedPaths, List.forall_mem_cons] at hpaths
  replace hoptional := fun value hmem => map_keptString_eq_self_iff.mpr (hoptional value hmem)
  simp only [optionalTexts, List.forall_mem_cons] at hoptional
  replace hpath := fun path hmem => rereadPath_eq_self (hpath path hmem).1 (hpath path hmem).2
  simp only [optionalPaths, List.forall_mem_cons] at hpath
  simp only [itemLists, List.forall_mem_cons] at hitems
  obtain ⟨hsources, hclasspath, hpermissions, -⟩ := hitems
  simp only [reread, htexts, hpaths, hoptional, hpath, rereadPaths_eq_self hsources,
    rereadPaths_eq_self hclasspath, ItemList.reread_eq_self hpermissions]

/-- Agreement up to the spelling of paths, group by group. -/
theorem isSame_iff {other : BuildConfig} : config.isSame other = true ↔
    config.fixedPaths.map Path.components = other.fixedPaths.map Path.components ∧
    config.optionalPaths.map (Option.map Path.components) =
      other.optionalPaths.map (Option.map Path.components) ∧
    config.javaSources.map Path.components = other.javaSources.map Path.components ∧
    config.classpath.map Path.components = other.classpath.map Path.components ∧
    config.mapPaths (fun _ => ⟨""⟩) = other.mapPaths (fun _ => ⟨""⟩) := by
  simp only [isSame, Bool.and_eq_true, decide_eq_true_eq, and_assoc, fixedPaths, optionalPaths,
    List.map_cons, List.map_nil, List.cons.injEq, and_true]

/-- A configuration comes back as it was, up to the spelling of its paths, under the conditions and
only under them. -/
theorem isSame_reread_iff : config.isSame config.reread = true ↔ config.Survives := by
  constructor
  · intro h
    obtain ⟨hfixed, hoptional, hsources, hclasspath, hrest⟩ := isSame_iff.mp h
    have htexts : config.fixedTexts.map id = config.fixedTexts.map keptString :=
      config.fixedTexts.map_id.trans (congrArg fixedTexts hrest)
    have hvalues : config.optionalTexts.map id = config.optionalTexts.map (Option.map keptString) :=
      config.optionalTexts.map_id.trans (congrArg optionalTexts hrest)
    have hpermissions : config.permissions = ItemList.reread config.permissions :=
      congrArg permissions hrest
    rw [fixedPaths_reread] at hfixed
    rw [optionalPaths_reread] at hoptional
    simp only [List.map_map, List.map_inj_left, Function.comp_apply, id_eq]
      at htexts hvalues hfixed hoptional
    rw [survives_iff]
    refine ⟨?_, ?_, ?_, ?_, ?_⟩
    · exact fun text hmem => (htexts text hmem).symm
    · exact fun path hmem => (components_keptString_iff path).mp (hfixed path hmem)
    · exact fun value hmem => map_keptString_eq_self_iff.mp (hvalues value hmem).symm
    · exact fun path hmem => (map_components_rereadPath_iff path).mp (hoptional path hmem)
    · simp only [itemLists, List.forall_mem_cons]
      refine ⟨(map_components_rereadPaths_iff _).mp hsources,
        (map_components_rereadPaths_iff _).mp hclasspath, ?_, by simp⟩
      exact (ItemList.map_reread_eq_iff (g := id) fun _ h => h).mp
        (congrArg (List.map id) hpermissions.symm)
  · intro h
    rw [reread_eq_self h]
    exact isSame_iff.mpr ⟨rfl, rfl, rfl, rfl, rfl⟩

/-! ### Saved configurations -/

/-- The entries of a saved configuration are read back. -/
theorem parse_toProperties_eq (config : BuildConfig) :
    Properties.parse config.toProperties = .ok (Properties.insertKept config.entries ∅) := by
  have hheading : heading = "# Build config".toList ++ ['\n'] := by decide
  have hbreak : '\n' ∉ "# Build config".toList := by decide
  have hreturn : "# Build config".toList.getLast? ≠ some '\r' := by decide
  have hpassed : Properties.isPassedOver (trimStart "# Build config".toList) = true := by decide
  have hplain : ∀ entry ∈ config.entries, Properties.IsPlainKey entry.1 := fun entry hmem =>
    isPlainKey_of_mem_keys entry.1 (config.map_fst_entries_sublist.mem (List.mem_map_of_mem hmem))
  rw [toProperties, hheading, List.append_assoc, List.singleton_append]
  exact Properties.parse_flatMap_writeEntry hplain hbreak hreturn hpassed

theorem ofText_of_parse {text : String} {properties : Properties}
    (h : Properties.parse text = .ok properties) : ofText text = ofProperties properties := by
  rw [ofText, h]
  rfl

/-- The configuration that is read back from a saved one. -/
theorem ofText_toProperties (config : BuildConfig) :
    ofText config.toProperties = .ok config.reread := by
  rw [ofText_of_parse config.parse_toProperties_eq, ofProperties_insertKept]

/-- A saved configuration is read with one entry for each of its keys, and a configuration is read
from the entries. It is the same configuration under the conditions and only under them. -/
theorem parse_toProperties (config : BuildConfig) :
    ∃ properties, Properties.parse config.toProperties = .ok properties ∧
      properties.size = config.entries.length ∧
      (config.entries.map Prod.fst).Nodup ∧
      (∀ key, key ∈ properties ↔ key ∈ config.entries.map Prod.fst) ∧
      ∃ other, ofProperties properties = .ok other ∧
        (config.isSame other = true ↔ config.Survives) := by
  have hnodup := keys_nodup.sublist config.map_fst_entries_sublist
  refine ⟨Properties.insertKept config.entries ∅, config.parse_toProperties_eq, ?_, hnodup, ?_,
    config.reread, config.ofProperties_insertKept, isSame_reread_iff⟩
  · rw [Properties.size_insertKept hnodup ∅ (by simp)]
    simp
  · intro key
    rw [Properties.mem_insertKept]
    exact or_iff_left Std.ExtTreeMap.not_mem_empty

end BuildConfig

end SketchApk
