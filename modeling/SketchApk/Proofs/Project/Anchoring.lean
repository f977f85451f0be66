import Mathlib.Data.Option.Basic
import SketchApk.Proofs.Config.Resaving
import SketchApk.Proofs.Path.Within
import SketchApk.Proofs.Plan.Writing
import SketchApk.Proofs.Project.Creation
import SketchApk.Proofs.Stage.Collecting

/-!
# Paths seen from the root of a project

The paths of a saved configuration are seen from the root of its project. When the configuration is
loaded, relative paths are prefixed with the root, and nothing else in it changes. If the root is
absolute, all paths are absolute or empty from then on, and it does not matter any more from where
they are seen: the configuration can be saved to any other project.

## Main definitions

* `Path.Anchored`, `BuildConfig.Anchored` : a path and a configuration as they are seen from a root.
* `BuildConfig.paths` : all paths of a configuration.

## Main statements

* `BuildConfig.Anchored.isAbsolute` : seen from an absolute root all paths are absolute or empty.
* `Project.anchored_loadConfig` : a loaded configuration does not depend on its project any more.
-/

namespace SketchApk

open Plan Attempt

/-- A path and what becomes of it when it is seen from a root. -/
inductive Path.Anchored (root : Path) : Path → Path → Prop
  | empty {path : Path} (h : path.isEmpty = true) : Anchored root path path
  | absolute {path : Path} (h : path.isAbsolute = true) : Anchored root path path
  | relative {path : Path} (hne : path.isEmpty = false) (h : path.isAbsolute = false) :
      Anchored root path (root.join path)

/-- Seen from an absolute root a path is absolute or empty. -/
theorem Path.Anchored.isAbsolute {root path anchored : Path} (h : root.Anchored path anchored)
    (hroot : root.isAbsolute = true) : anchored.isEmpty = true ∨ anchored.isAbsolute = true := by
  cases h with
  | empty hempty => exact .inl hempty
  | absolute habsolute => exact .inr habsolute
  | relative _ hrelative => exact .inr ((isAbsolute_join hrelative).trans hroot)

namespace BuildConfig

/-- A configuration and what becomes of it when its paths are seen from a root. -/
structure Anchored (root : Path) (config anchored : BuildConfig) : Prop where
  androidJar : root.Anchored config.androidJar anchored.androidJar
  buildPath : root.Anchored config.buildPath anchored.buildPath
  manifestPath : root.Anchored config.manifestPath anchored.manifestPath
  resDir : root.Anchored config.resDir anchored.resDir
  assetsDir : Option.Rel root.Anchored config.assetsDir anchored.assetsDir
  nativeLibsDir : Option.Rel root.Anchored config.nativeLibsDir anchored.nativeLibsDir
  proguardRules : Option.Rel root.Anchored config.proguardRules anchored.proguardRules
  desugarLibrary : Option.Rel root.Anchored config.desugarLibrary anchored.desugarLibrary
  keystore : Option.Rel root.Anchored config.signing.keystore.path anchored.signing.keystore.path
  key : Option.Rel root.Anchored config.signing.keyPair.key anchored.signing.keyPair.key
  certificate : Option.Rel root.Anchored config.signing.keyPair.certificate
    anchored.signing.keyPair.certificate
  javaSources : List.Forall₂ root.Anchored config.javaSources anchored.javaSources
  classpath : List.Forall₂ root.Anchored config.classpath anchored.classpath
  /-- The configurations do not differ in anything but paths. -/
  rest : anchored.mapPaths (fun _ => ⟨""⟩) = config.mapPaths (fun _ => ⟨""⟩)

/-- All paths of a configuration. -/
def paths (config : BuildConfig) : List Path :=
  config.fixedPaths ++ config.optionalPaths.flatMap Option.toList ++ config.javaSources ++
    config.classpath

variable {config : BuildConfig}

/-- What does nothing to the paths of a configuration does nothing to it. -/
theorem mapPaths_eq_self {f : Path → Path} (h : ∀ path ∈ config.paths, f path = path) :
    config.mapPaths f = config := by
  simp only [paths, List.forall_mem_append] at h
  obtain ⟨⟨⟨hfixed, hoptional⟩, hsources⟩, hclasspath⟩ := h
  have hoption : ∀ path ∈ config.optionalPaths, path.map f = path := by
    intro path hmem
    cases path with
    | none => rfl
    | some found =>
      exact congrArg some (hoptional found (List.mem_flatMap.mpr ⟨some found, hmem, by simp⟩))
  have hsources' : config.javaSources.map f = config.javaSources :=
    (List.map_congr_left hsources).trans (List.map_id _)
  have hclasspath' : config.classpath.map f = config.classpath :=
    (List.map_congr_left hclasspath).trans (List.map_id _)
  simp only [fixedPaths, optionalPaths, List.forall_mem_cons] at hfixed hoption
  simp only [mapPaths, hfixed, hoption, hsources', hclasspath']

/-- Seen from an absolute root all paths of a configuration are absolute or empty. -/
theorem Anchored.isAbsolute {root : Path} {anchored : BuildConfig} (h : Anchored root config anchored)
    (hroot : root.isAbsolute = true) :
    ∀ path ∈ anchored.paths, path.isEmpty = true ∨ path.isAbsolute = true := by
  have hoption {path found : Option Path} (hpath : Option.Rel root.Anchored path found) :
      ∀ other ∈ found, other.isEmpty = true ∨ other.isAbsolute = true := by
    cases hpath with
    | none => simp
    | some hpath =>
      rintro _ ⟨⟩
      exact hpath.isAbsolute hroot
  have hlist {paths found : List Path} (hpaths : List.Forall₂ root.Anchored paths found) :
      ∀ other ∈ found, other.isEmpty = true ∨ other.isAbsolute = true := by
    induction hpaths with
    | nil => exact List.forall_mem_nil _
    | cons hpath _ ih => exact List.forall_mem_cons.mpr ⟨hpath.isAbsolute hroot, ih⟩
  have hfixed : ∀ path ∈ anchored.fixedPaths, path.isEmpty = true ∨ path.isAbsolute = true := by
    simp only [fixedPaths, List.forall_mem_cons]
    exact ⟨h.androidJar.isAbsolute hroot, h.buildPath.isAbsolute hroot,
      h.manifestPath.isAbsolute hroot, h.resDir.isAbsolute hroot, List.forall_mem_nil _⟩
  have hoptional : ∀ path ∈ anchored.optionalPaths,
      ∀ other ∈ path, other.isEmpty = true ∨ other.isAbsolute = true := by
    simp only [optionalPaths, List.forall_mem_cons]
    exact ⟨hoption h.assetsDir, hoption h.nativeLibsDir, hoption h.proguardRules,
      hoption h.desugarLibrary, hoption h.keystore, hoption h.key, hoption h.certificate,
      List.forall_mem_nil _⟩
  simp only [paths, List.forall_mem_append]
  refine ⟨⟨⟨hfixed, fun path hmem => ?_⟩, hlist h.javaSources⟩, hlist h.classpath⟩
  obtain ⟨found, hfound, hpath⟩ := List.mem_flatMap.mp hmem
  exact hoptional found hfound path (Option.mem_toList.mp hpath)

end BuildConfig

namespace Project

variable {project : Project} {world : World} {stop : Bool} {files : FileSystem}
  {config : BuildConfig}

theorem anchored_anchor (project : Project) (path : Path) :
    project.root.Anchored path (project.anchor path) := by
  rw [anchor]
  cases hempty : path.isEmpty with
  | true => exact .empty hempty
  | false =>
    cases habsolute : path.isAbsolute with
    | true =>
      rw [if_neg Bool.false_ne_true, Path.join, if_pos habsolute]
      exact .absolute habsolute
    | false => exact .relative hempty habsolute

/-- A path that is absolute or empty is the same from everywhere. -/
theorem anchor_eq_self {path : Path} (h : path.isEmpty = true ∨ path.isAbsolute = true) :
    project.anchor path = path := by
  rw [anchor]
  rcases h with hempty | habsolute
  · rw [if_pos hempty]
  · rw [Path.join, if_pos habsolute, ite_self]

/-- All paths of a configuration are seen from the root of a project. -/
theorem anchored_mapPaths (project : Project) (config : BuildConfig) :
    config.Anchored project.root (config.mapPaths project.anchor) := by
  have hoption (path : Option Path) :
      Option.Rel project.root.Anchored path (path.map project.anchor) := by
    cases path with
    | none => exact .none
    | some path => exact .some (project.anchored_anchor path)
  have hlist (paths : List Path) :
      List.Forall₂ project.root.Anchored paths (paths.map project.anchor) :=
    List.forall₂_map_right_iff.mpr (List.forall₂_same.mpr fun path _ => project.anchored_anchor path)
  constructor
  case rest =>
    simp only [BuildConfig.mapPaths, Option.map_map, List.map_map]
    rfl
  case androidJar | buildPath | manifestPath | resDir => exact project.anchored_anchor _
  case javaSources | classpath => exact hlist _
  all_goals exact hoption _

/-- What has been anchored at an absolute root stays as it is when it is anchored at any other
one. -/
theorem mapPaths_anchor_eq_self (hroot : project.root.isAbsolute = true) (config : BuildConfig)
    (other : Project) :
    (config.mapPaths project.anchor).mapPaths other.anchor = config.mapPaths project.anchor :=
  BuildConfig.mapPaths_eq_self fun path hmem =>
    anchor_eq_self ((project.anchored_mapPaths config).isAbsolute hroot path hmem)

/-- A configuration that comes back as it was when it is saved, and none of whose paths depends on
where it is seen from, is loaded from whatever project it has been saved to. -/
theorem run_loadConfig_of_saved {saved : FileSystem} {other : Project} {content : Content}
    (hsurvives : config.Survives) (hanchor : config.mapPaths other.anchor = config)
    (hsave : (writeTextFile other.propertiesPath config.toProperties).run.run (world.answer stop)
      files = (.ok (), saved))
    (hread : saved.read world.place other.propertiesPath = .ok content) (stop' : Bool) :
    other.loadConfig.run.run (world.answer stop') saved = (.ok config, saved) := by
  obtain ⟨_, target, _, -, -, -, hfind⟩ := exists_of_run_writeTextFile hsave
  obtain ⟨_, _, hfound, _⟩ := FileSystem.read_eq_ok_iff.mp hread
  cases hfind.symm.trans hfound
  rw [run_loadConfig_of_read hread config.ofText_toProperties, BuildConfig.reread_eq_self hsurvives, hanchor]

/-- The paths of a configuration are anchored once and for all when it is loaded: nothing else in it
changes, all paths are absolute or empty, and it does not depend on its project any more. -/
theorem anchored_loadConfig {text : String} (hroot : project.root.isAbsolute = true)
    (hread : (readText project.propertiesPath).run.run (world.answer stop) files =
      (.ok text, files))
    (hparse : BuildConfig.ofText text = .ok config) : ∃ loaded,
      project.loadConfig.run.run (world.answer stop) files = (.ok loaded, files) ∧
        config.Anchored project.root loaded ∧
        (∀ path ∈ loaded.paths, path.isEmpty = true ∨ path.isAbsolute = true) ∧
        (∀ other : Project, loaded.mapPaths other.anchor = loaded) ∧
        ∀ reloaded, loaded.reload = .ok reloaded → loaded.isSame reloaded = true →
          ∀ (other : Project) (world : World) (stop stop' : Bool) (files saved : FileSystem)
            (content : Content),
            (writeTextFile other.propertiesPath loaded.toProperties).run.run (world.answer stop)
              files = (.ok (), saved) →
            saved.read world.place other.propertiesPath = .ok content →
              other.loadConfig.run.run (world.answer stop') saved = (.ok loaded, saved) := by
  have hload : (BuildConfig.load project.propertiesPath).run.run (world.answer stop) files =
      (.ok config, files) := by
    refine (run_bind_ok (run_adapt_ok hread)).trans ?_
    rw [hparse]
    rfl
  have hanchored := project.anchored_mapPaths config
  refine ⟨config.mapPaths project.anchor, run_bind_ok hload, hanchored, hanchored.isAbsolute hroot,
    mapPaths_anchor_eq_self hroot config, fun reloaded hreload hsame other => ?_⟩
  intro world stop stop' files saved content hsave hcontent
  obtain rfl := Except.ok.inj ((BuildConfig.reload_eq _).symm.trans hreload)
  exact run_loadConfig_of_saved (BuildConfig.isSame_reread_iff.mp hsame)
    (mapPaths_anchor_eq_self hroot config other) hsave hcontent stop'

/-- A saved configuration with a path of each kind. -/
def anchoredText : String :=
  "buildPath=out\nresDir=/r\nassetsDir=a/b\nclasspath=x.jar,/y.jar\nkeyPath=k.pk8\n"

/-- The configuration that the text describes. -/
def unanchoredConfig : BuildConfig where
  buildPath := ⟨"out"⟩
  resDir := ⟨"/r"⟩
  assetsDir := some ⟨"a/b"⟩
  classpath := [⟨"x.jar"⟩, ⟨"/y.jar"⟩]
  signing.keyPair := ⟨some ⟨"k.pk8"⟩, none⟩

/-- The configuration as it is seen from the root of a project. -/
def anchoredConfig : BuildConfig where
  buildPath := ⟨"/p/out"⟩
  resDir := ⟨"/r"⟩
  assetsDir := some ⟨"/p/a/b"⟩
  classpath := [⟨"/p/x.jar"⟩, ⟨"/y.jar"⟩]
  signing.keyPair := ⟨some ⟨"/p/k.pk8"⟩, none⟩

/-- Files with a project that has this configuration. -/
def anchoredFiles : FileSystem :=
  (FileSystem.root.put ["p"] (.directory 0o755)).put ["p", "build.properties"]
    (.file 0o644 (.ofText anchoredText))

/-- The files when the loaded configuration has been saved to another project. -/
def anchoredFilesAfter : FileSystem :=
  ((writeTextFile (Project.mk ⟨"/q"⟩).propertiesPath anchoredConfig.toProperties).run.run
    (Stage.uselessWorld.answer false) anchoredFiles).2

/-- The configuration is loaded, and it can be moved to another project. -/
theorem anchored_loadConfig_sample :
    (readText (Project.mk ⟨"/p"⟩).propertiesPath).run.run (Stage.uselessWorld.answer false)
        anchoredFiles = (.ok anchoredText, anchoredFiles) ∧
      BuildConfig.ofText anchoredText = .ok unanchoredConfig ∧
      (Project.mk ⟨"/p"⟩).loadConfig.run.run (Stage.uselessWorld.answer false) anchoredFiles =
        (.ok anchoredConfig, anchoredFiles) ∧
      unanchoredConfig.Anchored ⟨"/p"⟩ anchoredConfig ∧
      (Project.mk ⟨"/q"⟩).loadConfig.run.run (Stage.uselessWorld.answer false) anchoredFilesAfter =
        (.ok anchoredConfig, anchoredFilesAfter) := by
  have hfile : anchoredFiles.read Stage.uselessWorld.place (Project.mk ⟨"/p"⟩).propertiesPath =
      .ok (.ofText anchoredText) := rfl
  have hread : (readText (Project.mk ⟨"/p"⟩).propertiesPath).run.run
      (Stage.uselessWorld.answer false) anchoredFiles = (.ok anchoredText, anchoredFiles) :=
    run_readText hfile
  have hparse : BuildConfig.ofText anchoredText = .ok unanchoredConfig := rfl
  obtain ⟨loaded, hload, hanchored, -, -, hmoved⟩ := anchored_loadConfig rfl hread hparse
  have hmapped : unanchoredConfig.mapPaths (Project.mk ⟨"/p"⟩).anchor = anchoredConfig := rfl
  have hloaded : (Project.mk ⟨"/p"⟩).loadConfig.run.run (Stage.uselessWorld.answer false)
      anchoredFiles = (.ok anchoredConfig, anchoredFiles) :=
    hmapped ▸ run_loadConfig_of_read hfile hparse
  obtain rfl := Except.ok.inj (Prod.mk.inj (hload.symm.trans hloaded)).1
  have hsave : (writeTextFile (Project.mk ⟨"/q"⟩).propertiesPath anchoredConfig.toProperties).run.run
      (Stage.uselessWorld.answer false) anchoredFiles = (.ok (), anchoredFilesAfter) := rfl
  have hcontent : anchoredFilesAfter.read Stage.uselessWorld.place (Project.mk ⟨"/q"⟩).propertiesPath =
      .ok (.ofText anchoredConfig.toProperties) := rfl
  have hsame : anchoredConfig.isSame anchoredConfig.reread = true := by decide +kernel
  exact ⟨hread, hparse, hload, hanchored, hmoved _ anchoredConfig.reload_eq hsame ⟨⟨"/q"⟩⟩
    Stage.uselessWorld false false anchoredFiles anchoredFilesAfter _ hsave hcontent⟩

end Project

end SketchApk
