import ComponentCatalog.Proofs.ModuleScan

/-!
# What the scan of plugins does

A plugin is the directory of a name with the scripts and the documentation in it that can be read.
-/

namespace ComponentCatalog

open Work

variable {lib : Library} {l : Layout}

/-- What a file of a plugin adds to its record, unless it cannot be read. -/
def pluginChange (files : FileSystem) (l : Layout) (dir : Path) (name : Text) :
    Except FileError (PluginRecord → PluginRecord) :=
  if name.endsWith l.scriptExtension then
    (files.read (dir.child name)).map fun source plugin =>
      let file : PluginFile :=
        { name, path := (dir.child name).toText, exports := exports source, functions := functions source }
      { plugin with files := plugin.files ++ [file] }
  else if name = l.readmeName then
    (files.read (dir.child name)).map fun t plugin =>
      { plugin with documentation := t, examples := codeSamples t }
  else .ok id

/-- A plugin with what an entry of its directory adds. -/
def pluginWith (files : FileSystem) (l : Layout) (dir : Path) (plugin : PluginRecord) (e : Entry) :
    PluginRecord :=
  if e.isDirectory then plugin
  else match pluginChange files l dir e.name with
    | .ok change => change plugin
    | .error _ => plugin

/-- The record of the plugin in a directory with these entries. -/
def pluginRecord (files : FileSystem) (l : Layout) (dir : Path) (name : Text) (entries : List Entry) :
    PluginRecord :=
  entries.foldl (pluginWith files l dir) { name, dirPath := dir.toText }

/-- The edits of one entry: a directory is a plugin, and the README is about all of them. -/
def pluginEntryEdits (files : FileSystem) (l : Layout) (dir : Path) (e : Entry) : List Edit :=
  if e.isDirectory then
    match files.list (dir.child e.name) with
    | .ok entries => [.plugin e.name (pluginRecord files l (dir.child e.name) e.name entries)]
    | .error _ => []
  else if e.name = l.readmeName then
    [.pluginsDoc ((files.read (dir.child e.name)).toOption.map fun t => .ofText "plugins" t)]
  else []

/-- The edits of the scan of plugins. -/
def pluginEdits (files : FileSystem) (root : Path) (l : Layout) : List Edit :=
  ((files.list (root.join l.pluginsDir)).toOption.getD []).flatMap
    (pluginEntryEdits files l (root.join l.pluginsDir))

namespace Scan

theorem pluginFile_does (hl : lib.settings.Lays l) (dir : Path) (name : Text) :
    Does (pluginFile lib dir name) ((pluginChange lib.files l dir name).mapError .file) [] := by
  refine (Does.setting hl.scriptExtension).then ?_
  unfold pluginChange
  by_cases hs : name.endsWith l.scriptExtension = true
  · rw [if_pos hs, if_pos hs]
    cases hr : lib.files.read (dir.child name) with
    | error e => exact (Does.read_error hr).bind_error
    | ok source => exact (Does.read hr).then (Does.pure _)
  rw [if_neg hs, if_neg hs]
  refine (Does.setting hl.readmeName).then ?_
  by_cases hd : name = l.readmeName
  · rw [if_pos hd, if_pos hd]
    cases hr : lib.files.read (dir.child name) with
    | error e => exact (Does.read_error hr).bind_error
    | ok t => exact (Does.read hr).then (Does.pure _)
  · rw [if_neg hd, if_neg hd]
    exact Does.pure id

theorem addPluginEntry_does (hlog : lib.logger.Accepts) (hl : lib.settings.Lays l) (dir : Path)
    (plugin : PluginRecord) (e : Entry) :
    Does (addPluginEntry lib dir plugin e) (.ok (pluginWith lib.files l dir plugin e)) [] := by
  unfold addPluginEntry pluginWith
  cases he : e.isDirectory with
  | true => exact Does.pure plugin
  | false =>
      have hfile := pluginFile_does hl dir e.name
      simp only [Bool.false_eq_true, ↓reduceIte]
      cases hc : pluginChange lib.files l dir e.name with
      | ok change =>
          rw [hc] at hfile
          exact hfile.tryCatch_ok.then (Does.pure _)
      | error fault =>
          rw [hc] at hfile
          refine Does.then (a := id) ?_ (Does.pure _)
          exact hfile.tryCatch_error ((Does.tell hlog _ _).then (Does.pure id))

theorem plugin_does (hlog : lib.logger.Accepts) (hl : lib.settings.Lays l) (dir : Path) (name : Text) :
    Does (plugin lib dir name) (.ok ())
      (match lib.files.list dir with
        | .ok entries => [.plugin name (pluginRecord lib.files l dir name entries)]
        | .error _ => []) := by
  refine (listed_does hlog dir).then ?_
  cases lib.files.list dir with
  | error e => exact Does.pure ()
  | ok entries =>
      refine (Does.foldlM fun plugin e _ => addPluginEntry_does hlog hl dir plugin e).then ?_
      refine (Does.update (e := .plugin name _) fun _ => rfl).bind ?_
      exact Does.tell hlog _ _

theorem plugins_does (hlog : lib.logger.Accepts) (hl : lib.settings.Lays l) :
    Does (plugins lib) (.ok ()) (pluginEdits lib.files lib.root l) := by
  refine (Does.setting hl.pluginsDir).then ((listed_does hlog _).then ?_)
  unfold pluginEdits
  cases lib.files.list (lib.root.join l.pluginsDir) with
  | error e => exact Does.pure ()
  | ok entries =>
      refine Does.forM fun e _ => ?_
      unfold pluginEntryEdits
      split
      · exact Does.guarded_ok (plugin_does hlog hl _ _)
      · refine (Does.setting hl.readmeName).then ?_
        split
        · exact (kindDocumentation_does hlog _ _).then (Does.update fun _ => rfl)
        · exact Does.pure ()

end Scan

end ComponentCatalog
