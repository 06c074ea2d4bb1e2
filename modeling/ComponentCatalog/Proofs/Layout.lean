import ComponentCatalog.Settings.Settings

/-!
# The layout of a library

The settings that say where the resources of a library are, with the values that can be read of them.
-/

namespace ComponentCatalog

/-- Where a library keeps what, and how its files are named. -/
structure Layout where
  componentDirs : List Text
  utilsDir : Text
  configModulesDir : Text
  pluginsDir : Text
  examplesDir : Text
  componentExtension : Text
  scriptExtension : Text
  readmeName : Text
  entryPoint : Text
  manifestName : Text
  treeDepth : Int

/-- All settings of a layout can be read, and these are their values. -/
structure Settings.Lays (s : Settings) (l : Layout) : Prop where
  componentDirs : s.componentDirs = .ok l.componentDirs
  utilsDir : s.utilsDir = .ok l.utilsDir
  configModulesDir : s.configModulesDir = .ok l.configModulesDir
  pluginsDir : s.pluginsDir = .ok l.pluginsDir
  examplesDir : s.examplesDir = .ok l.examplesDir
  componentExtension : s.componentExtension = .ok l.componentExtension
  scriptExtension : s.scriptExtension = .ok l.scriptExtension
  readmeName : s.readmeName = .ok l.readmeName
  entryPoint : s.entryPoint = .ok l.entryPoint
  manifestName : s.manifestName = .ok l.manifestName
  treeDepth : s.treeDepth = .ok l.treeDepth

/-- The settings that say where example projects are and what is in them can be read. -/
structure Settings.LaysProjects (s : Settings) (l : Layout) : Prop where
  examplesDir : s.examplesDir = .ok l.examplesDir
  readmeName : s.readmeName = .ok l.readmeName
  manifestName : s.manifestName = .ok l.manifestName
  treeDepth : s.treeDepth = .ok l.treeDepth

theorem Settings.Lays.projects {s : Settings} {l : Layout} (h : s.Lays l) : s.LaysProjects l :=
  ⟨h.examplesDir, h.readmeName, h.manifestName, h.treeDepth⟩

/-- The layout of the defaults. -/
def Layout.standard : Layout where
  componentDirs :=
    ["src/scripts/components", "src/scripts/form-components", "src/scripts/chart-components"]
  utilsDir := "src/scripts/utils"
  configModulesDir := "src/scripts/config"
  pluginsDir := "src/scripts/plugins"
  examplesDir := "examples"
  componentExtension := ".vue"
  scriptExtension := ".js"
  readmeName := "README.md"
  entryPoint := "index.js"
  manifestName := "package.json"
  treeDepth := 3

theorem Settings.ofBase_lays (base : Path) : (Settings.ofBase base).Lays Layout.standard where
  componentDirs := rfl
  utilsDir := rfl
  configModulesDir := rfl
  pluginsDir := rfl
  examplesDir := rfl
  componentExtension := rfl
  scriptExtension := rfl
  readmeName := rfl
  entryPoint := rfl
  manifestName := rfl
  treeDepth := rfl

end ComponentCatalog
