import ComponentCatalog.Catalog.Scan

/-!
# Building the index

A build clears the index and runs the five scans. A scan that ends early is logged as a warning and
the next one runs. Only a logger that refuses outside of the scans makes a build fail; the index is
then not ready.
-/

namespace ComponentCatalog

open Work

/-- The five scans, in the order in which they run. -/
def scans (lib : Library) : List (Text × Work Unit) :=
  [("components", Scan.components lib), ("utilities", Scan.utilities lib),
    ("configurations", Scan.configurations lib), ("plugins", Scan.plugins lib),
    ("examples", Scan.examples lib)]

/-- What a build found, in words. -/
def Index.report (index : Index) : Text :=
  "Resource index built: " ++ Text.ofNat index.components.size ++ " components, " ++
    Text.ofNat index.utilities.size ++ " utilities, " ++ Text.ofNat index.configs.size ++ " configs, " ++
    Text.ofNat index.plugins.size ++ " plugins, " ++ Text.ofNat index.examples.size ++ " examples"

/-- The first message of a build. -/
def Library.opening (lib : Library) : Text := "Building resource index for " ++ lib.root.toText

/-- The last message of a build that failed. -/
def Fault.ofBuild (fault : Fault) : Text := "Failed to build resource index: " ++ fault.message

/-- Runs the scans. A scan that ends early ends alone. -/
def scanAll (lib : Library) : Work Unit :=
  (scans lib).forM fun (kind, scan) => guarded lib ("Failed to index " ++ kind) scan

/-- Clears the index, fills it, and marks it as ready. -/
def populate (lib : Library) : Work Unit := do
  update Index.cleared
  scanAll lib
  update fun index => { index with ready := true }
  tell lib .info (← get).index.report

/-- The end of a build that failed. -/
def giveUp (lib : Library) (fault : Fault) : Work Unit := do
  tell lib .error fault.ofBuild
  update fun index => { index with ready := false }
  throw fault

/-- Builds the index anew. -/
def build (lib : Library) : Work Unit := do
  tell lib .info lib.opening
  try populate lib
  catch fault => giveUp lib fault

/-- Builds the index unless it is ready. -/
def ensureBuilt (lib : Library) : Work Unit := do
  if !(← get).index.ready then build lib

/-- How many records of each kind there are. -/
structure Stats where
  root : Path
  ready : Bool
  components : Nat
  utilities : Nat
  configs : Nat
  plugins : Nat
  examples : Nat
deriving Repr, DecidableEq

/-- The counts of an index over a library. -/
def Index.stats (index : Index) (root : Path) : Stats where
  root := root
  ready := index.ready
  components := index.components.size
  utilities := index.utilities.size
  configs := index.configs.size
  plugins := index.plugins.size
  examples := index.examples.size

/-- The root, whether the index is ready, and how many records of each kind it has. -/
def Stats.toJson (s : Stats) : Json :=
  .obj [("root", s.root.toText), ("ready", .bool s.ready), ("components", .nat s.components),
    ("utilities", .nat s.utilities), ("configs", .nat s.configs), ("plugins", .nat s.plugins),
    ("examples", .nat s.examples)]

end ComponentCatalog
