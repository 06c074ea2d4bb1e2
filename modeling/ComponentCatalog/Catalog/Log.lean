import ComponentCatalog.Fault

/-!
# Log and logger

Work on the catalogue is logged. The logger of an index may refuse to go on at any message; the
message is in the log by then.
-/

namespace ComponentCatalog

/-- How important a message is. -/
inductive Level where
  | debug
  | info
  | warning
  | error
deriving Repr, DecidableEq

/-- The parts of the program that log. -/
inductive Channel where
  | index
  | files
  | queries
  | commands
deriving Repr, DecidableEq

/-- A message in the log. -/
structure LogEntry where
  channel : Channel
  level : Level
  text : Text
deriving Repr, DecidableEq

/-- The logger of an index: with which words it refuses to go on after a message, if it does. -/
structure Logger where
  refusal? : Level → Text → Option Text

/-- A logger that never refuses. -/
def Logger.silent : Logger := ⟨fun _ _ => none⟩

/-- A logger that refuses at texts with certain beginnings; the first that fits counts. -/
def Logger.refusing (beginnings : List (Text × Text)) : Logger :=
  ⟨fun _ t => (beginnings.find? fun (beginning, _) => t.startsWith beginning).map (·.2)⟩

end ComponentCatalog
