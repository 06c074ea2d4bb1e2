import ComponentCatalog.Files.FileSystem
import ComponentCatalog.Json.Reading
import ComponentCatalog.Settings.Error

/-!
# Faults

Everything that can end an operation of the catalogue early.
-/

namespace ComponentCatalog

/-- Why an operation ended early. -/
inductive Fault where
  | setting (error : SettingError)
  | file (error : FileError)
  /-- A manifest has too much of something. -/
  | excess (e : Json.Excess)
  /-- The logger refused to go on. -/
  | interrupted (message : Text)
  | missingArgument (name : Text)
  | libraryNotFound (root : Path)
  /-- A name holds the character of code zero. -/
  | nulInName
  | missingTransport
  /-- A change of a setting does not say of which. -/
  | unnamedSetting
  /-- A change of a setting does not say to which value. -/
  | unvaluedSetting
deriving Repr, DecidableEq

namespace Fault

/-- A fault in words. -/
def message : Fault → Text
  | setting error => error.message
  | file error => error.message
  | excess e => e.message
  | interrupted message => message
  | missingArgument name => "'" ++ name ++ "' is required and must be a non-empty string"
  | libraryNotFound root => "Shared library not found: " ++ root.toText
  | nulInName => "embedded null character"
  | missingTransport =>
    "MCP dependencies not installed. Install with: pip install libscout[mcp]"
  | unnamedSetting => "unhashable type: 'list'"
  | unvaluedSetting => "option values must be strings"

end Fault

end ComponentCatalog
