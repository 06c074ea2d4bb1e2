import ComponentCatalog.Markdown.Table
import ComponentCatalog.Script.Declaration

/-!
# Declarations joined with documentation tables

A declaration takes its description from the first row of its name. Where there is no table at all,
declarations stay as they are.
-/

namespace ComponentCatalog

/-- A property with the description of its row. -/
def Property.describe (rows : List PropertyRow) (p : Property) : Property :=
  match rows.find? fun row => row.name == p.name with
  | some row => { p with description := row.description, documented := true }
  | none => { p with description := [], documented := false }

/-- The properties with the descriptions of a table. -/
def mergeProperties (properties : List Property) (rows : List PropertyRow) : List Property :=
  if rows.isEmpty then properties else properties.map (Property.describe rows)

/-- An event with the type and description of its row. -/
def Event.describe (rows : List EventRow) (e : Event) : Event :=
  match rows.find? fun row => row.name == e.name with
  | some row => { e with type := row.type, description := row.description, documented := true }
  | none => { e with description := [], documented := false }

/-- The events with the types and descriptions of a table. -/
def mergeEvents (events : List Event) (rows : List EventRow) : List Event :=
  if rows.isEmpty then events else events.map (Event.describe rows)

end ComponentCatalog
