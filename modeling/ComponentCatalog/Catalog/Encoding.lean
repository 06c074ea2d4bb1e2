import ComponentCatalog.Catalog.Record

/-!
# Records as JSON
-/

namespace ComponentCatalog

/-- A property as JSON. -/
def Property.toJson (p : Property) : Json :=
  .obj [("name", p.name), ("type", p.type), ("default", .ofText? p.default),
    ("description", p.description), ("documented", .bool p.documented)]

/-- An event as JSON. -/
def Event.toJson (e : Event) : Json :=
  .obj [("name", e.name), ("source", e.source), ("type", e.type),
    ("description", e.description), ("documented", .bool e.documented)]

/-- A function as JSON. -/
def FunctionDecl.toJson (f : FunctionDecl) : Json :=
  .obj [("name", f.name), ("kind", f.kind.name), ("exported", .bool f.exported)]

/-- A constant as JSON. -/
def ConstantDecl.toJson (c : ConstantDecl) : Json :=
  .obj [("name", c.name), ("value", .ofText? c.value), ("exported", .bool c.exported)]

/-- A section as JSON. -/
def Section.toJson (s : Section) : Json :=
  .obj [("title", s.title), ("content", s.content), ("level", .nat s.level)]

/-- A code sample as JSON. -/
def CodeSample.toJson (s : CodeSample) : Json :=
  .obj [("language", s.language), ("code", s.code)]

/-- A row of a table of properties as JSON. -/
def PropertyRow.toJson (r : PropertyRow) : Json :=
  .obj [("name", r.name), ("type", r.type), ("default", r.default), ("description", r.description)]

/-- A row of a table of events as JSON. -/
def EventRow.toJson (r : EventRow) : Json :=
  .obj [("name", r.name), ("type", r.type), ("description", r.description)]

/-- A file of a plugin as JSON. -/
def PluginFile.toJson (f : PluginFile) : Json :=
  .obj [("name", f.name), ("path", f.path), ("exports", .ofTexts f.exports),
    ("functions", .arr (f.functions.map FunctionDecl.toJson))]

end ComponentCatalog
