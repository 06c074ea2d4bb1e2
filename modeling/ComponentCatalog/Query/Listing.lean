import ComponentCatalog.Query.Component
import ComponentCatalog.Markdown.Summary

/-!
# Listings

All resources of a kind, ordered by their names regardless of case; names that differ only in case
are ordered by code points.
-/

namespace ComponentCatalog

open Work

/-- The kinds of resources that are listed. -/
inductive ListedKind where
  | components
  | utilities
  | plugins
deriving Repr, DecidableEq

/-- The kinds that can be listed. -/
def ListedKind.all : List ListedKind := [.components, .utilities, .plugins]

/-- The word for a kind. -/
def ListedKind.name : ListedKind → Text
  | components => "components"
  | utilities => "utilities"
  | plugins => "plugins"

/-- What a listing says of a resource besides its name. -/
inductive ListedDetail where
  | category (category : Text)
  | functions (names : List Text)
  | nothing
deriving Repr, DecidableEq

/-- A line of a listing. -/
structure ListedItem where
  name : Text
  detail : ListedDetail
  description : Text
deriving Repr, DecidableEq

namespace ListedItem

/-- The order of a listing. -/
def le (x y : ListedItem) : Bool :=
  let a := x.name.fold
  let b := y.name.fold
  if a = b then Text.le x.name y.name else Text.le a b

/-- An item as JSON, with the detail of its kind. -/
def toJson (item : ListedItem) : Json :=
  let detail : List (Text × Json) := match item.detail with
    | .category category => [("category", .str category)]
    | .functions names => [("functions", .ofTexts names)]
    | .nothing => []
  .obj (("name".toList, .str item.name) :: detail ++ [("description".toList, .str item.description)])

end ListedItem

namespace Index

/-- The resources of a kind, in the order of the index. -/
def items (index : Index) : ListedKind → List ListedItem
  | .components => index.components.entries.map fun (key, c) =>
      ⟨key, .category c.category, summary c.documentation⟩
  | .utilities => index.utilities.entries.map fun (key, u) =>
      ⟨key, .functions (u.functions.map (·.name)), summary u.documentation⟩
  | .plugins => index.plugins.entries.map fun (key, p) => ⟨key, .nothing, summary p.documentation⟩

/-- The resources of a kind, in order. -/
def listing (index : Index) (kind : ListedKind) : List ListedItem :=
  (index.items kind).mergeSort ListedItem.le

end Index

/-- Lists the resources of a kind. A name that holds the character of code zero has no place in the
order. -/
def queryListing (lib : Library) (kind : ListedKind) : Work (List ListedItem) := do
  ensureBuilt lib
  let index := (← get).index
  if (index.items kind).any fun item => item.name.contains '\x00' then throw .nulInName
  return index.listing kind

/-- The counts of the index, which is built if need be. -/
def queryStatus (lib : Library) : Work Stats := do
  ensureBuilt lib
  return (← get).index.stats lib.root

end ComponentCatalog
