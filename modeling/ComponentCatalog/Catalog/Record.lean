import ComponentCatalog.Json.Basic
import ComponentCatalog.Markdown.CodeSample
import ComponentCatalog.Markdown.Table
import ComponentCatalog.Script.Declaration

/-!
# Records of the catalogue

One record for each component, utility module, configuration module, plugin and example project,
and the documentation that a whole kind of resources has.
-/

namespace ComponentCatalog

/-- A component and what its source and its documentation say. -/
structure ComponentRecord where
  name : Text
  /-- The directory of the component below the library's root. -/
  category : Text
  filePath : Text
  properties : List Property := []
  events : List Event := []
  mixins : List Text := []
  imports : List Text := []
  template : Text := []
  documentation : Text := []
  examples : List CodeSample := []
  propertyRows : List PropertyRow := []
  eventRows : List EventRow := []
deriving Repr, DecidableEq

/-- A component with a documentation and all that is read from it. -/
def ComponentRecord.document (c : ComponentRecord) (documentation : Text) : ComponentRecord :=
  { c with
    documentation
    examples := codeSamples documentation
    propertyRows := ComponentCatalog.propertyRows documentation
    eventRows := ComponentCatalog.eventRows documentation }

/-- A utility module. -/
structure UtilityRecord where
  name : Text
  filePath : Text
  functions : List FunctionDecl := []
  exports : List Text := []
  imports : List Text := []
  documentation : Text := []
deriving Repr, DecidableEq

/-- A configuration module. -/
structure ConfigRecord where
  name : Text
  filePath : Text
  exports : List Text := []
  constants : List ConstantDecl := []
  documentation : Text := []
deriving Repr, DecidableEq

/-- A script in a plugin's directory. -/
structure PluginFile where
  name : Text
  path : Text
  exports : List Text := []
  functions : List FunctionDecl := []
deriving Repr, DecidableEq

/-- A plugin. -/
structure PluginRecord where
  name : Text
  dirPath : Text
  files : List PluginFile := []
  documentation : Text := []
  examples : List CodeSample := []
deriving Repr, DecidableEq

/-- A file, or a directory with what it holds, in the tree of an example project. -/
inductive TreeNode where
  | file (name path : Text)
  | directory (name path : Text) (children : List TreeNode)

namespace TreeNode

/-- The name of the file or directory. -/
def name : TreeNode → Text
  | file name _ => name
  | directory name _ _ => name

/-- The path, as text. -/
def path : TreeNode → Text
  | file _ path => path
  | directory _ path _ => path

/-- Is the node a file? -/
def isFile : TreeNode → Bool
  | file .. => true
  | directory .. => false

end TreeNode

/-- An example project. -/
structure ExampleRecord where
  name : Text
  dirPath : Text
  /-- The manifest, if it could be read. -/
  manifest : Option Json := none
  tree : List TreeNode := []
  documentation : Text := []

/-- The documentation of a whole kind of resources. -/
structure KindDocumentation where
  name : Text
  documentation : Text
  examples : List CodeSample := []
deriving Repr, DecidableEq

/-- The documentation of a kind with the code samples in it. -/
def KindDocumentation.ofText (name documentation : Text) : KindDocumentation :=
  ⟨name, documentation, codeSamples documentation⟩

end ComponentCatalog
