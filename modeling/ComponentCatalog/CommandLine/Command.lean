import ComponentCatalog.Query.Listing

/-!
# Commands

The commands of the program are a tree below the program itself. A command has options, and either
operands or commands below it.
-/

namespace ComponentCatalog.CommandLine

/-- The name of the program. -/
def program : Text := "libscout"

/-- The version of the program. -/
def version : Text := "1.0.0"

/-- The values that an option or an operand takes. -/
inductive ValueForm where
  | text
  | choice (words : List Text)
  | whole
deriving Repr, DecidableEq

/-- Alternatives in braces. -/
def alternatives (words : List Text) : Text := '\x7b' :: Text.join "," words ++ ['\x7d']

/-! ## Options -/

/-- The options of all commands. -/
inductive Opt where
  | help
  | version
  | verbose
  | basePath
  | library
  | json
  | category
  | transport
  | host
  | port
deriving Repr, DecidableEq

/-- What an option does. -/
inductive OptKind where
  | help
  | version
  | flag
  | value (form : ValueForm)
deriving Repr, DecidableEq

namespace Opt

/-- The letter of an option, if it has one. -/
def letter? : Opt → Option Char
  | help => some 'h'
  | verbose => some 'v'
  | library => some 'l'
  | json => some 'j'
  | category => some 'c'
  | transport => some 't'
  | version | basePath | host | port => none

/-- The word of an option. -/
def word : Opt → Text
  | help => "help"
  | version => "version"
  | verbose => "verbose"
  | basePath => "base-path"
  | library => "library"
  | json => "json"
  | category => "category"
  | transport => "transport"
  | host => "host"
  | port => "port"

/-- An option by its word. -/
def longName (o : Opt) : Text := "--" ++ o.word

/-- All ways to write an option. -/
def names (o : Opt) : List Text :=
  (o.letter?.map fun letter => ['-', letter]).toList ++ [o.longName]

/-- What an option takes: nothing, or a value of some form. -/
def kind : Opt → OptKind
  | help => .help
  | version => .version
  | verbose | json => .flag
  | basePath | library | category | host => .value .text
  | transport => .value (.choice ["stdio", "sse"])
  | port => .value .whole

/-- Does an option take a value? -/
def takesValue (o : Opt) : Bool :=
  match o.kind with
  | .value _ => true
  | _ => false

/-- What an option is for; nothing is said of some. -/
def explanation? : Opt → Option Text
  | help => some "show this help message and exit"
  | version => some "show program's version number and exit"
  | verbose => some "Verbose output"
  | basePath => some "Override libscout home (default: ~/.libscout)"
  | library => some "Shared library root (default: from configuration)"
  | json => none
  | category => some "Category hint (e.g. form)"
  | transport => some "Transport type (default: stdio)"
  | host => some "SSE host (default: localhost)"
  | port => some "SSE port (default: 3333)"

end Opt

/-! ## Operands -/

/-- The operands of all commands. -/
inductive Operand where
  | component
  | utility
  | plugin
  | topic
  | kind
  | group
  | setting
  | value
deriving Repr, DecidableEq

namespace Operand

/-- The name of an operand in help and in complaints. -/
def label : Operand → Text
  | component | utility | plugin => "name"
  | topic => "topic"
  | kind => "kind"
  | group => "section"
  | setting => "key"
  | value => "value"

/-- The values that an operand takes. -/
def form : Operand → ValueForm
  | kind => .choice (ListedKind.all.map ListedKind.name)
  | _ => .text

/-- What an operand is for; nothing is said of some. -/
def explanation? : Operand → Option Text
  | component => some "Component name"
  | utility => some "Utility or function name"
  | plugin => some "Plugin name"
  | topic => some "Topic, e.g. component"
  | kind => none
  | group => some "INI section, e.g. search"
  | setting => some "Setting name, e.g. accept_threshold"
  | value => some "New value"

/-- An operand as it stands in a usage. -/
def placeholder (o : Operand) : Text :=
  match o.form with
  | .choice words => alternatives words
  | _ => o.label

end Operand

/-! ## The tree of commands -/

/-- The program itself and its commands. -/
inductive Command where
  | root
  | index
  | query
  | queryComponent
  | queryUtility
  | queryPlugin
  | practices
  | list
  | mcp
  | mcpServe
  | mcpInstall
  | config
  | configShow
  | configSet
  | status
deriving Repr, DecidableEq

namespace Command

/-- The words that lead to a command. -/
def words : Command → List Text
  | root => []
  | index => ["index"]
  | query => ["query"]
  | queryComponent => ["query", "component"]
  | queryUtility => ["query", "utility"]
  | queryPlugin => ["query", "plugin"]
  | practices => ["practices"]
  | list => ["list"]
  | mcp => ["mcp"]
  | mcpServe => ["mcp", "serve"]
  | mcpInstall => ["mcp", "install"]
  | config => ["config"]
  | configShow => ["config", "show"]
  | configSet => ["config", "set"]
  | status => ["status"]

/-- The last of the words that lead to a command. -/
def word (c : Command) : Text := c.words.getLast?.getD []

/-- A command with the program in front of it. -/
def fullName (c : Command) : Text := Text.join " " (program :: c.words)

/-- The commands below a command. -/
def children : Command → List Command
  | root => [index, query, practices, list, mcp, config, status]
  | query => [queryComponent, queryUtility, queryPlugin]
  | mcp => [mcpServe, mcpInstall]
  | config => [configShow, configSet]
  | _ => []

/-- The number of levels below a command. -/
def height : Command → Nat
  | root => 2
  | query | mcp | config => 1
  | _ => 0

theorem height_child {c d : Command} (h : d ∈ c.children) : d.height < c.height := by
  revert h
  cases c <;> cases d <;> decide

/-- The options of a command. -/
def options : Command → List Opt
  | root => [.help, .version, .verbose, .basePath, .library]
  | queryComponent => [.help, .category, .json]
  | index | queryUtility | queryPlugin | practices | list | status => [.help, .json]
  | mcpServe => [.help, .transport, .host, .port]
  | query | mcp | mcpInstall | config | configShow | configSet => [.help]

/-- The operands of a command. -/
def operands : Command → List Operand
  | queryComponent => [.component]
  | queryUtility => [.utility]
  | queryPlugin => [.plugin]
  | practices => [.topic]
  | list => [.kind]
  | configSet => [.group, .setting, .value]
  | _ => []

/-- The name of the place that a command below a command takes. -/
def childLabel (c : Command) : Text := Text.join "_" (c.words ++ ["command".toList])

/-- What the commands below a command are. -/
def childrenExplanation : Command → Text
  | query => "Query commands"
  | mcp => "MCP commands"
  | config => "Config commands"
  | _ => "Available commands"

/-- What a command does, in one line. -/
def summary : Command → Text
  | root => "🤖 libscout: Resource knowledge index for shared component libraries"
  | index => "Build the resource index"
  | query => "Query indexed resources"
  | queryComponent => "Component details"
  | queryUtility => "Utility module or function"
  | queryPlugin => "Plugin details"
  | practices => "Best practices for a topic"
  | list => "List indexed resources"
  | mcp => "MCP server for AI assistants"
  | mcpServe => "Start MCP server"
  | mcpInstall => "Show MCP client configuration"
  | config => "Show or change settings"
  | configShow => "Print current settings"
  | configSet => "Persist a setting to defaults.ini"
  | status => "Show configuration status"

end Command

end ComponentCatalog.CommandLine
