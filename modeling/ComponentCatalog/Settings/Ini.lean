import ComponentCatalog.OrderedMap
import ComponentCatalog.Settings.Error
import ComponentCatalog.Text.LetterCase
import ComponentCatalog.Text.Reader

/-!
# Sections of options

A settings file holds sections of options. Options are named regardless of case, and those of the
reserved section stand in for what any section lacks. A value may refer to others of its section.
-/

namespace ComponentCatalog

/-- Options by their names in small letters. -/
abbrev Options := OrderedMap Text Text

/-- Sections of options, and the options that all sections share. -/
structure Ini where
  shared : Options := ∅
  sections : OrderedMap Text Options := ∅

namespace Ini

/-- The section of the shared options. -/
def sharedName : Text := "DEFAULT"

/-- A section with its options, unless there is none of that name. -/
def options? (ini : Ini) (group : Text) : Option Options :=
  if group = sharedName then some ∅ else ini.sections.find? group

/-- The value of an option as it is written, its section's own or a shared one. -/
def raw? (ini : Ini) (group option : Text) : Option Text := do
  let options ← ini.options? group
  (options.find? option.lower).or (ini.shared.find? option.lower)

/-- The sections with an option set. -/
def put (ini : Ini) (group option value : Text) : Ini :=
  if group = sharedName then { ini with shared := ini.shared.insert option.lower value }
  else
    let options := (ini.sections.find? group).getD ∅
    { ini with sections := ini.sections.insert group (options.insert option.lower value) }

/-- The sections with a section that may be empty. -/
def addSection (ini : Ini) (group : Text) : Ini :=
  if ini.sections.contains group then ini else { ini with sections := ini.sections.insert group ∅ }

/-! ## References -/

/-- A reference to another option. -/
def reference : Reader Text := do
  Reader.lit "%("
  let name ← Reader.run1 (· != ')')
  Reader.lit ")s"
  return name

/-- What a value is made of. -/
inductive Piece where
  | char (c : Char)
  | reference (option : Text)
  | malformedReference (left : Text)
  | strayPercent (left : Text)
deriving Repr, DecidableEq

/-- The pieces of a value, up to the first that is malformed. A percent sign is written twice; the
first `skip` characters belong to the piece before. -/
def piecesFrom (skip : Nat) : Text → List Piece
  | [] => []
  | c :: r =>
    match skip with
    | n + 1 => piecesFrom n r
    | 0 =>
      if c != '%' then .char c :: piecesFrom 0 r
      else match r.head? with
        | some '%' => .char '%' :: piecesFrom 1 r
        | some '(' =>
          match reference (c :: r) with
          | some (name, left) => .reference name.lower :: piecesFrom (r.length - left.length) r
          | none => [.malformedReference (c :: r)]
        | _ => [.strayPercent (c :: r)]

/-- A value with its references followed, at most `depth` times one behind the other. -/
def expand (ini : Ini) (group option raw : Text) : Nat → Text → Except SettingError Text
  | 0, _ => .error (.tooDeep option group raw)
  | depth + 1, value => do
    let texts ← (piecesFrom 0 value).mapM fun piece =>
      match piece with
      | .char c => .ok [c]
      | .reference name =>
        match ini.raw? group name with
        | none => .error (.missingReference option group name raw)
        | some v => if v.contains '%' then ini.expand group option raw depth v else .ok v
      | .malformedReference left => .error (.malformedReference option group left)
      | .strayPercent left => .error (.strayPercent option group left)
    return texts.flatten

/-- The value of an option with its references followed; `fallback` if there is no such option. -/
def get (ini : Ini) (group option fallback : Text) : Except SettingError Text :=
  match ini.raw? group option with
  | none => .ok fallback
  | some raw => ini.expand group option.lower raw referenceDepth raw

/-- A value without the pairs of percent signs. -/
def withoutPairs : Text → Text
  | '%' :: '%' :: r => withoutPairs r
  | c :: r => c :: withoutPairs r
  | [] => []

/-- A value without its references; the first `skip` characters belong to one. -/
def withoutReferences (skip : Nat) : Text → Text
  | [] => []
  | c :: r =>
    match skip with
    | n + 1 => withoutReferences n r
    | 0 =>
      match reference (c :: r) with
      | some (_, left) => withoutReferences (r.length - left.length) r
      | none => c :: withoutReferences 0 r

/-- Where a percent sign is left when pairs and references are taken away. -/
def strayPercent? (value : Text) : Option Nat :=
  (withoutReferences 0 (withoutPairs value)).findIdx? (· == '%')

/-- The sections with an option set to a value. Its section is added if need be, even if the value
is then refused. A section without a name holds nothing: its options are shared ones. -/
def set (ini : Ini) (group option value : Text) : Except SettingError Unit × Ini :=
  if group = sharedName then (.error (.reservedSection group), ini)
  else
    let ini := ini.addSection group
    match strayPercent? value with
    | some position => (.error (.invalidPercent value position), ini)
    | none => (.ok (), ini.put (if group.isEmpty then sharedName else group) option value)

/-! ## Text -/

/-- An option as it is written; a value of several lines is indented behind the first one. -/
def optionText (option value : Text) : Text :=
  option ++ " = " ++ Text.expand '\n' "\n\t" value ++ "\n"

/-- A section as it is written. -/
def sectionText (group : Text) (options : Options) : Text :=
  "[" ++ group ++ "]\n" ++ options.entries.flatMap (fun (option, value) => optionText option value) ++
    "\n"

/-- The text of a settings file. -/
def text (ini : Ini) : Text :=
  (if ini.shared.entries.isEmpty then [] else sectionText sharedName ini.shared) ++
    ini.sections.entries.flatMap fun (group, options) => sectionText group options

end Ini

end ComponentCatalog
