import ComponentCatalog.Number.Numeral
import ComponentCatalog.Text.Quoted
import ComponentCatalog.Text.Utf8

/-!
# What can be wrong with settings
-/

namespace ComponentCatalog

/-- A line of a settings file, with its number. -/
structure NumberedLine where
  number : Nat
  text : Text
deriving Repr, DecidableEq

/-- Why a settings file is not read, a setting not changed, or its value not used. -/
inductive SettingError where
  | reservedSection (name : Text)
  | invalidPercent (value : Text) (position : Nat)
  | missingReference (option group reference raw : Text)
  | malformedReference (option group left : Text)
  | strayPercent (option group left : Text)
  | tooDeep (option group raw : Text)
  | notWhole (value : Text)
  | tooManyDigits (digits : Nat)
  | notNumber (value : Text)
  | duplicateSection (file : Text) (line : Nat) (group : Text)
  | duplicateOption (file : Text) (line : Nat) (group option : Text)
  | missingHeader (file : Text) (line : NumberedLine)
  | malformedLines (file : Text) (lines : List NumberedLine)
  | undecodable (fault : Utf8.Fault)
  | unknownHome
  /-- A path holds the character of code zero. -/
  | nulInPath
deriving Repr, DecidableEq

/-- References to other settings are followed so many times in one value. -/
def referenceDepth : Nat := 10

/-- Why bytes are no text, in words. -/
def Utf8.Fault.message (f : Utf8.Fault) : Text :=
  let reason : Text := match f.reason with
    | .invalidStart => "invalid start byte"
    | .invalidContinuation => "invalid continuation byte"
    | .unexpectedEnd => "unexpected end of data"
  let place : Text := match f.bytes with
    | [b] => "byte 0x" ++ Text.hex 2 b.toNat ++ " in position " ++ Text.ofNat f.position
    | bytes => "bytes in position " ++ Text.ofNat f.position ++ "-" ++
        Text.ofNat (f.position + bytes.length - 1)
  "'utf-8' codec can't decode " ++ place ++ ": " ++ reason

namespace SettingError

/-- A place in a settings file. -/
def place (file : Text) (line : Nat) : Text :=
  "While reading from " ++ file.quoted ++ " [line " ++ (Text.ofNat line).padLeft 2 ++ "]: "

/-- A malformed line on a line of its own. -/
def malformedLine (line : NumberedLine) : Text :=
  "\n\t[line " ++ (Text.ofNat line.number).padLeft 2 ++ "]: " ++ line.text.quoted

/-- An error in words. -/
def message : SettingError → Text
  | reservedSection name => "Invalid section name: " ++ name.quoted
  | invalidPercent value position =>
    "invalid interpolation syntax in " ++ value.quoted ++ " at position " ++ Text.ofNat position
  | missingReference option group reference raw =>
    "Bad value substitution: option " ++ option.quoted ++ " in section " ++ group.quoted ++
      " contains an interpolation key " ++ reference.quoted ++
      " which is not a valid option name. Raw value: " ++ raw.quoted
  | malformedReference _ _ left => "bad interpolation variable reference " ++ left.quoted
  | strayPercent _ _ left => "'%' must be followed by '%' or '(', found: " ++ left.quoted
  | tooDeep option group raw =>
    "Recursion limit exceeded in value substitution: option " ++ option.quoted ++ " in section " ++
      group.quoted ++ " contains an interpolation key which cannot be substituted in " ++
      Text.ofNat referenceDepth ++ " steps. Raw value: " ++ raw.quoted
  | notWhole value => "invalid literal for int() with base 10: " ++ value.quoted.take 200
  | tooManyDigits digits => Numeral.tooLongMessage digits
  | notNumber value => "could not convert string to float: " ++ value.quoted
  | duplicateSection file line group =>
    place file line ++ "section " ++ group.quoted ++ " already exists"
  | duplicateOption file line group option =>
    place file line ++ "option " ++ option.quoted ++ " in section " ++ group.quoted ++
      " already exists"
  | missingHeader file line =>
    "File contains no section headers.\nfile: " ++ file.quoted ++ ", line: " ++
      Text.ofNat line.number ++ "\n" ++ line.text.quoted
  | malformedLines file lines =>
    "Source contains parsing errors: " ++ file.quoted ++ lines.flatMap malformedLine
  | undecodable fault => fault.message
  | unknownHome => "Could not determine home directory."
  | nulInPath => "embedded null byte"

end SettingError

end ComponentCatalog
