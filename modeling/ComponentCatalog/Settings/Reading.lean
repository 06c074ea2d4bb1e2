import ComponentCatalog.Settings.Ini
import ComponentCatalog.Text.Lines

/-!
# Reading a settings file

A file is read line by line: headers of sections, options with their values, and indented lines that
continue a value. Lines that begin with `#` or `;` are comments. No section and no option may come
twice. A line that is none of these is remembered, and the file refused at its end.
-/

namespace ComponentCatalog

namespace Ini

/-- What was read so far. -/
structure Reading where
  ini : Ini
  seenSections : List Text := []
  seenOptions : List (Text × Text) := []
  /-- The section that is being read. -/
  current? : Option Text := none
  /-- The option that is being read. -/
  option? : Option Text := none
  /-- The lines of its value. -/
  value : List Text := []
  /-- The indentation of the line that began it. -/
  indent : Nat := 0
  malformed : List NumberedLine := []

/-- Does a line hold only a comment? -/
def isComment (trimmed : Text) : Bool := trimmed.head? == some '#' || trimmed.head? == some ';'

/-- The name of the section that a line opens: all between its first bracket, which begins the line,
and its last closing bracket. -/
def header? (trimmed : Text) : Option Text :=
  match trimmed with
  | '[' :: r =>
    match (r.reverse.dropWhile (· != ']')).drop 1 with
    | [] => none
    | name => some name.reverse
  | _ => none

/-- Does a character stand between an option and its value? -/
def isDelimiter (c : Char) : Bool := c == '=' || c == ':'

/-- The option and the value of a line, if it has a delimiter. -/
def assignment? (trimmed : Text) : Option (Text × Text) :=
  match trimmed.dropWhile (!isDelimiter ·) with
  | [] => none
  | _ :: value => some (Text.trimRight (trimmed.takeWhile (!isDelimiter ·)), Text.trim value)

namespace Reading

/-- One more line of the value that is being read; blanks at the end of a value do not count. -/
def extend (r : Reading) (group option line : Text) : Reading :=
  let value := r.value ++ [line]
  { r with value, ini := r.ini.put group option (Text.trimRight (Text.join ['\n'] value)) }

/-- The header of a section. -/
def openSection (r : Reading) (file : Text) (number : Nat) (group : Text) :
    Except SettingError Reading :=
  if group = sharedName then .ok { r with current? := some group, option? := none }
  else if r.seenSections.contains group then .error (.duplicateSection file number group)
  else .ok { r with
    ini := r.ini.addSection group
    seenSections := group :: r.seenSections
    current? := some group
    option? := none }

/-- A line in a section: an option, or a malformed line. An option without a name is malformed, and
no line continues it. -/
def optionLine (r : Reading) (file : Text) (line : NumberedLine) (group : Text) :
    Except SettingError Reading :=
  let bad : Reading := { r with malformed := r.malformed ++ [line] }
  match assignment? line.text.trim with
  | none => .ok bad
  | some (name, value) =>
    let name := name.lower
    if r.seenOptions.contains (group, name) then .error (.duplicateOption file line.number group name)
    else if name.isEmpty then
      .ok { bad with seenOptions := (group, name) :: r.seenOptions, option? := none }
    else
      let r := { r with
        seenOptions := (group, name) :: r.seenOptions, option? := some name, value := [] }
      .ok (r.extend group name value)

/-- One line of a file. -/
def step (file : Text) (r : Reading) (line : NumberedLine) : Except SettingError Reading :=
  let trimmed := line.text.trim
  let indent := (line.text.takeWhile isBlank).length
  if isComment trimmed then .ok r
  else match r.current?, r.option? with
    | some group, some name =>
      if trimmed.isEmpty || r.indent < indent then .ok (r.extend group name trimmed)
      else fresh trimmed indent
    | _, _ => if trimmed.isEmpty then .ok r else fresh trimmed indent
where
  fresh (trimmed : Text) (indent : Nat) : Except SettingError Reading :=
    let r := { r with indent }
    match header? trimmed with
    | some group => r.openSection file line.number group
    | none =>
      match r.current? with
      | none => .error (.missingHeader file line)
      | some group => r.optionLine file line group

end Reading

/-- The lines of a text, each with the line feed that ends it, numbered from `n` on. -/
def numberedLines (n : Nat) : List Text → List NumberedLine
  | [] => []
  | [last] => if last.isEmpty then [] else [⟨n, last⟩]
  | line :: rest => ⟨n, line ++ ['\n']⟩ :: numberedLines (n + 1) rest

/-- The lines that are complete although no more can be read behind `t`. A carriage return at the end
may be half of a line end. -/
def completeLines (t : Text) : List NumberedLine :=
  let t : Text := if t.getLast? = some '\r' then t.dropLast else t
  (numberedLines 1 (t.unifyLineEnds.pieces '\n')).filter fun line => line.text.getLast? == some '\n'

/-- A file is read in blocks of so many bytes. -/
def blockSize : Nat := 8192

/-- The sections with those of a file added. If its bytes are no text, the lines that are complete
before the block with the fault come first. -/
def read (ini : Ini) (file : Text) (bytes : List UInt8) : Except SettingError Ini := do
  match Utf8.decodeStrict bytes with
  | (t, none) =>
    let lines := numberedLines 1 (t.unifyLineEnds.pieces '\n')
    let r ← lines.foldlM (Reading.step file) { ini }
    if r.malformed.isEmpty then return r.ini else throw (.malformedLines file r.malformed)
  | (_, some fault) =>
    let (t, faultInBlock?) := Utf8.decodeBlocks [] (Utf8.blocks blockSize bytes)
    let _ ← (completeLines t).foldlM (Reading.step file) { ini }
    throw (.undecodable (faultInBlock?.getD fault))

end Ini

end ComponentCatalog
