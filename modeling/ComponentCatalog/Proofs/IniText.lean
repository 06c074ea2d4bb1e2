import ComponentCatalog.Proofs.IniLines
import ComponentCatalog.Proofs.OrderedMap
import ComponentCatalog.Proofs.Utf8

/-!
# Settings files that were written

A settings file that was written is read as the sections that it was written from, as long as the lines
of every value stay with it.
-/

namespace ComponentCatalog

namespace Ini

variable {file group option value line : Text} {options : Options} {m : Ini}

/-! ## Lines that stay with a value -/

/-- Does a line go on with the value above it, or is it skipped? -/
def isContinued (line : Text) : Bool :=
  isComment line.trim || line.trim.isEmpty || line.head?.any isBlank

/-- The lines of a value from the first one that does not go on with it. -/
def strayLines (value : Text) : List Text := (valueLines value).tail.dropWhile isContinued

theorem isContinued_of_strayLines {value first : Text} {lines : List Text} (h : strayLines value = first :: lines) :
    isContinued first = false := by
  have hhead := List.head?_dropWhile_not isContinued (valueLines value).tail
  rw [← strayLines, h] at hhead
  simpa using hhead

/-- The lines of a value that are read as lines of it. -/
def keptLines (value : Text) : List Text :=
  ((valueLines value).headD []).trim ::
    (((valueLines value).tail.takeWhile isContinued).map Text.trim).filter (!isComment ·)

/-- What a value is read as. -/
def readValue (value : Text) : Text := Text.trimRight (Text.join ['\n'] (keptLines value))

/-- Is a line skipped outside of any value, or does it open the section of the shared options? -/
def opensNothing (line : Text) : Bool :=
  isComment line.trim || line.trim.isEmpty || header? line.trim == some sharedName

/-- The lines of every value stay with it, but for lines of the last one that open nothing. -/
structure Fits (options : List (Text × Text)) : Prop where
  front : ∀ entry ∈ options.dropLast, strayLines entry.2 = []
  last : ∀ entry ∈ options.getLast?, ∀ line ∈ strayLines entry.2, opensNothing line = true

theorem Fits.of_strayLines {options : List (Text × Text)} (h : ∀ entry ∈ options, strayLines entry.2 = []) :
    Fits options where
  front entry hentry := h entry (List.dropLast_subset _ hentry)
  last entry hentry line hline := by
    rw [h entry (List.mem_of_getLast? hentry)] at hline
    cases hline

/-! ## What can be written -/

/-- A value that fits on a line and has no blanks around it. -/
structure IsPlain (value : Text) : Prop where
  trimmed : value.trim = value
  noFeed : '\n' ∉ value
  noReturn : '\r' ∉ value

/-- An option of this name is found again in the line that it was written on. -/
structure IsOptionName (option : Text) : Prop where
  lower : option.lower = option
  trimmed : option.trim = option
  nonempty : option ≠ []
  head : option.head? ≠ some '#' ∧ option.head? ≠ some ';'
  inner : ∀ c ∈ option, isDelimiter c = false ∧ c ≠ '\n' ∧ c ≠ '\r'

/-- A section of this name is found again in its header. -/
structure IsGroupName (group : Text) : Prop where
  owned : group ≠ sharedName
  nonempty : group ≠ []
  inner : IsOneLine group

/-- An option whose first line is not taken for a header. -/
structure IsEntry (option value : Text) : Prop extends IsOptionName option where
  bracket : option.head? = some '[' → ']' ∉ option.drop 2 ∧ ']' ∉ (valueLines value).headD []

/-- Sections and options that are found again. -/
structure IsReadable (m : Ini) : Prop where
  group : ∀ group options, (group, options) ∈ m.sections.entries → IsGroupName group
  option : ∀ group options, (group, options) ∈ m.sections.entries →
    ∀ option value, (option, value) ∈ options.entries → IsEntry option value
  shared : ∀ option value, (option, value) ∈ m.shared.entries → IsEntry option value

theorem IsOptionName.isOneLine (h : IsOptionName option) : IsOneLine option := fun c hc => (h.inner c hc).2

theorem IsReadable.hasNames (h : IsReadable m) : HasNames m where
  group g os hentry := (h.group g os hentry).inner
  option g os hentry o v hoption := (h.option g os hentry o v hoption).isOneLine
  shared o v hoption := (h.shared o v hoption).isOneLine

theorem IsPlain.valueLines (h : IsPlain value) : valueLines value = [value] := by
  obtain ⟨first, rest, hpieces, hlines⟩ := valueLines_of_notMem h.noReturn
  rw [Text.pieces_of_notMem h.noFeed] at hpieces
  obtain ⟨rfl, rfl⟩ := List.cons.inj hpieces
  exact hlines

theorem IsPlain.strayLines (h : IsPlain value) : strayLines value = [] := by
  rw [Ini.strayLines, h.valueLines]
  rfl

theorem IsPlain.readValue (h : IsPlain value) : readValue value = value := by
  have hkept : keptLines value = [value] := by simp [keptLines, h.valueLines, h.trimmed]
  rw [Ini.readValue, hkept]
  exact Text.trimRight_of_trim h.trimmed

/-! ## Single lines -/

theorem header?_headerLine (h : group ≠ []) : header? (headerLine group) = some group := by
  have hrest : ((group ++ [']']).reverse.dropWhile (· != ']')).drop 1 = group.reverse := by simp
  have hne : group.reverse ≠ [] := by simpa using h
  unfold header? headerLine
  simp only [List.cons_append, hrest, List.reverse_reverse]

theorem header?_of_head {c : Char} {rest : Text} (h : c ≠ '[') : header? (c :: rest) = none := by
  unfold header?
  split
  · next heq => exact absurd (List.cons.inj heq).1 h
  · rfl

/-- A line that begins with a bracket is a header if it has a closing bracket behind its second
character. -/
theorem header?_bracket (rest : Text) : header? ('[' :: rest) = none ↔ ']' ∉ rest.tail := by
  cases rest with
  | nil => exact iff_of_true rfl List.not_mem_nil
  | cons c rest =>
      unfold header?
      simp only [List.reverse_cons, List.dropWhile_append, List.tail_cons]
      by_cases hmem : ']' ∈ rest
      · obtain ⟨x, found, hfound⟩ : ∃ x found, rest.reverse.dropWhile (· != ']') = x :: found := by
          refine List.exists_cons_of_ne_nil fun hnil => ?_
          simpa using List.dropWhile_eq_nil_iff.1 hnil ']' (List.mem_reverse.2 hmem)
        rw [hfound]
        refine iff_of_false ?_ (not_not_intro hmem)
        cases found <;> simp
      · have hnil : rest.reverse.dropWhile (· != ']') = [] := by
          refine List.dropWhile_eq_nil_iff.2 fun x hx => ?_
          simpa using fun heq : x = ']' => hmem (heq ▸ List.mem_reverse.1 hx)
        rw [hnil]
        refine iff_of_true ?_ hmem
        cases hc : (c != ']') <;> simp [hc]

theorem trim_feed (line : Text) : (line ++ ['\n']).trim = line.trim := Text.trim_concat_blank (by decide) line

theorem trim_headerLine (group : Text) : (headerLine group).trim = headerLine group := by
  rw [headerLine, List.cons_append, Text.trim_cons (by decide), Text.trimRight_concat (by decide)]

/-- The line of an option begins with the option; behind the delimiter stands what is trimmed as the
first line of its value. -/
theorem trim_optionLine (hname : IsOptionName option) (first : Text) :
    ∃ behind : Text, (option ++ " = " ++ first).trim = option ++ ' ' :: '=' :: behind ∧
      behind.trim = first.trim ∧ ∀ c ∈ behind, c = ' ' ∨ c ∈ first := by
  obtain ⟨c, r, rfl, hc, -⟩ := Text.exists_cons_of_trim hname.trimmed hname.nonempty
  rw [List.cons_append, List.cons_append, Text.trim_cons hc, Text.trimRight_append]
  split
  · next hempty =>
      have hright : Text.trimRight (r ++ [' ', '=', ' ']) = r ++ [' ', '='] := by
        rw [Text.trimRight_append, if_neg (by decide)]
        rfl
      refine ⟨[], congrArg (c :: ·) hright, ?_, fun x hx => absurd hx List.not_mem_nil⟩
      rw [← Text.trim_trimRight first, hempty]
  · refine ⟨' ' :: first.trimRight, by simp, ?_, fun x hx => ?_⟩
    · rw [Text.trim_cons_blank (by decide), Text.trim_trimRight]
    · exact (List.mem_cons.1 hx).imp id fun hx => (List.rdropWhile_prefix _ _).subset hx

theorem assignment?_of_name {behind : Text} (hname : IsOptionName option) :
    assignment? (option ++ ' ' :: '=' :: behind) = some (option, behind.trim) := by
  have hinner : ∀ c ∈ option ++ [' '], (!isDelimiter c) = true := by
    intro c hc
    rcases List.mem_append.1 hc with hc | hc
    · rw [(hname.inner c hc).1]
      rfl
    · rw [List.mem_singleton.1 hc]
      rfl
  have hdrop : (option ++ ' ' :: '=' :: behind).dropWhile (!isDelimiter ·) = '=' :: behind := by
    rw [show option ++ ' ' :: '=' :: behind = (option ++ [' ']) ++ '=' :: behind by simp,
      List.dropWhile_append_of_pos hinner]
    rfl
  have htake : (option ++ ' ' :: '=' :: behind).takeWhile (!isDelimiter ·) = option ++ [' '] := by
    rw [show option ++ ' ' :: '=' :: behind = (option ++ [' ']) ++ '=' :: behind by simp,
      List.takeWhile_append_of_pos hinner, List.takeWhile_cons_of_neg (by decide), List.append_nil]
  obtain ⟨c, r, -, -, hright⟩ := Text.exists_cons_of_trim hname.trimmed hname.nonempty
  have hblank : isBlank ' ' = true := by decide
  rw [assignment?, hdrop, htake, Text.trimRight_concat_blank hblank, hright]

/-- The first line of an option is read as the option and the first line of its value. -/
theorem readsAs_optionLine (h : IsEntry option value) :
    header? (option ++ " = " ++ (valueLines value).headD []).trim = none ∧
      assignment? (option ++ " = " ++ (valueLines value).headD []).trim =
        some (option, ((valueLines value).headD []).trim) := by
  obtain ⟨behind, htrim, hbehind, hmem⟩ := trim_optionLine h.toIsOptionName ((valueLines value).headD [])
  rw [htrim]
  refine ⟨?_, by rw [assignment?_of_name h.toIsOptionName, hbehind]⟩
  obtain ⟨c, r, rfl⟩ := List.exists_cons_of_ne_nil h.nonempty
  by_cases hc : c = '['
  · subst hc
    obtain ⟨hname, hfirst⟩ := h.bracket rfl
    refine (header?_bracket _).2 fun htail => ?_
    have hbehind' : ']' ∉ behind := fun hb => (hmem _ hb).elim (by decide) hfirst
    cases r with
    | nil => simp [hbehind'] at htail
    | cons x r => simp [hbehind', show ']' ∉ r from hname] at htail
  · exact header?_of_head hc

/-! ## Reading lines -/

/-- A reading takes in lines, whatever their numbers are. -/
inductive Reads (file : Text) : Reading → List Text → Reading → Prop
  | nil (r : Reading) : Reads file r [] r
  | cons {r s t : Reading} {line : Text} {lines : List Text} :
      (∀ n, r.step file ⟨n, line ++ ['\n']⟩ = .ok s) → Reads file s lines t →
      Reads file r (line :: lines) t

theorem Reads.append {r s t : Reading} {ls ks : List Text} (h : Reads file r ls s) (hk : Reads file s ks t) :
    Reads file r (ls ++ ks) t := by
  induction h with
  | nil => exact hk
  | cons hstep _ ih => exact .cons hstep (ih hk)

theorem numberedLines_cons (n : Nat) (line : Text) (lines : List Text) :
    numberedLines n (line :: lines ++ [[]]) = ⟨n, line ++ ['\n']⟩ :: numberedLines (n + 1) (lines ++ [[]]) := by
  cases lines <;> rfl

theorem Reads.foldlM {r s : Reading} {ls : List Text} (h : Reads file r ls s) (n : Nat) :
    (numberedLines n (ls ++ [[]])).foldlM (Reading.step file) r = .ok s := by
  induction h generalizing n with
  | nil => rfl
  | cons hstep _ ih =>
      rw [numberedLines_cons, List.foldlM_cons, hstep]
      exact ih (n + 1)

variable {r : Reading}

theorem step_flush (file : Text) (r : Reading) (line : NumberedLine) {c : Char} {rest : Text}
    (hline : line.text = c :: rest) (hblank : isBlank c = false) (hcomment : c ≠ '#' ∧ c ≠ ';') :
    r.step file line = Reading.step.fresh file r line line.text.trim 0 := by
  have hcons : line.text.trim = c :: rest.trimRight := by rw [hline, Text.trim_cons hblank]
  have hindent : (line.text.takeWhile isBlank).length = 0 := by
    rw [hline, List.takeWhile_cons_of_neg (by simp [hblank])]
    rfl
  have hskip : isComment line.text.trim = false := by simp [isComment, hcons, hcomment]
  have hne : line.text.trim.isEmpty = false := by rw [hcons]; rfl
  unfold Reading.step
  simp only [hskip, hindent, hne, Nat.not_lt_zero]
  cases r.current? <;> cases r.option? <;> rfl

theorem step_headerLine (file : Text) (r : Reading) (hgroup : group ≠ []) (n : Nat) :
    r.step file ⟨n, headerLine group ++ ['\n']⟩ = Reading.openSection { r with indent := 0 } file n group := by
  rw [step_flush file r _ rfl (by decide) (by decide), Reading.step.fresh, trim_feed, trim_headerLine,
    header?_headerLine hgroup]

theorem step_header (file : Text) (r : Reading) (hgroup : IsGroupName group) (hnew : group ∉ r.seenSections)
    (n : Nat) :
    r.step file ⟨n, headerLine group ++ ['\n']⟩ = .ok { r with
      ini := r.ini.addSection group
      seenSections := group :: r.seenSections
      current? := some group
      option? := none
      indent := 0 } := by
  have hseen : r.seenSections.contains group = false := by simpa using hnew
  rw [step_headerLine file r hgroup.nonempty, Reading.openSection, if_neg hgroup.owned]
  simp only [hseen]
  rfl

theorem step_sharedHeader (file : Text) (r : Reading) (n : Nat) :
    r.step file ⟨n, headerLine sharedName ++ ['\n']⟩ =
      .ok { r with current? := some sharedName, option? := none, indent := 0 } := by
  rw [step_headerLine file r (by decide), Reading.openSection, if_pos rfl]

theorem step_optionLine (file : Text) (hcurrent : r.current? = some group) (h : IsEntry option value) (n : Nat) :
    r.step file ⟨n, option ++ " = " ++ (valueLines value).headD [] ++ ['\n']⟩ =
      if r.seenOptions.contains (group, option) then .error (.duplicateOption file n group option)
      else .ok { r with
        ini := r.ini.put group option ((valueLines value).headD []).trim
        seenOptions := (group, option) :: r.seenOptions
        option? := some option
        value := [((valueLines value).headD []).trim]
        indent := 0 } := by
  obtain ⟨c, rest, hcons, hblank, -⟩ := Text.exists_cons_of_trim h.trimmed h.nonempty
  obtain ⟨hheader, hassignment⟩ := readsAs_optionLine h
  have hcomment : c ≠ '#' ∧ c ≠ ';' := by
    have hhead := h.head
    rw [hcons] at hhead
    exact ⟨fun hc => hhead.1 (hc ▸ rfl), fun hc => hhead.2 (hc ▸ rfl)⟩
  have hline : option ++ " = " ++ (valueLines value).headD [] ++ ['\n'] =
      c :: (rest ++ " = " ++ (valueLines value).headD [] ++ ['\n']) := by simp [hcons]
  have hflush := step_flush file r ⟨n, _⟩ hline hblank hcomment
  have hne : option.isEmpty = false := by simpa using h.nonempty
  rw [hflush, Reading.step.fresh, trim_feed]
  simp only [hheader, hcurrent, Reading.optionLine, trim_feed, hassignment, h.lower, hne, Reading.extend,
    List.nil_append, Text.join, Text.trimRight_of_trim (Text.trim_trim _)]
  rfl

theorem step_continued (hcurrent : r.current? = some group) (hoption : r.option? = some option)
    (hindent : r.indent = 0) (hline : isContinued line = true) (n : Nat) :
    r.step file ⟨n, line ++ ['\n']⟩ =
      .ok (if isComment line.trim then r else r.extend group option line.trim) := by
  unfold Reading.step
  simp only [trim_feed, hcurrent, hoption]
  cases hcomment : isComment line.trim with
  | true => rfl
  | false =>
      have hstays : (line.trim.isEmpty || decide (r.indent < ((line ++ ['\n']).takeWhile isBlank).length)) = true := by
        simp only [isContinued, hcomment, Bool.false_or, Bool.or_eq_true] at hline
        rcases hline with hempty | hblank
        · rw [hempty, Bool.true_or]
        · cases line with
          | nil => cases hblank
          | cons c line =>
              have hc : isBlank c = true := by simpa using hblank
              simp [hindent, hc]
      simp only [hstays]
      rfl

theorem put_put (m : Ini) (group option value new : Text) :
    (m.put group option value).put group option new = m.put group option new := by
  unfold put
  by_cases hgroup : group = sharedName
  · simp only [if_pos hgroup, OrderedMap.insert_insert]
  · simp only [if_neg hgroup, OrderedMap.find?_insert, if_true, Option.getD_some,
      OrderedMap.insert_insert]

theorem reads_continued (file : Text) (hcurrent : r.current? = some group) (hoption : r.option? = some option)
    (hindent : r.indent = 0)
    (hput : r.ini = m.put group option (Text.trimRight (Text.join ['\n'] r.value)))
    {lines : List Text} (hlines : ∀ line ∈ lines, isContinued line = true) :
    Reads file r lines { r with
      ini := m.put group option (Text.trimRight (Text.join ['\n']
        (r.value ++ (lines.map Text.trim).filter (!isComment ·))))
      value := r.value ++ (lines.map Text.trim).filter (!isComment ·) } := by
  induction lines generalizing r with
  | nil =>
      simp only [List.map_nil, List.filter_nil, List.append_nil, ← hput]
      exact .nil r
  | cons line lines ih =>
      obtain ⟨hline, hrest⟩ := List.forall_mem_cons.1 hlines
      refine .cons (step_continued hcurrent hoption hindent hline) ?_
      cases hcomment : isComment line.trim with
      | true => simpa [hcomment] using ih hcurrent hoption hindent hput hrest
      | false =>
          have hmore := ih (r := r.extend group option line.trim) hcurrent hoption hindent
            (by rw [Reading.extend, hput, put_put]) hrest
          simpa [hcomment, Reading.extend] using hmore

/-! ## Reading options -/

/-- The sections with all options of a list set in one of them. -/
def putAll (m : Ini) (group : Text) (options : List (Text × Text)) : Ini :=
  options.foldl (fun m (option, value) => m.put group option value) m

/-- An option as it is read. -/
def readEntry (entry : Text × Text) : Text × Text := (entry.1, readValue entry.2)

/-- A reading took in the options of a list, all of them in one section. -/
structure Reading.Took (r s : Reading) (group : Text) (options : List (Text × Text)) : Prop where
  malformed : s.malformed = r.malformed
  sections : s.seenSections = r.seenSections
  seen : ∀ x, x ∈ s.seenOptions ↔ x ∈ r.seenOptions ∨ ∃ option ∈ options.map Prod.fst, x = (group, option)
  ini : s.ini = r.ini.putAll group (options.map readEntry)

theorem Reading.Took.append {r s t : Reading} {os ks : List (Text × Text)} (h : r.Took s group os)
    (hk : s.Took t group ks) : r.Took t group (os ++ ks) where
  malformed := hk.malformed.trans h.malformed
  sections := hk.sections.trans h.sections
  seen x := by
    rw [hk.seen, h.seen]
    simp only [List.map_append, List.mem_append]
    grind
  ini := by rw [hk.ini, h.ini, List.map_append, putAll, putAll, putAll, List.foldl_append]

/-- An empty line changes no option. -/
def Reading.IsIdle (r : Reading) : Prop := ∀ group option, r.current? = some group → r.option? = some option →
  r.value ≠ [] ∧ r.ini.put group option (Text.trimRight (Text.join ['\n'] r.value)) = r.ini

theorem Reading.isIdle_of_none (h : r.option? = none) : r.IsIdle := by
  intro group option _ hoption
  rw [h] at hoption
  cases hoption

theorem step_empty (file : Text) (hidle : r.IsIdle) : ∃ value, ∀ n, r.step file ⟨n, ['\n']⟩ = .ok { r with value } := by
  have htrim : Text.trim ['\n'] = [] := by decide
  have hskip : r.current? = none ∨ r.option? = none → ∃ value, ∀ n, r.step file ⟨n, ['\n']⟩ = .ok { r with value } := by
    refine fun hnone => ⟨r.value, fun n => ?_⟩
    show r.step file ⟨n, ['\n']⟩ = .ok r
    unfold Reading.step
    rcases hnone with hnone | hnone
    · simp only [htrim, hnone]
      rfl
    · simp only [htrim, hnone]
      cases r.current? <;> rfl
  obtain hcurrent | ⟨group, hcurrent⟩ := Option.eq_none_or_eq_some r.current?
  · exact hskip (.inl hcurrent)
  · obtain hoption | ⟨option, hoption⟩ := Option.eq_none_or_eq_some r.option?
    · exact hskip (.inr hoption)
    · obtain ⟨hne, hput⟩ := hidle group option hcurrent hoption
      have hblank : isBlank '\n' = true := by decide
      have hsame : Text.trimRight (Text.join ['\n'] (r.value ++ [[]])) =
          Text.trimRight (Text.join ['\n'] r.value) := by
        rw [Text.join_append _ hne (List.cons_ne_nil _ _), Text.join, List.append_nil,
          Text.trimRight_concat_blank hblank]
      refine ⟨r.value ++ [[]], fun n => ?_⟩
      have hextend : r.extend group option [] = { r with value := r.value ++ [[]] } := by
        simp only [Reading.extend, hsame, hput]
      rw [← hextend]
      unfold Reading.step
      simp only [htrim, hcurrent, hoption]
      rfl

/-- A reading that took in an option up to the last line that goes on with its value. -/
def Reading.behind (r : Reading) (group option value : Text) : Reading := { r with
  ini := r.ini.put group option (readValue value)
  seenOptions := (group, option) :: r.seenOptions
  option? := some option
  value := keptLines value
  indent := 0 }

theorem Reading.isIdle_behind (hcurrent : r.current? = some group) : (r.behind group option value).IsIdle := by
  intro g o hg ho
  cases hcurrent.symm.trans hg
  cases ho
  exact ⟨List.cons_ne_nil _ _, put_put ..⟩

theorem Reading.took_behind (r : Reading) (group option value : Text) :
    r.Took (r.behind group option value) group [(option, value)] where
  malformed := rfl
  sections := rfl
  seen x := by simp [Reading.behind, or_comm]
  ini := rfl

theorem reads_entry (file : Text) (hcurrent : r.current? = some group) (h : IsEntry option value)
    (hnew : (group, option) ∉ r.seenOptions) :
    Reads file r ((option ++ " = " ++ (valueLines value).headD []) :: (valueLines value).tail.takeWhile isContinued)
      (r.behind group option value) := by
  have hseen : r.seenOptions.contains (group, option) = false := by simpa using hnew
  refine .cons (fun n => by rw [step_optionLine file hcurrent h n, hseen]; rfl) ?_
  have hput : r.ini.put group option ((valueLines value).headD []).trim =
      r.ini.put group option (Text.trimRight (Text.join ['\n'] [((valueLines value).headD []).trim])) := by
    rw [Text.join, Text.trimRight_of_trim (Text.trim_trim _)]
  exact reads_continued file (m := r.ini) (r := { r with
      ini := r.ini.put group option ((valueLines value).headD []).trim
      seenOptions := (group, option) :: r.seenOptions
      option? := some option
      value := [((valueLines value).headD []).trim]
      indent := 0 }) hcurrent rfl rfl hput fun line hline => List.mem_takeWhile_imp hline

theorem optionLines_eq (option value : Text) : optionLines option value =
    ((option ++ " = " ++ (valueLines value).headD []) :: (valueLines value).tail.takeWhile isContinued) ++
      strayLines value := by
  rw [optionLines, strayLines, List.cons_append, List.takeWhile_append_dropWhile]

theorem reads_options (file : Text) {r : Reading} (hcurrent : r.current? = some group) (hidle : r.IsIdle)
    {options : List (Text × Text)} (hentry : ∀ option value, (option, value) ∈ options → IsEntry option value)
    (hstays : ∀ entry ∈ options, strayLines entry.2 = []) (hnodup : (options.map Prod.fst).Nodup)
    (hnew : ∀ option ∈ options.map Prod.fst, (group, option) ∉ r.seenOptions) :
    ∃ s, Reads file r (options.flatMap fun (option, value) => optionLines option value) s ∧
      r.Took s group options ∧ s.current? = some group ∧ s.IsIdle := by
  induction options generalizing r with
  | nil => exact ⟨r, .nil r, ⟨rfl, rfl, by simp, rfl⟩, hcurrent, hidle⟩
  | cons entry options ih =>
      obtain ⟨option, value⟩ := entry
      obtain ⟨hfirst, hrest⟩ := List.nodup_cons.1 hnodup
      have hreads := reads_entry file hcurrent (hentry option value List.mem_cons_self) (hnew option List.mem_cons_self)
      obtain ⟨s, hmore, hs, hscurrent, hsidle⟩ := ih (r := r.behind group option value) hcurrent
        (Reading.isIdle_behind hcurrent)
        (fun o v hmem => hentry o v (List.mem_cons_of_mem _ hmem))
        (fun e he => hstays e (List.mem_cons_of_mem _ he)) hrest
        (fun o ho hmem => by
          rcases List.mem_cons.1 hmem with heq | hmem
          · exact hfirst ((Prod.mk.inj heq).2 ▸ ho)
          · exact hnew o (List.mem_cons_of_mem _ ho) hmem)
      refine ⟨s, ?_, (r.took_behind group option value).append hs, hscurrent, hsidle⟩
      have hlines := optionLines_eq option value
      rw [hstays _ List.mem_cons_self, List.append_nil] at hlines
      show Reads file r (optionLines option value ++ _) s
      rw [hlines]
      exact hreads.append hmore

/-! ## Reading lines that open nothing -/

/-- Outside of a value, a line is skipped or it begins something. -/
theorem step_outside (hoption : r.option? = none) (line : NumberedLine) :
    r.step file line =
      if isComment line.text.trim || line.text.trim.isEmpty then .ok r
      else Reading.step.fresh file r line line.text.trim (line.text.takeWhile isBlank).length := by
  unfold Reading.step
  simp only [hoption]
  cases isComment line.text.trim with
  | true => rfl
  | false => cases r.current? <;> rfl

theorem step_opensNothing (file : Text) (hoption : r.option? = none) (hline : opensNothing line = true) :
    ∃ current? indent, ∀ n, r.step file ⟨n, line ++ ['\n']⟩ = .ok { r with current?, indent } := by
  cases hskip : isComment line.trim || line.trim.isEmpty with
  | true =>
      refine ⟨r.current?, r.indent, fun n => ?_⟩
      rw [step_outside hoption, trim_feed, hskip]
      rfl
  | false =>
      obtain ⟨hcomment, hempty⟩ := Bool.or_eq_false_iff.1 hskip
      have hheader : header? line.trim = some sharedName := by
        simpa [opensNothing, hcomment, hempty] using hline
      refine ⟨some sharedName, ((line ++ ['\n']).takeWhile isBlank).length, fun n => ?_⟩
      rw [step_outside hoption, trim_feed, hskip, Reading.step.fresh, hheader]
      simp only [Reading.openSection, hoption]
      rfl

theorem reads_opensNothing (file : Text) (hoption : r.option? = none) {lines : List Text}
    (hlines : ∀ line ∈ lines, opensNothing line = true) :
    ∃ current? indent, Reads file r lines { r with current?, indent } := by
  induction lines generalizing r with
  | nil => exact ⟨r.current?, r.indent, .nil r⟩
  | cons line lines ih =>
      obtain ⟨hline, hrest⟩ := List.forall_mem_cons.1 hlines
      obtain ⟨current?, indent, hstep⟩ := step_opensNothing file hoption hline
      obtain ⟨last?, more, hmore⟩ := ih (r := { r with current?, indent }) hoption hrest
      exact ⟨last?, more, .cons hstep hmore⟩

theorem step_fresh (file : Text) (r : Reading) (hline : isContinued line = false) (n : Nat) :
    r.step file ⟨n, line ++ ['\n']⟩ = Reading.step.fresh file r ⟨n, line ++ ['\n']⟩ line.trim 0 := by
  simp only [isContinued, Bool.or_eq_false_iff] at hline
  obtain ⟨⟨hcomment, hempty⟩, hhead⟩ := hline
  cases line with
  | nil => cases hempty
  | cons c rest =>
      have hblank : isBlank c = false := hhead
      have hsign : c ≠ '#' ∧ c ≠ ';' := by
        rw [Text.trim_cons hblank] at hcomment
        simpa [isComment] using hcomment
      rw [step_flush file r _ rfl hblank hsign, trim_feed]

theorem reads_strayLines (file : Text) (hidle : r.IsIdle)
    (hlines : ∀ line ∈ strayLines value, opensNothing line = true) :
    ∃ s, Reads file r (strayLines value) s ∧ s.seenOptions = r.seenOptions ∧ s.seenSections = r.seenSections ∧
      s.ini = r.ini ∧ s.malformed = r.malformed ∧ s.IsIdle := by
  cases hstray : strayLines value with
  | nil => exact ⟨r, .nil r, rfl, rfl, rfl, rfl, hidle⟩
  | cons line lines =>
      rw [hstray] at hlines
      obtain ⟨hline, hrest⟩ := List.forall_mem_cons.1 hlines
      have hbegins := isContinued_of_strayLines hstray
      have hheader : header? line.trim = some sharedName := by
        have hnot := Bool.or_eq_false_iff.1 hbegins
        simpa [opensNothing, hnot.1] using hline
      obtain ⟨current?, indent, hmore⟩ := reads_opensNothing file
        (r := { r with current? := some sharedName, option? := none, indent := 0 }) rfl hrest
      refine ⟨_, .cons (fun n => ?_) hmore, rfl, rfl, rfl, rfl, Reading.isIdle_of_none rfl⟩
      rw [step_fresh file r hbegins, Reading.step.fresh, hheader]
      rfl

/-! ## Reading sections -/

/-- The options of a section, with the empty line that ends it. -/
theorem reads_body (file : Text) {r : Reading} (hcurrent : r.current? = some group) (hoption : r.option? = none)
    {options : List (Text × Text)} (hentry : ∀ option value, (option, value) ∈ options → IsEntry option value)
    (hfits : Fits options) (hnodup : (options.map Prod.fst).Nodup)
    (hnew : ∀ option ∈ options.map Prod.fst, (group, option) ∉ r.seenOptions) :
    ∃ s, Reads file r (options.flatMap (fun (option, value) => optionLines option value) ++ [[]]) s ∧
      r.Took s group options := by
  suffices hbody : ∃ s, Reads file r (options.flatMap fun (option, value) => optionLines option value) s ∧
      r.Took s group options ∧ s.IsIdle by
    obtain ⟨s, hreads, htook, hidle⟩ := hbody
    obtain ⟨value, hstep⟩ := step_empty file hidle
    exact ⟨_, hreads.append (.cons hstep (.nil _)), ⟨htook.malformed, htook.sections, htook.seen, htook.ini⟩⟩
  rcases List.eq_nil_or_concat options with rfl | ⟨front, ⟨option, value⟩, rfl⟩
  · exact ⟨r, .nil r, ⟨rfl, rfl, by simp, rfl⟩, Reading.isIdle_of_none hoption⟩
  · have hstays := hfits.front
    have hlast := hfits.last
    simp only [List.concat_eq_append, List.dropLast_concat, List.getLast?_concat, Option.mem_some_iff,
      forall_eq'] at hstays hlast
    rw [List.concat_eq_append] at hentry hnodup hnew ⊢
    rw [List.map_append, List.nodup_append] at hnodup
    obtain ⟨hfront, -, hother⟩ := hnodup
    obtain ⟨s, hreads, htook, hscurrent, -⟩ := reads_options file hcurrent (Reading.isIdle_of_none hoption)
      (fun o v hmem => hentry o v (List.mem_append_left _ hmem)) hstays hfront
      (fun o ho => hnew o (by rw [List.map_append]; exact List.mem_append_left _ ho))
    have hlastNew : (group, option) ∉ s.seenOptions := by
      rw [htook.seen]
      rintro (hmem | ⟨o, ho, heq⟩)
      · exact hnew option (by simp) hmem
      · obtain rfl : option = o := (Prod.mk.inj heq).2
        exact hother _ ho option (by simp) rfl
    have hlines := reads_entry file hscurrent (hentry option value (by simp)) hlastNew
    obtain ⟨t, hstray, hseen, hsections, hini, hmalformed, hidle⟩ :=
      reads_strayLines file (Reading.isIdle_behind hscurrent) hlast
    have hbehind := s.took_behind group option value
    refine ⟨t, ?_, htook.append ⟨hmalformed, hsections, hseen ▸ hbehind.seen, hini⟩, hidle⟩
    rw [List.flatMap_append, List.flatMap_singleton]
    show Reads file r (_ ++ optionLines option value) t
    rw [optionLines_eq]
    exact hreads.append (hlines.append hstray)

/-- A reading that remembers the section of every option. -/
def Reading.IsOrderly (r : Reading) : Prop := ∀ x ∈ r.seenOptions, x.1 = sharedName ∨ x.1 ∈ r.seenSections

/-- The sections with the options of one of them set to their values. -/
def withSection (m : Ini) (group : Text) (options : List (Text × Text)) : Ini :=
  (m.addSection group).putAll group options

/-- The sections with all that `m` says. -/
def overlay (start m : Ini) : Ini :=
  m.sections.entries.foldl (fun start (group, options) => start.withSection group options.entries)
    (start.putAll sharedName m.shared.entries)

theorem reads_section (file : Text) {r : Reading} (horderly : r.IsOrderly) (hgroup : IsGroupName group)
    (hnew : group ∉ r.seenSections)
    (hentry : ∀ option value, (option, value) ∈ options.entries → IsEntry option value)
    (hfits : Fits options.entries) :
    ∃ s, Reads file r (sectionLines group options) s ∧ s.malformed = r.malformed ∧ s.IsOrderly ∧
      s.seenSections = group :: r.seenSections ∧ r.seenOptions ⊆ s.seenOptions ∧
      s.ini = r.ini.withSection group (options.entries.map readEntry) := by
  obtain ⟨s, hreads, htook⟩ := reads_body file (r := { r with
      ini := r.ini.addSection group
      seenSections := group :: r.seenSections
      current? := some group
      option? := none
      indent := 0 }) rfl rfl hentry hfits options.nodup
    fun o _ hmem => (horderly _ hmem).elim hgroup.owned hnew
  refine ⟨s, .cons (step_header file r hgroup hnew) hreads, htook.malformed, fun x hx => ?_, htook.sections,
    fun x hx => (htook.seen x).2 (.inl hx), htook.ini⟩
  rw [htook.sections]
  rcases (htook.seen x).1 hx with hx | ⟨o, -, rfl⟩
  · exact (horderly x hx).imp id (List.mem_cons_of_mem _)
  · exact .inr List.mem_cons_self

theorem reads_sections (file : Text) {r : Reading} (horderly : r.IsOrderly)
    {sections : List (Text × Options)} (hnodup : (sections.map Prod.fst).Nodup)
    (hnew : ∀ group ∈ sections.map Prod.fst, group ∉ r.seenSections)
    (hgroup : ∀ group options, (group, options) ∈ sections → IsGroupName group)
    (hentry : ∀ group options, (group, options) ∈ sections →
      ∀ option value, (option, value) ∈ options.entries → IsEntry option value)
    (hfits : ∀ group options, (group, options) ∈ sections → Fits options.entries) :
    ∃ s, Reads file r (sections.flatMap fun (group, options) => sectionLines group options) s ∧
      s.malformed = r.malformed ∧ s.IsOrderly ∧
      (∀ g, g ∈ s.seenSections ↔ g ∈ r.seenSections ∨ g ∈ sections.map Prod.fst) ∧
      r.seenOptions ⊆ s.seenOptions ∧
      s.ini = sections.foldl (fun m (group, options) => m.withSection group (options.entries.map readEntry)) r.ini := by
  induction sections generalizing r with
  | nil => exact ⟨r, .nil r, rfl, horderly, by simp, List.Subset.refl _, rfl⟩
  | cons entry sections ih =>
      obtain ⟨group, options⟩ := entry
      obtain ⟨hfirst, hrest⟩ := List.nodup_cons.1 hnodup
      obtain ⟨s, hreads, hmalformed, hsorderly, hsections, hseen, hini⟩ := reads_section file horderly
        (hgroup group options List.mem_cons_self) (hnew group List.mem_cons_self)
        (hentry group options List.mem_cons_self) (hfits group options List.mem_cons_self)
      obtain ⟨t, hmore, htmalformed, htorderly, htsections, htseen, htini⟩ := ih hsorderly hrest
        (fun g hg hmem => by
          rw [hsections] at hmem
          rcases List.mem_cons.1 hmem with rfl | hmem
          · exact hfirst hg
          · exact hnew g (List.mem_cons_of_mem _ hg) hmem)
        (fun g os hmem => hgroup g os (List.mem_cons_of_mem _ hmem))
        (fun g os hmem => hentry g os (List.mem_cons_of_mem _ hmem))
        (fun g os hmem => hfits g os (List.mem_cons_of_mem _ hmem))
      refine ⟨t, hreads.append hmore, htmalformed.trans hmalformed, htorderly, fun g => ?_,
        List.Subset.trans hseen htseen, by rw [htini, hini, List.foldl_cons]⟩
      rw [htsections, hsections]
      simp only [List.mem_cons, List.map_cons]
      tauto

/-- The shared options, in front of all sections. -/
theorem reads_shared (file : Text) (start : Ini) {shared : Options}
    (hentry : ∀ option value, (option, value) ∈ shared.entries → IsEntry option value)
    (hfits : Fits shared.entries) :
    ∃ s, Reads file { ini := start } (if shared.entries.isEmpty then [] else sectionLines sharedName shared) s ∧
      s.malformed = [] ∧ s.seenSections = [] ∧
      (∀ x, x ∈ s.seenOptions ↔ ∃ option ∈ shared.keys, x = (sharedName, option)) ∧
      s.ini = start.putAll sharedName (shared.entries.map readEntry) := by
  split
  · next hempty =>
      have hnil : shared.entries = [] := List.isEmpty_iff.1 hempty
      refine ⟨_, .nil _, rfl, rfl, fun x => ?_, by rw [hnil]; rfl⟩
      simp [OrderedMap.keys, hnil]
  · obtain ⟨s, hreads, htook⟩ := reads_body file
      (r := { ini := start, current? := some sharedName }) rfl rfl hentry hfits shared.nodup
      (fun _ _ => List.not_mem_nil)
    have hheader := step_sharedHeader file { ini := start }
    refine ⟨s, .cons hheader hreads, htook.malformed, htook.sections, fun x => ?_, htook.ini⟩
    rw [htook.seen]
    exact or_iff_right List.not_mem_nil

/-! ## Reading a file -/

/-- What is read of sections that were written. -/
def reread (m : Ini) : Ini where
  shared := m.shared.map fun _ value => readValue value
  sections := m.sections.map fun _ options => options.map fun _ value => readValue value

theorem read_lines (start : Ini) (h : HasNames m) :
    start.read file (Utf8.encode m.text) =
      match (numberedLines 1 (textLines m ++ [[]])).foldlM (Reading.step file) { ini := start } with
      | .ok r => if r.malformed.isEmpty then .ok r.ini else .error (.malformedLines file r.malformed)
      | .error e => .error e := by
  unfold read
  simp only [Utf8.decodeStrict_encode, unifyLineEnds_text h,
    Text.pieces_ofLines fun line hline => feed_notMem_textLines h hline]
  cases List.foldlM (Reading.step file) { ini := start } (numberedLines 1 (textLines m ++ [[]])) <;> rfl

theorem read_text (start : Ini) (h : IsReadable m) (hshared : Fits m.shared.entries)
    (hsections : ∀ group options, (group, options) ∈ m.sections.entries → Fits options.entries) :
    start.read file (Utf8.encode m.text) = .ok (start.overlay m.reread) := by
  obtain ⟨r, hfront, hmalformed, hnone, hseen, hini⟩ := reads_shared file start h.shared hshared
  have horderly : r.IsOrderly := by
    intro x hx
    obtain ⟨o, -, rfl⟩ := (hseen x).1 hx
    exact .inl rfl
  obtain ⟨s, hreads, hsmalformed, -, -, -, hsini⟩ := reads_sections file horderly m.sections.nodup
    (fun g _ => by simp [hnone]) h.group h.option hsections
  rw [read_lines start h.hasNames, textLines, (hfront.append hreads).foldlM 1]
  simp only [hsmalformed, hmalformed]
  rw [hsini, hini, overlay, reread, OrderedMap.map, OrderedMap.map, List.foldl_map]
  rfl

end Ini

end ComponentCatalog
