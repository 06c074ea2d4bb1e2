import ComponentCatalog.Proofs.IniSteps
import ComponentCatalog.Proofs.SmallLetters

/-!
# What is read can be written

The sections that are read of a file can be written and read again: their names, those of their options and
the values are such that every line of theirs is read as what it was written for.
-/

namespace ComponentCatalog

namespace Text

variable {first : Text} {rest : List Text}

/-- Blanks at the end of trimmed lines are empty lines. -/
theorem pieces_trimRight_join (h : ∀ l ∈ first :: rest, l.trim = l ∧ '\n' ∉ l) :
    ∃ n, (trimRight (join ['\n'] (first :: rest))).pieces '\n' = first :: rest.take n := by
  induction rest generalizing first with
  | nil =>
      obtain ⟨htrim, hfeed⟩ := h first List.mem_cons_self
      refine ⟨0, ?_⟩
      rw [join, trimRight_of_trim htrim, pieces_of_notMem hfeed]
      rfl
  | cons line rest ih =>
      obtain ⟨htrim, hfeed⟩ := h first List.mem_cons_self
      obtain ⟨n, hn⟩ := ih fun l hl => h l (List.mem_cons_of_mem _ hl)
      by_cases hnil : trimRight (join ['\n'] (line :: rest)) = []
      · refine ⟨0, ?_⟩
        have hblank : isBlank '\n' = true := by decide
        rw [join_cons _ _ (List.cons_ne_nil _ _), trimRight_append, if_pos hnil, trimRight_concat_blank hblank,
          trimRight_of_trim htrim, pieces_of_notMem hfeed]
        rfl
      · refine ⟨n + 1, ?_⟩
        rw [trimRight_join_cons hnil, List.append_assoc, List.singleton_append, pieces_append_sep hfeed, hn]
        rfl

end Text

namespace Ini

variable {file group option value name : Text} {m : Ini} {r s : Reading} {line : NumberedLine}

/-! ## Values that are read as they are -/

/-- A value that is read again as it is written. -/
structure IsSettled (value : Text) : Prop where
  right : value.trimRight = value
  noReturn : '\r' ∉ value
  lines : ∀ l ∈ value.pieces '\n', l.trim = l
  uncommented : ∀ l ∈ (value.pieces '\n').tail, isComment l = false

theorem isContinued_tab (line : Text) : isContinued ('\t' :: line) = true := by
  have hblank : ('\t' :: line).head?.any isBlank = true := rfl
  rw [isContinued, hblank, Bool.or_true]

theorem IsSettled.strayLines (h : IsSettled value) : strayLines value = [] := by
  obtain ⟨first, rest, -, hlines⟩ := valueLines_of_notMem h.noReturn
  rw [Ini.strayLines, hlines, List.tail_cons, List.dropWhile_eq_nil_iff]
  intro l hl
  obtain ⟨l', -, rfl⟩ := List.mem_map.1 hl
  exact isContinued_tab l'

theorem IsSettled.readValue (h : IsSettled value) : readValue value = value := by
  obtain ⟨first, rest, hpieces, hlines⟩ := valueLines_of_notMem h.noReturn
  have htrim := h.lines
  have huncommented := h.uncommented
  rw [hpieces] at htrim huncommented
  obtain ⟨hfirst, hrest⟩ := List.forall_mem_cons.1 htrim
  have hcontinued : (rest.map ('\t' :: ·)).takeWhile isContinued = rest.map ('\t' :: ·) := by
    refine List.takeWhile_eq_self_iff.2 fun l hl => ?_
    obtain ⟨l', -, rfl⟩ := List.mem_map.1 hl
    exact isContinued_tab l'
  have htrimmed : (rest.map ('\t' :: ·)).map Text.trim = rest := by
    rw [List.map_map]
    refine List.map_congr_left (g := id) (fun l hl => ?_) |>.trans (List.map_id _)
    exact (Text.trim_cons_blank (by decide) l).trans (hrest l hl)
  have hkept : keptLines value = value.pieces '\n' := by
    rw [keptLines, hlines, List.tail_cons, hcontinued, htrimmed, hpieces,
      List.filter_eq_self.2 fun l hl => by rw [huncommented l hl]; rfl]
    exact congrArg (· :: rest) hfirst
  rw [Ini.readValue, hkept, Text.join_pieces, h.right]

theorem IsPlain.isSettled (h : IsPlain value) : IsSettled value := by
  have hpieces := Text.pieces_of_notMem h.noFeed
  exact ⟨Text.trimRight_of_trim h.trimmed, h.noReturn, by simpa [hpieces] using h.trimmed, by simp [hpieces]⟩

/-! ## What is read can be written -/

/-- Lines that are read as the lines of a value. -/
structure IsValue (option : Text) (lines : List Text) : Prop where
  nonempty : lines ≠ []
  -- Otherwise the line of the option is a header when it is read again.
  bracket : option.head? = some '[' → ']' ∉ option.drop 2 ∧ ']' ∉ lines.headD []
  trimmed : ∀ l ∈ lines, l.trim = l ∧ IsOneLine l
  uncommented : ∀ l ∈ lines.tail, isComment l = false

theorem IsValue.settles {lines : List Text} (h : IsValue option lines) (hname : IsOptionName option) :
    IsEntry option (Text.trimRight (Text.join ['\n'] lines)) ∧
      IsSettled (Text.trimRight (Text.join ['\n'] lines)) := by
  obtain ⟨first, rest, rfl⟩ := List.exists_cons_of_ne_nil h.nonempty
  -- Only empty lines at the end are lost, so what is left are lines that were read.
  obtain ⟨n, hn⟩ := Text.pieces_trimRight_join fun l hl => ⟨(h.trimmed l hl).1, (h.trimmed l hl).2.notMem.1⟩
  have hreturn : '\r' ∉ Text.trimRight (Text.join ['\n'] (first :: rest)) := by
    intro hmem
    rcases Text.mem_join ((List.rdropWhile_prefix _ _).subset hmem) with hfeed | ⟨l, hl, hin⟩
    · exact absurd hfeed (by decide)
    · exact (h.trimmed l hl).2.notMem.2 hin
  obtain ⟨first', rest', hpieces, hlines⟩ := valueLines_of_notMem hreturn
  obtain rfl : first' = first := (List.cons.inj (hpieces.symm.trans hn)).1
  refine ⟨⟨hname, fun hhead => ?_⟩, Text.trimRight_trimRight _, hreturn, fun l hl => ?_, fun l hl => ?_⟩
  · rw [hlines]
    exact h.bracket hhead
  · rw [hn] at hl
    exact (h.trimmed l (List.cons_subset_cons _ (List.take_subset _ _) hl)).1
  · rw [hn] at hl
    exact h.uncommented l (List.take_subset _ _ hl)

/-- Sections that can be written and read again. -/
structure IsSound (m : Ini) : Prop where
  group : ∀ g, m.sections.contains g = true → IsGroupName g
  entry : ∀ g o v, m.ownValue? g o = some v → IsEntry o v ∧ IsSettled v

theorem IsSound.addSection (h : IsSound m) (hgroup : IsGroupName group) : IsSound (m.addSection group) where
  group g hg := ((contains_addSection m group g).1 hg).elim (h.group g) fun heq => heq ▸ hgroup
  entry g o v hv := h.entry g o v (ownValue?_addSection m group g o ▸ hv)

theorem IsSound.put (h : IsSound m) (hgroup : group = sharedName ∨ IsGroupName group)
    (hentry : IsEntry option value) (hsettled : IsSettled value) : IsSound (m.put group option value) where
  group g hg := by
    rcases (contains_put m group option value g).1 hg with hg | ⟨howned, rfl⟩
    · exact h.group g hg
    · exact hgroup.resolve_left howned
  entry g o v hv := by
    rw [ownValue?_put, hentry.lower] at hv
    split at hv
    · next heq =>
        cases hv
        exact heq.2 ▸ ⟨hentry, hsettled⟩
    · exact h.entry g o v hv

/-- A reading whose sections can be written and read again. -/
structure Reading.IsSound (r : Reading) : Prop where
  ini : r.ini.IsSound
  current : ∀ g, r.current? = some g → g = sharedName ∨ IsGroupName g
  option : ∀ o, r.option? = some o → IsOptionName o ∧ IsValue o r.value

theorem isGroupName_of_header? {t : Text} (h : header? t = some group) (howned : group ≠ sharedName)
    (ht : IsOneLine t) : IsGroupName group := by
  unfold header? at h
  split at h
  · next rest =>
      cases hdrop : (rest.reverse.dropWhile (· != ']')).drop 1 with
      | nil =>
          rw [hdrop] at h
          cases h
      | cons c more =>
          rw [hdrop] at h
          cases h
          refine ⟨howned, by simp, fun x hx => ht x (List.mem_cons_of_mem _ ?_)⟩
          have hdropped := (hdrop ▸ List.mem_reverse.1 hx : x ∈ (rest.reverse.dropWhile (· != ']')).drop 1)
          exact List.mem_reverse.1 ((List.dropWhile_suffix _).subset (List.drop_subset _ _ hdropped))
  · cases h

/-- The parts of a line with an option: its name, and what stands behind the sign. -/
theorem exists_of_assignment? {t : Text} (htrim : t.trim = t) (h : assignment? t = some (name, value))
    (hne : name ≠ []) : ∃ (between behind : Text), t = name ++ between ∧ behind.Sublist between.tail ∧
      value = behind.trim ∧ name.trim = name ∧ ∀ c ∈ name, isDelimiter c = false := by
  unfold assignment? at h
  split at h
  · cases h
  · next d behind hdrop =>
      cases h
      have hinner : ∀ c ∈ t.takeWhile (!isDelimiter ·), isDelimiter c = false := fun c hc => by
        simpa using List.mem_takeWhile_imp hc
      have ht : t.takeWhile (!isDelimiter ·) ++ d :: behind = t := by rw [← hdrop, List.takeWhile_append_dropWhile]
      generalize t.takeWhile (!isDelimiter ·) = front at ht hne hinner
      obtain ⟨dropped, hdropped, -⟩ := Text.exists_dropEndWhile isBlank front
      obtain ⟨c, rest, hname⟩ := List.exists_cons_of_ne_nil hne
      have hparts : t = Text.trimRight front ++ (dropped ++ d :: behind) := by
        rw [← List.append_assoc, ← ht]
        exact congrArg (· ++ d :: behind) hdropped
      have hblank : isBlank c = false := Text.head?_of_trim htrim c (by rw [hparts, hname]; rfl)
      refine ⟨_, behind, hparts, ?_, rfl, ?_, fun c hc => hinner c ((List.rdropWhile_prefix _ _).subset hc)⟩
      · cases dropped with
        | nil => exact List.Sublist.refl behind
        | cons x dropped => exact (List.sublist_cons_self d behind).trans (List.sublist_append_right dropped _)
      · rw [Text.trim_trimRight, Text.trim_of_trimRight_eq_cons hname hblank, hname]

theorem isMark_of_isDelimiter {c : Char} (h : isDelimiter c = true) : isMark c = true := by
  unfold isDelimiter at h
  rcases (Bool.or_eq_true _ _).mp h with heq | heq
  · rw [beq_iff_eq.1 heq]
    decide
  · rw [beq_iff_eq.1 heq]
    decide

/-- A small form is the name of an option where the text could be one. -/
theorem isOptionName_lower (htrim : name.trim = name) (hne : name.lower ≠ []) (hcomment : isComment name = false)
    (hinner : ∀ c ∈ name, isDelimiter c = false ∧ c ≠ '\n' ∧ c ≠ '\r') : IsOptionName name.lower := by
  obtain ⟨hhash, hsemicolon⟩ : name.head? ≠ some '#' ∧ name.head? ≠ some ';' := by
    simpa [isComment] using hcomment
  have hmark : ∀ c ∈ name.lower, isMark c = true → isDelimiter c = false ∧ c ≠ '\n' ∧ c ≠ '\r' :=
    fun c hc hmark => hinner c (Text.mem_of_mem_lower hc hmark)
  refine ⟨Text.lower_lower _, Text.trim_lower htrim, hne, ⟨fun hhead => ?_, fun hhead => ?_⟩, fun c hc => ⟨?_, ?_, ?_⟩⟩
  · exact hhash (Text.head?_of_head?_lower hhead (by decide))
  · exact hsemicolon (Text.head?_of_head?_lower hhead (by decide))
  · refine Bool.eq_false_iff.2 fun hdelimiter => ?_
    have hnot := (hmark c hc (isMark_of_isDelimiter hdelimiter)).1
    rw [hdelimiter] at hnot
    cases hnot
  · rintro rfl
    exact (hmark _ hc (by decide)).2.1 rfl
  · rintro rfl
    exact (hmark _ hc (by decide)).2.2 rfl

/-- A line that begins with a bracket and is no header has no closing bracket, but perhaps next to the
first one. -/
theorem notMem_of_header? {between : Text} (hheader : header? (name ++ between) = none)
    (hhead : name.lower.head? = some '[') : ']' ∉ name.lower.drop 2 ∧ ']' ∉ between.tail := by
  cases hname : name with
  | nil =>
      rw [hname] at hhead
      cases hhead
  | cons c rest =>
      rw [hname] at hheader hhead
      cases Text.head?_of_head?_lower hhead (by decide)
      rw [List.cons_append, header?_bracket] at hheader
      obtain ⟨inWord, hlower⟩ := Text.exists_lower_bracket rest
      rw [hlower]
      refine ⟨fun hmem => hheader ?_, fun hmem => hheader ?_⟩
      · have htail : ']' ∈ rest.tail := Text.mem_tail_of_mem_tail_lowerAfter (List.drop_one ▸ hmem) (by decide)
        cases rest with
        | nil => cases htail
        | cons x rest => exact List.mem_append_left _ htail
      · cases rest with
        | nil => exact hmem
        | cons x rest => exact List.mem_append_right _ (List.mem_of_mem_tail hmem)

/-- The name and the first line of an option, as they are read. -/
theorem isOptionName_of_assignment? {t : Text} (htrim : t.trim = t) (hline : IsOneLine t)
    (hcomment : isComment t = false) (hheader : header? t = none) (h : assignment? t = some (name, value))
    (hne : name.lower ≠ []) : IsOptionName name.lower ∧ IsValue name.lower [value] := by
  have hname : name ≠ [] := fun hnil => hne (by rw [hnil]; rfl)
  obtain ⟨between, behind, rfl, hbehind, rfl, hnameTrim, hinner⟩ := exists_of_assignment? htrim h hname
  have hvalue : behind.trim ⊆ between.tail := fun x hx => hbehind.subset ((Text.trim_sublist behind).subset hx)
  have hnameComment : isComment name = false := by
    obtain ⟨c, rest, rfl⟩ := List.exists_cons_of_ne_nil hname
    exact hcomment
  have hchars : ∀ c ∈ name, isDelimiter c = false ∧ c ≠ '\n' ∧ c ≠ '\r' :=
    fun c hc => ⟨hinner c hc, hline c (List.mem_append_left _ hc)⟩
  refine ⟨isOptionName_lower hnameTrim hne hnameComment hchars, List.cons_ne_nil _ _, fun hhead => ?_, ?_, by simp⟩
  · obtain ⟨hrest, hbetween⟩ := notMem_of_header? hheader hhead
    exact ⟨hrest, fun hmem => hbetween (hvalue hmem)⟩
  · simp only [List.mem_singleton, forall_eq]
    exact ⟨Text.trim_trim behind, fun x hx => hline x (List.mem_append_right _ (List.mem_of_mem_tail (hvalue hx)))⟩

theorem IsValue.concat {lines : List Text} {l : Text} (h : IsValue option lines) (htrim : l.trim = l)
    (hline : IsOneLine l) (hcomment : isComment l = false) : IsValue option (lines ++ [l]) := by
  obtain ⟨first, rest, rfl⟩ := List.exists_cons_of_ne_nil h.nonempty
  refine ⟨by simp, h.bracket, fun x hx => ?_, fun x hx => ?_⟩
  · rcases List.mem_append.1 hx with hx | hx
    · exact h.trimmed x hx
    · exact List.mem_singleton.1 hx ▸ ⟨htrim, hline⟩
  · rcases List.mem_append.1 hx with hx | hx
    · exact h.uncommented x hx
    · exact List.mem_singleton.1 hx ▸ hcomment

theorem Reading.isSound_extend {l : Text} (hini : r.ini.IsSound)
    (hgroups : ∀ g, r.current? = some g → g = sharedName ∨ IsGroupName g) (hcurrent : r.current? = some group)
    (hoption : r.option? = some option) (hname : IsOptionName option) (hvalue : IsValue option (r.value ++ [l])) :
    (r.extend group option l).IsSound := by
  obtain ⟨hentry, hsettled⟩ := hvalue.settles hname
  refine ⟨hini.put (hgroups group hcurrent) hentry hsettled, hgroups, fun o ho => ?_⟩
  cases hoption.symm.trans ho
  exact ⟨hname, hvalue⟩

theorem Reading.Begins.isSound (h : r.Begins line s) (hline : IsOneLine line.text.trim)
    (hcomment : isComment line.text.trim = false) (hr : r.IsSound) : s.IsSound := by
  cases h with
  | shared indent hheader =>
      refine ⟨hr.ini, fun g hg => ?_, nofun⟩
      cases hg
      exact .inl rfl
  | @header group indent hheader howned hnew =>
      have hgroup := isGroupName_of_header? hheader howned hline
      refine ⟨hr.ini.addSection hgroup, fun g hg => ?_, nofun⟩
      cases hg
      exact .inr hgroup
  | malformed indent seenOptions option? hseen hoption =>
      refine ⟨hr.ini, hr.current, fun o ho => ?_⟩
      rcases hoption with rfl | rfl
      · cases ho
      · exact hr.option o ho
  | option indent hcurrent hheader hassignment hne hnew =>
      obtain ⟨hname, hvalue⟩ :=
        isOptionName_of_assignment? (Text.trim_trim _) hline hcomment hheader hassignment hne
      exact Reading.isSound_extend hr.ini hr.current hcurrent rfl hname hvalue

theorem Reading.Takes.isSound (h : r.Takes line s) (hline : IsOneLine line.text.trim) (hr : r.IsSound) :
    s.IsSound := by
  cases h with
  | skip => exact hr
  | more hcurrent hoption hcomment =>
      obtain ⟨hname, hvalue⟩ := hr.option _ hoption
      have hmore := hvalue.concat (Text.trim_trim _) hline hcomment
      exact Reading.isSound_extend hr.ini hr.current hcurrent hoption hname hmore
  | begins hcomment hne hbegins => exact hbegins.isSound hline hcomment hr

/-! ## Reading a file -/

theorem exists_of_mem_numberedLines {n : Nat} {lines : List Text} (h : line ∈ numberedLines n lines) :
    ∃ l ∈ lines, line.text = l ∨ line.text = l ++ ['\n'] := by
  fun_induction numberedLines n lines with
  | case1 => cases h
  | case2 n last hempty => cases h
  | case3 n last hne =>
      rw [List.mem_singleton.1 h]
      exact ⟨last, List.mem_cons_self, .inl rfl⟩
  | case4 n l rest _ ih =>
      rcases List.mem_cons.1 h with rfl | h
      · exact ⟨l, List.mem_cons_self, .inr rfl⟩
      · obtain ⟨l', hl', heq⟩ := ih h
        exact ⟨l', List.mem_cons_of_mem _ hl', heq⟩

theorem isOneLine_of_mem_numberedLines {n : Nat} {t : Text} (h : line ∈ numberedLines n (t.unifyLineEnds.pieces '\n')) :
    IsOneLine line.text.trim := by
  obtain ⟨l, hl, heq⟩ := exists_of_mem_numberedLines h
  have htrim : line.text.trim = l.trim := by
    rcases heq with heq | heq
    · rw [heq]
    · rw [heq, trim_feed]
  intro c hc
  rw [htrim] at hc
  have hmem : c ∈ l := (Text.trim_sublist l).subset hc
  refine ⟨fun hfeed => Text.notMem_of_mem_pieces hl (hfeed ▸ hmem), fun hreturn => ?_⟩
  exact Text.notMem_unifyLineEnds t (hreturn ▸ Text.mem_of_mem_pieces hl hmem)

theorem exists_of_read {n : Ini} {bytes : List UInt8} (h : m.read file bytes = .ok n) :
    ∃ t : Text, ∃ r : Reading,
      (numberedLines 1 (t.unifyLineEnds.pieces '\n')).foldlM (Reading.step file) { ini := m } = .ok r ∧ n = r.ini := by
  unfold read at h
  split at h
  · next t hdecode =>
      dsimp only [bind, Except.bind] at h
      split at h
      · cases h
      · next r hr =>
          split at h
          · cases h
            exact ⟨t, r, hr, rfl⟩
          · cases h
  · dsimp only [bind, Except.bind] at h
    split at h <;> cases h

theorem read_isSound {n : Ini} {bytes : List UInt8} (h : m.read file bytes = .ok n) (hm : m.IsSound) : n.IsSound := by
  obtain ⟨t, r, hr, rfl⟩ := exists_of_read h
  have hstart : Reading.IsSound { ini := m } := ⟨hm, nofun, nofun⟩
  exact (foldlM_keeps (P := Reading.IsSound) (fun line hline _ _ htakes hr =>
    htakes.isSound (isOneLine_of_mem_numberedLines hline) hr) hstart hr).ini

theorem read_isPartOf {n : Ini} {bytes : List UInt8} (h : m.read file bytes = .ok n) : m.IsPartOf n := by
  obtain ⟨t, r, hr, rfl⟩ := exists_of_read h
  exact (foldlM_grows hr).ini

end Ini

end ComponentCatalog
