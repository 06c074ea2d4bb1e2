import ComponentCatalog.Proofs.Trimming
import ComponentCatalog.Settings.Reading

/-!
# Lines of a settings file that is written

A settings file is written option by option and read line by line. Where a value has line ends, lines of
the file begin inside of it: behind a line feed an indented one, behind a lone carriage return one that is
not.
-/

namespace ComponentCatalog

namespace Text

variable {c : Char} {t u : Text}

/-! ## Line ends -/

theorem unifyLineEnds_cons (hc : c ≠ '\r') (t : Text) : unifyLineEnds (c :: t) = c :: unifyLineEnds t := by
  rw [unifyLineEnds, if_neg hc]
  rintro r rfl -
  exact hc rfl

theorem unifyLineEnds_return (h : t.head? ≠ some '\n') : unifyLineEnds ('\r' :: t) = '\n' :: unifyLineEnds t := by
  rw [unifyLineEnds, if_pos rfl]
  rintro r - rfl
  exact h rfl

theorem unifyLineEnds_of_notMem (h : '\r' ∉ t) : unifyLineEnds t = t := by
  induction t with
  | nil => rfl
  | cons c t ih =>
      have hc : c ≠ '\r' := fun hc => h (hc ▸ List.mem_cons_self)
      rw [unifyLineEnds_cons hc, ih fun hmem => h (List.mem_cons_of_mem _ hmem)]

theorem notMem_unifyLineEnds (t : Text) : '\r' ∉ unifyLineEnds t := by
  fun_induction unifyLineEnds t with
  | case1 => exact List.not_mem_nil
  | case2 t ih => simpa using ih
  | case3 c t _ ih =>
      split
      · simpa using ih
      · next hc => simpa [Ne.symm hc] using ih

/-- Only a carriage return can belong together with what stands behind it. -/
theorem unifyLineEnds_append (h : t.getLast? ≠ some '\r') (u : Text) :
    unifyLineEnds (t ++ u) = unifyLineEnds t ++ unifyLineEnds u := by
  fun_induction unifyLineEnds t with
  | case1 => rfl
  | case2 t ih =>
      have ht : t.getLast? ≠ some '\r' := by
        cases t with
        | nil => simp
        | cons c t => simpa [List.getLast?_cons_cons] using h
      rw [List.cons_append, List.cons_append, unifyLineEnds, ih ht]
      rfl
  | case3 c t hcrlf ih =>
      by_cases hc : c = '\r'
      · subst hc
        obtain ⟨x, t, rfl⟩ : ∃ x r, t = x :: r := List.exists_cons_of_ne_nil fun hnil => h (by rw [hnil]; rfl)
        have hx : x ≠ '\n' := fun hx => hcrlf t rfl (by rw [hx])
        rw [List.cons_append, unifyLineEnds_return (by simpa using hx), ih (by simpa [List.getLast?_cons_cons] using h)]
        rfl
      · rw [List.cons_append, unifyLineEnds_cons hc, if_neg hc]
        cases t with
        | nil => rfl
        | cons x t => rw [ih (by simpa [List.getLast?_cons_cons] using h), List.cons_append]

theorem unifyLineEnds_flatMap {α : Type} {f : α → Text} {xs : List α} (h : ∀ x ∈ xs, (f x).getLast? ≠ some '\r') :
    unifyLineEnds (xs.flatMap f) = xs.flatMap fun x => unifyLineEnds (f x) := by
  induction xs with
  | nil => rfl
  | cons x xs ih =>
      rw [List.flatMap_cons, List.flatMap_cons, unifyLineEnds_append (h x List.mem_cons_self),
        ih fun y hy => h y (List.mem_cons_of_mem _ hy)]

theorem exists_unifyLineEnds_concat (t : Text) : ∃ u, unifyLineEnds (t ++ ['\n']) = u ++ ['\n'] := by
  fun_induction unifyLineEnds t with
  | case1 => exact ⟨[], rfl⟩
  | case2 t ih =>
      obtain ⟨u, hu⟩ := ih
      exact ⟨'\n' :: u, congrArg ('\n' :: ·) hu⟩
  | case3 c t hcrlf ih =>
      obtain ⟨u, hu⟩ := ih
      by_cases hc : c = '\r'
      · subst hc
        cases t with
        | nil => exact ⟨[], rfl⟩
        | cons x t =>
            have hx : x ≠ '\n' := fun hx => hcrlf t rfl (by rw [hx])
            refine ⟨'\n' :: u, ?_⟩
            rw [List.cons_append, unifyLineEnds_return (by simpa using hx), hu]
            rfl
      · refine ⟨c :: u, ?_⟩
        rw [List.cons_append, unifyLineEnds_cons hc, hu]
        rfl

theorem getLast?_feed (t : Text) : (t ++ ("\n" : Text)).getLast? ≠ some '\r' := by
  have hfeed : ("\n" : Text) = ['\n'] := rfl
  simp [hfeed]

/-! ## Texts of lines -/

theorem ofLines_cons (l : Text) (ls : List Text) : ofLines (l :: ls) = l ++ '\n' :: ofLines ls := by
  simp [ofLines]

theorem ofLines_append (ls ks : List Text) : ofLines (ls ++ ks) = ofLines ls ++ ofLines ks :=
  List.flatMap_append

theorem ofLines_flatMap {α : Type} (f : α → List Text) (xs : List α) :
    ofLines (xs.flatMap f) = xs.flatMap fun x => ofLines (f x) :=
  List.flatMap_assoc

theorem ofLines_pieces (t : Text) : ofLines (t.pieces '\n') = t ++ ['\n'] := by
  have hjoin : ∀ ls : List Text, ls ≠ [] → ofLines ls = join ['\n'] ls ++ ['\n'] := by
    intro ls hls
    induction ls with
    | nil => exact absurd rfl hls
    | cons l ls ih =>
        rw [ofLines_cons]
        by_cases hnil : ls = []
        · subst hnil
          rfl
        · rw [ih hnil, join_cons _ _ hnil]
          simp
  rw [hjoin _ (pieces_ne_nil _ _), join_pieces]

theorem pieces_ofLines {ls : List Text} (h : ∀ l ∈ ls, '\n' ∉ l) :
    (ofLines ls).pieces '\n' = ls ++ [[]] := by
  induction ls with
  | nil => rfl
  | cons l ls ih =>
      rw [ofLines_cons, pieces_append_sep (h l List.mem_cons_self),
        ih fun l hl => h l (List.mem_cons_of_mem _ hl)]
      rfl

end Text

namespace Ini

variable {group option value line : Text} {options : Options} {m : Ini}

/-! ## Lines of a value -/

/-- The lines that a value becomes in a settings file, without the option in front of the first one. -/
def valueLines (value : Text) : List Text :=
  ((Text.expand '\n' "\n\t" value ++ ['\n']).unifyLineEnds.pieces '\n').dropLast

/-- The lines of an option. -/
def optionLines (option value : Text) : List Text :=
  (option ++ " = " ++ (valueLines value).headD []) :: (valueLines value).tail

theorem exists_valueLines (value : Text) :
    ∃ t, valueLines value = t.pieces '\n' ∧
      (Text.expand '\n' "\n\t" value ++ ['\n']).unifyLineEnds = t ++ ['\n'] := by
  obtain ⟨t, ht⟩ := Text.exists_unifyLineEnds_concat (Text.expand '\n' "\n\t" value)
  obtain ⟨front, last, -, -, hpieces⟩ := Text.exists_pieces_concat '\n' t
  exact ⟨t, by rw [valueLines, ht, hpieces, List.dropLast_concat], ht⟩

theorem valueLines_ne_nil (value : Text) : valueLines value ≠ [] := by
  obtain ⟨t, ht, -⟩ := exists_valueLines value
  rw [ht]
  exact Text.pieces_ne_nil _ _

theorem ofLines_valueLines (value : Text) :
    Text.ofLines (valueLines value) = (Text.expand '\n' "\n\t" value ++ ['\n']).unifyLineEnds := by
  obtain ⟨t, hlines, ht⟩ := exists_valueLines value
  rw [hlines, ht, Text.ofLines_pieces]

theorem lineEnds_notMem_valueLines (h : line ∈ valueLines value) : '\n' ∉ line ∧ '\r' ∉ line := by
  obtain ⟨t, hlines, ht⟩ := exists_valueLines value
  rw [hlines] at h
  refine ⟨Text.notMem_of_mem_pieces h, fun hmem => ?_⟩
  have hreturn := Text.notMem_unifyLineEnds (Text.expand '\n' "\n\t" value ++ ['\n'])
  rw [ht] at hreturn
  exact hreturn (List.mem_append_left _ (Text.mem_of_mem_pieces h hmem))

theorem unifyLineEnds_optionText (h : '\r' ∉ option) (value : Text) :
    (optionText option value).unifyLineEnds = Text.ofLines (optionLines option value) := by
  obtain ⟨first, rest, hlines⟩ := List.exists_cons_of_ne_nil (valueLines_ne_nil value)
  have hfront : '\r' ∉ option ++ " = " := by simpa using h
  have hlast : (option ++ " = ".toList).getLast? ≠ some '\r' := by simp
  have htext : optionText option value = (option ++ " = ") ++ (Text.expand '\n' "\n\t" value ++ ['\n']) := by
    simp [optionText]
  rw [htext, Text.unifyLineEnds_append hlast, Text.unifyLineEnds_of_notMem hfront, ← ofLines_valueLines,
    optionLines, hlines, Text.ofLines_cons, Text.ofLines_cons]
  simp

/-- Without carriage returns, all lines of a value but the first are indented. -/
theorem valueLines_of_notMem (h : '\r' ∉ value) :
    ∃ first rest, value.pieces '\n' = first :: rest ∧ valueLines value = first :: rest.map ('\t' :: ·) := by
  have hexpand : ∀ t : Text, '\r' ∉ t → ∃ first rest, t.pieces '\n' = first :: rest ∧
      (Text.expand '\n' "\n\t" t).pieces '\n' = first :: rest.map ('\t' :: ·) := by
    intro t ht
    induction t with
    | nil => exact ⟨[], [], rfl, rfl⟩
    | cons c t ih =>
        obtain ⟨first, rest, hpieces, hlines⟩ := ih fun hmem => ht (List.mem_cons_of_mem _ hmem)
        by_cases hc : c = '\n'
        · subst hc
          refine ⟨[], first :: rest, by rw [Text.pieces_cons_sep, hpieces], ?_⟩
          have htab : Text.expand '\n' "\n\t" ('\n' :: t) = '\n' :: '\t' :: Text.expand '\n' "\n\t" t := rfl
          rw [htab, Text.pieces_cons_sep, Text.pieces, if_neg (by decide), hlines]
          rfl
        · refine ⟨c :: first, rest, by rw [Text.pieces, if_neg hc, hpieces], ?_⟩
          have hkeep : Text.expand '\n' "\n\t" (c :: t) = c :: Text.expand '\n' "\n\t" t := by
            simp [Text.expand, hc]
          rw [hkeep, Text.pieces, if_neg hc, hlines]
  obtain ⟨first, rest, hpieces, hlines⟩ := hexpand value h
  refine ⟨first, rest, hpieces, ?_⟩
  obtain ⟨t, ht, hunified⟩ := exists_valueLines value
  have hreturn : '\r' ∉ Text.expand '\n' "\n\t" value ++ ['\n'] := by
    simp only [Text.expand, List.mem_append, List.mem_flatMap, not_or, not_exists, not_and]
    refine ⟨fun c hc => ?_, by decide⟩
    split
    · decide
    · exact fun hr => h (List.mem_singleton.1 hr ▸ hc)
  rw [Text.unifyLineEnds_of_notMem hreturn] at hunified
  rw [ht, ← List.append_cancel_right hunified, hlines]

/-! ## Lines of a file -/

/-- The line that a section begins with. -/
def headerLine (group : Text) : Text := '[' :: group ++ [']']

/-- The lines of a section; the last one is empty. -/
def sectionLines (group : Text) (options : Options) : List Text :=
  headerLine group :: options.entries.flatMap (fun (option, value) => optionLines option value) ++ [[]]

/-- The lines of a settings file. -/
def textLines (m : Ini) : List Text :=
  (if m.shared.entries.isEmpty then [] else sectionLines sharedName m.shared) ++
    m.sections.entries.flatMap fun (group, options) => sectionLines group options

/-- A name that fits on a line. -/
def IsOneLine (name : Text) : Prop := ∀ c ∈ name, c ≠ '\n' ∧ c ≠ '\r'

theorem IsOneLine.notMem {name : Text} (h : IsOneLine name) : '\n' ∉ name ∧ '\r' ∉ name :=
  ⟨fun hmem => (h _ hmem).1 rfl, fun hmem => (h _ hmem).2 rfl⟩

theorem isOneLine_of_notMem {name : Text} (hfeed : '\n' ∉ name) (hreturn : '\r' ∉ name) : IsOneLine name :=
  fun _ hc => ⟨fun h => hfeed (h ▸ hc), fun h => hreturn (h ▸ hc)⟩

theorem isOneLine_sharedName : IsOneLine sharedName := isOneLine_of_notMem (by decide) (by decide)

/-- All names fit on lines. -/
structure HasNames (m : Ini) : Prop where
  group : ∀ group options, (group, options) ∈ m.sections.entries → IsOneLine group
  option : ∀ group options, (group, options) ∈ m.sections.entries →
    ∀ option value, (option, value) ∈ options.entries → IsOneLine option
  shared : ∀ option value, (option, value) ∈ m.shared.entries → IsOneLine option

theorem unifyLineEnds_sectionText (hgroup : IsOneLine group)
    (hoption : ∀ option value, (option, value) ∈ options.entries → IsOneLine option) :
    (sectionText group options).unifyLineEnds = Text.ofLines (sectionLines group options) := by
  have htext : sectionText group options = ((headerLine group ++ ['\n']) ::
      options.entries.map (fun (option, value) => optionText option value) ++ [['\n']]).flatMap id := by
    simp [sectionText, headerLine, List.flatMap_map]
  have hlast : ∀ t ∈ (headerLine group ++ ['\n']) ::
      options.entries.map (fun (option, value) => optionText option value) ++ [['\n']],
      (id t).getLast? ≠ some '\r' := by
    intro t ht
    simp only [List.cons_append, List.mem_cons, List.mem_append, List.mem_map, List.not_mem_nil, or_false] at ht
    obtain rfl | ⟨entry, -, rfl⟩ | rfl := ht
    · exact Text.getLast?_feed _
    · exact Text.getLast?_feed _
    · decide
  have hoptions : options.entries.flatMap (fun (option, value) => (optionText option value).unifyLineEnds) =
      options.entries.flatMap fun (option, value) => Text.ofLines (optionLines option value) :=
    List.flatMap_congr fun entry hentry => unifyLineEnds_optionText (hoption _ _ hentry).notMem.2 _
  have hheader : '\r' ∉ headerLine group ++ ['\n'] := by simpa [headerLine] using hgroup.notMem.2
  rw [htext, Text.unifyLineEnds_flatMap hlast, sectionLines, Text.ofLines_append, Text.ofLines_cons,
    Text.ofLines_flatMap, ← hoptions]
  simp [Text.unifyLineEnds_of_notMem hheader, List.flatMap_map, Text.ofLines, Text.unifyLineEnds]

theorem getLast?_sectionText (group : Text) (options : Options) :
    (sectionText group options).getLast? ≠ some '\r' :=
  Text.getLast?_feed _

theorem unifyLineEnds_text (h : HasNames m) : m.text.unifyLineEnds = Text.ofLines (textLines m) := by
  have hsections : m.sections.entries.flatMap (fun (group, options) => (sectionText group options).unifyLineEnds) =
      m.sections.entries.flatMap fun (group, options) => Text.ofLines (sectionLines group options) :=
    List.flatMap_congr fun entry hentry => unifyLineEnds_sectionText (h.group _ _ hentry) (h.option _ _ hentry)
  rw [text, textLines, Text.ofLines_append, Text.ofLines_flatMap, ← hsections]
  split
  · exact Text.unifyLineEnds_flatMap fun _ _ => getLast?_sectionText _ _
  · rw [Text.unifyLineEnds_append (getLast?_sectionText _ _), unifyLineEnds_sectionText isOneLine_sharedName h.shared,
      Text.unifyLineEnds_flatMap fun _ _ => getLast?_sectionText _ _]

theorem feed_notMem_sectionLines (hgroup : IsOneLine group)
    (hoption : ∀ option value, (option, value) ∈ options.entries → IsOneLine option)
    (hline : line ∈ sectionLines group options) : '\n' ∉ line := by
  simp only [sectionLines, List.cons_append, List.mem_cons, List.mem_append, List.mem_flatMap,
    List.not_mem_nil, or_false, Prod.exists] at hline
  obtain rfl | ⟨option, value, hentry, hline⟩ | rfl := hline
  · simpa [headerLine] using hgroup.notMem.1
  · obtain ⟨first, rest, hlines⟩ := List.exists_cons_of_ne_nil (valueLines_ne_nil value)
    have hvalue : ∀ line ∈ first :: rest, '\n' ∉ line :=
      fun line hmem => (lineEnds_notMem_valueLines (hlines ▸ hmem)).1
    rw [optionLines, hlines] at hline
    rcases List.mem_cons.1 hline with rfl | hline
    · simpa using ⟨(hoption _ _ hentry).notMem.1, hvalue first List.mem_cons_self⟩
    · exact hvalue line (List.mem_cons_of_mem _ hline)
  · simp

theorem feed_notMem_textLines (h : HasNames m) (hline : line ∈ textLines m) : '\n' ∉ line := by
  rcases List.mem_append.1 hline with hline | hline
  · split at hline
    · cases hline
    · exact feed_notMem_sectionLines isOneLine_sharedName h.shared hline
  · obtain ⟨⟨group, options⟩, hentry, hline⟩ := List.mem_flatMap.1 hline
    exact feed_notMem_sectionLines (h.group _ _ hentry) (h.option _ _ hentry) hline

end Ini

end ComponentCatalog
