import ComponentCatalog.Proofs.Brackets
import ComponentCatalog.Proofs.Trimming
import ComponentCatalog.Script.Constants
import Mathlib.Data.List.Infix

/-!
# The values of constants

A script of constants is read as it is written. A value on one line is cut at the semicolon or at the end of
the line, an object or a list at the bracket that closes it. No constant begins inside of a value: the rest of
a first line is not at the beginning of a line, and no other line of a value begins with a keyword.
-/

namespace ComponentCatalog

open Reader

namespace Constants

variable {s t value : Text} {previous : Option Char}

/-! ## Written constants -/

/-- The words that a constant begins with. -/
def firstWords : List Text := ["const", "export"]

/-- No line of a text but the first begins with a word that a constant begins with. -/
def NoLineDeclares (s : Text) : Prop := ∀ w ∈ firstWords, ¬ '\n' :: w <:+: s

instance (s : Text) : Decidable (NoLineDeclares s) := List.decidableBAll _ firstWords

/-- The text of a value: words on one line, or an object or a list with all that is in it. -/
inductive IsValue : Text → Prop
  | line (value : Text) (ne_nil : value ≠ []) (trimmed : value.trim = value)
      (inLine : ∀ c ∈ value, c ≠ ';' ∧ c ≠ '\n') (first : ∀ c ∈ value.head?, c ≠ '\x7b' ∧ c ≠ '[') :
      IsValue value
  | bracketed (b : Bracket) (inside : Text) (hb : b ≠ .round) (nests : b.Nests inside)
      (lines : NoLineDeclares inside) : IsValue (b.opener :: (inside ++ [b.closer]))

/-- A constant as it is written in a script. -/
structure Written where
  exported : Bool
  name : Word
  value : Text
  isValue : IsValue value
  semicolon : Bool
  lineBreak : LineBreak

namespace Written

/-- The keywords, the name and the equals sign of a constant. -/
def header (w : Written) : Text :=
  (if w.exported then "export ".toList else []) ++ ("const " ++ (w.name.text ++ " = "))

/-- What ends a constant. -/
def ending (w : Written) : Text := (if w.semicolon then [';'] else []) ++ w.lineBreak.text

/-- The constant as it stands in the script. -/
def text (w : Written) : Text := w.header ++ (w.value ++ w.ending)

/-- The declaration that is read of it. -/
def constant (w : Written) : ConstantDecl := ⟨w.name.text, some w.value, w.exported⟩

end Written

/-! ## Lines that declare nothing -/

theorem NoLineDeclares.not_prefix (h : NoLineDeclares s) {u line w : Text} (hs : s = u ++ '\n' :: line)
    (hw : w ∈ firstWords) : ¬ w <+: line := by
  rintro ⟨r, rfl⟩
  exact h w hw ⟨u, r, by simp [hs]⟩

theorem NoLineDeclares.bracketed {b : Bracket} (h : NoLineDeclares s) :
    NoLineDeclares (b.opener :: (s ++ [b.closer])) := by
  intro w hw
  have hopener : b.opener ∉ '\n' :: w := by
    revert w
    cases b <;> decide
  have hcloser : b.closer ∉ '\n' :: w := by
    revert w
    cases b <;> decide
  have hempty : ¬ '\n' :: w <:+: [] := by simp
  rw [← List.nil_append (b.opener :: _), Text.infix_append_sep_iff hopener, Text.infix_append_sep_iff hcloser]
  exact not_or.2 ⟨hempty, not_or.2 ⟨h w hw, hempty⟩⟩

/-! ## Values -/

namespace IsValue

theorem noLineDeclares (h : IsValue value) : NoLineDeclares value := by
  cases h with
  | line _ _ _ inLine => exact fun w _ hin => absurd rfl (inLine '\n' (hin.mem List.mem_cons_self)).2
  | bracketed _ _ _ _ lines => exact lines.bracketed

theorem trim_eq (h : IsValue value) : value.trim = value := by
  cases h with
  | line _ _ trimmed => exact trimmed
  | bracketed b inside =>
      have hopener : isBlank b.opener = false := by cases b <;> rfl
      have hcloser : isBlank b.closer = false := by cases b <;> rfl
      refine Text.trim_of_ends (by simpa using hopener) ?_
      rw [← List.cons_append, List.getLast?_concat]
      simpa using hcloser

theorem ne_nil (h : IsValue value) : value ≠ [] := by
  cases h with
  | line _ ne_nil => exact ne_nil
  | bracketed => exact List.cons_ne_nil _ _

theorem getLast?_ne (h : IsValue value) : ∀ c ∈ value.getLast?, c ≠ ';' := by
  cases h with
  | line _ _ _ inLine => exact fun c hc => (inLine c (List.mem_of_getLast? hc)).1
  | bracketed b inside =>
      have hcloser : b.closer ≠ ';' := by cases b <;> decide
      rw [← List.cons_append, List.getLast?_concat]
      simpa using hcloser

theorem stops (h : IsValue value) (t : Text) : Stops isBlank (value ++ t) := by
  obtain ⟨c, r, rfl, hc, -⟩ := Text.exists_cons_of_trim h.trim_eq h.ne_nil
  exact Stops.cons_iff.2 hc

theorem cleaned_append (h : IsValue value) {b : Text} (hb : ∀ c ∈ b, isBlank c = true) :
    cleaned (value ++ b) = value := by
  have hlast : ∀ c ∈ value.getLast?, (c == ';') = false := fun c hc =>
    beq_eq_false_iff_ne.2 (h.getLast?_ne c hc)
  rw [cleaned, Text.trim_append_blank hb, h.trim_eq, Text.dropEndWhile_of_getLast? hlast, h.trim_eq]

end IsValue

theorem rawValue_line (h : ∀ c ∈ t.head?, c ≠ '\x7b' ∧ c ≠ '[') :
    rawValue t = t.takeWhile fun c => c != ';' && c != '\n' := by
  cases t with
  | nil => rfl
  | cons c t =>
      obtain ⟨hbrace, hsquare⟩ := h c rfl
      rw [rawValue]
      · rintro r ⟨⟩
        exact hbrace rfl
      · rintro r ⟨⟩
        exact hsquare rfl

theorem rawValue_opener {b : Bracket} (hb : b ≠ .round) (t : Text) : rawValue (b.opener :: t) =
    b.opener :: (enclosed b.opener b.closer t).inside ++
      if (enclosed b.opener b.closer t).after.isSome then [b.closer] else [] := by
  cases b with
  | brace => rfl
  | square => rfl
  | round => exact absurd rfl hb

/-- The text of a value is cut where the value ends, up to blanks. -/
theorem IsValue.rawValue_append (h : IsValue value)
    (hends : ∀ c ∈ t.takeWhile fun c => c != ';' && c != '\n', isBlank c = true) :
    ∃ b, (∀ c ∈ b, isBlank c = true) ∧ rawValue (value ++ t) = value ++ b := by
  cases h with
  | line _ ne_nil _ inLine first =>
      refine ⟨_, hends, ?_⟩
      rw [rawValue_line, List.takeWhile_append_of_pos]
      · exact fun c hc => by simp [inLine c hc]
      · rwa [List.head?_append_of_ne_nil _ ne_nil]
  | bracketed _ _ hb nests =>
      refine ⟨[], List.forall_mem_nil _, ?_⟩
      rw [List.append_nil, List.cons_append, List.append_assoc, List.singleton_append, rawValue_opener hb,
        nests.enclosed_eq]
      rfl

namespace Written

theorem header_ne_nil (w : Written) : w.header ≠ [] := by
  rw [header]
  exact List.append_ne_nil_of_right_ne_nil _ (List.cons_ne_nil _ _)

theorem getLast?_header (w : Written) : w.header.getLast? = some ' ' := by
  have hfront : w.header =
      (if w.exported then "export ".toList else []) ++ ("const " ++ (w.name.text ++ " =")) ++ [' '] := by
    simp only [header, List.append_assoc]
    rfl
  rw [hfront, List.getLast?_concat]

theorem takeWhile_ending (w : Written) (t : Text) : (w.ending ++ t).takeWhile (fun c => c != ';' && c != '\n') =
    if w.semicolon then [] else w.lineBreak.front := by
  rcases w with ⟨_, _, _, _, _ | _, _ | _⟩ <;> rfl

theorem exists_ending (w : Written) : ∃ front, w.ending = front ++ ['\n'] ∧ '\n' ∉ front := by
  rcases w with ⟨_, _, _, _, _ | _, _ | _⟩
  · exact ⟨[], rfl, by decide⟩
  · exact ⟨['\r'], rfl, by decide⟩
  · exact ⟨[';'], rfl, by decide⟩
  · exact ⟨[';', '\r'], rfl, by decide⟩

/-- The one line feed of what ends a constant is at its end. -/
theorem ending_ne (w : Written) (u : Text) (c : Char) (v : Text) : w.ending ≠ u ++ '\n' :: c :: v := by
  obtain ⟨front, hending, hfront⟩ := w.exists_ending
  intro h
  have hdrop := congrArg List.dropLast h
  rw [hending, List.dropLast_concat, List.dropLast_append_of_ne_nil (List.cons_ne_nil _ _)] at hdrop
  exact hfront (by simp [hdrop])

theorem stops_ending (w : Written) {k : Text} (hk : k ∈ firstWords) (t : Text) :
    Stops (fun c => k.contains c) (w.ending ++ t) := by
  revert k
  rcases w with ⟨_, _, _, _, _ | _, _ | _⟩ <;> exact fun {k} hk => Stops.cons_iff.2 (by revert k; decide)

/-- The lines of a constant behind its first one are lines of its value. -/
theorem exists_line (w : Written) {u v : Text} {c : Char} (h : w.value ++ w.ending = u ++ '\n' :: c :: v) :
    ∃ line, w.value = u ++ '\n' :: line ∧ c :: v = line ++ w.ending := by
  rcases List.append_eq_append_iff.1 h with ⟨u', -, hending⟩ | ⟨line, hvalue, hending⟩
  · exact absurd hending (w.ending_ne u' c v)
  · cases line with
    | nil => exact absurd hending.symm (w.ending_ne [] c v)
    | cons d line =>
        obtain ⟨rfl, hrest⟩ := List.cons.inj hending
        exact ⟨line, hvalue, hrest⟩

theorem value?_append (w : Written) (t : Text) : value? (w.value ++ (w.ending ++ t)) = some w.value := by
  have hends : ∀ c ∈ (w.ending ++ t).takeWhile (fun c => c != ';' && c != '\n'), isBlank c = true := by
    rw [w.takeWhile_ending]
    split
    · exact List.forall_mem_nil _
    · exact fun c hc => (w.lineBreak.front_blank c hc).1
  obtain ⟨b, hb, hraw⟩ := w.isValue.rawValue_append hends
  rw [value?, hraw, w.isValue.cleaned_append hb]
  simp [w.isValue.ne_nil]

end Written

/-! ## Reading a constant -/

theorem opt_export (w : Written) (t : Text) : opt (keyword "export") (w.header ++ t) =
    some (if w.exported then some () else none, "const " ++ (w.name.text ++ (" = " ++ t))) := by
  rw [Written.header, List.append_assoc, List.append_assoc, List.append_assoc]
  cases w.exported with
  | false => rfl
  | true =>
      have hexport : keyword "export" ("export " ++ ("const " ++ (w.name.text ++ (" = " ++ t)))) =
          some ((), "const " ++ (w.name.text ++ (" = " ++ t))) :=
        keyword_space "export" (Stops.cons_iff.2 (by decide))
      rw [if_pos rfl, opt, orElse_apply, map_apply, hexport]
      rfl

theorem declaration_header (w : Written) (h : previous.all (· == '\n') = true) (ht : Stops isBlank t) :
    declaration previous (w.header ++ t) = some (⟨w.name.text, value? t, w.exported⟩, t) := by
  have hconst : keyword "const" ("const " ++ (w.name.text ++ (" = " ++ t))) =
      some ((), w.name.text ++ (" = " ++ t)) :=
    keyword_space "const" (w.name.stops (fun _ => isBlank_of_isWord) _)
  have hname : word (w.name.text ++ (" = " ++ t)) = some (w.name.text, " = " ++ t) :=
    word_append w.name (Stops.cons_iff.2 (by decide))
  have hblank : (" " ++ t).dropWhile isBlank = t := ht.dropWhile_eq
  have hequals : lit "=" ((" = " ++ t).dropWhile isBlank) = some ((), " " ++ t) := lit_append "=" _
  rw [declaration, when_bind_apply, if_pos h]
  simp only [bind_apply, opt_export, hconst, hname, blanks_apply, hequals, hblank, Option.bind_some]
  cases w.exported <;> rfl

theorem declaration_inside {c : Char} (h : c ≠ '\n') (t : Text) : declaration (some c) t = none := by
  rw [declaration, when_bind_apply, if_neg (by simpa using h)]

theorem declaration_eq_none (h : ∀ k ∈ firstWords, ¬ k <+: t) : declaration previous t = none := by
  have hconst : keyword "const" t = none := keyword_eq_none_of_not_prefix (h "const" (by decide))
  have hexport : keyword "export" t = none := keyword_eq_none_of_not_prefix (h "export" (by decide))
  have hopt : opt (keyword "export") t = some (none, t) := by
    rw [opt, orElse_apply, map_apply, hexport]
    rfl
  rw [declaration, when_bind_apply, bind_apply, hopt, Option.bind_some, bind_apply, hconst]
  exact ite_self none

/-- No constant begins inside of a value. -/
theorem occurrencesFrom_value (w : Written) (t : Text) :
    occurrencesFrom declaration (some ' ') 0 (w.value ++ (w.ending ++ t)) =
      occurrencesFrom declaration (some '\n') 0 t := by
  obtain ⟨front, hending, hfront⟩ := w.exists_ending
  have hlast : (w.value ++ w.ending).getLast?.or (some ' ') = some '\n' := by
    rw [hending, ← List.append_assoc, List.getLast?_concat]
    rfl
  rw [← List.append_assoc, occurrencesFrom_append, hlast]
  intro u c v hsplit
  -- A constant begins only behind a line feed, and a line of the value begins with none of the first words.
  by_cases hfeed : u.getLast?.or (some ' ') = some '\n'
  · have hu : u.getLast? = some '\n' := by
      cases hu : u.getLast? with
      | none => simp [hu] at hfeed
      | some d => simpa [hu] using hfeed
    obtain ⟨u, rfl⟩ := List.getLast?_eq_some_iff.1 hu
    rw [List.append_assoc, List.singleton_append] at hsplit
    obtain ⟨line, hvalue, hrest⟩ := w.exists_line hsplit
    rw [← List.cons_append, hrest, List.append_assoc]
    exact declaration_eq_none fun k hk =>
      not_prefix_append_of_stops (w.isValue.noLineDeclares.not_prefix hvalue hk) (w.stops_ending hk t)
  · obtain ⟨d, hd⟩ : ∃ d, u.getLast?.or (some ' ') = some d := by
      cases u.getLast? <;> exact ⟨_, rfl⟩
    rw [hd] at hfeed ⊢
    exact declaration_inside (fun h => hfeed (congrArg some h)) _

theorem occurrencesFrom_written (ws : List Written) (h : previous.all (· == '\n') = true) :
    occurrencesFrom declaration previous 0 (ws.flatMap Written.text) = ws.map Written.constant := by
  induction ws generalizing previous with
  | nil => rfl
  | cons w ws ih =>
      have hread := declaration_header w h (w.isValue.stops (w.ending ++ ws.flatMap Written.text))
      rw [w.value?_append] at hread
      rw [List.flatMap_cons, Written.text, List.append_assoc, List.append_assoc,
        occurrencesFrom_read w.header_ne_nil hread, w.getLast?_header, Option.some_or, occurrencesFrom_value,
        ih rfl]
      rfl

end Constants

open Constants

/-- The constants of a script are read as they are written, one after the other. -/
theorem constants_written (ws : List Written) :
    constants (ws.flatMap Written.text) = ws.map Written.constant :=
  occurrencesFrom_written ws rfl

/-- A value on one line, and an object that has a brace in a text and one in a comment. -/
def endpointsScript : List Written :=
  [⟨true, .of 'H' "OST" rfl, "'https:' + base",
      .line _ (by decide) (by decide +kernel) (List.all_iff_forall_prop.1 (by decide)) (by rintro _ ⟨⟩; decide),
      true, .feed⟩,
    ⟨false, .of 'P' "ATHS" rfl, _,
      .bracketed .brace "\n  items: '\x7d;', // \x7b\n  tags: [1, 2]\n" (by decide) (by decide +kernel)
        (by decide +kernel), false, .returnFeed⟩]

theorem constants_endpointsScript : constants (endpointsScript.flatMap Written.text) =
    [⟨"HOST", some "'https:' + base", true⟩,
      ⟨"PATHS", some "\x7b\n  items: '\x7d;', // \x7b\n  tags: [1, 2]\n\x7d", false⟩] := by
  rw [constants_written]
  decide +kernel

end ComponentCatalog
