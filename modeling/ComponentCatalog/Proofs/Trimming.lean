import ComponentCatalog.Proofs.Pieces
import ComponentCatalog.Text.Blank
import ComponentCatalog.Text.Lines
import Mathlib.Data.List.DropRight

/-!
# Trimmed texts and their lines
-/

namespace ComponentCatalog

namespace Text

variable {p : Char → Bool} {c : Char} {t : Text}

/-! ## Dropping at the end -/

theorem dropEndWhile_append (p : Char → Bool) (a b : Text) :
    dropEndWhile p (a ++ b) =
      if dropEndWhile p b = [] then dropEndWhile p a else a ++ dropEndWhile p b := by
  simp only [dropEndWhile, List.reverse_append, List.dropWhile_append, List.isEmpty_iff,
    List.reverse_eq_nil_iff]
  split
  · rfl
  · simp

theorem dropEndWhile_append_of_all {b : Text} (h : ∀ c ∈ b, p c = true) (a : Text) :
    dropEndWhile p (a ++ b) = dropEndWhile p a := by
  have hb : dropEndWhile p b = [] := List.rdropWhile_eq_nil_iff.2 h
  rw [dropEndWhile_append, if_pos hb]

theorem exists_dropEndWhile (p : Char → Bool) (t : Text) :
    ∃ dropped, t = dropEndWhile p t ++ dropped ∧ ∀ c ∈ dropped, p c = true :=
  ⟨t.rtakeWhile p, (List.rdropWhile_append_rtakeWhile ..).symm, fun _ => List.mem_rtakeWhile_imp⟩

theorem dropEndWhile_of_getLast? (h : ∀ c ∈ t.getLast?, p c = false) : dropEndWhile p t = t :=
  List.rdropWhile_eq_self_iff.2 fun hne => by simp [h _ (List.getLast?_eq_some_getLast hne)]

/-! ## Dropping at both ends -/

theorem dropEndsWhile_cons (h : p c = true) (t : Text) : dropEndsWhile p (c :: t) = dropEndsWhile p t := by
  rw [dropEndsWhile, List.dropWhile_cons, if_pos h]
  rfl

theorem dropEndsWhile_concat (h : p c = true) (t : Text) : dropEndsWhile p (t ++ [c]) = dropEndsWhile p t := by
  rw [dropEndsWhile, dropEndsWhile, List.dropWhile_append]
  split
  · next hd =>
      rw [List.isEmpty_iff] at hd
      rw [hd, List.dropWhile_cons, if_pos h]
      rfl
  · exact List.rdropWhile_concat_pos _ _ _ h

theorem dropEndsWhile_sublist (p : Char → Bool) (t : Text) : (dropEndsWhile p t).Sublist t :=
  (List.rdropWhile_prefix _ _).sublist.trans (List.dropWhile_sublist _)

theorem dropEndsWhile_of_ends (hhead : ∀ c ∈ t.head?, p c = false) (hlast : ∀ c ∈ t.getLast?, p c = false) :
    dropEndsWhile p t = t := by
  have hdrop : t.dropWhile p = t := by
    cases t with
    | nil => rfl
    | cons c t => rw [List.dropWhile_cons_of_neg (by simp [hhead c rfl])]
  rw [dropEndsWhile, hdrop, dropEndWhile_of_getLast? hlast]

/-! ## Trimming -/

theorem trimRight_append (a b : Text) :
    trimRight (a ++ b) = if trimRight b = [] then trimRight a else a ++ trimRight b :=
  dropEndWhile_append ..

theorem trimRight_append_blank {b : Text} (h : ∀ c ∈ b, isBlank c = true) (a : Text) :
    trimRight (a ++ b) = trimRight a :=
  dropEndWhile_append_of_all h a

theorem trimRight_join_cons {sep : Text} {ts : List Text} (h : trimRight (join sep ts) ≠ []) (t : Text) :
    trimRight (join sep (t :: ts)) = t ++ sep ++ trimRight (join sep ts) := by
  have hts : ts ≠ [] := by
    rintro rfl
    exact h rfl
  rw [join_cons _ _ hts, trimRight_append, if_neg h]

theorem trimRight_trimRight (t : Text) : trimRight (trimRight t) = trimRight t :=
  List.rdropWhile_idempotent ..

theorem trimRight_concat_blank (h : isBlank c = true) (t : Text) : trimRight (t ++ [c]) = trimRight t :=
  List.rdropWhile_concat_pos _ _ _ h

theorem trimRight_concat (h : isBlank c = false) (t : Text) : trimRight (t ++ [c]) = t ++ [c] :=
  List.rdropWhile_concat_neg _ _ _ (by simp [h])

theorem trimRight_cons (h : isBlank c = false) (t : Text) : trimRight (c :: t) = c :: trimRight t := by
  have hc : trimRight [c] = [c] := trimRight_concat h []
  rw [← List.singleton_append, trimRight_append, hc]
  split
  · next ht => rw [ht]
  · rfl

theorem trim_eq (t : Text) : trim t = trimRight (t.dropWhile isBlank) := rfl

theorem trim_cons_blank (h : isBlank c = true) (t : Text) : trim (c :: t) = trim t :=
  dropEndsWhile_cons h t

theorem trim_cons (h : isBlank c = false) (t : Text) : trim (c :: t) = c :: trimRight t := by
  rw [trim_eq, List.dropWhile_cons, if_neg (by simp [h]), trimRight_cons h]

theorem trim_of_trimRight_eq_cons {r : Text} (ht : trimRight t = c :: r) (h : isBlank c = false) :
    trim t = trimRight t := by
  obtain ⟨dropped, hdropped, -⟩ := exists_dropEndWhile isBlank t
  have hcons : t = c :: (r ++ dropped) := by
    rw [hdropped]
    exact congrArg (· ++ dropped) ht
  rw [hcons, trim_cons h, trimRight_cons h]

theorem trim_concat_blank (h : isBlank c = true) (t : Text) : trim (t ++ [c]) = trim t :=
  dropEndsWhile_concat h t

theorem trim_append_blank {b : Text} (h : ∀ c ∈ b, isBlank c = true) (a : Text) : trim (a ++ b) = trim a := by
  induction b using List.reverseRecOn with
  | nil => rw [List.append_nil]
  | append_singleton b c ih =>
      rw [← List.append_assoc, trim_concat_blank (h c (by simp)), ih fun c hc => h c (by simp [hc])]

theorem trim_trimRight (t : Text) : trim (trimRight t) = trim t := by
  obtain ⟨dropped, hdropped, hblank⟩ := exists_dropEndWhile isBlank t
  conv_rhs => rw [hdropped, trim_append_blank hblank]
  rfl

theorem trim_eq_nil_iff {t : Text} : t.trim = [] ↔ ∀ c ∈ t, isBlank c = true := by
  induction t with
  | nil => simp [trim, dropEndsWhile, dropEndWhile]
  | cons c t ih =>
      cases hc : isBlank c with
      | true => rw [trim_cons_blank hc, ih, List.forall_mem_cons, and_iff_right hc]
      | false => simp [trim_cons hc, hc]

theorem trim_trim (t : Text) : trim (trim t) = trim t := by
  induction t with
  | nil => rfl
  | cons c t ih =>
      cases hc : isBlank c with
      | true => rw [trim_cons_blank hc, ih]
      | false => rw [trim_cons hc, trim_cons hc, trimRight_trimRight]

theorem trim_sublist (t : Text) : (trim t).Sublist t := dropEndsWhile_sublist ..

/-- A trimmed text begins and ends with characters that are not blank. -/
theorem exists_cons_of_trim (h : trim t = t) (hne : t ≠ []) :
    ∃ c r, t = c :: r ∧ isBlank c = false ∧ trimRight t = t := by
  cases t with
  | nil => exact absurd rfl hne
  | cons c t =>
      cases hc : isBlank c with
      | true =>
          rw [trim_cons_blank hc] at h
          exact absurd (h ▸ (trim_sublist t).length_le) (by simp)
      | false => exact ⟨c, t, rfl, hc, by rw [trimRight_cons hc, ← trim_cons hc, h]⟩

theorem trimRight_of_trim (h : trim t = t) : trimRight t = t := by
  cases t with
  | nil => rfl
  | cons c t =>
      obtain ⟨-, -, -, -, hright⟩ := exists_cons_of_trim h (List.cons_ne_nil _ _)
      exact hright

theorem getLast?_of_trimRight (h : trimRight t = t) : ∀ c ∈ t.getLast?, isBlank c = false := by
  intro c hc
  obtain ⟨hne, rfl⟩ := List.mem_getLast?_eq_getLast hc
  simpa using List.rdropWhile_eq_self_iff.1 h hne

theorem head?_of_trim (h : trim t = t) : ∀ c ∈ t.head?, isBlank c = false := by
  intro c hc
  have hne : t ≠ [] := by
    rintro rfl
    cases hc
  obtain ⟨x, r, rfl, hx, -⟩ := exists_cons_of_trim h hne
  exact Option.some.inj hc ▸ hx

theorem trim_of_ends (hhead : ∀ c ∈ t.head?, isBlank c = false) (hlast : ∀ c ∈ t.getLast?, isBlank c = false) :
    trim t = t :=
  dropEndsWhile_of_ends hhead hlast

/-! ## Lines -/

theorem lines_cons (h : c ≠ '\r') (t : Text) :
    lines (c :: t) = if isLineEnd c then [] :: lines t else consToFirst c (lines t) := by
  rw [lines]
  simp [h]

theorem consToFirst_pieces {sep : Char} (h : c ≠ sep) (t : Text) :
    consToFirst c (pieces sep t) = pieces sep (c :: t) := by
  rw [pieces, if_neg h]
  cases pieces sep t <;> rfl

/-- The lines of a text that does not end with a line feed are its pieces between line feeds. -/
theorem lines_eq_pieces (hne : t ≠ []) (hends : ∀ c ∈ t, isLineEnd c = true → c = '\n')
    (hlast : t.getLast? ≠ some '\n') : t.lines = pieces '\n' t := by
  induction t with
  | nil => exact absurd rfl hne
  | cons c t ih =>
      have hreturn : c ≠ '\r' := fun h => by
        subst h
        exact absurd (hends '\r' (by simp) rfl) (by decide)
      rw [lines_cons hreturn]
      cases t with
      | nil =>
          have hc : c ≠ '\n' := fun h => hlast (by simp [h])
          have hend : isLineEnd c = false := by
            simpa using mt (hends c (by simp)) hc
          simp [hend, lines, consToFirst, pieces, hc]
      | cons d t =>
          have hrest : lines (d :: t) = pieces '\n' (d :: t) :=
            ih (by simp) (fun x hx => hends x (List.mem_cons_of_mem _ hx)) (by simpa using hlast)
          rw [hrest]
          by_cases hc : c = '\n'
          · subst hc
            rw [if_pos (by rfl), pieces_cons_sep]
          · have hend : isLineEnd c = false := by
              simpa using mt (hends c (by simp)) hc
            rw [if_neg (by simp [hend]), consToFirst_pieces hc]

theorem lines_append_feed {line : Text} (hline : ∀ c ∈ line, isLineEnd c = false) (r : Text) :
    lines (line ++ '\n' :: r) = line :: lines r := by
  induction line with
  | nil => rw [List.nil_append, lines_cons (by decide), if_pos (by decide)]
  | cons c line ih =>
      have hc := hline c List.mem_cons_self
      have hreturn : c ≠ '\r' := fun h => absurd (h ▸ hc) (by decide)
      rw [List.cons_append, lines_cons hreturn, if_neg (by simp [hc]),
        ih fun d hd => hline d (List.mem_cons_of_mem c hd)]
      rfl

/-- Lines with a line feed behind each one are the lines of a text. -/
theorem lines_flatMap_feed {ls : List Text} (hends : ∀ line ∈ ls, ∀ c ∈ line, isLineEnd c = false) :
    lines (ls.flatMap (· ++ ['\n'])) = ls := by
  induction ls with
  | nil => rfl
  | cons line ls ih =>
      rw [List.flatMap_cons, List.append_assoc, List.singleton_append,
        lines_append_feed (hends line List.mem_cons_self),
        ih fun l hl => hends l (List.mem_cons_of_mem line hl)]

theorem isLineEnd_of_mem_lines {line : Text} (hline : line ∈ t.lines) : ∀ c ∈ line, isLineEnd c = false := by
  fun_induction lines t generalizing line with
  | case1 => cases hline
  | case2 r ih =>
      rcases List.mem_cons.1 hline with rfl | hline
      · simp
      · exact ih hline
  | case3 d r _ _ ih =>
      rcases List.mem_cons.1 hline with rfl | hline
      · simp
      · exact ih hline
  | case4 d r _ hd ih =>
      cases hlines : lines r with
      | nil =>
          rw [hlines] at hline
          obtain rfl := List.mem_singleton.1 hline
          simpa using hd
      | cons first rest =>
          rw [hlines] at hline
          rcases List.mem_cons.1 hline with rfl | hline
          · have hfirst := ih (hlines ▸ List.mem_cons_self)
            simp_all
          · exact ih (hlines ▸ List.mem_cons_of_mem _ hline)

end Text

end ComponentCatalog
