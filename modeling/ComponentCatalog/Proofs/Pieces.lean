import ComponentCatalog.Text.Basic

/-!
# Texts cut at a separator and joined again
-/

namespace ComponentCatalog

namespace Text

variable {sep : Char} {t part : Text} {ts : List Text}

/-! ## Pieces -/

theorem pieces_cons_sep (sep : Char) (r : Text) : pieces sep (sep :: r) = [] :: pieces sep r := by
  rw [pieces, if_pos rfl]

theorem pieces_ne_nil (sep : Char) (t : Text) : pieces sep t ≠ [] := by
  cases t with
  | nil => simp [pieces]
  | cons c r =>
      rw [pieces]
      split
      · simp
      · split <;> simp

theorem pieces_append (sep : Char) (t r : Text) :
    pieces sep (t ++ sep :: r) = pieces sep t ++ pieces sep r := by
  induction t with
  | nil => exact pieces_cons_sep sep r
  | cons c t ih =>
      rw [List.cons_append, pieces, pieces, ih]
      split
      · rfl
      · split
        · next hp => exact absurd (List.append_eq_nil_iff.1 hp).1 (pieces_ne_nil sep t)
        · next hp =>
            split
            · next ht => exact absurd ht (pieces_ne_nil sep t)
            · next ht =>
                rw [ht] at hp
                cases hp
                rfl

theorem pieces_of_notMem (h : sep ∉ t) : pieces sep t = [t] := by
  induction t with
  | nil => rfl
  | cons c t ih =>
      have hc : c ≠ sep := fun hc => h (by simp [hc])
      rw [pieces, if_neg hc, ih fun ht => h (by simp [ht])]

theorem pieces_append_sep (h : sep ∉ t) (r : Text) : pieces sep (t ++ sep :: r) = t :: pieces sep r := by
  rw [pieces_append, pieces_of_notMem h]
  rfl

/-- A text is cut in one way only at its first separator. -/
theorem append_sep_inj {u r s : Text} (ht : sep ∉ t) (hu : sep ∉ u) (h : t ++ sep :: r = u ++ sep :: s) :
    t = u ∧ r = s := by
  have hpieces := congrArg (pieces sep) h
  rw [pieces_append_sep ht, pieces_append_sep hu, List.cons.injEq] at hpieces
  obtain rfl := hpieces.1
  exact ⟨rfl, List.cons_inj_right sep |>.1 (List.append_cancel_left h)⟩

theorem length_pieces (sep : Char) (t : Text) : (pieces sep t).length = t.count sep + 1 := by
  induction t with
  | nil => rfl
  | cons c t ih =>
      rw [pieces, List.count_cons]
      split
      · next hc => simp [hc, ih]
      · next hc =>
          cases hp : pieces sep t with
          | nil => exact absurd hp (pieces_ne_nil sep t)
          | cons p ps =>
              rw [hp] at ih
              simpa [hc] using ih

theorem notMem_of_mem_pieces (h : part ∈ pieces sep t) : sep ∉ part := by
  induction t generalizing part with
  | nil =>
      obtain rfl : part = [] := by simpa [pieces] using h
      simp
  | cons c r ih =>
      rw [pieces] at h
      split at h
      · rcases List.mem_cons.1 h with rfl | h
        · simp
        · exact ih h
      · next hc =>
          split at h
          · obtain rfl := List.mem_singleton.1 h
            simpa using Ne.symm hc
          · next p ps hp =>
              rw [hp] at ih
              rcases List.mem_cons.1 h with rfl | h
              · have hp : sep ∉ p := ih (List.mem_cons_self ..)
                simpa [Ne.symm hc] using hp
              · exact ih (by simp [h])

/-- A character at the end of a text stands at the end of the last piece, unless it is a separator. -/
theorem exists_pieces_concat (sep : Char) (t : Text) :
    ∃ front last, pieces sep t = front ++ [last] ∧
      (∀ c, c ≠ sep → pieces sep (t ++ [c]) = front ++ [last ++ [c]]) ∧
      pieces sep (t ++ [sep]) = pieces sep t ++ [[]] := by
  induction t with
  | nil => exact ⟨[], [], rfl, fun c hc => by simp [pieces, hc], by simp [pieces]⟩
  | cons d t ih =>
      obtain ⟨front, last, hp, hconcat, hsep⟩ := ih
      by_cases hd : d = sep
      · subst hd
        refine ⟨[] :: front, last, ?_, fun c hc => ?_, ?_⟩
        · rw [pieces_cons_sep, hp]
          rfl
        · rw [List.cons_append, pieces_cons_sep, hconcat c hc]
          rfl
        · rw [List.cons_append, pieces_cons_sep, pieces_cons_sep, hsep]
          rfl
      · cases front with
        | nil =>
            refine ⟨[], d :: last, ?_, fun c hc => ?_, ?_⟩
            · simp [pieces, hd, hp]
            · simp [pieces, hd, hconcat c hc]
            · simp [pieces, hd, hsep, hp]
        | cons first front =>
            refine ⟨(d :: first) :: front, last, ?_, fun c hc => ?_, ?_⟩
            · simp [pieces, hd, hp]
            · simp [pieces, hd, hconcat c hc]
            · simp [pieces, hd, hsep, hp]

/-! ## Joining -/

theorem join_cons (sep t : Text) (h : ts ≠ []) : join sep (t :: ts) = t ++ sep ++ join sep ts := by
  cases ts with
  | nil => exact absurd rfl h
  | cons u r => rfl

theorem join_append (sep : Text) {us : List Text} (ht : ts ≠ []) (hu : us ≠ []) :
    join sep (ts ++ us) = join sep ts ++ sep ++ join sep us := by
  induction ts with
  | nil => exact absurd rfl ht
  | cons t ts ih =>
      by_cases hts : ts = []
      · subst hts
        exact join_cons sep t hu
      · rw [List.cons_append, join_cons sep t (by simp [hts]), ih hts, join_cons sep t hts]
        simp

theorem mem_join {c : Char} {sep : Text} (h : c ∈ join sep ts) : c ∈ sep ∨ ∃ t ∈ ts, c ∈ t := by
  induction ts with
  | nil => cases h
  | cons t ts ih =>
      by_cases hts : ts = []
      · subst hts
        exact .inr ⟨t, by simp, h⟩
      · rw [join_cons sep t hts, List.append_assoc, List.mem_append, List.mem_append] at h
        rcases h with h | h | h
        · exact .inr ⟨t, by simp, h⟩
        · exact .inl h
        · rcases ih h with h | ⟨u, hu, h⟩
          · exact .inl h
          · exact .inr ⟨u, by simp [hu], h⟩

theorem mem_join_of_mem {c : Char} {sep : Text} (ht : t ∈ ts) (hc : c ∈ t) : c ∈ join sep ts := by
  induction ts with
  | nil => cases ht
  | cons u ts ih =>
      by_cases hts : ts = []
      · subst hts
        rw [List.mem_singleton.1 ht] at hc
        exact hc
      · rw [join_cons sep u hts, List.append_assoc]
        rcases List.mem_cons.1 ht with rfl | ht
        · exact List.mem_append_left _ hc
        · exact List.mem_append_right _ (List.mem_append_right _ (ih ht))

theorem join_pieces (sep : Char) (t : Text) : join [sep] (pieces sep t) = t := by
  induction t with
  | nil => rfl
  | cons c r ih =>
      rw [pieces]
      split
      · next hc => rw [join_cons _ _ (pieces_ne_nil sep r), ih, hc]; rfl
      · split
        · next hp => exact absurd hp (pieces_ne_nil sep r)
        · next p ps hp =>
            rw [hp] at ih
            rw [← ih]
            cases ps <;> simp [join]

theorem mem_of_mem_pieces {c : Char} (hpart : part ∈ pieces sep t) (hc : c ∈ part) : c ∈ t := by
  rw [← join_pieces sep t]
  exact mem_join_of_mem hpart hc

theorem pieces_join (hne : ts ≠ []) (h : ∀ t ∈ ts, sep ∉ t) : pieces sep (join [sep] ts) = ts := by
  induction ts with
  | nil => exact absurd rfl hne
  | cons t ts ih =>
      by_cases hts : ts = []
      · subst hts
        exact pieces_of_notMem (h t (by simp))
      · rw [join_cons _ _ hts, List.append_assoc]
        exact (pieces_append_sep (h t (by simp)) _).trans
          (congrArg (t :: ·) (ih hts fun u hu => h u (by simp [hu])))

/-! ## Parts without a separator -/

/-- A part without the separator lies on one side of it. -/
theorem infix_append_sep_iff {r : Text} (h : sep ∉ part) : part <:+: t ++ sep :: r ↔ part <:+: t ∨ part <:+: r := by
  have hnil {front : Text} (hfront : sep ∉ front) (hstart : front <+: sep :: r) : front = [] := by
    rcases List.prefix_cons_iff.1 hstart with hnil | ⟨rest, rfl, -⟩
    · exact hnil
    · exact absurd List.mem_cons_self hfront
  constructor
  · intro hinfix
    rcases List.infix_append_iff.1 hinfix with hleft | hright | ⟨before, behind, rfl, hbefore, hbehind⟩
    · exact .inl hleft
    · rcases List.infix_cons_iff.1 hright with hstart | hright
      · exact .inr (hnil h hstart ▸ List.nil_infix)
      · exact .inr hright
    · rw [hnil (fun hsep => h (List.mem_append_right _ hsep)) hbehind, List.append_nil]
      exact .inl hbefore.isInfix
  · rintro (hleft | hright)
    · exact hleft.trans (List.prefix_append ..).isInfix
    · exact hright.trans ((List.suffix_cons sep r).trans (List.suffix_append ..)).isInfix

theorem infix_join_iff (hne : ts ≠ []) (h : sep ∉ part) : part <:+: join [sep] ts ↔ ∃ t ∈ ts, part <:+: t := by
  induction ts with
  | nil => exact absurd rfl hne
  | cons t ts ih =>
      by_cases hts : ts = []
      · subst hts
        simp [join]
      · rw [join_cons _ _ hts, List.append_assoc, List.singleton_append, infix_append_sep_iff h, ih hts]
        simp

/-- A part without the separator stands in one of the pieces. -/
theorem infix_iff_exists_piece (h : sep ∉ part) : part <:+: t ↔ ∃ p ∈ pieces sep t, part <:+: p := by
  rw [← infix_join_iff (pieces_ne_nil sep t) h, join_pieces]

end Text

end ComponentCatalog
