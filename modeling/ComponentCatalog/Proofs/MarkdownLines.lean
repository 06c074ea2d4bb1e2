import ComponentCatalog.Markdown.Section
import ComponentCatalog.Proofs.Trimming

/-!
# Lines of a markdown text

Where sections begin depends on two things that a line can be: a fence, and the heading of a section.
Both are the same for a line and for the line without blanks around it, unless the line is indented in
front of a mark.
-/

namespace ComponentCatalog

namespace Markdown

variable {line : Text} {c : Char} {f g : Bool} {ls rest : List Text} {h : Heading}

/-- A line that begins with blanks and then a mark. -/
def Indented (line : Text) : Prop :=
  ∃ gap rest, line = gap ++ '#' :: rest ∧ gap ≠ [] ∧ ∀ c ∈ gap, isBlank c = true

theorem indented_iff :
    Indented line ↔ line.takeWhile isBlank ≠ [] ∧ (line.dropWhile isBlank).head? = some '#' := by
  constructor
  · rintro ⟨gap, rest, rfl, hgap, hblank⟩
    have hmark : isBlank '#' = false := by decide
    rw [List.takeWhile_append_of_pos hblank, List.dropWhile_append_of_pos hblank]
    simp [hgap, hmark]
  · rintro ⟨hgap, hhead⟩
    obtain ⟨rest, hrest⟩ := List.head?_eq_some_iff.1 hhead
    refine ⟨_, rest, ?_, hgap, fun c hc => List.mem_takeWhile_imp hc⟩
    rw [← hrest, List.takeWhile_append_dropWhile]

instance : Decidable (Indented line) := decidable_of_iff' _ indented_iff

/-! ## Headings -/

theorem ne_mark_of_blank (hc : isBlank c = true) : c ≠ '#' := by
  rintro rfl
  exact absurd hc (by decide)

theorem exists_marks (line : Text) :
    ∃ n, line = List.replicate n '#' ∨ ∃ c r, c ≠ '#' ∧ line = List.replicate n '#' ++ c :: r := by
  induction line with
  | nil => exact ⟨0, .inl rfl⟩
  | cons d line ih =>
      by_cases hd : d = '#'
      · subst hd
        obtain ⟨n, rfl | ⟨c, r, hc, rfl⟩⟩ := ih
        · exact ⟨n + 1, .inl rfl⟩
        · exact ⟨n + 1, .inr ⟨c, r, hc, rfl⟩⟩
      · exact ⟨0, .inr ⟨d, line, hd, rfl⟩⟩

theorem heading?_replicate (n : Nat) : heading? (List.replicate n '#') = none := by
  simp [heading?]

theorem heading?_marks (hc : c ≠ '#') (n : Nat) (r : Text) :
    heading? (List.replicate n '#' ++ c :: r) =
      if 1 ≤ n ∧ n ≤ 6 ∧ isBlank c = true then some ⟨n, headingTitle (r.dropWhile isBlank)⟩ else none := by
  simp [heading?, hc, and_assoc]

theorem exists_of_heading? (hl : heading? line = some h) :
    ∃ c r, line = List.replicate h.level '#' ++ c :: r ∧ isBlank c = true ∧ 1 ≤ h.level ∧ h.level ≤ 6 ∧
      h.title = headingTitle (r.dropWhile isBlank) := by
  obtain ⟨n, rfl | ⟨c, r, hc, rfl⟩⟩ := exists_marks line
  · rw [heading?_replicate] at hl
    cases hl
  · rw [heading?_marks hc] at hl
    split at hl
    · next hn =>
        cases hl
        exact ⟨c, r, rfl, hn.2.2, hn.1, hn.2.1, rfl⟩
    · cases hl

theorem heading?_cons (hc : c ≠ '#') (line : Text) : heading? (c :: line) = none := by
  simpa using heading?_marks hc 0 line

theorem heading?_cons_blank (hc : isBlank c = true) (line : Text) : heading? (c :: line) = none :=
  heading?_cons (ne_mark_of_blank hc) line

/-! ## Blanks around a line -/

theorem isFence_cons_blank (hc : isBlank c = true) (line : Text) : isFence (c :: line) = isFence line := by
  rw [isFence, List.dropWhile_cons, if_pos hc]
  rfl

theorem startsWith_concat {p : Text} (hc : c ∉ p) (t : Text) :
    Text.startsWith (t ++ [c]) p = Text.startsWith t p := by
  rw [Bool.eq_iff_iff, Text.startsWith, Text.startsWith, List.isPrefixOf_iff_prefix,
    List.isPrefixOf_iff_prefix, List.prefix_concat_iff]
  constructor
  · rintro (rfl | hp)
    · simp at hc
    · exact hp
  · exact .inr

theorem isFence_concat_blank (hc : isBlank c = true) (line : Text) : isFence (line ++ [c]) = isFence line := by
  unfold isFence
  rw [List.dropWhile_append]
  split
  · next hd =>
      rw [List.isEmpty_iff] at hd
      rw [hd, List.dropWhile_cons, if_pos hc]
      rfl
  · have hall : ∀ p ∈ ["\x60\x60\x60".toList, "~~~".toList], c ∉ p := by
      intro p hp hmem
      have hvisible : ∀ p ∈ ["\x60\x60\x60".toList, "~~~".toList], (p.all fun d => !isBlank d) = true := by
        decide
      have hcblank := List.all_eq_true.1 (hvisible p hp) c hmem
      simp [hc] at hcblank
    dsimp only
    rw [startsWith_concat (hall _ (by simp)), startsWith_concat (hall _ (by simp))]

theorem sectionHeading?_cons_blank (hc : isBlank c = true) (h : ¬ Indented (c :: line)) :
    sectionHeading? line = sectionHeading? (c :: line) := by
  have hline : heading? line = none := by
    cases line with
    | nil => rfl
    | cons d line =>
        have hd : d ≠ '#' := by
          rintro rfl
          exact h ⟨[c], line, rfl, by simp, by simpa using hc⟩
        exact heading?_cons hd line
  rw [sectionHeading?, sectionHeading?, hline, heading?_cons_blank hc]

theorem headingTitle_dropWhile_concat (hc : isBlank c = true) (r : Text) :
    headingTitle ((r ++ [c]).dropWhile isBlank) = headingTitle (r.dropWhile isBlank) := by
  rw [List.dropWhile_append]
  split
  · next hd =>
      rw [List.isEmpty_iff] at hd
      rw [hd, List.dropWhile_cons, if_pos hc]
      rfl
  · simp only [headingTitle, Text.trimRight_concat_blank hc]

theorem sectionHeading?_concat_blank (hc : isBlank c = true) (line : Text) :
    sectionHeading? (line ++ [c]) = sectionHeading? line := by
  unfold sectionHeading?
  obtain ⟨n, rfl | ⟨d, r, hd, rfl⟩⟩ := exists_marks line
  · rw [heading?_replicate, heading?_marks (ne_mark_of_blank hc)]
    split <;> rfl
  · rw [List.append_assoc, List.cons_append, heading?_marks hd, heading?_marks hd,
      headingTitle_dropWhile_concat hc]

/-! ## Fences over lines -/

/-- Whether a fenced block is open after lines, if no section begins in them. -/
def fenceAfter? (inFence : Bool) : List Text → Option Bool
  | [] => some inFence
  | line :: rest =>
    if (inFence != isFence line) || (sectionHeading? line).isNone then
      fenceAfter? (inFence != isFence line) rest
    else none

theorem fenceAfter?_append (f : Bool) (ls rest : List Text) :
    fenceAfter? f (ls ++ rest) = (fenceAfter? f ls).bind (fenceAfter? · rest) := by
  induction ls generalizing f with
  | nil => rfl
  | cons line ls ih =>
      rw [List.cons_append, fenceAfter?, fenceAfter?]
      split
      · exact ih _
      · rfl

theorem fenceAfter?_blank (f : Bool) (ls : List Text) : fenceAfter? f ([] :: ls) = fenceAfter? f ls := by
  cases f <;> rfl

theorem fenceAfter?_congr {line line' : Text} (hf : isFence line = isFence line')
    (hh : sectionHeading? line = sectionHeading? line') (f : Bool) (ls : List Text) :
    fenceAfter? f (line :: ls) = fenceAfter? f (line' :: ls) := by
  rw [fenceAfter?, fenceAfter?, hf, hh]

theorem fenceAfter?_dropWhile {t : Text} (h : ∀ line ∈ Text.pieces '\n' t, ¬ Indented line) (f : Bool) :
    fenceAfter? f (Text.pieces '\n' (t.dropWhile isBlank)) = fenceAfter? f (Text.pieces '\n' t) := by
  induction t with
  | nil => rfl
  | cons c t ih =>
      rw [List.dropWhile_cons]
      split
      · next hc =>
          by_cases hnl : c = '\n'
          · subst hnl
            rw [Text.pieces_cons_sep] at h ⊢
            rw [ih fun line hline => h line (List.mem_cons_of_mem _ hline), fenceAfter?_blank]
          · rw [← Text.consToFirst_pieces hnl] at h ⊢
            cases hp : Text.pieces '\n' t with
            | nil => exact absurd hp (Text.pieces_ne_nil '\n' t)
            | cons line ls =>
                rw [hp] at h ih
                have hindent : ¬ Indented (c :: line) := h _ (by simp [Text.consToFirst])
                rw [ih ?_, Text.consToFirst]
                · exact fenceAfter?_congr (isFence_cons_blank hc line).symm
                    (sectionHeading?_cons_blank hc hindent) f ls
                · rintro l hl ⟨gap, rest, rfl, hgap, hblank⟩
                  rcases List.mem_cons.1 hl with rfl | hl
                  · exact hindent ⟨c :: gap, rest, rfl, by simp, by simpa [hc] using hblank⟩
                  · exact h _ (by simp [Text.consToFirst, hl]) ⟨gap, rest, rfl, hgap, hblank⟩
      · rfl

theorem fenceAfter?_trimRight (t : Text) (f : Bool) :
    fenceAfter? f (Text.pieces '\n' (Text.trimRight t)) = fenceAfter? f (Text.pieces '\n' t) := by
  induction t using List.reverseRecOn with
  | nil => rfl
  | append_singleton t c ih =>
      cases hc : isBlank c with
      | false => rw [Text.trimRight_concat hc]
      | true =>
          rw [Text.trimRight_concat_blank hc, ih]
          obtain ⟨front, last, hp, hconcat, hnl⟩ := Text.exists_pieces_concat '\n' t
          by_cases h : c = '\n'
          · rw [h, hnl, fenceAfter?_append f _ [[]]]
            cases fenceAfter? f (Text.pieces '\n' t) with
            | none => rfl
            | some g => cases g <;> rfl
          · rw [hconcat c h, hp, fenceAfter?_append, fenceAfter?_append]
            refine congrArg _ (funext fun g => ?_)
            exact (fenceAfter?_congr (isFence_concat_blank hc last) (sectionHeading?_concat_blank hc last) g
              []).symm

/-- Trimming neither opens nor closes a fence, and begins no section. -/
theorem fenceAfter?_trim {t : Text} (h : ∀ line ∈ Text.pieces '\n' t, ¬ Indented line) (f : Bool) :
    fenceAfter? f (Text.pieces '\n' (Text.trim t)) = fenceAfter? f (Text.pieces '\n' t) := by
  rw [Text.trim_eq, fenceAfter?_trimRight, fenceAfter?_dropWhile h]

end Markdown

end ComponentCatalog
