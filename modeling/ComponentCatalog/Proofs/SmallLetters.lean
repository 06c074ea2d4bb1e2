import ComponentCatalog.Proofs.Trimming
import ComponentCatalog.Text.LetterCase

/-!
# Texts in small letters

The small form of a text is its own small form. It has no marks but those of the text.
-/

namespace ComponentCatalog

/-- Blanks, brackets, and the signs of comments and assignments. -/
def isMark (c : Char) : Bool := isBlank c || "#;[]=:".toList.contains c

/-- A character that no small form changes. -/
structure IsSmall (c : Char) : Prop where
  fixed : smallForm c = [c]
  notSigma : c ≠ 'Σ'

/-! ## The table of small letters -/

namespace ShiftRun

/-- Does a run move a code point? -/
def moves (run : ShiftRun) (n : Nat) : Bool :=
  Nat.ble run.first n && Nat.ble n run.last && Nat.beq ((n - run.first) % run.step) 0

/-- Where a run moves a code point. -/
def image (run : ShiftRun) (n : Nat) : Nat := (n + run.shift).toNat

/-- No code point that `run` moves comes to lie where `other` moves it on. -/
def isApart (run other : ShiftRun) : Bool :=
  Nat.blt (run.image run.last) other.first || Nat.blt other.last (run.image run.first) ||
    (List.range (run.last - run.first + 1)).all fun k =>
      k % run.step != 0 || !other.moves (run.image (run.first + k))

/-- Do all code points that a run moves come to lie outside of a range? -/
def avoids (run : ShiftRun) (range : Nat × Nat) : Bool :=
  Nat.blt (run.image run.last) range.1 || Nat.blt range.2 (run.image run.first)

variable {run other : ShiftRun} {n k : Nat}

theorem moves_iff : run.moves n = true ↔
    run.first ≤ n ∧ n ≤ run.last ∧ (n - run.first) % run.step = 0 := by
  simp [moves, and_assoc]

theorem image_mono {m : Nat} (h : n ≤ m) : run.image n ≤ run.image m := by
  unfold image
  omega

theorem moves_image (h : run.isApart other = true) (hmoves : run.moves n = true) :
    other.moves (run.image n) = false := by
  obtain ⟨hfirst, hlast, hstep⟩ := moves_iff.1 hmoves
  have hlow : run.image run.first ≤ run.image n := image_mono hfirst
  have hhigh : run.image n ≤ run.image run.last := image_mono hlast
  simp only [isApart, Bool.or_eq_true, Nat.blt_eq, List.all_eq_true, List.mem_range, bne_iff_ne,
    Bool.not_eq_true'] at h
  rcases h with (hbelow | habove) | hall
  · rw [Bool.eq_false_iff, ne_eq, moves_iff]
    omega
  · rw [Bool.eq_false_iff, ne_eq, moves_iff]
    omega
  · have hn := hall (n - run.first) (by omega)
    rw [Nat.add_sub_cancel' hfirst] at hn
    exact hn.resolve_left (fun hne => hne hstep)

theorem notMem_of_avoids {range : Nat × Nat} (h : run.avoids range = true) (hmoves : run.moves n = true) :
    ¬ (range.1 ≤ run.image n ∧ run.image n ≤ range.2) := by
  obtain ⟨hfirst, hlast, -⟩ := moves_iff.1 hmoves
  have hlow : run.image run.first ≤ run.image n := image_mono hfirst
  have hhigh : run.image n ≤ run.image run.last := image_mono hlast
  simp only [avoids, Bool.or_eq_true, Nat.blt_eq] at h
  omega

end ShiftRun

theorem shifted_cases (n : Nat) (runs : List ShiftRun) :
    shifted n runs = n ∨ ∃ run ∈ runs, run.moves n = true ∧ shifted n runs = run.image n := by
  induction runs with
  | nil => exact .inl rfl
  | cons run runs ih =>
      unfold shifted
      split
      · exact .inl rfl
      · split
        · next hbelow hin =>
            simp only [Bool.and_eq_true, decide_eq_true_eq, beq_iff_eq] at hin
            exact .inr ⟨run, List.mem_cons_self, ShiftRun.moves_iff.2 ⟨by omega, hin⟩, rfl⟩
        · rcases ih with heq | ⟨run, hrun, h⟩
          · exact .inl heq
          · exact .inr ⟨run, List.mem_cons_of_mem _ hrun, h⟩

theorem shifted_of_moves {n : Nat} {runs : List ShiftRun} (h : ∀ run ∈ runs, run.moves n = false) :
    shifted n runs = n := by
  rcases shifted_cases n runs with heq | ⟨run, hrun, hmoves, -⟩
  · exact heq
  · rw [h run hrun] at hmoves
    cases hmoves

/-- Code points that are no small letters: below the small letters, marks, surrogates, and letters whose
small form is longer. -/
def otherRanges : List (Nat × Nat) :=
  [(0x0, 0x60), (0x7b, 0x7f), (0x85, 0x85), (0xa0, 0xa0), (0x130, 0x130), (0x1680, 0x1680), (0x2000, 0x200a),
    (0x2028, 0x2029), (0x202f, 0x202f), (0x205f, 0x205f), (0x3000, 0x3000), (0xd800, 0xdfff)]

-- Most runs lie apart from most others as a whole, so that few code points are looked at one by one.
theorem smallShifts_isApart : (smallShifts.all fun run =>
    smallShifts.all run.isApart && otherRanges.all run.avoids && Nat.blt (run.image run.last) 0x110000) = true := by
  decide +kernel

/-! ## Small forms of characters -/

theorem exists_of_inRanges {n : Nat} {ranges : List (Nat × Nat)} (h : inRanges n ranges = true) :
    ∃ range ∈ ranges, range.1 ≤ n ∧ n ≤ range.2 := by
  induction ranges with
  | nil => cases h
  | cons range ranges ih =>
      unfold inRanges at h
      split at h
      · cases h
      · rcases (Bool.or_eq_true _ _).mp h with hlast | hrest
        · exact ⟨range, List.mem_cons_self, by omega, of_decide_eq_true hlast⟩
        · obtain ⟨found, hfound, hin⟩ := ih hrest
          exact ⟨found, List.mem_cons_of_mem _ hfound, hin⟩

variable {c x : Char}

theorem exists_otherRange_of_isMark (h : isMark c = true) :
    ∃ range ∈ otherRanges, range.1 ≤ c.toNat ∧ c.toNat ≤ range.2 := by
  have hblanks : ∀ range ∈ blankRanges, ∃ other ∈ otherRanges, other.1 ≤ range.1 ∧ range.2 ≤ other.2 := by decide
  have hsigns : ∀ n ∈ "#;[]=:".toList.map Char.toNat, ∃ other ∈ otherRanges, other.1 ≤ n ∧ n ≤ other.2 := by decide
  rcases (Bool.or_eq_true _ _).mp h with hblank | hsign
  · obtain ⟨range, hrange, hlow, hhigh⟩ := exists_of_inRanges hblank
    obtain ⟨other, hother, hfirst, hlast⟩ := hblanks range hrange
    exact ⟨other, hother, hfirst.trans hlow, hhigh.trans hlast⟩
  · exact hsigns _ (List.mem_map_of_mem (List.contains_iff_mem.1 hsign))

theorem toLower_cases (hascii : c.toNat < 128) :
    smallForm c.toLower = [c.toLower] ∧ c.toLower ≠ 'Σ' ∧ (c.toLower = c ∨ isMark c.toLower = false) := by
  have hall : ∀ n < 128, smallForm (Char.ofNat n).toLower = [(Char.ofNat n).toLower] ∧
      (Char.ofNat n).toLower ≠ 'Σ' ∧
        ((Char.ofNat n).toLower = Char.ofNat n ∨ isMark (Char.ofNat n).toLower = false) := by
    decide +kernel
  have hc := hall c.toNat hascii
  rwa [Char.ofNat_toNat] at hc

/-- A code point that the table of small letters leaves as it is, and that is in none of the other ranges. -/
structure IsLetter (n : Nat) : Prop where
  stays : ∀ run ∈ smallShifts, run.moves n = false
  apart : ∀ range ∈ otherRanges, ¬ (range.1 ≤ n ∧ n ≤ range.2)
  bound : n < 0x110000

theorem isLetter_image {run : ShiftRun} {n : Nat} (hrun : run ∈ smallShifts) (hmoves : run.moves n = true) :
    IsLetter (run.image n) := by
  have htable := List.all_eq_true.1 smallShifts_isApart run hrun
  simp only [Bool.and_eq_true, Nat.blt_eq] at htable
  obtain ⟨⟨hapart, havoids⟩, hbound⟩ := htable
  have hlast : run.image n ≤ run.image run.last := ShiftRun.image_mono (ShiftRun.moves_iff.1 hmoves).2.1
  exact {
    stays := fun run' hrun' => ShiftRun.moves_image (List.all_eq_true.1 hapart run' hrun') hmoves
    apart := fun range hrange => ShiftRun.notMem_of_avoids (List.all_eq_true.1 havoids range hrange) hmoves
    bound := hlast.trans_lt hbound }

namespace IsLetter

variable {n : Nat} (h : IsLetter n)
include h

theorem toNat_ofNat : (Char.ofNat n).toNat = n := by
  have hsurrogate := h.apart (0xd800, 0xdfff) (by decide)
  have hbound := h.bound
  have hvalid : n.isValidChar := by
    dsimp only at hsurrogate
    unfold Nat.isValidChar
    omega
  rw [Char.ofNat, dif_pos hvalid]
  rfl

theorem smallForm_eq : smallForm (Char.ofNat n) = [Char.ofNat n] := by
  have hlow := h.apart (0x0, 0x60) (by decide)
  have hmiddle := h.apart (0x7b, 0x7f) (by decide)
  have hlong := h.apart (0x130, 0x130) (by decide)
  dsimp only at hlow hmiddle hlong
  unfold smallForm
  rw [h.toNat_ofNat]
  split
  · next hascii =>
      have hall : ∀ m < 128, 0x61 ≤ m → m ≤ 0x7a → [(Char.ofNat m).toLower] = [Char.ofNat m] := by decide
      exact hall n hascii (by omega) (by omega)
  · have hne : 0x130 ≠ n := by omega
    have hnone : replacement? n smallTexts = none := by simp [replacement?, smallTexts, hne]
    unfold replaced
    rw [h.toNat_ofNat, hnone, shifted_of_moves h.stays]

theorem isSmall : IsSmall (Char.ofNat n) := by
  refine ⟨h.smallForm_eq, fun hsigma => ?_⟩
  have hn : 'Σ'.toNat = n := hsigma ▸ h.toNat_ofNat
  have hfixed := shifted_of_moves h.stays
  rw [← hn] at hfixed
  exact absurd hfixed (by decide)

theorem isMark_eq : isMark (Char.ofNat n) = false := by
  refine Bool.eq_false_iff.2 fun hmark => ?_
  obtain ⟨range, hrange, hin⟩ := exists_otherRange_of_isMark hmark
  rw [h.toNat_ofNat] at hin
  exact h.apart range hrange hin

end IsLetter

/-- There is one small form of several characters. -/
theorem replacement?_eq_some {n : Nat} {codes : List Nat} (h : replacement? n smallTexts = some codes) :
    codes = [0x69, 0x307] := by
  simp only [replacement?, smallTexts, List.find?_singleton] at h
  split at h
  · exact (Option.some.inj h).symm
  · cases h

/-- What stands in a small form is small. It is a mark only if the character is that mark. -/
theorem isSmall_of_mem_smallForm (h : x ∈ smallForm c) : IsSmall x ∧ (x = c ∨ isMark x = false) := by
  unfold smallForm at h
  split at h
  · next hascii =>
      rw [List.mem_singleton.1 h]
      obtain ⟨hfixed, hsigma, hmark⟩ := toLower_cases hascii
      exact ⟨⟨hfixed, hsigma⟩, hmark⟩
  · next hascii =>
      unfold replaced at h
      split at h
      · next codes hcodes =>
          rw [replacement?_eq_some hcodes] at h
          rcases List.mem_cons.1 h with rfl | h
          · exact ⟨⟨by decide, by decide⟩, .inr (by decide)⟩
          · rw [List.mem_singleton.1 h]
            exact ⟨⟨by decide, by decide⟩, .inr (by decide)⟩
      · next hnone =>
          rw [List.mem_singleton.1 h]
          rcases shifted_cases c.toNat smallShifts with heq | ⟨run, hrun, hmoves, heq⟩
          · rw [heq, Char.ofNat_toNat]
            refine ⟨⟨?_, ?_⟩, .inl rfl⟩
            · simp only [smallForm, if_neg hascii, replaced, hnone, heq, Char.ofNat_toNat]
            · rintro rfl
              exact absurd heq (by decide)
          · have hletter := isLetter_image hrun hmoves
            rw [heq]
            exact ⟨hletter.isSmall, .inr hletter.isMark_eq⟩

theorem smallForm_ne_nil (c : Char) : smallForm c ≠ [] := by
  unfold smallForm replaced
  split
  · exact List.cons_ne_nil _ _
  · split
    · next codes hcodes =>
        rw [replacement?_eq_some hcodes]
        exact List.cons_ne_nil _ _
    · exact List.cons_ne_nil _ _

namespace Text

variable {t : Text} {inWord : Bool}

/-! ## Small forms of texts -/

theorem isSmall_of_mem_lowerAfter (h : x ∈ lowerAfter inWord t) :
    IsSmall x ∧ (x ∈ t ∨ isMark x = false) := by
  induction t generalizing inWord with
  | nil => cases h
  | cons c t ih =>
      have hrest : ∀ inWord, x ∈ lowerAfter inWord t → IsSmall x ∧ (x ∈ c :: t ∨ isMark x = false) :=
        fun inWord h => (ih h).imp id fun hor => hor.imp (List.mem_cons_of_mem _) id
      unfold lowerAfter at h
      split at h
      · rcases List.mem_cons.1 h with rfl | h
        · split
          · exact ⟨⟨by decide, by decide⟩, .inr (by decide)⟩
          · exact ⟨⟨by decide, by decide⟩, .inr (by decide)⟩
        · exact hrest _ h
      · rcases List.mem_append.1 h with h | h
        · obtain ⟨hsmall, hmark⟩ := isSmall_of_mem_smallForm h
          exact ⟨hsmall, hmark.imp (fun heq => List.mem_cons.2 (.inl heq)) id⟩
        · exact hrest _ h

theorem lowerAfter_of_isSmall (h : ∀ c ∈ t, IsSmall c) (inWord : Bool) : lowerAfter inWord t = t := by
  induction t generalizing inWord with
  | nil => rfl
  | cons c t ih =>
      obtain ⟨hfixed, hsigma⟩ := h c List.mem_cons_self
      rw [lowerAfter, if_neg hsigma, hfixed, ih fun x hx => h x (List.mem_cons_of_mem _ hx)]
      rfl

theorem lower_lower (t : Text) : t.lower.lower = t.lower :=
  lowerAfter_of_isSmall (fun _ h => (isSmall_of_mem_lowerAfter h).1) false

theorem mem_of_mem_lower (h : c ∈ t.lower) (hmark : isMark c = true) : c ∈ t := by
  rcases (isSmall_of_mem_lowerAfter h).2 with hmem | hfalse
  · exact hmem
  · rw [hmark] at hfalse
    cases hfalse

/-- The first character of a text stays as it is, or its place is taken by characters that are no marks. -/
theorem exists_lowerAfter_cons (inWord : Bool) (c : Char) (t : Text) :
    ∃ x form inWord', lowerAfter inWord (c :: t) = x :: form ++ lowerAfter inWord' t ∧
      (x = c ∧ form = [] ∨ ∀ y ∈ x :: form, isMark y = false) := by
  rw [lowerAfter]
  split
  · refine ⟨_, [], true, rfl, .inr fun y hy => ?_⟩
    rw [List.mem_singleton.1 hy]
    split <;> decide
  · obtain ⟨x, form, hform⟩ := List.exists_cons_of_ne_nil (smallForm_ne_nil c)
    rw [hform]
    refine ⟨x, form, _, rfl, ?_⟩
    by_cases hmem : c ∈ x :: form
    · have hfixed := (isSmall_of_mem_smallForm (hform ▸ hmem)).1.fixed
      exact .inl (List.cons.inj (hform.symm.trans hfixed))
    · exact .inr fun y hy => (isSmall_of_mem_smallForm (hform ▸ hy)).2.resolve_left fun heq => by
        subst heq
        exact hmem hy

theorem exists_lower_bracket (t : Text) : ∃ inWord, lower ('[' :: t) = '[' :: lowerAfter inWord t :=
  ⟨_, rfl⟩

/-- A mark behind the first character of a small form is one behind the first character of the text. -/
theorem mem_tail_of_mem_tail_lowerAfter (h : x ∈ (lowerAfter inWord t).tail) (hmark : isMark x = true) :
    x ∈ t.tail := by
  have hshown : ¬ (isMark x = false) := by simp [hmark]
  cases t with
  | nil => cases h
  | cons c t =>
      obtain ⟨y, form, inWord', heq, hform⟩ := exists_lowerAfter_cons inWord c t
      rw [heq, List.cons_append, List.tail_cons] at h
      rcases List.mem_append.1 h with h | h
      · rcases hform with ⟨-, rfl⟩ | hform
        · cases h
        · exact absurd (hform x (List.mem_cons_of_mem _ h)) hshown
      · exact (isSmall_of_mem_lowerAfter h).2.resolve_right hshown

theorem head?_of_head?_lower (h : t.lower.head? = some c) (hmark : isMark c = true) : t.head? = some c := by
  cases t with
  | nil => cases h
  | cons x t =>
      obtain ⟨y, form, inWord', heq, hform⟩ := exists_lowerAfter_cons false x t
      rw [lower, heq] at h
      cases h
      rcases hform with ⟨rfl, -⟩ | hform
      · rfl
      · rw [hform c List.mem_cons_self] at hmark
        cases hmark

theorem lowerAfter_ne_nil (h : t ≠ []) (inWord : Bool) : lowerAfter inWord t ≠ [] := by
  obtain ⟨c, t, rfl⟩ := List.exists_cons_of_ne_nil h
  obtain ⟨x, form, inWord', heq, -⟩ := exists_lowerAfter_cons inWord c t
  rw [heq]
  exact List.cons_ne_nil _ _

theorem getLast?_of_getLast?_lowerAfter (h : (lowerAfter inWord t).getLast? = some c) (hmark : isMark c = true) :
    t.getLast? = some c := by
  induction t generalizing inWord with
  | nil => cases h
  | cons x t ih =>
      obtain ⟨y, form, inWord', heq, hform⟩ := exists_lowerAfter_cons inWord x t
      rw [heq] at h
      by_cases hnil : t = []
      · subst hnil
        rw [lowerAfter, List.append_nil] at h
        rcases hform with ⟨rfl, rfl⟩ | hform
        · exact h
        · rw [hform c (List.mem_of_getLast? h)] at hmark
          cases hmark
      · rw [List.getLast?_append_of_ne_nil _ (lowerAfter_ne_nil hnil inWord')] at h
        rw [List.getLast?_cons_of_ne_nil hnil, ih h]

theorem isMark_of_isBlank (h : isBlank c = true) : isMark c = true := by rw [isMark, h, Bool.true_or]

theorem trim_lower (h : t.trim = t) : t.lower.trim = t.lower := by
  refine trim_of_ends (fun c hc => ?_) fun c hc => ?_
  · refine Bool.eq_false_iff.2 fun hblank => ?_
    have hhead := head?_of_trim h c (head?_of_head?_lower hc (isMark_of_isBlank hblank))
    rw [hblank] at hhead
    cases hhead
  · refine Bool.eq_false_iff.2 fun hblank => ?_
    have hright : t.trimRight = t := trimRight_of_trim h
    have hlast := getLast?_of_trimRight hright c (getLast?_of_getLast?_lowerAfter hc (isMark_of_isBlank hblank))
    rw [hblank] at hlast
    cases hlast

/-! ## Blanks and lines of small letters -/

theorem isSmall_of_isBlank (h : isBlank c = true) : IsSmall c := by
  have hblanks : ∀ range ∈ blankRanges, ∀ k < range.2 - range.1 + 1,
      smallForm (Char.ofNat (range.1 + k)) = [Char.ofNat (range.1 + k)] ∧ Char.ofNat (range.1 + k) ≠ 'Σ' := by
    decide +kernel
  obtain ⟨range, hrange, hlow, hhigh⟩ := exists_of_inRanges h
  obtain ⟨hfixed, hsigma⟩ := hblanks range hrange (c.toNat - range.1) (by omega)
  rw [Nat.add_sub_cancel' hlow, Char.ofNat_toNat] at hfixed hsigma
  exact ⟨hfixed, hsigma⟩

/-- A visible character stays visible in small letters. -/
theorem exists_visible_lowerAfter (hc : c ∈ t) (h : isBlank c = false) (inWord : Bool) :
    ∃ x ∈ lowerAfter inWord t, isBlank x = false := by
  have hvisible {x : Char} (hmark : isMark x = false) : isBlank x = false :=
    Bool.eq_false_iff.2 fun hblank => by simp [isMark_of_isBlank hblank] at hmark
  induction t generalizing inWord with
  | nil => cases hc
  | cons d t ih =>
      obtain ⟨x, form, inWord', heq, hform⟩ := exists_lowerAfter_cons inWord d t
      rw [heq]
      rcases List.mem_cons.1 hc with rfl | hc
      · refine ⟨x, List.mem_append_left _ List.mem_cons_self, ?_⟩
        rcases hform with ⟨rfl, -⟩ | hform
        · exact h
        · exact hvisible (hform x List.mem_cons_self)
      · obtain ⟨y, hy, hseen⟩ := ih hc inWord'
        exact ⟨y, List.mem_append_right _ hy, hseen⟩

theorem exists_visible_lower : (∃ c ∈ t.lower, isBlank c = false) ↔ ∃ c ∈ t, isBlank c = false := by
  refine ⟨fun h => ?_, fun ⟨c, hc, h⟩ => exists_visible_lowerAfter hc h false⟩
  by_contra hnone
  have hblank : ∀ c ∈ t, isBlank c = true := by simpa using hnone
  have hfixed : t.lower = t := lowerAfter_of_isSmall (fun c hc => isSmall_of_isBlank (hblank c hc)) false
  exact hnone (hfixed ▸ h)

theorem continuesWord_append_feed (t r : Text) : continuesWord (t ++ '\n' :: r) = continuesWord t := by
  induction t with
  | nil => rfl
  | cons c t ih => rw [List.cons_append, continuesWord, continuesWord, ih]

/-- No word goes on behind a line feed, so that what stands there is in small letters by itself. -/
theorem lowerAfter_append_feed (inWord : Bool) (t r : Text) :
    lowerAfter inWord (t ++ '\n' :: r) = lowerAfter inWord t ++ '\n' :: lower r := by
  induction t generalizing inWord with
  | nil => rfl
  | cons c t ih =>
      rw [List.cons_append, lowerAfter, lowerAfter, ih, ih, continuesWord_append_feed]
      split
      · rfl
      · rw [List.append_assoc]

theorem lower_join_feed (ts : List Text) : lower (join ['\n'] ts) = join ['\n'] (ts.map lower) := by
  induction ts with
  | nil => rfl
  | cons t ts ih =>
      by_cases hts : ts = []
      · subst hts
        rfl
      · have hmap : ts.map lower ≠ [] := mt List.map_eq_nil_iff.1 hts
        rw [List.map_cons, join_cons _ _ hts, join_cons _ _ hmap, List.append_assoc, List.append_assoc, ← ih]
        exact lowerAfter_append_feed false t _

/-- The lines of a text in small letters are its lines in small letters. -/
theorem pieces_lower (t : Text) : pieces '\n' t.lower = (pieces '\n' t).map lower := by
  have hmap : (pieces '\n' t).map lower ≠ [] := mt List.map_eq_nil_iff.1 (pieces_ne_nil '\n' t)
  have hfeed : ∀ line ∈ (pieces '\n' t).map lower, '\n' ∉ line := by
    intro line hline hmem
    obtain ⟨part, hpart, rfl⟩ := List.mem_map.1 hline
    exact notMem_of_mem_pieces hpart (mem_of_mem_lower hmem (by decide))
  calc
    pieces '\n' t.lower = pieces '\n' (lower (join ['\n'] (pieces '\n' t))) := by rw [join_pieces]
    _ = pieces '\n' (join ['\n'] ((pieces '\n' t).map lower)) := by rw [lower_join_feed]
    _ = (pieces '\n' t).map lower := pieces_join hmap hfeed

end Text

end ComponentCatalog
