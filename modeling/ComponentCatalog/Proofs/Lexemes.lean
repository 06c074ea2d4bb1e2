import ComponentCatalog.Proofs.Brackets

/-!
# Pieces of scripts

A script is lexed into single characters, quoted texts and comments. Every script has such pieces, and renaming
characters that quotes and comments are not told by leaves them where they are.
-/

namespace ComponentCatalog

/-! ## Pieces of a script -/

/-- A piece of a script: a single character, or a quoted text or a comment as a whole. -/
inductive Lexeme
  | plain (c : Char)
  | quoted (text : Text)
  | comment (text : Text)
deriving DecidableEq

/-- A piece as it is written. -/
def Lexeme.text : Lexeme → Text
  | plain c => [c]
  | quoted t => t
  | comment t => t

/-- The text that pieces make up. -/
def textOf (ls : List Lexeme) : Text := ls.flatMap Lexeme.text

/-- The pieces of a script from left to right. A quoted text ends at the next quote of its kind that no backslash
escapes, a comment at the end of the line or at its end mark. What nothing ends goes on to the end of the script. -/
inductive Lexes : Text → List Lexeme → Prop
  | nil : Lexes [] []
  | plain {c : Char} {t : Text} {ls : List Lexeme} : isQuote c = false → (c = '/' → Stops isCommentMark t) →
      Lexes t ls → Lexes (c :: t) (.plain c :: ls)
  | quoted {quote : Char} {s t : Text} {ls : List Lexeme} : isQuote quote = true → Quotable quote s → Lexes t ls →
      Lexes (quote :: (s ++ quote :: t)) (.quoted (quote :: (s ++ [quote])) :: ls)
  | comment {t : Text} {ls : List Lexeme} (x : Comment) : Lexes t ls → Lexes (x.text ++ t) (.comment x.text :: ls)
  | openQuote {quote : Char} {s : Text} : isQuote quote = true →
      (∀ body rest, Quotable quote body → s ≠ body ++ quote :: rest) → Lexes (quote :: s) [.quoted (quote :: s)]
  | openLine {s : Text} : '\n' ∉ s → Lexes ('/' :: '/' :: s) [.comment ('/' :: '/' :: s)]
  | openBlock {s : Text} : ¬ "*/".toList <:+: s → Lexes ('/' :: '*' :: s) [.comment ('/' :: '*' :: s)]

variable {c quote : Char} {s t : Text} {ls : List Lexeme}

theorem textOf_cons (l : Lexeme) (ls : List Lexeme) : textOf (l :: ls) = l.text ++ textOf ls := rfl

theorem textOf_append (ls ls' : List Lexeme) : textOf (ls ++ ls') = textOf ls ++ textOf ls' :=
  List.flatMap_append

theorem length_textOf_le {ls ls' : List Lexeme} (h : ls <+: ls') : (textOf ls).length ≤ (textOf ls').length := by
  obtain ⟨after, rfl⟩ := h
  simp [textOf_append]

theorem Lexes.text (h : Lexes t ls) : textOf ls = t := by
  induction h with
  | nil => rfl
  | plain _ _ _ ih => rw [textOf_cons, ih]; rfl
  | quoted _ _ _ ih => rw [textOf_cons, ih]; simp [Lexeme.text]
  | comment x _ ih => rw [textOf_cons, ih]; rfl
  | openQuote => simp [textOf, Lexeme.text]
  | openLine => simp [textOf, Lexeme.text]
  | openBlock => simp [textOf, Lexeme.text]

theorem exists_first_blockEnd (h : "*/".toList <:+: t) :
    ∃ body rest, t = body ++ '*' :: '/' :: rest ∧ ¬ "*/".toList <:+: body := by
  induction t with
  | nil => exact absurd (List.infix_nil.1 h) (by decide)
  | cons c t ih =>
      by_cases hfront : "*/".toList <+: c :: t
      · obtain ⟨rest, hrest⟩ := hfront
        exact ⟨[], rest, hrest.symm, by decide⟩
      · obtain ⟨body, rest, rfl, hbody⟩ := ih ((List.infix_cons_iff.1 h).resolve_left hfront)
        refine ⟨c :: body, rest, rfl, fun hin => ?_⟩
        rcases List.infix_cons_iff.1 hin with hstart | hin
        · exact hfront (hstart.trans (List.prefix_append (c :: body) _))
        · exact hbody hin

theorem exists_lexes_comment (ht : ¬ Stops isCommentMark t)
    (hrest : ∀ u : Text, u.length ≤ t.length → ∃ ls, Lexes u ls) : ∃ ls, Lexes ('/' :: t) ls := by
  cases t with
  | nil => exact absurd .nil ht
  | cons d t =>
      have hd : isCommentMark d = true := by simpa [Stops.cons_iff] using ht
      rcases (Bool.or_eq_true _ _).mp hd with hd | hd <;> obtain rfl := beq_iff_eq.1 hd
      · by_cases hend : '\n' ∈ t
        · obtain ⟨body, rest, rfl, hbody⟩ := List.eq_append_cons_of_mem hend
          obtain ⟨ls, hls⟩ := hrest rest (by simp; omega)
          have hlexes := Lexes.comment (.line body hbody) hls
          simp only [Comment.text, List.cons_append, List.append_assoc, List.nil_append] at hlexes
          exact ⟨_, hlexes⟩
        · exact ⟨_, .openLine hend⟩
      · by_cases hend : "*/".toList <:+: t
        · obtain ⟨body, rest, rfl, hbody⟩ := exists_first_blockEnd hend
          obtain ⟨ls, hls⟩ := hrest rest (by simp; omega)
          have hlexes := Lexes.comment (.block body hbody) hls
          simp only [Comment.text, List.cons_append, List.append_assoc, List.nil_append] at hlexes
          exact ⟨_, hlexes⟩
        · exact ⟨_, .openBlock hend⟩

theorem exists_lexes (t : Text) : ∃ ls, Lexes t ls := by
  -- A comment or quoted text is read as a whole, so the induction is on the length.
  induction hlength : t.length using Nat.strong_induction_on generalizing t with
  | _ n ih =>
    cases t with
    | nil => exact ⟨[], .nil⟩
    | cons c t =>
        subst hlength
        have hrest : ∀ u, u.length ≤ t.length → ∃ ls, Lexes u ls := fun u hu =>
          ih u.length (Nat.lt_succ_of_le hu) u rfl
        by_cases hquote : isQuote c = true
        · by_cases hend : ∃ body rest, Quotable c body ∧ t = body ++ c :: rest
          · obtain ⟨body, rest, hbody, rfl⟩ := hend
            obtain ⟨ls, hls⟩ := hrest rest (by simp; omega)
            exact ⟨_, .quoted hquote hbody hls⟩
          · exact ⟨_, .openQuote hquote fun body rest hbody ht => hend ⟨body, rest, hbody, ht⟩⟩
        by_cases hcomment : c = '/' ∧ ¬ Stops isCommentMark t
        · obtain ⟨rfl, hmark⟩ := hcomment
          exact exists_lexes_comment hmark hrest
        · obtain ⟨ls, hls⟩ := hrest t (Nat.le_refl _)
          refine ⟨_, .plain (by simpa using hquote) (fun hc => ?_) hls⟩
          exact Classical.not_not.1 fun hmark => hcomment ⟨hc, hmark⟩

/-- A character that begins neither a quoted text nor a comment is a piece of its own. -/
theorem Lexes.of_plain (hquote : isQuote c = false) (hslash : c ≠ '/') (h : Lexes (c :: t) ls) :
    ∃ ls', ls = .plain c :: ls' ∧ Lexes t ls' := by
  have hne : ∀ {quote : Char}, isQuote quote = true → c ≠ quote := fun hq => (ne_of_isQuote hq hquote).symm
  generalize hu : c :: t = u at h
  cases h with
  | nil => cases hu
  | plain _ _ h =>
      obtain ⟨rfl, rfl⟩ := List.cons.inj hu
      exact ⟨_, rfl, h⟩
  | quoted hq => exact absurd (List.cons.inj hu).1 (hne hq)
  | comment x => cases x <;> exact absurd (List.cons.inj hu).1 hslash
  | openQuote hq => exact absurd (List.cons.inj hu).1 (hne hq)
  | openLine => exact absurd (List.cons.inj hu).1 hslash
  | openBlock => exact absurd (List.cons.inj hu).1 hslash

/-! ## Renamed pieces -/

section Renaming

variable {e : Equiv.Perm Char}

/-- A piece with every character renamed. -/
def Lexeme.rename (f : Char → Char) : Lexeme → Lexeme
  | plain c => plain (f c)
  | quoted t => quoted (t.map f)
  | comment t => comment (t.map f)

theorem Lexeme.text_rename (f : Char → Char) (l : Lexeme) : (l.rename f).text = l.text.map f := by
  cases l <;> rfl

theorem textOf_rename (f : Char → Char) (ls : List Lexeme) :
    textOf (ls.map (Lexeme.rename f)) = (textOf ls).map f := by
  simp only [textOf, List.flatMap_map, List.map_flatMap, Lexeme.text_rename]

theorem KeepsMarks.symm (he : KeepsMarks e) : KeepsMarks e.symm where
  injective := e.symm.injective
  fixes c hc := e.symm_apply_eq.2 (he.fixes c hc).symm

theorem KeepsMarks.slash (he : KeepsMarks e) : e '/' = '/' := he.fixes '/' (by decide)

theorem KeepsMarks.star (he : KeepsMarks e) : e '*' = '*' := he.fixes '*' (by decide)

theorem KeepsMarks.isCommentMark_eq (he : KeepsMarks e) (c : Char) : isCommentMark (e c) = isCommentMark c := by
  rw [Bool.eq_iff_iff]
  simp only [isCommentMark, Bool.or_eq_true, beq_iff_eq]
  rw [he.eq_iff (by decide), he.eq_iff (by decide)]

theorem map_symm_map (e : Equiv.Perm Char) (t : Text) : (t.map e).map e.symm = t := by simp

theorem Quotable.map (he : KeepsMarks e) (h : Quotable quote s) : Quotable (e quote) (s.map e) := by
  induction h with
  | nil => exact .nil
  | cons hquote hescape _ ih =>
      exact .cons (he.injective.ne hquote) (mt (he.eq_iff (by decide)).1 hescape) ih
  | escape _ ih =>
      rw [List.map_cons, List.map_cons, he.fixes '\\' (by decide)]
      exact .escape ih

theorem KeepsMarks.blockEnd_of_map (he : KeepsMarks e) (h : "*/".toList <:+: t.map e) :
    "*/".toList <:+: t := by
  have hends : "*/".toList.map e.symm = "*/".toList := by
    show [e.symm '*', e.symm '/'] = _
    rw [he.symm.star, he.symm.slash]
    rfl
  have hback := h.map e.symm
  rwa [map_symm_map, hends] at hback

theorem KeepsMarks.notMem_map (he : KeepsMarks e) (hc : c ∈ lexicalMarks) (h : c ∉ t) : c ∉ t.map e := by
  rw [← he.fixes c hc, List.mem_map_of_injective he.injective]
  exact h

theorem Comment.exists_map (he : KeepsMarks e) (x : Comment) : ∃ y : Comment, y.text = x.text.map e := by
  cases x with
  | line body h =>
      refine ⟨.line (body.map e) (he.notMem_map (by decide) h), ?_⟩
      simp [Comment.text, he.slash, he.fixes '\n' (by decide)]
  | block body h =>
      refine ⟨.block (body.map e) (mt he.blockEnd_of_map h), ?_⟩
      simp [Comment.text, he.slash, he.star]

/-- Renaming leaves the pieces of a script where they are. -/
theorem Lexes.map (he : KeepsMarks e) (h : Lexes t ls) : Lexes (t.map e) (ls.map (Lexeme.rename e)) := by
  induction h with
  | nil => exact .nil
  | @plain c t ls hquote hslash _ ih =>
      refine .plain ((he.isQuote_eq c).trans hquote) (fun hc => ?_) ih
      have hstops := hslash ((he.eq_iff (by decide)).1 hc)
      cases t with
      | nil => exact .nil
      | cons d t => exact Stops.cons_iff.2 ((he.isCommentMark_eq d).trans (Stops.cons_iff.1 hstops))
  | @quoted quote s t ls hquote hs _ ih =>
      have hlexes := Lexes.quoted ((he.isQuote_eq quote).trans hquote) (hs.map he) ih
      simpa [Lexeme.rename] using hlexes
  | @comment t ls x _ ih =>
      obtain ⟨y, hy⟩ := x.exists_map he
      have hlexes := Lexes.comment y ih
      rwa [hy, ← List.map_append] at hlexes
  | @openQuote quote s hquote hopen =>
      refine .openQuote ((he.isQuote_eq quote).trans hquote) fun body rest hbody hs => ?_
      have hquotable := hbody.map he.symm
      rw [Equiv.symm_apply_apply] at hquotable
      refine hopen _ (rest.map e.symm) hquotable ?_
      have hback := congrArg (List.map e.symm) hs
      simpa using hback
  | @openLine s hopen =>
      have hlexes := Lexes.openLine (he.notMem_map (by decide) hopen)
      simpa [Lexeme.rename, he.slash] using hlexes
  | @openBlock s hopen =>
      have hlexes := Lexes.openBlock (mt he.blockEnd_of_map hopen)
      simpa [Lexeme.rename, he.slash, he.star] using hlexes

theorem Lexeme.rename_eq_iff {f : Char → Char} (hf : Function.Injective f) {l : Lexeme} :
    l.rename f = .plain (f c) ↔ l = .plain c := by
  cases l <;> simp [rename, hf.eq_iff]

end Renaming

end ComponentCatalog
