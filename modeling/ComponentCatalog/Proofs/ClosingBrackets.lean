import ComponentCatalog.Proofs.Lexemes
import Mathlib.Order.Bounds.Basic

/-!
# Closing brackets

A script is lexed into single characters, quoted texts and comments. The bracket that closes another one
is the first single character at which as many brackets of the kind are closed as were opened. What stands
in quoted texts and comments has no part in this, nor has anything behind the closing bracket.
-/

namespace ComponentCatalog

variable {c quote : Char} {s t r : Text} {ls : List Lexeme} {depth : Nat} {b : Bracket}

/-! ## Brackets between pieces -/

/-- The pieces up to the bracket that closes an open one, and what follows that bracket if there is one. -/
structure EnclosedPieces where
  inside : List Lexeme
  after : Option (List Lexeme)

namespace EnclosedPieces

/-- One more piece in front of what is enclosed. -/
def prepend (l : Lexeme) (e : EnclosedPieces) : EnclosedPieces := { e with inside := l :: e.inside }

/-- The text of the pieces. -/
def enclosed (e : EnclosedPieces) : Enclosed := ⟨textOf e.inside, e.after.map textOf⟩

theorem enclosed_prepend (e : EnclosedPieces) (l : Lexeme) :
    (e.prepend l).enclosed = e.enclosed.prepend l.text := rfl

end EnclosedPieces

/-- The pieces that an open bracket encloses, `depth` more of its kind being open. -/
def Bracket.pieces (b : Bracket) : Nat → List Lexeme → EnclosedPieces
  | _, [] => ⟨[], none⟩
  | depth, l :: ls =>
    if l = .plain b.closer then
      match depth with
      | 0 => ⟨[], some ls⟩
      | depth + 1 => (b.pieces depth ls).prepend l
    else (b.pieces (if l = .plain b.opener then depth + 1 else depth) ls).prepend l

namespace Bracket

theorem opener_ne_closer (b : Bracket) : b.opener ≠ b.closer := by cases b <;> decide

theorem opener_ne_slash (b : Bracket) : b.opener ≠ '/' := by cases b <;> decide

theorem isQuote_opener (b : Bracket) : isQuote b.opener = false := by cases b <;> rfl

theorem pieces_closer_zero (b : Bracket) (ls : List Lexeme) : b.pieces 0 (.plain b.closer :: ls) = ⟨[], some ls⟩ := by
  rw [pieces, if_pos rfl]

theorem pieces_closer_succ (b : Bracket) (depth : Nat) (ls : List Lexeme) :
    b.pieces (depth + 1) (.plain b.closer :: ls) = (b.pieces depth ls).prepend (.plain b.closer) := by
  rw [pieces, if_pos rfl]

theorem pieces_opener (b : Bracket) (depth : Nat) (ls : List Lexeme) :
    b.pieces depth (.plain b.opener :: ls) = (b.pieces (depth + 1) ls).prepend (.plain b.opener) := by
  rw [pieces.eq_def]
  simp [b.opener_ne_closer]

theorem pieces_other {l : Lexeme} (hopener : l ≠ .plain b.opener) (hcloser : l ≠ .plain b.closer) (depth : Nat)
    (ls : List Lexeme) : b.pieces depth (l :: ls) = (b.pieces depth ls).prepend l := by
  rw [pieces.eq_def]
  simp [hopener, hcloser]

theorem pieces_last {l : Lexeme} (hopener : l ≠ .plain b.opener) (hcloser : l ≠ .plain b.closer) (depth : Nat) :
    (b.pieces depth [l]).enclosed = ⟨l.text, none⟩ := by
  rw [pieces_other hopener hcloser]
  simp [pieces, EnclosedPieces.prepend, EnclosedPieces.enclosed, textOf]

end Bracket

/-- Where nothing closes a bracket, it encloses all that is left. -/
theorem enclosedFrom_open (opener closer : Char) : ∀ (state : Lexical) (depth : Nat) (t : Text),
    (enclosedFrom opener closer state depth t).after = none →
      (enclosedFrom opener closer state depth t).inside = t
  | _, _, [], _ => rfl
  | state, depth, [c], h => by
      unfold enclosedFrom at h ⊢
      split_ifs at h ⊢
      rfl
  | state, depth, c :: d :: t, h => by
      have hnext := fun state depth => enclosedFrom_open opener closer state depth (d :: t)
      have hskip := fun state => enclosedFrom_open opener closer state depth t
      cases state <;> simp only [enclosedFrom] at h ⊢ <;> split_ifs at h ⊢ <;>
        simp_all [Enclosed.prepend]

theorem enclosedFrom_eq_open {opener closer : Char} {state : Lexical}
    (h : (enclosedFrom opener closer state depth t).after = none) :
    enclosedFrom opener closer state depth t = ⟨t, none⟩ := by
  have hinside := enclosedFrom_open opener closer state depth t h
  rw [← h]
  exact congrArg (Enclosed.mk · _) hinside

theorem braced_open {state : Lexical} (h : ∀ s r, braced state depth t ≠ ⟨s, some r⟩) :
    braced state depth t = ⟨t, none⟩ := by
  cases hafter : (braced state depth t).after with
  | none => exact enclosedFrom_eq_open hafter
  | some r => exact absurd (by rw [← hafter]) (h (braced state depth t).inside r)

theorem braced_plain (hquote : isQuote c = false) (hslash : c = '/' → Stops isCommentMark t)
    (hopener : c ≠ '\x7b') (hcloser : c ≠ '\x7d') :
    braced .plain depth (c :: t) = (braced .plain depth t).prepend [c] := by
  by_cases hc : c = '/'
  · subst hc
    exact braced_slash (hslash rfl)
  · exact braced_neutral ⟨hquote, hopener, hcloser, hc⟩ t

/-- A matcher for braces goes from piece to piece. -/
theorem braced_lexes (h : Lexes t ls) : braced .plain depth t = (Bracket.brace.pieces depth ls).enclosed := by
  induction h generalizing depth with
  | nil => rfl
  | @plain c t ls hquote hslash hls ih =>
      by_cases hcloser : c = Bracket.brace.closer
      · subst hcloser
        cases depth with
        | zero => rw [Bracket.pieces_closer_zero, ← hls.text]; exact braced_end _
        | succ depth => rw [Bracket.pieces_closer_succ, EnclosedPieces.enclosed_prepend, ← ih]; exact braced_closing t
      by_cases hopener : c = Bracket.brace.opener
      · subst hopener
        rw [Bracket.pieces_opener, EnclosedPieces.enclosed_prepend, ← ih]
        exact braced_opening t
      · rw [Bracket.pieces_other (by simpa using hopener) (by simpa using hcloser), EnclosedPieces.enclosed_prepend,
          ← ih]
        exact braced_plain hquote hslash hopener hcloser
  | quoted hquote hs _ ih =>
      rw [Bracket.pieces_other (by simp) (by simp), EnclosedPieces.enclosed_prepend, ← ih, braced_quote hquote,
        braced_quotable hquote hs, Enclosed.prepend_cons]
      rfl
  | comment x _ ih =>
      rw [Bracket.pieces_other (by simp) (by simp), EnclosedPieces.enclosed_prepend, ← ih]
      exact braced_comment x _
  | @openQuote quote s hquote hopen =>
      have hbraced : braced (.quoted quote) depth s = ⟨s, none⟩ := braced_open fun s' r hs => by
        obtain ⟨body, rest, -, hbody, -, hquotable, -⟩ := exists_of_quoted hquote hs
        exact hopen body rest hquotable hbody
      rw [Bracket.pieces_last (by simp) (by simp), braced_quote hquote, hbraced]
      rfl
  | @openLine s hopen =>
      have hbraced : braced .lineComment depth s = ⟨s, none⟩ := braced_open fun s' r hs => by
        obtain ⟨body, rest, -, rfl, -⟩ := exists_of_lineComment hs
        exact hopen (by simp)
      rw [Bracket.pieces_last (by simp) (by simp), braced_lineComment, hbraced]
      rfl
  | @openBlock s hopen =>
      have hbraced : braced .blockComment depth s = ⟨s, none⟩ := braced_open fun s' r hs => by
        obtain ⟨body, rest, -, rfl, -⟩ := exists_of_blockComment hs
        exact hopen ⟨body, rest, by simp⟩
      rw [Bracket.pieces_last (by simp) (by simp), braced_blockComment, hbraced]
      rfl

/-- What is enclosed and what follows it, piece by piece with every character renamed. -/
def EnclosedPieces.rename (f : Char → Char) (e : EnclosedPieces) : EnclosedPieces :=
  ⟨e.inside.map (Lexeme.rename f), e.after.map (List.map (Lexeme.rename f))⟩

theorem EnclosedPieces.rename_prepend (f : Char → Char) (e : EnclosedPieces) (l : Lexeme) :
    (e.prepend l).rename f = (e.rename f).prepend (l.rename f) := rfl

theorem EnclosedPieces.enclosed_rename (f : Char → Char) (e : EnclosedPieces) :
    (e.rename f).enclosed = e.enclosed.rename f := by
  rcases e with ⟨inside, _ | after⟩ <;> simp [rename, enclosed, Enclosed.rename, textOf_rename]

namespace Bracket

theorem pieces_rename (b : Bracket) (ls : List Lexeme) (depth : Nat) :
    brace.pieces depth (ls.map (Lexeme.rename b.exchange)) = (b.pieces depth ls).rename b.exchange := by
  have hopener : Lexeme.plain brace.opener = .plain (b.exchange b.opener) := congrArg _ b.exchange_opener.symm
  have hcloser : Lexeme.plain brace.closer = .plain (b.exchange b.closer) := congrArg _ b.exchange_closer.symm
  induction ls generalizing depth with
  | nil => rfl
  | cons l ls ih =>
      by_cases hl : l = .plain b.closer
      · subst hl
        rw [List.map_cons, Lexeme.rename, ← hcloser]
        cases depth with
        | zero => rw [pieces_closer_zero, pieces_closer_zero]; rfl
        | succ depth =>
            rw [pieces_closer_succ, pieces_closer_succ, EnclosedPieces.rename_prepend, ← ih, Lexeme.rename, ← hcloser]
      by_cases hl' : l = .plain b.opener
      · subst hl'
        rw [List.map_cons, Lexeme.rename, ← hopener, pieces_opener, pieces_opener, EnclosedPieces.rename_prepend,
          ← ih, Lexeme.rename, ← hopener]
      · have hne : l.rename b.exchange ≠ .plain brace.opener := by
          rwa [hopener, Ne, Lexeme.rename_eq_iff b.exchange.injective]
        have hne' : l.rename b.exchange ≠ .plain brace.closer := by
          rwa [hcloser, Ne, Lexeme.rename_eq_iff b.exchange.injective]
        rw [List.map_cons, pieces_other hne hne', pieces_other hl' hl, EnclosedPieces.rename_prepend, ← ih]

/-- A bracket encloses the pieces before the one that closes it. -/
theorem enclosed_lexes (b : Bracket) (h : Lexes t ls) : enclosed b.opener b.closer t = (b.pieces 0 ls).enclosed := by
  have hmarks := b.keepsMarks_exchange
  apply Enclosed.rename_injective hmarks.injective
  rw [← EnclosedPieces.enclosed_rename, ← pieces_rename, ← braced_lexes (h.map hmarks), enclosed,
    ← hmarks.enclosedFrom_map, b.exchange_opener, b.exchange_closer]
  rfl

/-! ## The bracket that closes another one -/

/-- Behind `before` stands a closing bracket, and as many were closed before it as were opened, `depth` more
included. -/
def Balances (b : Bracket) (depth : Nat) (before ls : List Lexeme) : Prop :=
  (∃ after, ls = before ++ .plain b.closer :: after) ∧
    depth + before.count (.plain b.opener) = before.count (.plain b.closer)

/-- The pieces up to the first closing bracket that balances, or all of them. -/
inductive FirstClosing (b : Bracket) (depth : Nat) (ls : List Lexeme) : EnclosedPieces → Prop
  | closed {before after : List Lexeme} : ls = before ++ .plain b.closer :: after → b.Balances depth before ls →
      (∀ p, b.Balances depth p ls → before <+: p) → FirstClosing b depth ls ⟨before, some after⟩
  | unclosed : (∀ p, ¬ b.Balances depth p ls) → FirstClosing b depth ls ⟨ls, none⟩

theorem balances_nil_iff {l : Lexeme} : b.Balances depth [] (l :: ls) ↔ l = .plain b.closer ∧ depth = 0 := by
  simp [Balances]

theorem balances_cons_iff {l x : Lexeme} {p : List Lexeme} : b.Balances depth (x :: p) (l :: ls) ↔
    x = l ∧ (∃ after, ls = p ++ .plain b.closer :: after) ∧
      depth + (l :: p).count (.plain b.opener) = (l :: p).count (.plain b.closer) := by
  simp only [Balances, List.cons_append, List.cons.injEq]
  constructor
  · rintro ⟨⟨after, rfl, hls⟩, hcount⟩
    exact ⟨rfl, ⟨after, hls⟩, hcount⟩
  · rintro ⟨rfl, ⟨after, hls⟩, hcount⟩
    exact ⟨⟨after, rfl, hls⟩, hcount⟩

/-- One piece more in front, which does not close the bracket. -/
theorem FirstClosing.cons {depth' : Nat} {l : Lexeme} {e : EnclosedPieces} (h : b.FirstClosing depth' ls e)
    (hnil : ¬ b.Balances depth [] (l :: ls))
    (hcons : ∀ p, b.Balances depth (l :: p) (l :: ls) ↔ b.Balances depth' p ls) :
    b.FirstClosing depth (l :: ls) (e.prepend l) := by
  have hfront : ∀ p, b.Balances depth p (l :: ls) → ∃ p', p = l :: p' ∧ b.Balances depth' p' ls := by
    intro p hp
    cases p with
    | nil => exact absurd hp hnil
    | cons x p =>
        obtain rfl := (balances_cons_iff.1 hp).1
        exact ⟨p, rfl, (hcons p).1 hp⟩
  cases h with
  | closed hls hbalances hfirst =>
      refine .closed (by rw [hls]; rfl) ((hcons _).2 hbalances) fun p hp => ?_
      obtain ⟨p', rfl, hp'⟩ := hfront p hp
      exact List.cons_prefix_cons.2 ⟨rfl, hfirst p' hp'⟩
  | unclosed hnone =>
      refine .unclosed fun p hp => ?_
      obtain ⟨p', -, hp'⟩ := hfront p hp
      exact hnone p' hp'

theorem pieces_firstClosing (b : Bracket) (depth : Nat) (ls : List Lexeme) :
    b.FirstClosing depth ls (b.pieces depth ls) := by
  induction ls generalizing depth with
  | nil => exact .unclosed fun p hp => by simp [Balances] at hp
  | cons l ls ih =>
      by_cases hcloser : l = .plain b.closer
      · subst hcloser
        cases depth with
        | zero =>
            rw [pieces_closer_zero]
            exact .closed rfl (balances_nil_iff.2 ⟨rfl, rfl⟩) fun p _ => List.nil_prefix
        | succ depth =>
            rw [pieces_closer_succ]
            refine (ih depth).cons (by simp [balances_nil_iff]) fun p => ?_
            rw [balances_cons_iff, Balances]
            simp [b.opener_ne_closer.symm]
            omega
      by_cases hopener : l = .plain b.opener
      · subst hopener
        rw [pieces_opener]
        refine (ih (depth + 1)).cons (by simp [balances_nil_iff, b.opener_ne_closer]) fun p => ?_
        rw [balances_cons_iff, Balances]
        simp [b.opener_ne_closer]
        omega
      · rw [pieces_other hopener hcloser]
        refine (ih depth).cons (by simp [balances_nil_iff, hcloser]) fun p => ?_
        rw [balances_cons_iff, Balances]
        simp [hopener, hcloser]

/-- The place of the bracket that closes the one at `i`, or the end of the text. -/
def closeIndex (b : Bracket) (t : Text) (i : Nat) : Nat :=
  i + 1 + (enclosed b.opener b.closer (t.drop (i + 1))).inside.length

/-- As many brackets of the kind are closed as are opened. -/
def IsEven (b : Bracket) (ls : List Lexeme) : Prop := ls.count (.plain b.opener) = ls.count (.plain b.closer)

theorem isEven_iff {p : List Lexeme} : b.IsEven (.plain b.opener :: p ++ [.plain b.closer]) ↔
    p.count (.plain b.opener) = p.count (.plain b.closer) := by
  simp [IsEven, b.opener_ne_closer, b.opener_ne_closer.symm]

/-- At `j` stands a closing bracket, and from `i`, where the pieces begin, up to it as many brackets of the kind
are closed as are opened. -/
def ClosesAt (b : Bracket) (ls : List Lexeme) (i j : Nat) : Prop :=
  ∃ before after : List Lexeme, ls = before ++ .plain b.closer :: after ∧ j = i + (textOf before).length ∧
    b.IsEven (before ++ [.plain b.closer])

/-- The places behind `i` where the bracket at `i` can be closed. -/
def Closers (b : Bracket) (ls : List Lexeme) (i : Nat) : Set Nat := {j | i < j ∧ b.ClosesAt ls i j}

theorem closesAt_iff {i j : Nat} : b.ClosesAt (.plain b.opener :: ls) i j ↔
    ∃ p, b.Balances 0 p ls ∧ j = i + 1 + (textOf p).length := by
  have hindex : ∀ p, i + (textOf (.plain b.opener :: p)).length = i + 1 + (textOf p).length := by
    intro p
    simp only [textOf_cons, Lexeme.text, List.length_append, List.length_singleton]
    omega
  constructor
  · rintro ⟨before, after, hls, rfl, heven⟩
    cases before with
    | nil => simp [b.opener_ne_closer] at hls
    | cons l p =>
        obtain ⟨rfl, hrest⟩ := List.cons.inj hls
        exact ⟨p, ⟨⟨after, hrest⟩, (Nat.zero_add _).trans (isEven_iff.1 heven)⟩, hindex p⟩
  · rintro ⟨p, ⟨⟨after, hls⟩, hcount⟩, rfl⟩
    refine ⟨.plain b.opener :: p, after, by rw [hls]; rfl, (hindex p).symm, isEven_iff.2 ?_⟩
    rwa [Nat.zero_add] at hcount

theorem drop_of_getElem? {i : Nat} (h : t[i]? = some c) : t.drop i = c :: t.drop (i + 1) := by
  obtain ⟨hlt, rfl⟩ := List.getElem?_eq_some_iff.1 h
  exact List.drop_eq_getElem_cons hlt

theorem closeIndex_cases {i : Nat} (h : t[i]? = some b.opener) (hl : Lexes (t.drop i) ls) :
    IsLeast (b.Closers ls i) (b.closeIndex t i) ∧ b.closeIndex t i < t.length ∨
      b.Closers ls i = ∅ ∧ b.closeIndex t i = t.length := by
  have hdrop := drop_of_getElem? h
  rw [hdrop] at hl
  obtain ⟨ls, rfl, hrest⟩ := hl.of_plain b.isQuote_opener b.opener_ne_slash
  have hlength : t.length = i + 1 + (textOf ls).length := by
    have := congrArg List.length hdrop
    have := (List.getElem?_eq_some_iff.1 h).1
    rw [hrest.text]
    simp only [List.length_drop, List.length_cons] at *
    omega
  have hclose : b.closeIndex t i = i + 1 + (textOf (b.pieces 0 ls).inside).length := by
    rw [closeIndex, b.enclosed_lexes hrest, EnclosedPieces.enclosed]
  generalize hpieces : b.pieces 0 ls = e at hclose
  have hfirst := b.pieces_firstClosing 0 ls
  rw [hpieces] at hfirst
  rw [hclose]
  cases hfirst with
  | @closed before after hls hbalances hfirst =>
      refine .inl ⟨⟨⟨by omega, closesAt_iff.2 ⟨_, hbalances, rfl⟩⟩, ?_⟩, ?_⟩
      · rintro j ⟨-, hj⟩
        obtain ⟨p, hp, rfl⟩ := closesAt_iff.1 hj
        exact Nat.add_le_add_left (length_textOf_le (hfirst p hp)) _
      · rw [hlength, hls, textOf_append, textOf_cons]
        simp [Lexeme.text]
  | unclosed hnone =>
      refine .inr ⟨Set.eq_empty_of_forall_notMem fun j hj => ?_, hlength.symm⟩
      obtain ⟨p, hp, -⟩ := closesAt_iff.1 hj.2
      exact hnone p hp

theorem enclosed_cases (b : Bracket) (t : Text) :
    (∃ s r, t = s ++ b.closer :: r ∧ enclosed b.opener b.closer t = ⟨s, some r⟩) ∨
      enclosed b.opener b.closer t = ⟨t, none⟩ := by
  cases hafter : (enclosed b.opener b.closer t).after with
  | none => exact .inr (enclosedFrom_eq_open hafter)
  | some r =>
      have he : enclosed b.opener b.closer t = ⟨(enclosed b.opener b.closer t).inside, some r⟩ := by rw [← hafter]
      exact .inl ⟨_, r, (b.enclosed_iff.1 he).2, he⟩

/-- The text between two brackets and the text behind them are cut where the closing bracket stands. -/
theorem enclosed_eq_cut (b : Bracket) {i : Nat} (hi : i < t.length) :
    enclosed b.opener b.closer (t.drop (i + 1)) = ⟨(t.take (b.closeIndex t i)).drop (i + 1),
      if b.closeIndex t i < t.length then some (t.drop (b.closeIndex t i + 1)) else none⟩ := by
  have hlength : (t.drop (i + 1)).length = t.length - (i + 1) := List.length_drop
  rw [List.drop_take, closeIndex]
  rcases b.enclosed_cases (t.drop (i + 1)) with ⟨s, r, hsplit, he⟩ | he
  · rw [hsplit, List.length_append, List.length_cons] at hlength
    have hafter : t.drop (i + 1 + s.length + 1) = r := by
      rw [Nat.add_assoc, ← List.drop_drop, hsplit]
      simp
    rw [he, if_pos (by dsimp only; omega), Nat.add_sub_cancel_left, hsplit, hafter, List.take_left]
  · rw [he, if_neg (by dsimp only; omega), Nat.add_sub_cancel_left, List.take_length]

/-- What stands behind the place of a closing bracket does not show. -/
theorem closeIndex_congr (b : Bracket) {u : Text} {i : Nat}
    (h : u.take (b.closeIndex t i + 1) = t.take (b.closeIndex t i + 1)) : b.closeIndex u i = b.closeIndex t i := by
  rcases b.enclosed_cases (t.drop (i + 1)) with ⟨s, r, hsplit, he⟩ | he
  · have hclose : b.closeIndex t i = i + 1 + s.length := by rw [closeIndex, he]
    have hnests := (b.enclosed_iff.1 he).1
    have hfront : (u.drop (i + 1)).take (s.length + 1) = s ++ [b.closer] := by
      have hcut := congrArg (List.drop (i + 1)) h
      rw [hclose, List.drop_take, List.drop_take, Nat.add_assoc, Nat.add_sub_cancel_left, hsplit] at hcut
      rw [hcut, List.take_append, List.take_of_length_le (Nat.le_succ _)]
      simp
    have hu := List.take_append_drop (s.length + 1) (u.drop (i + 1))
    rw [hfront, List.append_assoc, List.singleton_append] at hu
    rw [hclose, closeIndex, ← hu, hnests.enclosed_eq]
  · have hclose : b.closeIndex t i = i + 1 + (t.length - (i + 1)) := by rw [closeIndex, he, List.length_drop]
    rw [List.take_of_length_le (l := t) (by omega)] at h
    have hlength := congrArg List.length h
    rw [List.length_take] at hlength
    rw [← h, List.take_of_length_le (by omega)]

end Bracket

/-! ## What shows of a piece -/

/-- What a matcher sees of a piece: the character that it is, if it is a single one, and its length. -/
def Lexeme.outside : Lexeme → Option Char × Nat
  | plain c => (some c, 1)
  | l => (none, l.text.length)

theorem Lexeme.outside_eq_iff {l : Lexeme} : l.outside = (some c, 1) ↔ l = .plain c := by
  cases l <;> simp [outside]

theorem Lexeme.length_text (l : Lexeme) : l.text.length = l.outside.2 := by cases l <;> rfl

theorem length_textOf_congr {ls ls' : List Lexeme} (h : ls.map Lexeme.outside = ls'.map Lexeme.outside) :
    (textOf ls).length = (textOf ls').length := by
  induction ls generalizing ls' with
  | nil => rw [List.map_eq_nil_iff.1 h.symm]
  | cons l ls ih =>
      obtain ⟨l', ls', rfl, hl, hls⟩ := List.map_eq_cons_iff.1 h.symm
      rw [textOf_cons, textOf_cons, List.length_append, List.length_append, Lexeme.length_text,
        Lexeme.length_text, hl, ih hls.symm]

theorem count_plain_eq (c : Char) (ls : List Lexeme) :
    ls.count (.plain c) = (ls.map Lexeme.outside).count (some c, 1) := by
  rw [List.count, List.count, List.countP_map]
  refine List.countP_congr fun l _ => ?_
  simp [Lexeme.outside_eq_iff]

namespace Bracket

theorem ClosesAt.of_outside {ls ls' : List Lexeme} {i j : Nat} (h : b.ClosesAt ls i j)
    (houtside : ls.map Lexeme.outside = ls'.map Lexeme.outside) : b.ClosesAt ls' i j := by
  obtain ⟨before, after, rfl, rfl, heven⟩ := h
  rw [List.map_append, List.map_cons, eq_comm, List.map_eq_append_iff] at houtside
  obtain ⟨before', rest, rfl, hbefore, hrest⟩ := houtside
  obtain ⟨l, after', rfl, hl, -⟩ := List.map_eq_cons_iff.1 hrest
  obtain rfl := Lexeme.outside_eq_iff.1 hl
  refine ⟨before', after', rfl, by rw [length_textOf_congr hbefore], ?_⟩
  rw [IsEven, count_plain_eq, count_plain_eq, List.map_append] at heven ⊢
  rwa [hbefore]

theorem Closers.of_outside {ls ls' : List Lexeme} (i : Nat)
    (houtside : ls.map Lexeme.outside = ls'.map Lexeme.outside) : b.Closers ls i = b.Closers ls' i :=
  Set.ext fun _ => ⟨fun h => ⟨h.1, h.2.of_outside houtside⟩, fun h => ⟨h.1, h.2.of_outside houtside.symm⟩⟩

theorem closeIndex_of_outside {u : Text} {ls ls' : List Lexeme} {i : Nat} (h : t[i]? = some b.opener)
    (hl : Lexes (t.drop i) ls) (hl' : Lexes (u.drop i) ls')
    (houtside : ls'.map Lexeme.outside = ls.map Lexeme.outside) :
    b.closeIndex u i = b.closeIndex t i := by
  have hopener : u[i]? = some b.opener := by
    rw [drop_of_getElem? h] at hl
    obtain ⟨ls, rfl, -⟩ := hl.of_plain b.isQuote_opener b.opener_ne_slash
    obtain ⟨l, rest, rfl, hl, -⟩ := List.map_eq_cons_iff.1 houtside
    obtain rfl := Lexeme.outside_eq_iff.1 hl
    rw [← List.head?_drop, ← hl'.text]
    rfl
  have hlength : u.length = t.length := by
    have hdrop : (u.drop i).length = (t.drop i).length := by
      rw [← hl.text, ← hl'.text, length_textOf_congr houtside]
    have := (List.getElem?_eq_some_iff.1 h).1
    have := (List.getElem?_eq_some_iff.1 hopener).1
    simp only [List.length_drop] at hdrop
    omega
  have hcases := closeIndex_cases hopener hl'
  rw [Closers.of_outside i houtside] at hcases
  rcases hcases with ⟨hleast, -⟩ | ⟨hempty, hend⟩ <;>
    rcases closeIndex_cases h hl with ⟨hleast', -⟩ | ⟨hempty', hend'⟩
  · exact hleast.unique hleast'
  · exact absurd hleast.1 (by simp [hempty'])
  · exact absurd hleast'.1 (by simp [hempty])
  · rw [hend, hend', hlength]

/-- The bracket at `i` is closed by the first closing one of its kind outside of quoted texts and comments up to
which as many brackets are closed as are opened; if there is none, it is open up to the end of the text. What
stands in quoted texts and comments or behind the closing bracket does not show, and the text between the
brackets and the text behind them are cut at that place. -/
theorem closeIndex_closes {i : Nat} (h : t[i]? = some b.opener) :
    (∃ ls, Lexes (t.drop i) ls) ∧
      (∀ ls, Lexes (t.drop i) ls →
        ((b.Closers ls i).Nonempty → IsLeast (b.Closers ls i) (b.closeIndex t i)) ∧
          (b.closeIndex t i = t.length ↔ b.Closers ls i = ∅) ∧
          ∀ u ls', Lexes (u.drop i) ls' → ls'.map Lexeme.outside = ls.map Lexeme.outside →
            b.closeIndex u i = b.closeIndex t i) ∧
      (∀ u, u.take (b.closeIndex t i + 1) = t.take (b.closeIndex t i + 1) → b.closeIndex u i = b.closeIndex t i) ∧
      enclosed b.opener b.closer (t.drop (i + 1)) = ⟨(t.take (b.closeIndex t i)).drop (i + 1),
        if b.closeIndex t i < t.length then some (t.drop (b.closeIndex t i + 1)) else none⟩ := by
  refine ⟨exists_lexes _, fun ls hl => ⟨?_, ?_, fun u ls' => closeIndex_of_outside h hl⟩,
    fun u => b.closeIndex_congr, b.enclosed_eq_cut (List.getElem?_eq_some_iff.1 h).1⟩
  · intro hnonempty
    exact (closeIndex_cases h hl).elim And.left fun hnone => absurd hnone.1 hnonempty.ne_empty
  · rcases closeIndex_cases h hl with ⟨hleast, hlt⟩ | ⟨hempty, hend⟩
    · exact iff_of_false (Nat.ne_of_lt hlt) (Set.nonempty_of_mem hleast.1).ne_empty
    · exact iff_of_true hend hempty

/-- Closing braces in a text, behind an escaped quote, and in two comments. -/
def optionsScript : Text :=
  "set(\x7b a: '\\'\x7d', /* \x7d */ b: \x7b\x7d // \x7d\n \x7d) // \x7d"

theorem closeIndex_closes_optionsScript : optionsScript[4]? = some Bracket.brace.opener ∧
    ∃ ls, Lexes (optionsScript.drop 4) ls ∧ IsLeast (Bracket.brace.Closers ls 4) 36 := by
  have hopen : optionsScript[4]? = some Bracket.brace.opener := by decide
  have hclose : Bracket.brace.closeIndex optionsScript 4 = 36 := by decide +kernel
  obtain ⟨⟨ls, hl⟩, hcloses, -⟩ := closeIndex_closes hopen
  obtain ⟨hleast, hend, -⟩ := hcloses ls hl
  rw [hclose] at hleast hend
  exact ⟨hopen, ls, hl, hleast (Set.nonempty_iff_ne_empty.2 (mt hend.2 (by decide)))⟩

end Bracket

end ComponentCatalog
