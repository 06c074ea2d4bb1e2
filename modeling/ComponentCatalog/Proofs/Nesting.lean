import ComponentCatalog.Proofs.Readers

/-!
# Nested braces

A text is well nested if each of its braces belongs to a pair, quoted texts and comments left aside. The
brace that encloses such a text is the one right behind it.
-/

namespace ComponentCatalog

/-! ## Well nested text -/

/-- A comment with its end. -/
inductive Comment
  | line (body : Text) (h : '\n' ∉ body)
  | block (body : Text) (h : ¬ "*/".toList <:+: body)

/-- A comment as it is written. -/
def Comment.text : Comment → Text
  | line body _ => '/' :: '/' :: (body ++ ['\n'])
  | block body _ => '/' :: '*' :: (body ++ ['*', '/'])

/-- What may stand between two quotes of one kind. -/
inductive Quotable (quote : Char) : Text → Prop
  | nil : Quotable quote []
  | cons {c : Char} {s : Text} : c ≠ quote → c ≠ '\\' → Quotable quote s → Quotable quote (c :: s)
  | escape {c : Char} {s : Text} : Quotable quote s → Quotable quote ('\\' :: c :: s)

/-- Behind a slash, these begin a comment. -/
def isCommentMark (c : Char) : Bool := c == '/' || c == '*'

/-- No quote, no brace, and nothing that can begin a comment. -/
structure IsNeutral (c : Char) : Prop where
  notQuote : isQuote c = false
  notOpening : c ≠ '\x7b'
  notClosing : c ≠ '\x7d'
  notSlash : c ≠ '/'

/-- Text in which braces balance. Those in quoted texts and comments do not count, and all of these end. -/
inductive WellNested : Text → Prop
  | nil : WellNested []
  | plain {c : Char} {s : Text} : IsNeutral c → WellNested s → WellNested (c :: s)
  | slash {s : Text} : Stops isCommentMark s → WellNested s → WellNested ('/' :: s)
  | braces {s t : Text} : WellNested s → WellNested t → WellNested ('\x7b' :: (s ++ '\x7d' :: t))
  | quoted {quote : Char} {s t : Text} : isQuote quote = true → Quotable quote s → WellNested t →
      WellNested (quote :: (s ++ quote :: t))
  | comment {s : Text} (x : Comment) : WellNested s → WellNested (x.text ++ s)

/-! ## Neutral characters -/

variable {c quote : Char} {s t : Text} {depth : Nat}

instance (c : Char) : Decidable (IsNeutral c) :=
  decidable_of_iff (isQuote c = false ∧ c ≠ '\x7b' ∧ c ≠ '\x7d' ∧ c ≠ '/')
    ⟨fun h => ⟨h.1, h.2.1, h.2.2.1, h.2.2.2⟩,
      fun h => ⟨h.notQuote, h.notOpening, h.notClosing, h.notSlash⟩⟩

theorem IsNeutral.of_notMem (h : c ∉ ['\'', '"', '\x60', '\x7b', '\x7d', '/']) : IsNeutral c := by
  simp only [List.mem_cons, List.not_mem_nil, or_false, not_or] at h
  exact ⟨by simp [isQuote, h], h.2.2.2.1, h.2.2.2.2.1, h.2.2.2.2.2⟩

theorem isNeutral_of_isWord (h : isWord c = true) : IsNeutral c :=
  .of_notMem (notMem_of_class rfl h)

theorem isNeutral_of_isBlank (h : isBlank c = true) : IsNeutral c :=
  .of_notMem (notMem_of_class rfl h)

theorem neutral_or (c : Char) : IsNeutral c ∨ c = '/' ∨ isQuote c = true ∨ c = '\x7b' ∨ c = '\x7d' := by
  by_cases h : c ∈ ['\'', '"', '\x60', '\x7b', '\x7d', '/']
  · simp only [List.mem_cons, List.not_mem_nil, or_false] at h
    rcases h with rfl | rfl | rfl | rfl | rfl | rfl <;> simp [isQuote]
  · exact .inl (.of_notMem h)

/-! ## One step of a matcher for braces -/

namespace Enclosed

theorem prepend_prepend (e : Enclosed) (s t : Text) : (e.prepend t).prepend s = e.prepend (s ++ t) := by
  simp [prepend]

theorem prepend_cons (e : Enclosed) (c : Char) (t : Text) : (e.prepend t).prepend [c] = e.prepend (c :: t) :=
  e.prepend_prepend [c] t

end Enclosed

/-- A matcher for braces. -/
def braced (state : Lexical) (depth : Nat) (t : Text) : Enclosed := enclosedFrom '\x7b' '\x7d' state depth t

theorem braced_nil (state : Lexical) : braced state depth [] = ⟨[], none⟩ := rfl

theorem braced_singleton (state : Lexical) (c : Char) : braced state depth [c] =
    if state = .plain && c = '\x7d' && depth = 0 then ⟨[], some []⟩ else ⟨[c], none⟩ := rfl

theorem braced_plain_cons (c d : Char) (t : Text) : braced .plain depth (c :: d :: t) =
    if c = '/' && d = '/' then (braced .lineComment depth t).prepend [c, d]
    else if c = '/' && d = '*' then (braced .blockComment depth t).prepend [c, d]
    else if isQuote c then (braced (.quoted c) depth (d :: t)).prepend [c]
    else if c = '\x7b' then (braced .plain (depth + 1) (d :: t)).prepend [c]
    else if c = '\x7d' then
      if depth = 0 then ⟨[], some (d :: t)⟩ else (braced .plain (depth - 1) (d :: t)).prepend [c]
    else (braced .plain depth (d :: t)).prepend [c] := rfl

theorem braced_quoted_cons (c d : Char) (t : Text) : braced (.quoted quote) depth (c :: d :: t) =
    if c = '\\' then (braced (.quoted quote) depth t).prepend [c, d]
    else (braced (if c = quote then .plain else .quoted quote) depth (d :: t)).prepend [c] := rfl

theorem braced_lineComment_cons (c d : Char) (t : Text) : braced .lineComment depth (c :: d :: t) =
    (braced (if c = '\n' then .plain else .lineComment) depth (d :: t)).prepend [c] := rfl

theorem braced_blockComment_cons (c d : Char) (t : Text) : braced .blockComment depth (c :: d :: t) =
    if c = '*' && d = '/' then (braced .plain depth t).prepend [c, d]
    else (braced .blockComment depth (d :: t)).prepend [c] := rfl

theorem braced_neutral (h : IsNeutral c) (t : Text) :
    braced .plain depth (c :: t) = (braced .plain depth t).prepend [c] := by
  cases t with
  | nil => simp [braced_singleton, braced_nil, h.notClosing, Enclosed.prepend]
  | cons d t => simp [braced_plain_cons, h.notQuote, h.notOpening, h.notClosing, h.notSlash]

theorem braced_slash (h : Stops isCommentMark t) :
    braced .plain depth ('/' :: t) = (braced .plain depth t).prepend ['/'] := by
  cases t with
  | nil => rfl
  | cons d t =>
      obtain ⟨hslash, hstar⟩ := Bool.or_eq_false_iff.1 (Stops.cons_iff.1 h)
      simp [braced_plain_cons, beq_eq_false_iff_ne.1 hslash, beq_eq_false_iff_ne.1 hstar, isQuote]

theorem braced_opening (t : Text) :
    braced .plain depth ('\x7b' :: t) = (braced .plain (depth + 1) t).prepend ['\x7b'] := by
  cases t <;> rfl

theorem braced_closing (t : Text) :
    braced .plain (depth + 1) ('\x7d' :: t) = (braced .plain depth t).prepend ['\x7d'] := by
  cases t <;> rfl

theorem braced_end (t : Text) : braced .plain 0 ('\x7d' :: t) = ⟨[], some t⟩ := by
  cases t <;> rfl

theorem ne_of_isQuote {d : Char} (h : isQuote quote = true) (hd : isQuote d = false) : quote ≠ d := by
  rintro rfl
  simp [h] at hd

theorem braced_quote (h : isQuote quote = true) (t : Text) :
    braced .plain depth (quote :: t) = (braced (.quoted quote) depth t).prepend [quote] := by
  cases t with
  | nil => simp [braced_singleton, braced_nil, ne_of_isQuote (d := '\x7d') h rfl, Enclosed.prepend]
  | cons d t => simp [braced_plain_cons, ne_of_isQuote (d := '/') h rfl, h]

theorem braced_quoted (hc : c ≠ quote) (hescape : c ≠ '\\') (t : Text) :
    braced (.quoted quote) depth (c :: t) = (braced (.quoted quote) depth t).prepend [c] := by
  cases t <;> simp [braced_singleton, braced_nil, braced_quoted_cons, hc, hescape, Enclosed.prepend]

theorem braced_escape (c : Char) (t : Text) :
    braced (.quoted quote) depth ('\\' :: c :: t) = (braced (.quoted quote) depth t).prepend ['\\', c] := by
  simp [braced_quoted_cons]

theorem braced_unquote (h : isQuote quote = true) (t : Text) :
    braced (.quoted quote) depth (quote :: t) = (braced .plain depth t).prepend [quote] := by
  cases t <;>
    simp [braced_singleton, braced_nil, braced_quoted_cons, ne_of_isQuote (d := '\\') h rfl, Enclosed.prepend]

theorem braced_lineComment (t : Text) :
    braced .plain depth ('/' :: '/' :: t) = (braced .lineComment depth t).prepend ['/', '/'] := by
  simp [braced_plain_cons]

theorem braced_blockComment (t : Text) :
    braced .plain depth ('/' :: '*' :: t) = (braced .blockComment depth t).prepend ['/', '*'] := by
  simp [braced_plain_cons]

theorem braced_line (h : c ≠ '\n') (t : Text) :
    braced .lineComment depth (c :: t) = (braced .lineComment depth t).prepend [c] := by
  cases t <;> simp [braced_singleton, braced_nil, braced_lineComment_cons, h, Enclosed.prepend]

theorem braced_line_end (t : Text) :
    braced .lineComment depth ('\n' :: t) = (braced .plain depth t).prepend ['\n'] := by
  cases t <;> rfl

theorem braced_block (h : ∀ r, c :: t ≠ '*' :: '/' :: r) :
    braced .blockComment depth (c :: t) = (braced .blockComment depth t).prepend [c] := by
  cases t with
  | nil => simp [braced_singleton, braced_nil, Enclosed.prepend]
  | cons d t =>
      have hopen : ¬ (c = '*' ∧ d = '/') := by
        rintro ⟨rfl, rfl⟩
        exact h t rfl
      simp [braced_blockComment_cons, hopen]

theorem braced_block_end (t : Text) :
    braced .blockComment depth ('*' :: '/' :: t) = (braced .plain depth t).prepend ['*', '/'] := by
  simp [braced_blockComment_cons]

/-! ## Comments and quoted text -/

theorem braced_quotable (hquote : isQuote quote = true) (h : Quotable quote s) (t : Text) :
    braced (.quoted quote) depth (s ++ quote :: t) = (braced .plain depth t).prepend (s ++ [quote]) := by
  induction h with
  | nil => exact braced_unquote hquote t
  | cons hc hescape _ ih => rw [List.cons_append, braced_quoted hc hescape, ih, Enclosed.prepend_cons]; rfl
  | escape _ ih => rw [List.cons_append, List.cons_append, braced_escape, ih, Enclosed.prepend_prepend]; rfl

theorem braced_lineBody (h : '\n' ∉ s) (t : Text) :
    braced .lineComment depth (s ++ '\n' :: t) = (braced .plain depth t).prepend (s ++ ['\n']) := by
  induction s with
  | nil => exact braced_line_end t
  | cons c s ih =>
      obtain ⟨hc, hs⟩ := List.ne_and_not_mem_of_not_mem_cons h
      rw [List.cons_append, braced_line hc.symm, ih hs, Enclosed.prepend_cons]
      rfl

theorem braced_blockBody (h : ¬ "*/".toList <:+: s) (t : Text) :
    braced .blockComment depth (s ++ '*' :: '/' :: t) = (braced .plain depth t).prepend (s ++ ['*', '/']) := by
  induction s with
  | nil => exact braced_block_end t
  | cons c s ih =>
      have hs : ¬ "*/".toList <:+: s := fun hin => h (hin.trans (List.suffix_cons c s).isInfix)
      have hopen : ∀ r, c :: (s ++ '*' :: '/' :: t) ≠ '*' :: '/' :: r := by
        intro r hr
        obtain ⟨rfl, heq⟩ := List.cons.inj hr
        cases s with
        | nil => cases heq
        | cons d s =>
            obtain rfl : d = '/' := (List.cons.inj heq).1
            exact h ⟨[], s, rfl⟩
      rw [List.cons_append, braced_block hopen, ih hs, Enclosed.prepend_cons]
      rfl

theorem braced_comment (x : Comment) (t : Text) :
    braced .plain depth (x.text ++ t) = (braced .plain depth t).prepend x.text := by
  cases x with
  | line body h =>
      rw [Comment.text, List.cons_append, List.cons_append, braced_lineComment, List.append_assoc,
        List.singleton_append, braced_lineBody h, Enclosed.prepend_prepend]
      rfl
  | block body h =>
      rw [Comment.text, List.cons_append, List.cons_append, braced_blockComment, List.append_assoc,
        List.cons_append, List.singleton_append, braced_blockBody h, Enclosed.prepend_prepend]
      rfl

/-! ## Text that a matcher passes over -/

theorem braced_wellNested (h : WellNested s) (ht : Stops isCommentMark t) :
    braced .plain depth (s ++ t) = (braced .plain depth t).prepend s := by
  induction h generalizing depth t with
  | nil => rfl
  | plain hc _ ih => rw [List.cons_append, braced_neutral hc, ih ht, Enclosed.prepend_prepend, List.singleton_append]
  | @slash s hs _ ih =>
      have hstops : Stops isCommentMark (s ++ t) := by
        cases s with
        | nil => exact ht
        | cons c s => exact hs
      rw [List.cons_append, braced_slash hstops, ih ht, Enclosed.prepend_prepend, List.singleton_append]
  | @braces s s' _ _ ih ih' =>
      rw [List.cons_append, List.append_assoc, braced_opening, List.cons_append,
        ih (Stops.cons_iff.2 rfl), braced_closing, ih' ht]
      simp [Enclosed.prepend_prepend]
  | quoted hquote hs _ ih =>
      rw [List.cons_append, List.append_assoc, List.cons_append, braced_quote hquote,
        braced_quotable hquote hs, ih ht]
      simp [Enclosed.prepend_prepend]
  | comment x _ ih => rw [List.append_assoc, braced_comment, ih ht, Enclosed.prepend_prepend]

/-! ## Text that a brace encloses -/

variable {r : Text}

theorem Enclosed.prepend_eq_iff {e : Enclosed} :
    e.prepend t = ⟨s, some r⟩ ↔ ∃ s', e = ⟨s', some r⟩ ∧ s = t ++ s' := by
  obtain ⟨inside, after⟩ := e
  simp only [prepend, Enclosed.mk.injEq]
  constructor
  · rintro ⟨rfl, rfl⟩
    exact ⟨inside, ⟨rfl, rfl⟩, rfl⟩
  · rintro ⟨s', ⟨rfl, rfl⟩, rfl⟩
    exact ⟨rfl, rfl⟩

theorem exists_of_quoted (hquote : isQuote quote = true) :
    ∀ {t s : Text}, braced (.quoted quote) depth t = ⟨s, some r⟩ → ∃ body t' s', t = body ++ quote :: t' ∧
      s = body ++ quote :: s' ∧ Quotable quote body ∧ braced .plain depth t' = ⟨s', some r⟩
  | [], s, h => by
      rw [braced_nil] at h
      cases h
  | c :: t, s, h => by
      by_cases hend : c = quote
      · subst hend
        rw [braced_unquote hquote] at h
        obtain ⟨s', hs', rfl⟩ := Enclosed.prepend_eq_iff.1 h
        exact ⟨[], t, s', rfl, rfl, .nil, hs'⟩
      · by_cases hescape : c = '\\'
        · subst hescape
          cases t with
          | nil => cases h
          | cons d t =>
              rw [braced_escape] at h
              obtain ⟨s', hs', rfl⟩ := Enclosed.prepend_eq_iff.1 h
              obtain ⟨body, t', s'', rfl, rfl, hbody, hrest⟩ := exists_of_quoted hquote hs'
              exact ⟨'\\' :: d :: body, t', s'', rfl, rfl, .escape hbody, hrest⟩
        · rw [braced_quoted hend hescape] at h
          obtain ⟨s', hs', rfl⟩ := Enclosed.prepend_eq_iff.1 h
          obtain ⟨body, t', s'', rfl, rfl, hbody, hrest⟩ := exists_of_quoted hquote hs'
          exact ⟨c :: body, t', s'', rfl, rfl, .cons hend hescape hbody, hrest⟩

theorem exists_of_lineComment (h : braced .lineComment depth t = ⟨s, some r⟩) : ∃ body t' s',
    t = body ++ '\n' :: t' ∧ s = body ++ '\n' :: s' ∧ '\n' ∉ body ∧ braced .plain depth t' = ⟨s', some r⟩ := by
  induction t generalizing s with
  | nil =>
      rw [braced_nil] at h
      cases h
  | cons c t ih =>
      by_cases hend : c = '\n'
      · subst hend
        rw [braced_line_end] at h
        obtain ⟨s', hs', rfl⟩ := Enclosed.prepend_eq_iff.1 h
        exact ⟨[], t, s', rfl, rfl, List.not_mem_nil, hs'⟩
      · rw [braced_line hend] at h
        obtain ⟨s', hs', rfl⟩ := Enclosed.prepend_eq_iff.1 h
        obtain ⟨body, t', s'', rfl, rfl, hbody, hrest⟩ := ih hs'
        exact ⟨c :: body, t', s'', rfl, rfl, List.not_mem_cons_of_ne_of_not_mem (Ne.symm hend) hbody, hrest⟩

theorem exists_of_blockComment (h : braced .blockComment depth t = ⟨s, some r⟩) : ∃ body t' s',
    t = body ++ '*' :: '/' :: t' ∧ s = body ++ '*' :: '/' :: s' ∧ ¬ "*/".toList <:+: body ∧
      braced .plain depth t' = ⟨s', some r⟩ := by
  induction t generalizing s with
  | nil =>
      rw [braced_nil] at h
      cases h
  | cons c t ih =>
      by_cases hend : ∃ t', c :: t = '*' :: '/' :: t'
      · obtain ⟨t', ht⟩ := hend
        rw [ht, braced_block_end] at h
        obtain ⟨s', hs', rfl⟩ := Enclosed.prepend_eq_iff.1 h
        exact ⟨[], t', s', ht, rfl, by decide, hs'⟩
      · rw [braced_block fun t' ht => hend ⟨t', ht⟩] at h
        obtain ⟨s', hs', rfl⟩ := Enclosed.prepend_eq_iff.1 h
        obtain ⟨body, t', s'', rfl, rfl, hbody, hrest⟩ := ih hs'
        refine ⟨c :: body, t', s'', rfl, rfl, fun hin => ?_, hrest⟩
        rcases List.infix_cons_iff.1 hin with ⟨u, hu⟩ | hin
        · rw [← List.cons_append, ← hu] at hend
          exact hend ⟨_, rfl⟩
        · exact hbody hin

theorem exists_of_comment (ht : ¬ Stops isCommentMark t) (h : braced .plain depth ('/' :: t) = ⟨s, some r⟩) :
    ∃ (x : Comment) (t' s' : Text), '/' :: t = x.text ++ t' ∧ s = x.text ++ s' ∧
      braced .plain depth t' = ⟨s', some r⟩ := by
  cases t with
  | nil => exact absurd .nil ht
  | cons d t =>
      have hd : isCommentMark d = true := by simpa [Stops.cons_iff] using ht
      rcases (Bool.or_eq_true _ _).mp hd with hd | hd <;> obtain rfl := beq_iff_eq.1 hd
      · rw [braced_lineComment] at h
        obtain ⟨s', hs', rfl⟩ := Enclosed.prepend_eq_iff.1 h
        obtain ⟨body, t', s'', rfl, rfl, hbody, hrest⟩ := exists_of_lineComment hs'
        exact ⟨.line body hbody, t', s'', by simp [Comment.text], by simp [Comment.text], hrest⟩
      · rw [braced_blockComment] at h
        obtain ⟨s', hs', rfl⟩ := Enclosed.prepend_eq_iff.1 h
        obtain ⟨body, t', s'', rfl, rfl, hbody, hrest⟩ := exists_of_blockComment hs'
        exact ⟨.block body hbody, t', s'', by simp [Comment.text], by simp [Comment.text], hrest⟩

/-- Well nested texts with a closing brace behind each but the last. -/
inductive ClosesBraces : Nat → Text → Prop
  | last {s : Text} : WellNested s → ClosesBraces 0 s
  | next {n : Nat} {s t : Text} : WellNested s → ClosesBraces n t → ClosesBraces (n + 1) (s ++ '\x7d' :: t)

theorem ClosesBraces.exists_front (h : ClosesBraces depth s) : ∃ front rest, s = front ++ rest ∧ WellNested front ∧
    ∀ front', WellNested front' → ClosesBraces depth (front' ++ rest) := by
  cases h with
  | last hs => exact ⟨s, [], by simp, hs, fun front' h => by simpa using .last h⟩
  | next hs ht => exact ⟨_, _, rfl, hs, fun front' h => .next h ht⟩

theorem ClosesBraces.append (h : ClosesBraces depth s) (ht : ∀ s, WellNested s → WellNested (t ++ s)) :
    ClosesBraces depth (t ++ s) := by
  obtain ⟨front, rest, rfl, hfront, hrest⟩ := h.exists_front
  rw [← List.append_assoc]
  exact hrest _ (ht front hfront)

theorem exists_of_braced (h : braced .plain depth t = ⟨s, some r⟩) : t = s ++ '\x7d' :: r ∧ ClosesBraces depth s := by
  -- A comment or quoted text is read as a whole, so the induction is on the length.
  induction hlength : t.length using Nat.strong_induction_on generalizing t s depth with
  | _ n ih =>
    cases t with
    | nil =>
        rw [braced_nil] at h
        cases h
    | cons c t =>
        rcases neutral_or c with hneutral | rfl | hquote | rfl | rfl
        · rw [braced_neutral hneutral] at h
          obtain ⟨s', hs', rfl⟩ := Enclosed.prepend_eq_iff.1 h
          obtain ⟨rfl, hs⟩ := ih t.length (by simp [← hlength]) hs' rfl
          exact ⟨rfl, hs.append (t := [c]) fun s h => .plain hneutral h⟩
        · by_cases hmark : Stops isCommentMark t
          · rw [braced_slash hmark] at h
            obtain ⟨s', hs', rfl⟩ := Enclosed.prepend_eq_iff.1 h
            obtain ⟨rfl, hs⟩ := ih t.length (by simp [← hlength]) hs' rfl
            refine ⟨rfl, ?_⟩
            obtain ⟨front, rest, rfl, hfront, hrest⟩ := hs.exists_front
            refine hrest ('/' :: front) (.slash ?_ hfront)
            cases front with
            | nil => exact .nil
            | cons d front => exact hmark
          · obtain ⟨x, t', s', ht, rfl, hrest⟩ := exists_of_comment hmark h
            have hx : x.text ≠ [] := by cases x <;> exact List.cons_ne_nil _ _
            have hshorter : t'.length < n := by
              rw [← hlength, ht, List.length_append]
              exact Nat.lt_add_of_pos_left (List.length_pos_iff.2 hx)
            obtain ⟨rfl, hs⟩ := ih _ hshorter hrest rfl
            exact ⟨by rw [ht, List.append_assoc], hs.append fun s h => .comment x h⟩
        · rw [braced_quote hquote] at h
          obtain ⟨s', hs', rfl⟩ := Enclosed.prepend_eq_iff.1 h
          obtain ⟨body, t', s'', rfl, rfl, hbody, hrest⟩ := exists_of_quoted hquote hs'
          obtain ⟨rfl, hs⟩ := ih t'.length (by rw [← hlength]; simp; omega) hrest rfl
          refine ⟨by simp, ?_⟩
          simpa using hs.append (t := c :: (body ++ [c])) fun s h => by simpa using .quoted hquote hbody h
        · rw [braced_opening] at h
          obtain ⟨s', hs', rfl⟩ := Enclosed.prepend_eq_iff.1 h
          obtain ⟨rfl, hs⟩ := ih t.length (by simp [← hlength]) hs' rfl
          cases hs with
          | @next _ body _ hbody hs =>
              refine ⟨by simp, ?_⟩
              simpa using hs.append (t := '\x7b' :: (body ++ ['\x7d'])) fun s h => by simpa using .braces hbody h
        · cases depth with
          | zero =>
              rw [braced_end] at h
              cases h
              exact ⟨rfl, .last .nil⟩
          | succ depth =>
              rw [braced_closing] at h
              obtain ⟨s', hs', rfl⟩ := Enclosed.prepend_eq_iff.1 h
              obtain ⟨rfl, hs⟩ := ih t.length (by simp [← hlength]) hs' rfl
              exact ⟨rfl, .next .nil hs⟩

/-- A text that a matcher passes over up to the next closing brace is the one enclosed. -/
theorem enclosed_of_braced (h : braced .plain 0 (s ++ '\x7d' :: t) = (braced .plain 0 ('\x7d' :: t)).prepend s) :
    enclosed '\x7b' '\x7d' (s ++ '\x7d' :: t) = ⟨s, some t⟩ := by
  change braced .plain 0 (s ++ '\x7d' :: t) = _
  rw [h, braced_end, Enclosed.prepend, List.append_nil]

theorem enclosed_wellNested (h : WellNested s) (t : Text) :
    enclosed '\x7b' '\x7d' (s ++ '\x7d' :: t) = ⟨s, some t⟩ :=
  enclosed_of_braced (braced_wellNested h (Stops.cons_iff.2 rfl))

/-- A brace encloses a text exactly if the text is well nested and has a closing brace behind it. -/
theorem enclosed_eq_iff : enclosed '\x7b' '\x7d' t = ⟨s, some r⟩ ↔ WellNested s ∧ t = s ++ '\x7d' :: r := by
  constructor
  · intro h
    have hbraced : braced .plain 0 t = ⟨s, some r⟩ := h
    obtain ⟨ht, hs⟩ := exists_of_braced hbraced
    cases hs with
    | last hs => exact ⟨hs, ht⟩
  · rintro ⟨hs, rfl⟩
    exact enclosed_wellNested hs r

instance (s : Text) : Decidable (WellNested s) :=
  decidable_of_iff (enclosed '\x7b' '\x7d' (s ++ ['\x7d']) = ⟨s, some []⟩) (by simp [enclosed_eq_iff])

/-- A matcher for braces passes over `s` at any depth, whatever stands behind it. -/
def PassesOver (s : Text) : Prop :=
  ∀ depth t, braced .plain depth (s ++ t) = (braced .plain depth t).prepend s

namespace PassesOver

theorem append (hs : PassesOver s) (ht : PassesOver t) : PassesOver (s ++ t) := fun depth r => by
  rw [List.append_assoc, hs, ht, Enclosed.prepend_prepend]

theorem of_neutral (h : ∀ c ∈ s, IsNeutral c) : PassesOver s := by
  induction s with
  | nil => exact fun _ _ => rfl
  | cons c s ih =>
      rw [List.forall_mem_cons] at h
      exact append (s := [c]) (fun _ t => braced_neutral h.1 t) (ih h.2)

theorem braces (h : WellNested s) : PassesOver ('\x7b' :: (s ++ ['\x7d'])) := fun depth t => by
  rw [List.cons_append, List.append_assoc, List.singleton_append, braced_opening,
    braced_wellNested h (Stops.cons_iff.2 rfl), braced_closing]
  simp [Enclosed.prepend_prepend]

theorem gap (g : Gap) : PassesOver g.text := of_neutral fun c hc => isNeutral_of_isBlank (g.blank c hc)

theorem word (w : Word) : PassesOver w.text := of_neutral fun c hc => isNeutral_of_isWord (w.word c hc)

theorem sign (h : IsNeutral c) : PassesOver [c] := of_neutral (by simpa using h)

theorem comment (x : Comment) : PassesOver x.text := fun _ t => braced_comment x t

theorem flatMap {ι : Type} {f : ι → Text} {l : List ι} (h : ∀ i ∈ l, PassesOver (f i)) :
    PassesOver (l.flatMap f) := by
  induction l with
  | nil => exact fun _ _ => rfl
  | cons i l ih =>
      rw [List.forall_mem_cons] at h
      exact h.1.append (ih h.2)

theorem enclosed_eq (h : PassesOver s) (t : Text) : enclosed '\x7b' '\x7d' (s ++ '\x7d' :: t) = ⟨s, some t⟩ :=
  enclosed_of_braced (h 0 _)

end PassesOver

end ComponentCatalog
