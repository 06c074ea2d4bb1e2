import ComponentCatalog.Script.Properties
import ComponentCatalog.Proofs.SmallLetters
import Mathlib.Data.Bool.AllAny

/-!
# Readers over written text

What a reader does with text that is put together from tokens: words, and gaps of blanks between them.
-/

namespace ComponentCatalog

variable {α β : Type} {c : Char} {t u r : Text}

/-! ## Tokens -/

/-- Blanks between two tokens, line ends included. -/
structure Gap where
  text : Text
  blank : ∀ c ∈ text, isBlank c = true

/-- A text of word characters, of at least one. -/
structure Word where
  text : Text
  ne_nil : text ≠ []
  word : ∀ c ∈ text, isWord c = true

/-- The end of a line: a line feed, maybe with a carriage return in front of it. -/
inductive LineBreak
  | feed
  | returnFeed

/-- What stands in front of the line feed. -/
def LineBreak.front : LineBreak → Text
  | feed => []
  | returnFeed => ['\r']

/-- The end of a line as it is written. -/
def LineBreak.text (b : LineBreak) : Text := b.front ++ ['\n']

/-- No character of class `p` is at the front of a text. -/
def Stops (p : Char → Bool) (t : Text) : Prop := ∀ c ∈ t.head?, p c = false

theorem notMem_of_class {p : Char → Bool} (ht : t.any p = false) (h : p c = true) : c ∉ t := fun hc =>
  List.any_eq_false.1 ht c hc h

/-- A text goes on to begin otherwise than `w` if it holds a character that is not in `w`. -/
theorem not_prefix_append {w : Text} (h : ¬ w <+: u) (hc : c ∈ u) (hw : c ∉ w) : ¬ w <+: u ++ t := by
  rintro ⟨r, hr⟩
  rcases List.append_eq_append_iff.1 hr with ⟨v, hu, -⟩ | ⟨v, hwu, -⟩
  · exact h ⟨v, hu.symm⟩
  · exact hw (hwu ▸ List.mem_append_left v hc)

theorem not_prefix_append_of_stops {w : Text} (h : ¬ w <+: u) (ht : Stops (fun c => w.contains c) t) :
    ¬ w <+: u ++ t := by
  rintro ⟨r, hr⟩
  rcases List.append_eq_append_iff.1 hr with ⟨v, hu, -⟩ | ⟨v, hwu, htv⟩
  · exact h ⟨v, hu.symm⟩
  · cases v with
    | nil => exact h ⟨[], by simpa using hwu⟩
    | cons c v => simpa [hwu] using ht c (by simp [htv])

theorem LineBreak.front_blank (b : LineBreak) : ∀ c ∈ b.front, isBlank c = true ∧ c ≠ '\n' := by
  cases b <;> exact List.all_iff_forall_prop.1 rfl

theorem LineBreak.text_blank (b : LineBreak) : ∀ c ∈ b.text, isBlank c = true := by
  cases b <;> exact List.all_iff_forall_prop.1 rfl

theorem isWord_of_isBlank (h : isBlank c = true) : isWord c = false := by
  have hascii : ∀ n < 128, inRanges n blankRanges = true → isWord (Char.ofNat n) = false := by decide +kernel
  have happart : ∀ range ∈ blankRanges, ∀ other ∈ letterOrNumeralRanges,
      Nat.blt range.2 other.1 || Nat.blt other.2 range.1 := by decide +kernel
  -- Below 128 no table tells the word characters; from there on the two tables share no character.
  rcases Nat.lt_or_ge c.toNat 128 with hlt | hge
  · have hc := hascii c.toNat hlt h
    rwa [Char.ofNat_toNat] at hc
  · rw [isWord, isLetterOrNumeral, if_neg (by omega), Bool.or_eq_false_iff, beq_eq_false_iff_ne]
    refine ⟨fun hc => absurd hge (by simp [hc]), Bool.eq_false_iff.2 fun hletter => ?_⟩
    obtain ⟨range, hrange, hlow, hhigh⟩ := exists_of_inRanges h
    obtain ⟨other, hother, hfirst, hlast⟩ := exists_of_inRanges hletter
    have := happart range hrange other hother
    simp only [Bool.or_eq_true, Nat.blt_eq] at this
    omega

theorem isBlank_of_isWord (h : isWord c = true) : isBlank c = false :=
  Bool.eq_false_iff.2 fun hblank => by simp [isWord_of_isBlank hblank] at h

namespace Stops

variable {p : Char → Bool}

theorem nil : Stops p [] := fun _ hc => by cases hc

theorem cons_iff : Stops p (c :: t) ↔ p c = false := by simp [Stops]

theorem dropWhile (p : Char → Bool) (t : Text) : Stops p (t.dropWhile p) := by
  have hhead := List.head?_dropWhile_not p t
  intro c hc
  rw [Option.mem_def.1 hc] at hhead
  exact hhead

theorem takeWhile_eq (h : Stops p t) : t.takeWhile p = [] := by
  cases t with
  | nil => rfl
  | cons c t => simp [cons_iff.1 h]

theorem dropWhile_eq (h : Stops p t) : t.dropWhile p = t := by
  cases t with
  | nil => rfl
  | cons c t => simp [cons_iff.1 h]

theorem takeWhile_append (h : Stops p t) (hu : ∀ c ∈ u, p c = true) : (u ++ t).takeWhile p = u := by
  rw [List.takeWhile_append_of_pos hu, h.takeWhile_eq, List.append_nil]

theorem dropWhile_append (h : Stops p t) (hu : ∀ c ∈ u, p c = true) : (u ++ t).dropWhile p = t := by
  rw [List.dropWhile_append_of_pos hu, h.dropWhile_eq]

theorem append (hu : ∀ c ∈ u, p c = false) (ht : Stops p t) : Stops p (u ++ t) := by
  cases u with
  | nil => exact ht
  | cons c u => exact cons_iff.2 (hu c List.mem_cons_self)

end Stops

namespace Gap

/-- The gap of a text of blanks. -/
def of (text : Text) (h : text.all isBlank = true) : Gap := ⟨text, List.all_eq_true.1 h⟩

/-- No blanks at all. -/
def empty : Gap := .of [] rfl

/-- One gap behind the other. -/
def append (g g' : Gap) : Gap :=
  ⟨g.text ++ g'.text, fun c hc => (List.mem_append.1 hc).elim (g.blank c) (g'.blank c)⟩

theorem dropWhile_append (g : Gap) (t : Text) : (g.text ++ t).dropWhile isBlank = t.dropWhile isBlank :=
  List.dropWhile_append_of_pos g.blank

theorem stops (g : Gap) (h : Stops isWord t) : Stops isWord (g.text ++ t) :=
  .append (fun c hc => isWord_of_isBlank (g.blank c hc)) h

end Gap

/-- The word of a first character and others. -/
def Word.of (c : Char) (text : Text) (h : (c :: text).all isWord = true) : Word :=
  ⟨c :: text, List.cons_ne_nil c text, List.all_eq_true.1 h⟩

/-- A word stops a reader of a class that has no word character. -/
theorem Word.stops {p : Char → Bool} (hp : ∀ c, isWord c = true → p c = false) (w : Word) (t : Text) :
    Stops p (w.text ++ t) := by
  obtain ⟨c, n, hn⟩ := List.exists_cons_of_ne_nil w.ne_nil
  rw [hn, List.cons_append]
  exact Stops.cons_iff.2 (hp c (w.word c (by simp [hn])))

theorem exists_gap (t : Text) : ∃ g : Gap, ∃ r, t = g.text ++ r ∧ Stops isBlank r ∧ t.dropWhile isBlank = r :=
  ⟨⟨t.takeWhile isBlank, fun _ hc => List.mem_takeWhile_imp hc⟩, t.dropWhile isBlank,
    List.takeWhile_append_dropWhile.symm, .dropWhile _ _, rfl⟩

/-! ## Readers one after the other -/

namespace Reader

theorem bind_apply (x : Reader α) (f : α → Reader β) (t : Text) :
    (x >>= f) t = (x t).bind fun p => f p.1 p.2 := rfl

theorem pure_apply (a : α) (t : Text) : (pure a : Reader α) t = some (a, t) := rfl

theorem map_apply (f : α → β) (x : Reader α) (t : Text) :
    (f <$> x) t = (x t).map fun p => (f p.1, p.2) := by
  cases h : x t <;> simp [Functor.map, StateT.map, bind, Option.bind, h, pure]

theorem discard_apply (x : Reader α) (t : Text) : discard x t = (x t).map fun p => ((), p.2) :=
  map_apply (fun _ => ()) x t

theorem orElse_apply (x y : Reader α) (t : Text) : (x <|> y) t = (x t).or (y t) := by
  cases h : x t <;> simp [HOrElse.hOrElse, OrElse.orElse, StateT.orElse, h, Option.orElse, Alternative.orElse]

theorem seqRight_apply (x : Reader α) (y : Reader β) (t : Text) :
    (x *> y) t = (x t).bind fun p => y p.2 := by
  cases h : x t <;> simp [SeqRight.seqRight, bind, StateT.bind, Option.bind, h]

theorem seqLeft_apply (x : Reader α) (y : Reader β) (t : Text) :
    (x <* y) t = (x t).bind fun p => (y p.2).map fun q => (p.1, q.2) := by
  cases h : x t with
  | none => simp [SeqLeft.seqLeft, bind, StateT.bind, Option.bind, h]
  | some p =>
      cases h' : y p.2 <;> simp [SeqLeft.seqLeft, bind, StateT.bind, Option.bind, h, h']
      rfl

theorem when_apply (b : Bool) (t : Text) : when b t = if b then some ((), t) else none := by
  cases b <;> rfl

theorem when_bind_apply (b : Bool) (f : Unit → Reader α) (t : Text) :
    (when b >>= f) t = if b then f () t else none := by
  cases b <;> rfl

theorem lit_eq_some_iff {w : Text} {a : Unit} : lit w t = some (a, r) ↔ t = w ++ r := by
  rw [lit, Text.after?]
  split
  · next h =>
      obtain ⟨s, rfl⟩ := List.isPrefixOf_iff_prefix.1 h
      simp
  · next h =>
      refine ⟨fun hread => (by cases hread), fun heq => ?_⟩
      exact absurd (List.isPrefixOf_iff_prefix.2 ⟨r, heq.symm⟩) h

theorem lit_append (w t : Text) : lit w (w ++ t) = some ((), t) := lit_eq_some_iff.2 rfl

theorem lit_eq_none {w : Text} (h : ∀ r, t ≠ w ++ r) : lit w t = none :=
  Option.eq_none_iff_forall_ne_some.2 fun p hread => h p.2 (lit_eq_some_iff.1 hread)

theorem blanks_apply (t : Text) : blanks t = some ((), t.dropWhile isBlank) := rfl

theorem word_append (w : Word) (h : Stops isWord t) : word (w.text ++ t) = some (w.text, t) := by
  rw [word, run1, h.takeWhile_append w.word, h.dropWhile_append w.word]
  cases hw : w.text with
  | nil => exact absurd hw w.ne_nil
  | cons c n => rfl

theorem exists_of_word {n : Text} (h : word t = some (n, r)) :
    ∃ w : Word, n = w.text ∧ t = w.text ++ r ∧ Stops isWord r := by
  rw [word, run1] at h
  split at h
  · cases h
  · next c m htake =>
      have ht : t = c :: m ++ t.dropWhile isWord := by rw [← htake, List.takeWhile_append_dropWhile]
      cases h
      exact ⟨⟨c :: m, List.cons_ne_nil c m, fun d hd => List.mem_takeWhile_imp (htake ▸ hd)⟩, rfl, ht,
        .dropWhile _ _⟩

theorem word_eq_none (h : Stops isWord t) : word t = none := by
  rw [word, run1, h.takeWhile_eq]

theorem keyword_append (w : Text) {g : Gap} (hg : g.text ≠ []) (h : Stops isBlank t) :
    keyword w (w ++ (g.text ++ t)) = some ((), t) := by
  have hblanks : blanks1 (g.text ++ t) = some ((), t) := by
    obtain ⟨c, b, hb⟩ := List.exists_cons_of_ne_nil hg
    have htake := h.takeWhile_append g.blank
    have hdrop := h.dropWhile_append g.blank
    rw [hb] at htake hdrop ⊢
    rw [blanks1, discard_apply, run1, htake, hdrop]
    rfl
  rw [keyword, seqRight_apply, lit_append]
  exact hblanks

theorem keyword_space (w : Text) (h : Stops isBlank t) : keyword w (w ++ ' ' :: t) = some ((), t) :=
  keyword_append w (g := .of " " rfl) (List.cons_ne_nil ' ' []) h

theorem keyword_eq_none_of_not_prefix {w : Text} (h : ¬ w <+: t) : keyword w t = none := by
  rw [keyword, seqRight_apply, lit_eq_none fun r hr => h ⟨r, hr.symm⟩]
  rfl

/-- A keyword ends with blanks. -/
theorem keyword_eq_none (w : Text) (h : ∀ c ∈ t, isBlank c = false) : keyword w t = none := by
  rw [keyword, seqRight_apply]
  cases hread : lit w t with
  | none => rfl
  | some p =>
      have hstops : Stops isBlank p.2 := fun c hc =>
        h c (lit_eq_some_iff.1 hread ▸ List.mem_append_right w (List.mem_of_mem_head? hc))
      rw [Option.bind_some, blanks1, discard_apply, run1, hstops.takeWhile_eq]
      rfl

/-! ## Colons -/

theorem colon_apply (t : Text) :
    colon t = (lit ":" (t.dropWhile isBlank)).map fun p => ((), p.2.dropWhile isBlank) := by
  simp only [colon, seqLeft_apply, seqRight_apply, blanks_apply, Option.bind_some]
  cases lit ":" (t.dropWhile isBlank) <;> rfl

theorem colon_gap (g : Gap) (t : Text) : colon (g.text ++ t) = colon t := by
  rw [colon_apply, colon_apply, g.dropWhile_append]

theorem colon_colon (t : Text) : colon (':' :: t) = some ((), t.dropWhile isBlank) := by
  rw [colon_apply]
  rfl

theorem colon_eq_none (h : Stops (fun c => isBlank c || c == ':') t) : colon t = none := by
  cases t with
  | nil => rfl
  | cons c t =>
      obtain ⟨hblank, hne⟩ := Bool.or_eq_false_iff.1 (Stops.cons_iff.1 h)
      have hc : c ≠ ':' := beq_eq_false_iff_ne.1 hne
      rw [colon_apply, List.dropWhile_cons_of_neg (by simp [hblank]), lit_eq_none, Option.map_none]
      intro r heq
      exact hc (List.cons.inj heq).1

theorem exists_of_colon {a : Unit} (h : colon t = some (a, r)) :
    ∃ g g' : Gap, t = g.text ++ ':' :: (g'.text ++ r) ∧ Stops isBlank r := by
  obtain ⟨g, s, rfl, hs, hdrop⟩ := exists_gap t
  rw [colon_apply, hdrop, Option.map_eq_some_iff] at h
  obtain ⟨⟨_, s'⟩, hread, heq⟩ := h
  obtain ⟨g', r', rfl, hr, hdrop'⟩ := exists_gap s'
  rw [lit_eq_some_iff.1 hread]
  obtain rfl : r' = r := hdrop' ▸ (Prod.ext_iff.1 heq).2
  exact ⟨g, g', rfl, hr⟩

end Reader

/-! ## What a reader finds first -/

theorem getLast?_or_cons (u : Text) (c : Char) (previous : Option Char) :
    u.getLast?.or (some c) = (c :: u).getLast?.or previous := by
  rw [List.getLast?_cons]
  cases u.getLast? <;> rfl

theorem firstFrom?_append {read : Option Char → Reader α} {previous : Option Char} {front : Text}
    (h : ∀ u c v, front = u ++ c :: v → read (u.getLast?.or previous) (c :: (v ++ t)) = none) :
    firstFrom? read previous (front ++ t) = firstFrom? read (front.getLast?.or previous) t := by
  induction front generalizing previous with
  | nil => rfl
  | cons c front ih =>
      have hhead := h [] c front rfl
      rw [List.getLast?_nil, Option.none_or] at hhead
      rw [List.cons_append, firstFrom?, hhead, Option.none_or, ih, getLast?_or_cons]
      intro u d v hfront
      rw [getLast?_or_cons u c previous]
      exact h (c :: u) d v (by rw [hfront, List.cons_append])

theorem firstFrom?_ne_none {read : Option Char → Reader α} {previous : Option Char} {q : α × Text}
    (h : read (u.getLast?.or previous) (c :: t) = some q) : firstFrom? read previous (u ++ c :: t) ≠ none := by
  induction u generalizing previous with
  | nil => simp [firstFrom?, show read previous (c :: t) = some q from h]
  | cons d u ih =>
      rw [← getLast?_or_cons] at h
      simp [firstFrom?, ih h]

theorem occurrencesFrom_append {read : Option Char → Reader α} {previous : Option Char} {front : Text}
    (h : ∀ u c v, front = u ++ c :: v → read (u.getLast?.or previous) (c :: (v ++ t)) = none) :
    occurrencesFrom read previous 0 (front ++ t) = occurrencesFrom read (front.getLast?.or previous) 0 t := by
  induction front generalizing previous with
  | nil => rfl
  | cons c front ih =>
      have hhead := h [] c front rfl
      rw [List.getLast?_nil, Option.none_or] at hhead
      rw [List.cons_append, occurrencesFrom, hhead, ih, getLast?_or_cons]
      intro u d v hfront
      rw [getLast?_or_cons u c previous]
      exact h (c :: u) d v (by rw [hfront, List.cons_append])

theorem occurrencesFrom_eq_nil {read : Option Char → Reader α} {previous : Option Char}
    (h : ∀ previous u, u <:+ t → read previous u = none) : occurrencesFrom read previous 0 t = [] := by
  induction t generalizing previous with
  | nil => rfl
  | cons c t ih =>
      rw [occurrencesFrom, h _ _ List.suffix_rfl]
      exact ih fun previous u hu => h previous u (hu.trans (List.suffix_cons c t))

theorem occurrencesFrom_skip (read : Option Char → Reader α) (previous : Option Char) (u t : Text) :
    occurrencesFrom read previous u.length (u ++ t) = occurrencesFrom read (u.getLast?.or previous) 0 t := by
  induction u generalizing previous with
  | nil => rfl
  | cons c u ih =>
      rw [List.cons_append, List.length_cons, occurrencesFrom, ih, getLast?_or_cons]

theorem occurrencesFrom_read {read : Option Char → Reader α} {previous : Option Char} {a : α} (hu : u ≠ [])
    (h : read previous (u ++ t) = some (a, t)) :
    occurrencesFrom read previous 0 (u ++ t) = a :: occurrencesFrom read (u.getLast?.or previous) 0 t := by
  obtain ⟨c, v, rfl⟩ := List.exists_cons_of_ne_nil hu
  have hskip : (v ++ t).length - t.length = v.length := by rw [List.length_append, Nat.add_sub_cancel]
  rw [List.cons_append] at h ⊢
  rw [occurrencesFrom, h]
  dsimp only
  rw [hskip, occurrencesFrom_skip, getLast?_or_cons]

end ComponentCatalog
