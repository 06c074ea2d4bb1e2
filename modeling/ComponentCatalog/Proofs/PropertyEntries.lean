import ComponentCatalog.Proofs.Readers

/-!
# Entries of a properties object

An entry is a word, a colon and a value. Here stands what the entry reader makes of each kind of value, and
how the entries of a text are those of its parts.
-/

namespace ComponentCatalog

/-- The characters that the name of a type can begin with. -/
def isTypeStart (c : Char) : Bool := c.isAlpha || c == '_'

/-- A word that can be the name of a type. -/
structure TypeName extends Word where
  begins : ∀ c ∈ text.head?, isTypeStart c = true

namespace Properties

open Reader

variable {n t u r : Text} {c : Char} {g : Gap} {p : Property}

/-! ## Ends of shorthand entries -/

/-- A shorthand entry may end in the gap `g` in front of `t`. -/
def MayEnd (g : Gap) (t : Text) : Prop := t = [] ∨ t.head? = some ',' ∨ '\n' ∈ g.text

theorem shorthandEnd_cons (hblank : isBlank c = false) (hc : c ≠ ',') (g : Gap) (t : Text) :
    shorthandEnd (g.text ++ c :: t) = if g.text.contains '\n' then
      some ((), '\n' :: (g.text.reverse.takeWhile (· != '\n')).reverse ++ c :: t) else none := by
  have hstops : Stops isBlank (c :: t) := Stops.cons_iff.2 hblank
  unfold shorthandEnd
  rw [hstops.takeWhile_append g.blank, hstops.dropWhile_append g.blank]
  split
  · next h => cases h
  · next h => exact absurd (List.cons.inj h).1 hc
  · rfl

/-- The blanks that are left behind a shorthand entry. -/
theorem exists_shorthandEnd (ht : Stops isBlank t) (h : MayEnd g t) :
    ∃ (w : Text) (g' : Gap), g.text = w ++ g'.text ∧ shorthandEnd (g.text ++ t) = some ((), g'.text ++ t) := by
  have hnil : g.text = g.text ++ Gap.empty.text := (List.append_nil _).symm
  cases t with
  | nil =>
      refine ⟨_, _, hnil, ?_⟩
      unfold shorthandEnd
      rw [ht.dropWhile_append g.blank]
      rfl
  | cons c t =>
      by_cases hc : c = ','
      · subst hc
        refine ⟨_, _, hnil, ?_⟩
        unfold shorthandEnd
        rw [ht.dropWhile_append g.blank]
        rfl
      · have hnewline : '\n' ∈ g.text := by simpa [MayEnd, hc] using h
        have hstops := Stops.dropWhile (· != '\n') g.text.reverse
        have hrest : g.text.reverse.dropWhile (· != '\n') ≠ [] := by
          simpa [List.dropWhile_eq_nil_iff] using hnewline
        obtain ⟨d, w, hd⟩ := List.exists_cons_of_ne_nil hrest
        obtain rfl : d = '\n' := by simpa [hd, Stops.cons_iff] using hstops
        have hsplit : g.text = w.reverse ++ '\n' :: (g.text.reverse.takeWhile (· != '\n')).reverse := by
          have := congrArg List.reverse (List.takeWhile_append_dropWhile (p := (· != '\n')) (l := g.text.reverse))
          simpa [hd] using this.symm
        refine ⟨w.reverse, ⟨_, fun e he => g.blank e ?_⟩, hsplit, ?_⟩
        · rw [hsplit]
          exact List.mem_append_right _ he
        · rw [shorthandEnd_cons (Stops.cons_iff.1 ht) hc, if_pos (List.contains_iff_mem.2 hnewline)]

theorem shorthandEnd_eq_none (ht : Stops isBlank t) (h : ¬ MayEnd g t) : shorthandEnd (g.text ++ t) = none := by
  simp only [MayEnd, not_or] at h
  obtain ⟨hne, hcomma, hnewline⟩ := h
  cases t with
  | nil => exact absurd rfl hne
  | cons c t =>
      have hc : c ≠ ',' := by
        rintro rfl
        exact hcomma rfl
      rw [shorthandEnd_cons (Stops.cons_iff.1 ht) hc, if_neg]
      simpa using hnewline

/-! ## Values -/

theorem squareList_eq_none (h : ∀ r, t ≠ '[' :: r) : squareList t = none := by
  rw [squareList, bind_apply, lit_eq_none fun r => h r, Option.bind_none]

theorem bne_of_notMem {d : Char} (h : d ∉ u) : ∀ c ∈ u, (c != d) = true := fun _ hc =>
  bne_iff_ne.2 fun heq => h (heq ▸ hc)

theorem squareList_append (h : ']' ∉ u) (t : Text) :
    squareList ('[' :: (u ++ ']' :: t)) = some ('[' :: (u ++ [']']), t) := by
  have hu := bne_of_notMem h
  have hstops : Stops (· != ']') (']' :: t) := Stops.cons_iff.2 rfl
  rw [squareList, bind_apply, show '[' :: (u ++ ']' :: t) = "[".toList ++ (u ++ ']' :: t) from rfl, lit_append,
    Option.bind_some, bind_apply, run, hstops.takeWhile_append hu, hstops.dropWhile_append hu, Option.bind_some,
    bind_apply, show ']' :: t = "]".toList ++ t from rfl, lit_append]
  rfl

theorem squareList_open (h : ']' ∉ t) : squareList ('[' :: t) = none := by
  rw [squareList, bind_apply, show '[' :: t = "[".toList ++ t from rfl, lit_append, Option.bind_some, bind_apply,
    run, List.dropWhile_eq_nil_iff.2 (bne_of_notMem h), Option.bind_some, bind_apply, lit_eq_none (by simp),
    Option.bind_none]

theorem isWord_of_isTypeStart (h : isTypeStart c = true) : isWord c = true := by
  rcases (Bool.or_eq_true _ _).mp h with halpha | hc
  · have hlt : c.toNat < 128 := by
      rcases (Bool.or_eq_true _ _).mp halpha with hcase | hcase
      · have hle : c.toNat ≤ 90 := (of_decide_eq_true hcase).2
        omega
      · have hle : c.toNat ≤ 122 := of_decide_eq_true ((Bool.and_eq_true _ _).mp hcase).2
        omega
    have halnum : c.isAlphanum = true := (Bool.or_eq_true _ _).mpr (.inl halpha)
    rw [isWord, isLetterOrNumeral, if_pos hlt, halnum, Bool.or_true]
  · rw [isWord, hc, Bool.true_or]

theorem typeName_append (w : TypeName) (h : Stops isWord t) : typeName (w.text ++ t) = some (w.text, t) := by
  obtain ⟨c, m, hw⟩ := List.exists_cons_of_ne_nil w.ne_nil
  have hc : isTypeStart c = true := w.begins c (by rw [hw]; rfl)
  have hm : ∀ d ∈ m, isWord d = true := fun d hd => w.word d (by rw [hw]; exact List.mem_cons_of_mem _ hd)
  rw [typeName, bind_apply, hw, List.cons_append, one, ← isTypeStart, if_pos hc, Option.bind_some, bind_apply,
    run, h.takeWhile_append hm, h.dropWhile_append hm]
  rfl

theorem exists_of_typeName (h : typeName t = some (n, r)) :
    ∃ w : TypeName, n = w.text ∧ t = w.text ++ r ∧ Stops isWord r := by
  cases t with
  | nil => cases h
  | cons c t =>
      rw [typeName, bind_apply, one, ← isTypeStart] at h
      split at h
      · next hc =>
          cases h
          refine ⟨⟨⟨c :: t.takeWhile isWord, List.cons_ne_nil _ _, ?_⟩, ?_⟩, rfl, ?_, .dropWhile _ _⟩
          · exact List.forall_mem_cons.2 ⟨isWord_of_isTypeStart hc, fun d hd => List.mem_takeWhile_imp hd⟩
          · rintro d ⟨⟩
            exact hc
          · rw [List.cons_append, List.takeWhile_append_dropWhile]
      · cases h

/-- What is read behind the name of an entry and the colon. -/
def value (name : Text) : Reader Property :=
  (do
    lit "\x7b"
    let t ← rest
    let e := enclosed '\x7b' '\x7d' t
    set (e.after.getD [])
    return ofDefinition name e.inside) <|>
  (do
    let type ← squareList <|> typeName
    shorthandEnd
    return { name := name, type := type })

theorem entry_of_stops (h : Stops isWord t) : entry t = none := by
  rw [entry, orElse_apply, map_apply, map_apply, bracedEntry, shorthandEntry, bind_apply, bind_apply,
    word_eq_none h]
  rfl

theorem entry_word (w : Word) (h : Stops isWord t) :
    entry (w.text ++ t) = (colon t).bind fun q => value w.text q.2 := by
  rw [entry, orElse_apply, map_apply, map_apply, bracedEntry, shorthandEntry, bind_apply, bind_apply,
    word_append w h, Option.bind_some, Option.bind_some, bind_apply, bind_apply]
  cases colon t with
  | none => rfl
  | some q =>
      rw [Option.bind_some, Option.bind_some, Option.bind_some, value, orElse_apply]
      congr 1
      · simp only [bind_apply, Option.map_bind]
        rfl
      · simp only [bind_apply, Option.map_bind]
        cases (squareList <|> typeName) q.2 with
        | none => rfl
        | some s => cases hend : shorthandEnd s.2 <;> simp [hend, pure_apply]

theorem value_brace (n t : Text) : value n ('\x7b' :: t) =
    some (ofDefinition n (enclosed '\x7b' '\x7d' t).inside, (enclosed '\x7b' '\x7d' t).after.getD []) := by
  rfl

theorem value_square (n : Text) (h : ']' ∉ u) (t : Text) : value n ('[' :: (u ++ ']' :: t)) =
    (shorthandEnd t).map fun q => ({ name := n, type := '[' :: (u ++ [']']) }, q.2) := by
  rw [value, orElse_apply, bind_apply, lit_eq_none (by simp), Option.bind_none, Option.none_or, bind_apply,
    orElse_apply, squareList_append h, Option.some_or, Option.bind_some, bind_apply]
  cases shorthandEnd t <;> rfl

theorem value_open (n : Text) (h : ']' ∉ t) : value n ('[' :: t) = none := by
  have htype : typeName ('[' :: t) = none := rfl
  rw [value, orElse_apply, bind_apply, lit_eq_none (by simp), Option.bind_none, Option.none_or, bind_apply,
    orElse_apply, squareList_open h, htype]
  rfl

theorem value_type (n : Text) (w : TypeName) (h : Stops isWord t) : value n (w.text ++ t) =
    (shorthandEnd t).map fun q => ({ name := n, type := w.text }, q.2) := by
  obtain ⟨c, m, hw⟩ := List.exists_cons_of_ne_nil w.ne_nil
  have hc : isTypeStart c = true := w.begins c (by rw [hw]; rfl)
  have hne : ∀ d, isTypeStart d = false → ∀ r, w.text ++ t ≠ d :: r := by
    intro d hd r heq
    rw [hw] at heq
    rw [(List.cons.inj heq).1, hd] at hc
    cases hc
  rw [value, orElse_apply, bind_apply, lit_eq_none (hne _ rfl), Option.bind_none, Option.none_or, bind_apply,
    orElse_apply, squareList_eq_none (hne _ rfl), Option.none_or, typeName_append w h, Option.bind_some,
    bind_apply]
  cases shorthandEnd t <;> rfl

/-! ## Entries of a text and of its parts -/

variable {previous : Option Char} {depth : Int}

/-- The change of depth by a text. -/
def depthOf : Text → Int
  | [] => 0
  | c :: t => depthChange c + depthOf t

theorem depthOf_append (t u : Text) : depthOf (t ++ u) = depthOf t + depthOf u := by
  induction t with
  | nil => rw [List.nil_append, depthOf, Int.zero_add]
  | cons c t ih => rw [List.cons_append, depthOf, ih, depthOf, Int.add_assoc]

theorem depthOf_eq_zero (h : ∀ c ∈ t, depthChange c = 0) : depthOf t = 0 := by
  induction t with
  | nil => rfl
  | cons c t ih =>
      rw [List.forall_mem_cons] at h
      rw [depthOf, h.1, ih h.2, Int.add_zero]

theorem depthChange_of_notMem (h : c ∉ ['\x7b', '[', '(', '\x7d', ']', ')']) : depthChange c = 0 := by
  simp only [List.mem_cons, List.not_mem_nil, or_false, not_or] at h
  simp [depthChange, h]

theorem depthChange_of_isWord (h : isWord c = true) : depthChange c = 0 :=
  depthChange_of_notMem (notMem_of_class rfl h)

theorem depthChange_of_isBlank (h : isBlank c = true) : depthChange c = 0 :=
  depthChange_of_notMem (notMem_of_class rfl h)

theorem entriesFrom_of_begins (h : beginsWord previous = true) (t : Text) :
    entriesFrom previous depth 0 t = entriesFrom none depth 0 t := by
  cases t with
  | nil => rfl
  | cons c t => simp only [entriesFrom, h, show beginsWord none = true from rfl]

theorem entriesFrom_of_stops (h : Stops isWord t) :
    entriesFrom previous depth 0 t = entriesFrom none depth 0 t := by
  cases t with
  | nil => rfl
  | cons c t => simp only [entriesFrom, entry_of_stops h, ite_self]

/-- Where nothing is read at depth zero, the rest is all that counts. -/
theorem entriesFrom_append {u t : Text}
    (h : ∀ v c w, u = v ++ c :: w → depth + depthOf v = 0 → beginsWord (v.getLast?.or previous) = true →
      entry (c :: (w ++ t)) = none) :
    entriesFrom previous depth 0 (u ++ t) = entriesFrom (u.getLast?.or previous) (depth + depthOf u) 0 t := by
  induction u generalizing previous depth with
  | nil => simp [depthOf]
  | cons c u ih =>
      have hread : (if depth = 0 && beginsWord previous then entry (c :: (u ++ t)) else none) = none := by
        split
        · next hat =>
            obtain ⟨hdepth, hbegins⟩ := (Bool.and_eq_true _ _).mp hat
            exact h [] c u rfl (by simpa [depthOf] using hdepth) hbegins
        · rfl
      rw [List.cons_append, entriesFrom, hread, ih, getLast?_or_cons, depthOf, Int.add_assoc]
      intro v d w hu hzero hbegins
      rw [getLast?_or_cons v c previous] at hbegins
      exact h (c :: v) d w (by rw [hu, List.cons_append]) (by rw [depthOf]; omega) hbegins

theorem entriesFrom_gap (g : Gap) (t : Text) :
    entriesFrom none depth 0 (g.text ++ t) = entriesFrom none depth 0 t := by
  have hbegins : beginsWord (g.text.getLast?.or none) = true := by
    cases hlast : g.text.getLast? with
    | none => rfl
    | some c => simp [beginsWord, isWord_of_isBlank (g.blank c (List.mem_of_getLast? hlast))]
  rw [entriesFrom_append, entriesFrom_of_begins hbegins,
    depthOf_eq_zero fun c hc => depthChange_of_isBlank (g.blank c hc), Int.add_zero]
  intro v c w hg _ _
  exact entry_of_stops (Stops.cons_iff.2 (isWord_of_isBlank (g.blank c (by simp [hg]))))

theorem entriesFrom_sign (hword : isWord c = false) (hdepth : depthChange c = 0) (t : Text) :
    entriesFrom none depth 0 (c :: t) = entriesFrom none depth 0 t := by
  have hread : entry (c :: t) = none := entry_of_stops (Stops.cons_iff.2 hword)
  simp only [entriesFrom, hread, ite_self, hdepth, Int.add_zero]
  exact entriesFrom_of_begins (by simp [beginsWord, hword]) t

theorem entriesFrom_skip (u t : Text) :
    entriesFrom previous depth u.length (u ++ t) = entriesFrom (u.getLast?.or previous) depth 0 t := by
  induction u generalizing previous with
  | nil => rfl
  | cons c u ih => rw [List.cons_append, List.length_cons, entriesFrom, ih, getLast?_or_cons]

theorem entriesFrom_entry (hu : u ≠ []) (h : entry (u ++ t) = some (p, t)) :
    entriesFrom none 0 0 (u ++ t) = p :: entriesFrom u.getLast? 0 0 t := by
  obtain ⟨c, u, rfl⟩ := List.exists_cons_of_ne_nil hu
  have hlength : (u ++ t).length - t.length = u.length := by rw [List.length_append, Nat.add_sub_cancel]
  rw [List.cons_append] at h ⊢
  simp only [entriesFrom, h, hlength, decide_true, Bool.true_and, if_true, show beginsWord none = true from rfl,
    entriesFrom_skip]
  rw [getLast?_or_cons u c none, Option.or_none]

end Properties

end ComponentCatalog
