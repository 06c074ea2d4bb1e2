import ComponentCatalog.Proofs.PropertyObject

/-!
# Comments between entries

A comment between two entries should make no difference. But entries are looked for in comments as well,
brackets in comments are counted, and a comment keeps the blanks in front of it from ending an entry. Here
stands which comments make no difference, and where.
-/

namespace ComponentCatalog

namespace Properties

open Reader

variable {n s t u v r : Text} {c e : Char} {g : Gap} {p : Property}

/-! ## What reads like an entry -/

/-- Blanks up to the end of a line or to a comma. -/
def EndsEntry (t : Text) : Prop := ∃ (g : Gap) (c : Char) (r : Text), t = g.text ++ c :: r ∧ (c = '\n' ∨ c = ',')

/-- A text that is read as a value, if not by itself then in front of a text that completes it. -/
inductive ReadsValue : Text → Prop
  | missing : ReadsValue []
  | brace (t : Text) : ReadsValue ('\x7b' :: t)
  | unclosed {t : Text} : ']' ∉ t → ReadsValue ('[' :: t)
  | square {list t : Text} : ']' ∉ list → EndsEntry t → ReadsValue ('[' :: (list ++ ']' :: t))
  | type (name : TypeName) {t : Text} : EndsEntry t → ReadsValue (name.text ++ t)

/-- A text that is read as an entry, if not by itself then in front of a text that completes it. -/
def BeginsEntry (t : Text) : Prop :=
  ∃ (name : Word) (g g' : Gap) (v : Text), t = name.text ++ (g.text ++ ':' :: (g'.text ++ v)) ∧ ReadsValue v

/-- The brackets of a comment balance, and where they do nothing in it begins an entry. -/
structure IsInert (x : Comment) : Prop where
  depth : depthOf x.text = 0
  quiet : ∀ u v, x.text = u ++ v → depthOf u = 0 → beginsWord u.getLast? = true → ¬ BeginsEntry v

/-- The last character of a comment. -/
def isCommentEnd (c : Char) : Bool := c == '\n' || c == '/'

/-! ## Places for comments -/

/-- A place between two tokens of an object, in front of an entry or behind one. -/
inductive CommentPlace
  | before (above : List Declaration) (gap : Gap) (below : PropertyObject)
  | behind (above : List Declaration) (entry : Declaration) (gap : Gap) (below : Option PropertyObject)

/-- The rest of an object, its comma included. -/
def restText (below : Option PropertyObject) : Text := below.elim [] fun o => ',' :: o.text

namespace CommentPlace

/-- What stands in front of the place. -/
def front : CommentPlace → Text
  | before above gap _ => separatedText above ++ gap.text
  | behind above entry _ _ => separatedText above ++ entry.text

/-- What stands behind it. -/
def back : CommentPlace → Text
  | before _ _ below => below.text
  | behind _ _ gap below => gap.text ++ restText below

/-- The entries in front of the place. -/
def above : CommentPlace → List Declaration
  | before above _ _ => above
  | behind above entry _ _ => above ++ [entry]

/-- The entries behind it. -/
def below : CommentPlace → List Declaration
  | before _ _ below => below.declarations
  | behind _ _ _ below => below.elim [] PropertyObject.declarations

/-- The object without a comment. -/
def text (p : CommentPlace) : Text := p.front ++ p.back

/-- The object with a comment at the place. -/
def commented (p : CommentPlace) (x : Comment) : Text := p.front ++ (x.text ++ p.back)

/-- Behind a shorthand entry, a comment must not stand on the line of the entry. -/
def IsClean : CommentPlace → Prop
  | before _ _ _ => True
  | behind _ entry _ _ => entry.value.IsShorthand → '\n' ∈ entry.after.text

end CommentPlace

/-! ## An entry that is read in a comment -/

theorem exists_shorthandEnd_iff :
    (∃ q, shorthandEnd t = some q) ↔ (∀ c ∈ t, isBlank c = true) ∨ EndsEntry t := by
  constructor
  · rintro ⟨q, hq⟩
    obtain ⟨g, r, rfl, hr, -⟩ := exists_gap t
    by_cases hend : MayEnd g r
    · rcases hend with rfl | hcomma | hnewline
      · exact .inl (by simpa using g.blank)
      · obtain ⟨r', rfl⟩ := List.head?_eq_some_iff.1 hcomma
        exact .inr ⟨g, ',', r', rfl, .inr rfl⟩
      · obtain ⟨a, b, hg⟩ := List.append_of_mem hnewline
        refine .inr ⟨⟨a, fun c hc => g.blank c (by simp [hg, hc])⟩, '\n', b ++ r, ?_, .inl rfl⟩
        simp [hg]
    · rw [shorthandEnd_eq_none hr hend] at hq
      cases hq
  · rintro (hblank | ⟨g, c, r, rfl, rfl | rfl⟩)
    · obtain ⟨_, _, -, hend⟩ := exists_shorthandEnd (g := ⟨t, hblank⟩) .nil (.inl rfl)
      exact ⟨_, by simpa using hend⟩
    · obtain ⟨g', r', rfl, hr', -⟩ := exists_gap r
      let line : Gap := .of ['\n'] rfl
      obtain ⟨_, _, -, hend⟩ :=
        exists_shorthandEnd (g := g.append (line.append g')) hr' (.inr (.inr (by simp [Gap.append, Gap.of, line])))
      exact ⟨_, by simpa [Gap.append, Gap.of, line] using hend⟩
    · obtain ⟨_, _, -, hend⟩ := exists_shorthandEnd (g := g) (t := ',' :: r) (Stops.cons_iff.2 rfl) (.inr (.inl rfl))
      exact ⟨_, hend⟩

/-- A run of characters ends in front of the last character of a text, if that is none of their class. -/
theorem exists_append_of_class {q : Char → Bool} (hs : ¬ ∀ c ∈ s, q c = true)
    (hu : ∀ c ∈ u, q c = true) (h : s ++ t = u ++ r) : ∃ d s', s = u ++ d :: s' ∧ r = d :: (s' ++ t) := by
  rcases List.append_eq_append_iff.1 h with ⟨w, rfl, -⟩ | ⟨w, rfl, rfl⟩
  · exact absurd (fun c hc => hu c (List.mem_append_left _ hc)) hs
  · cases w with
    | nil => exact absurd (by simpa using hu) hs
    | cons d w => exact ⟨d, w, rfl, rfl⟩

theorem not_class_of_getLast? {q : Char → Bool} (hlast : s.getLast? = some e) (he : q e = false) :
    ¬ ∀ c ∈ s, q c = true := fun hall => by simp [hall e (List.mem_of_getLast? hlast)] at he

theorem isWord_of_isCommentEnd (he : isCommentEnd e = true) : isWord e = false := by
  rcases (Bool.or_eq_true _ _).mp he with hc | hc <;> rw [beq_iff_eq.1 hc] <;> decide

theorem endsEntry_of_shorthandEnd {q : Unit × Text} (hlast : s.getLast? = some e) (he : isCommentEnd e = true)
    (h : shorthandEnd (s ++ t) = some q) : EndsEntry s := by
  by_cases hblank : ∀ c ∈ s, isBlank c = true
  · obtain ⟨s', rfl⟩ := List.getLast?_eq_some_iff.1 hlast
    obtain rfl : e = '\n' := by
      rcases (Bool.or_eq_true _ _).mp he with hc | hc
      · exact beq_iff_eq.1 hc
      · have := hblank e (by simp)
        rw [beq_iff_eq.1 hc] at this
        cases this
    exact ⟨⟨s', fun c hc => hblank c (List.mem_append_left _ hc)⟩, '\n', [], rfl, .inl rfl⟩
  · rcases exists_shorthandEnd_iff.1 ⟨q, h⟩ with hall | ⟨g, c, r, heq, hc⟩
    · exact absurd (fun c hc => hall c (List.mem_append_left _ hc)) hblank
    · obtain ⟨d, s', rfl, hd⟩ := exists_append_of_class hblank g.blank heq
      obtain ⟨rfl, -⟩ := List.cons.inj hd
      exact ⟨g, c, s', rfl, hc⟩

theorem exists_of_value {q : Text} (h : value n t = some (p, q)) :
    (∃ r, t = '\x7b' :: r) ∨
    (∃ u r, t = '[' :: (u ++ ']' :: r) ∧ ']' ∉ u ∧ ∃ a, shorthandEnd r = some a) ∨
    ∃ (name : TypeName) (r : Text), t = name.text ++ r ∧ ∃ a, shorthandEnd r = some a := by
  by_cases hbrace : ∃ r, t = '\x7b' :: r
  · exact .inl hbrace
  · refine .inr ?_
    by_cases hsquare : ∃ r, t = '[' :: r
    · obtain ⟨r, rfl⟩ := hsquare
      by_cases hclosed : ']' ∈ r
      · obtain ⟨u, r', rfl, hu⟩ := List.eq_append_cons_of_mem hclosed
        rw [value_square n hu] at h
        obtain ⟨a, ha, -⟩ := Option.map_eq_some_iff.1 h
        exact .inl ⟨u, r', rfl, hu, a, ha⟩
      · rw [value_open n hclosed] at h
        cases h
    · have hvalue : (typeName t).bind (fun a => (shorthandEnd a.2).bind fun b =>
          some ({ name := n, type := a.1 }, b.2)) = some (p, q) := by
        rw [value, orElse_apply, bind_apply, lit_eq_none fun r hr => hbrace ⟨r, hr⟩, Option.bind_none,
          Option.none_or, bind_apply, orElse_apply, squareList_eq_none fun r hr => hsquare ⟨r, hr⟩,
          Option.none_or] at h
        exact h
      obtain ⟨⟨m, r⟩, htype, h⟩ := Option.bind_eq_some_iff.1 hvalue
      obtain ⟨a, ha, -⟩ := Option.bind_eq_some_iff.1 h
      obtain ⟨name, rfl, rfl, -⟩ := exists_of_typeName htype
      exact .inr ⟨name, r, rfl, a, ha⟩

theorem readsValue_of_value {q : Text} (hlast : s.getLast? = some e) (he : isCommentEnd e = true)
    (h : value n (s ++ t) = some (p, q)) : ReadsValue s := by
  obtain ⟨c, s', hs⟩ := List.exists_cons_of_ne_nil (l := s) (by
    rintro rfl
    cases hlast)
  rcases exists_of_value h with ⟨r, hr⟩ | ⟨u, r, hr, hu, a, ha⟩ | ⟨name, r, hr, a, ha⟩
  · rw [hs] at hr ⊢
    rw [(List.cons.inj hr).1]
    exact .brace s'
  · rw [hs, List.cons_append, List.cons.injEq] at hr
    obtain ⟨rfl, hr⟩ := hr
    by_cases hclosed : ']' ∈ s'
    · obtain ⟨d, r', rfl, hd⟩ := exists_append_of_class (q := (· != ']'))
        (fun hall => by simpa using hall ']' hclosed)
        (bne_of_notMem hu) hr
      obtain ⟨rfl, rfl⟩ := List.cons.inj hd
      have hr' : r'.getLast? = some e := by
        cases r' with
        | nil =>
            rw [hs, ← List.cons_append, List.getLast?_append_cons] at hlast
            cases hlast
            cases he
        | cons d r' =>
            rw [hs, ← List.cons_append, List.getLast?_append_cons] at hlast
            exact hlast
      rw [hs]
      exact .square hu (endsEntry_of_shorthandEnd hr' he ha)
    · rw [hs]
      exact .unclosed hclosed
  · obtain ⟨d, s', rfl, rfl⟩ :=
      exists_append_of_class (not_class_of_getLast? hlast (isWord_of_isCommentEnd he)) name.word hr
    rw [List.getLast?_append_cons] at hlast
    exact .type name (endsEntry_of_shorthandEnd hlast he ha)

theorem beginsEntry_of_entry {q : Property × Text} (hlast : s.getLast? = some e) (he : isCommentEnd e = true)
    (ht : Stops (· == ':') (t.dropWhile isBlank)) (h : entry (s ++ t) = some q) : BeginsEntry s := by
  obtain ⟨name, r, hr, hstops⟩ : ∃ (name : Word) (r : Text), s ++ t = name.text ++ r ∧ Stops isWord r := by
    by_cases hword : word (s ++ t) = none
    · rw [entry, orElse_apply, map_apply, map_apply, bracedEntry, shorthandEntry, bind_apply, bind_apply,
        hword] at h
      cases h
    · obtain ⟨⟨m, r⟩, hread⟩ := Option.ne_none_iff_exists'.1 hword
      obtain ⟨name, -, hr, hstops⟩ := exists_of_word hread
      exact ⟨name, r, hr, hstops⟩
  rw [hr, entry_word name hstops] at h
  obtain ⟨⟨_, v⟩, hcolon, hvalue⟩ := Option.bind_eq_some_iff.1 h
  obtain ⟨d, s', rfl, rfl⟩ :=
    exists_append_of_class (not_class_of_getLast? hlast (isWord_of_isCommentEnd he)) name.word hr
  rw [List.getLast?_append_cons] at hlast
  obtain ⟨g, g', hgap, hv⟩ := exists_of_colon hcolon
  -- The colon is one of the comment, since none is the first sign behind it.
  have hblank : ¬ ∀ c ∈ d :: s', isBlank c = true := by
    intro hall
    have hdrop := congrArg (List.dropWhile isBlank) hgap
    rw [← List.cons_append, List.dropWhile_append_of_pos hall, g.dropWhile_append] at hdrop
    rw [hdrop] at ht
    exact absurd (Stops.cons_iff.1 ht) (by decide)
  obtain ⟨d', s'', hs, hcons⟩ := exists_append_of_class (s := d :: s') (t := t) hblank g.blank hgap
  obtain ⟨rfl, hgap'⟩ := List.cons.inj hcons
  rw [hs]
  refine ⟨name, g, ?_⟩
  by_cases hmissing : ∀ c ∈ s'', isBlank c = true
  · exact ⟨⟨s'', hmissing⟩, [], by simp, .missing⟩
  · obtain ⟨d, v', rfl, rfl⟩ := exists_append_of_class hmissing g'.blank hgap'.symm
    refine ⟨g', d :: v', rfl, readsValue_of_value (e := e) ?_ he hvalue⟩
    rw [hs, ← List.cons_append, ← List.append_assoc, List.getLast?_append_cons] at hlast
    exact hlast

/-! ## Comments that make no difference -/

theorem exists_getLast?_text (x : Comment) : ∃ e, x.text.getLast? = some e ∧ isCommentEnd e = true := by
  cases x with
  | line body h => exact ⟨'\n', by simp [Comment.text, List.getLast?_cons, List.getLast?_append], rfl⟩
  | block body h => exact ⟨'/', by simp [Comment.text, List.getLast?_cons, List.getLast?_append], rfl⟩

/-- The first sign of a text is no colon. -/
def IsBack (t : Text) : Prop := Stops (· == ':') (t.dropWhile isBlank)

theorem entriesFrom_inert {x : Comment} (hx : IsInert x) (ht : IsBack t) :
    entriesFrom none 0 0 (x.text ++ t) = entriesFrom none 0 0 t := by
  obtain ⟨e, hlast, he⟩ := exists_getLast?_text x
  have hquiet : ∀ v c w, x.text = v ++ c :: w → 0 + depthOf v = 0 →
      beginsWord (v.getLast?.or none) = true → entry (c :: (w ++ t)) = none := by
    intro v c w hsplit hdepth hbegins
    refine Option.eq_none_iff_forall_ne_some.2 fun q hread => ?_
    rw [hsplit, List.getLast?_append_cons] at hlast
    rw [Option.or_none] at hbegins
    exact hx.quiet v (c :: w) hsplit (by omega) hbegins (beginsEntry_of_entry hlast he ht hread)
  have hbegins : beginsWord (some e) = true := by simp [beginsWord, isWord_of_isCommentEnd he]
  rw [entriesFrom_append hquiet, hx.depth, hlast]
  exact entriesFrom_of_begins hbegins t

theorem isBack_gap (g : Gap) (h : IsBack t) : IsBack (g.text ++ t) := by
  rw [IsBack, g.dropWhile_append]
  exact h

theorem isBack_declaration (d : Declaration) (t : Text) : IsBack (d.text ++ t) := by
  obtain ⟨c, m, hname⟩ := List.exists_cons_of_ne_nil d.name.ne_nil
  have hc : isWord c = true := d.name.word c (by simp [hname])
  rw [Declaration.text, List.append_assoc]
  refine isBack_gap d.before ?_
  rw [hname, List.cons_append, List.cons_append, IsBack,
    List.dropWhile_cons_of_neg (by simp [isBlank_of_isWord hc])]
  refine Stops.cons_iff.2 (beq_eq_false_iff_ne.2 ?_)
  rintro rfl
  revert hc
  decide

theorem PropertyObject.isBack (o : PropertyObject) : IsBack o.text := by
  obtain ⟨ds, e⟩ := o
  cases ds with
  | nil =>
      cases e with
      | blanks g => simpa [text, separatedText, Ending.text] using isBack_gap g (t := []) .nil
      | entry d => simpa [text, separatedText, Ending.text] using isBack_declaration d []
  | cons d ds => simpa [text, separatedText] using isBack_declaration d _

theorem stops_restText {q : Char → Bool} (hq : q ',' = false) (below : Option PropertyObject) :
    Stops q (restText below) := by
  cases below with
  | none => exact .nil
  | some o => exact Stops.cons_iff.2 hq

theorem CommentPlace.isBack (p : CommentPlace) : IsBack p.back := by
  cases p with
  | before above gap below => exact PropertyObject.isBack below
  | behind above entry gap below =>
      refine isBack_gap gap ?_
      rw [IsBack, (stops_restText rfl below).dropWhile_eq]
      exact stops_restText rfl below

/-! ## Reading around a comment -/

theorem entriesFrom_restText (below : Option PropertyObject) :
    entriesFrom none 0 0 (restText below) =
      (below.elim [] PropertyObject.declarations).map Declaration.property := by
  cases below with
  | none => rfl
  | some o => exact (entriesFrom_sign rfl rfl _).trans (entriesFrom_object o)

theorem mayEnd_restText (g : Gap) (below : Option PropertyObject) : MayEnd g (restText below) := by
  cases below with
  | none => exact .inl rfl
  | some o => exact .inr (.inl rfl)

theorem entriesFrom_back (p : CommentPlace) : entriesFrom none 0 0 p.back = p.below.map Declaration.property := by
  cases p with
  | before above gap below => exact entriesFrom_object below
  | behind above entry gap below => rw [CommentPlace.back, entriesFrom_gap, entriesFrom_restText, CommentPlace.below]

theorem entriesFrom_front {p : CommentPlace} (h : p.IsClean) (ht : Stops isBlank t) (hword : Stops isWord t) :
    entriesFrom none 0 0 (p.front ++ t) = p.above.map Declaration.property ++ entriesFrom none 0 0 t := by
  cases p with
  | before above gap below =>
      rw [CommentPlace.front, List.append_assoc, entriesFrom_separated, entriesFrom_gap, CommentPlace.above]
  | behind above entry gap below =>
      rw [CommentPlace.front, List.append_assoc, entriesFrom_separated,
        entriesFrom_declaration entry ht hword fun hshort => .inr (.inr (h hshort)), CommentPlace.above]
      simp

theorem entriesFrom_text (p : CommentPlace) :
    entriesFrom none 0 0 p.text = (p.above ++ p.below).map Declaration.property := by
  cases p with
  | before above gap below =>
      rw [CommentPlace.text, CommentPlace.front, List.append_assoc, entriesFrom_separated, entriesFrom_gap,
        entriesFrom_back, List.map_append, CommentPlace.above]
  | behind above entry gap below =>
      -- Without a comment, the blanks of the gap are as good as blanks of the entry.
      let entry' : Declaration := { entry with after := entry.after.append gap }
      have htext : (CommentPlace.behind above entry gap below).text =
          separatedText above ++ (entry'.text ++ restText below) := by
        simp [CommentPlace.text, CommentPlace.front, CommentPlace.back, Declaration.text, Gap.append, entry']
      rw [htext, entriesFrom_separated, entriesFrom_declaration entry' (stops_restText rfl below)
        (stops_restText rfl below) fun _ => mayEnd_restText _ below, entriesFrom_restText, CommentPlace.above,
        CommentPlace.below]
      simp [Declaration.property, entry']

/-! ## A comment on the line of a shorthand entry -/

theorem entriesFrom_word (w : Word) (h : entry (w.text ++ t) = none) (ht : Stops isWord t) :
    entriesFrom none 0 0 (w.text ++ t) = entriesFrom none 0 0 t := by
  rw [entriesFrom_append, entriesFrom_of_stops ht,
    depthOf_eq_zero fun c hc => depthChange_of_isWord (w.word c hc), Int.add_zero]
  intro v c r hw _ hbegins
  cases hlast : v.getLast? with
  | none =>
      obtain rfl := List.getLast?_eq_none_iff.1 hlast
      rw [hw] at h
      exact h
  | some d =>
      have hd : isWord d = true := w.word d (by simp [hw, List.mem_of_getLast? hlast])
      simp [hlast, beginsWord, hd] at hbegins

theorem entriesFrom_list {list : Text} (h : ∀ c ∈ list, isListed c = true) (t : Text) :
    entriesFrom none 0 0 ('[' :: (list ++ ']' :: t)) = entriesFrom none 0 0 t := by
  have hlevel : ∀ c ∈ list, depthChange c = 0 := fun c hc => by
    rcases isListed_cases (h c hc) with hword | hblank | rfl
    · exact depthChange_of_isWord hword
    · exact depthChange_of_isBlank hblank
    · rfl
  have hopen : ∀ v : Text, depthOf ('[' :: v) = 1 + depthOf v := fun _ => rfl
  have hquiet : ∀ v c w, '[' :: (list ++ [']']) = v ++ c :: w → 0 + depthOf v = 0 →
      beginsWord (v.getLast?.or none) = true → entry (c :: (w ++ t)) = none := by
    intro v c w hsplit hdepth _
    cases v with
    | nil =>
        obtain ⟨rfl, -⟩ := List.cons.inj hsplit
        exact entry_of_stops (Stops.cons_iff.2 rfl)
    | cons d v =>
        -- Within the brackets nothing is read.
        obtain ⟨rfl, hv⟩ := List.cons.inj hsplit
        have hinside : v <+: list := by
          refine (List.prefix_concat_iff.1 ⟨c :: w, hv.symm⟩).resolve_left fun heq => ?_
          simpa [heq] using congrArg List.length hv
        have hzero := depthOf_eq_zero fun c hc => hlevel c (hinside.subset hc)
        rw [hopen] at hdepth
        omega
  have hclosed : depthOf ('[' :: (list ++ [']'])) = 0 := by
    rw [hopen, depthOf_append, depthOf_eq_zero hlevel]
    rfl
  have happend := entriesFrom_append hquiet
  rw [hclosed, ← List.cons_append, List.getLast?_append_cons] at happend
  rw [entriesFrom_of_begins (show beginsWord ([']'].getLast?.or none) = true from rfl)] at happend
  simpa using happend

/-- Neither the entry nor its type is read, if its line goes on with a comment. -/
theorem entriesFrom_unended {d : Declaration} (hshort : d.value.IsShorthand) (hline : '\n' ∉ d.after.text)
    (t : Text) : entriesFrom none 0 0 (d.text ++ '/' :: t) = entriesFrom none 0 0 ('/' :: t) := by
  obtain ⟨before, name, gap, gap', v, after⟩ := d
  have hslash : Stops isWord ('/' :: t) := Stops.cons_iff.2 rfl
  have hend : shorthandEnd (after.text ++ '/' :: t) = none :=
    shorthandEnd_eq_none (Stops.cons_iff.2 rfl) (by simp [MayEnd, hline])
  have hname :
      entry (name.text ++ (gap.text ++ ':' :: (gap'.text ++ (v.text ++ (after.text ++ '/' :: t))))) = none := by
    rw [entry_tokens name gap gap' (v.stops _)]
    cases v with
    | type typeName => rw [Value.text, value_type _ _ (after.stops hslash), hend]; rfl
    | types list h =>
        rw [Value.text, List.cons_append, List.append_assoc, List.singleton_append,
          value_square _ (Value.notMem_types h), hend]
        rfl
    | definition text h => exact hshort.elim
  have hvalue : entriesFrom none 0 0 (v.text ++ (after.text ++ '/' :: t)) = entriesFrom none 0 0 ('/' :: t) := by
    cases v with
    | type typeName =>
        have hread : entry (typeName.text ++ (after.text ++ '/' :: t)) = none := by
          rw [entry_word _ (after.stops hslash), colon_gap, colon_eq_none (Stops.cons_iff.2 rfl)]
          rfl
        rw [Value.text, entriesFrom_word typeName.toWord hread (after.stops hslash), entriesFrom_gap]
    | types list h =>
        rw [Value.text, List.cons_append, List.append_assoc, List.singleton_append, entriesFrom_list h,
          entriesFrom_gap]
    | definition text h => exact hshort.elim
  simp only [Declaration.text, List.append_assoc, List.cons_append]
  rw [entriesFrom_gap, entriesFrom_word name hname (gap.stops (Stops.cons_iff.2 rfl)), entriesFrom_gap,
    entriesFrom_sign rfl rfl, entriesFrom_gap, hvalue]

/-! ## Comments that make a difference -/

/-- The first place at which a text can be parted so that `P` holds. -/
theorem exists_first {P : Text → Text → Prop} (h : ∃ u v, t = u ++ v ∧ P u v) :
    ∃ u v, t = u ++ v ∧ P u v ∧ ∀ u' c w, u = u' ++ c :: w → ¬ P u' (c :: (w ++ v)) := by
  induction t generalizing P with
  | nil =>
      obtain ⟨u, v, ht, hP⟩ := h
      obtain ⟨rfl, rfl⟩ := List.append_eq_nil_iff.1 ht.symm
      exact ⟨[], [], rfl, hP, fun u' c w hu => by simp at hu⟩
  | cons c t ih =>
      by_cases hnow : P [] (c :: t)
      · exact ⟨[], c :: t, rfl, hnow, fun u' d w hu => by simp at hu⟩
      · obtain ⟨u, v, ht, hP⟩ := h
        cases u with
        | nil => exact absurd (ht ▸ hP) hnow
        | cons d u =>
            obtain ⟨rfl, rfl⟩ := List.cons.inj ht
            obtain ⟨u, v, ht, hP, hfirst⟩ := ih (P := fun u v => P (c :: u) v) ⟨u, v, rfl, hP⟩
            refine ⟨c :: u, v, by rw [ht, List.cons_append], hP, fun u' d w hu => ?_⟩
            cases u' with
            | nil =>
                obtain ⟨rfl, rfl⟩ := List.cons.inj hu
                rw [← ht]
                exact hnow
            | cons e u' =>
                obtain ⟨rfl, hu'⟩ := List.cons.inj hu
                exact hfirst u' d w hu'

/-- The letter `x` as a type or the name of an entry. -/
def letterX : TypeName := ⟨.of 'x' [] rfl, by simp [Word.of, isTypeStart]⟩

/-- A gap of one line feed. -/
def lineBreak : Gap := .of ['\n'] rfl

/-- The object of no entries. -/
def noEntry : PropertyObject := ⟨[], .blanks .empty⟩

/-- The object of one entry, with its name and the gap behind the name as given in front of a value. -/
def oneEntry (gap : Gap) (value : Value) : PropertyObject :=
  ⟨[], .entry ⟨.empty, letterX.toWord, gap, .empty, value, .empty⟩⟩

/-- The empty list of types. -/
def noTypes : Value := .types [] (by simp)

theorem EndsEntry.stops (h : EndsEntry t) : Stops isWord t := by
  obtain ⟨g, c, r, rfl, rfl | rfl⟩ := h <;> exact g.stops (Stops.cons_iff.2 rfl)

/-- In front of some object, what is read as a value is read as one that no entry of the object has. -/
theorem value_of_readsValue (h : ReadsValue v) (n : Text) : ∃ (o : PropertyObject) (q : Property) (r : Text),
    Stops isBlank (v ++ o.text) ∧ value n (v ++ o.text) = some (q, r) ∧
      ∀ qs, q :: qs ≠ o.declarations.map Declaration.property := by
  have hnone : ∀ {q r}, Stops isBlank v → value n v = some (q, r) → ∃ (o : PropertyObject) (q : Property) (r : Text),
      Stops isBlank (v ++ o.text) ∧ value n (v ++ o.text) = some (q, r) ∧
        ∀ qs, q :: qs ≠ o.declarations.map Declaration.property := by
    intro q r hstops hread
    rw [← List.append_nil v] at hstops hread
    exact ⟨noEntry, q, r, hstops, hread, fun _ heq => List.cons_ne_nil _ _ heq⟩
  cases h with
  | missing =>
      have hread := value_type n letterX (t := ['\n', ':', '[', ']']) (Stops.cons_iff.2 rfl)
      refine ⟨oneEntry lineBreak noTypes, { name := n, type := letterX.text }, ['\n', ':', '[', ']'],
        Stops.cons_iff.2 rfl, hread, fun _ heq => ?_⟩
      have htype : letterX.text = ['[', ']'] := congrArg Property.type (List.cons.inj heq).1
      cases htype
  | brace t => exact hnone (Stops.cons_iff.2 rfl) (value_brace n t)
  | @unclosed t ht =>
      have hlist : ']' ∉ t ++ ['x', ':', '['] := by simpa using ht
      have hread := value_square n hlist []
      rw [List.append_assoc] at hread
      refine ⟨oneEntry .empty noTypes, _, [], Stops.cons_iff.2 rfl, hread, fun _ heq => ?_⟩
      have htype := congrArg List.length (congrArg Property.type (List.cons.inj heq).1)
      simp [Declaration.property, Value.property, noTypes] at htype
  | @square list t hlist ht =>
      obtain ⟨a, hend⟩ := exists_shorthandEnd_iff.2 (.inr ht)
      have hread := value_square n hlist t
      rw [hend] at hread
      exact hnone (Stops.cons_iff.2 rfl) hread
  | @type typeName t ht =>
      obtain ⟨a, hend⟩ := exists_shorthandEnd_iff.2 (.inr ht)
      have hread := value_type n typeName ht.stops
      rw [hend] at hread
      exact hnone (Value.stops (.type typeName) t) hread

theorem exists_entriesFrom {q : Property × Text} (h : entry t = some q) :
    ∃ qs, entriesFrom none 0 0 t = q.1 :: qs := by
  cases t with
  | nil => cases h
  | cons c t =>
      rw [entriesFrom, h]
      exact ⟨_, rfl⟩

theorem isInert_of_unchanged {x : Comment}
    (h : ∀ o : PropertyObject, entriesFrom none 0 0 (x.text ++ o.text) = o.declarations.map Declaration.property) :
    IsInert x := by
  obtain ⟨e, hlast, he⟩ := exists_getLast?_text x
  have hunread : ∀ v c w, ¬ BeginsEntry (c :: w) → x.text = v ++ c :: w → ∀ o : PropertyObject,
      entry (c :: w ++ o.text) = none := by
    intro v c w hbegins hsplit o
    refine Option.eq_none_iff_forall_ne_some.2 fun q hread => hbegins ?_
    rw [hsplit, List.getLast?_append_cons] at hlast
    exact beginsEntry_of_entry hlast he o.isBack hread
  have hquiet : ∀ u v, x.text = u ++ v → depthOf u = 0 → beginsWord u.getLast? = true → ¬ BeginsEntry v := by
    intro u v hsplit hdepth hbegins hentry
    obtain ⟨u, v, hsplit, ⟨hdepth, hbegins, hentry⟩, hfirst⟩ := exists_first
      (P := fun u v => depthOf u = 0 ∧ beginsWord u.getLast? = true ∧ BeginsEntry v)
      ⟨u, v, hsplit, hdepth, hbegins, hentry⟩
    obtain ⟨name, g, g', v', hv, hvalue⟩ := hentry
    obtain ⟨o, q, r, hstops, hread, hne⟩ := value_of_readsValue hvalue name.text
    have hread' : entry (v ++ o.text) = some (q, r) := by
      rw [hv, ← hread, ← entry_tokens name g g' hstops]
      simp
    obtain ⟨qs, hqs⟩ := exists_entriesFrom hread'
    have hall := h o
    rw [hsplit, List.append_assoc, entriesFrom_append, hdepth, entriesFrom_of_begins (by simpa using hbegins)] at hall
    · exact hne qs (hqs.symm.trans hall)
    · intro u' c w hu hzero hbegins'
      have := hunread u' c (w ++ v) (fun hentry => hfirst u' c w hu ⟨by omega, by simpa using hbegins', hentry⟩)
        (by rw [hsplit, hu]; simp) o
      simpa using this
  refine ⟨?_, hquiet⟩
  by_contra hdepth
  -- With a bracket open, or one too many closed, the next entry is not read.
  have hletters : ∀ c ∈ ['x', ':', 'x'], depthChange c = 0 := by simp [depthChange]
  have hdeep : ∀ v c w, ['x', ':', 'x'] = v ++ c :: w → 0 + depthOf x.text + depthOf v = 0 →
      beginsWord (v.getLast?.or (x.text.getLast?.or none)) = true → entry (c :: (w ++ [])) = none := by
    intro v c w hsplit hzero _
    have hv := depthOf_eq_zero fun d (hd : d ∈ v) => hletters d (by rw [hsplit]; exact List.mem_append_left _ hd)
    omega
  have hnone : entriesFrom none 0 0 (x.text ++ ['x', ':', 'x']) = [] := by
    rw [entriesFrom_append, ← List.append_nil ['x', ':', 'x'], entriesFrom_append hdeep]
    · rfl
    · intro v c w hsplit hzero hbegins
      have := hunread v c w (hquiet v (c :: w) hsplit (by omega) (by simpa using hbegins)) hsplit
        (oneEntry .empty (.type letterX))
      exact this
  have hone := h (oneEntry .empty (.type letterX))
  exact List.cons_ne_nil _ _ (hone.symm.trans hnone)

/-! ## Which comments, and where -/

theorem exists_text_eq_cons (x : Comment) : ∃ t, x.text = '/' :: t := by
  cases x <;> exact ⟨_, rfl⟩

theorem stops_comment {q : Char → Bool} (hq : q '/' = false) (x : Comment) (t : Text) : Stops q (x.text ++ t) := by
  cases x <;> exact Stops.cons_iff.2 hq

theorem entriesFrom_commented {p : CommentPlace} (hp : p.IsClean) {x : Comment} (hx : IsInert x) :
    entriesFrom none 0 0 (p.commented x) = entriesFrom none 0 0 p.text := by
  rw [CommentPlace.commented, entriesFrom_front hp (stops_comment rfl x p.back) (stops_comment rfl x p.back),
    entriesFrom_inert hx p.isBack, entriesFrom_back, entriesFrom_text, List.map_append]

/-- A comment on the line of a shorthand entry hides the entry. -/
theorem entriesFrom_commented_ne {p : CommentPlace} (hp : ¬ p.IsClean) {x : Comment} (hx : IsInert x) :
    entriesFrom none 0 0 (p.commented x) ≠ entriesFrom none 0 0 p.text := by
  cases p with
  | before above gap below => exact absurd trivial hp
  | behind above entry gap below =>
      obtain ⟨hshort, hline⟩ := Classical.not_imp.1 hp
      obtain ⟨t, ht⟩ := exists_text_eq_cons x
      let p := CommentPlace.behind above entry gap below
      have hread : entriesFrom none 0 0 (p.commented x) =
          above.map Declaration.property ++ p.below.map Declaration.property := by
        have hinert := entriesFrom_inert hx p.isBack
        rw [ht, List.cons_append] at hinert
        rw [CommentPlace.commented, CommentPlace.front, ht, List.append_assoc, entriesFrom_separated,
          List.cons_append, entriesFrom_unended hshort hline, hinert, entriesFrom_back]
      rw [hread, entriesFrom_text]
      intro heq
      have := congrArg List.length heq
      simp [p, CommentPlace.above] at this

theorem CommentPlace.passes_front (p : CommentPlace) : PassesOver p.front := by
  cases p with
  | before above gap below => exact (passes_separated above).append (PassesOver.gap gap)
  | behind above entry gap below => exact (passes_separated above).append entry.passes

theorem CommentPlace.passes_back (p : CommentPlace) : PassesOver p.back := by
  cases p with
  | before above gap below => exact below.passes
  | behind above entry gap below =>
      refine (PassesOver.gap gap).append ?_
      cases below with
      | none => exact .gap .empty
      | some o => exact (PassesOver.sign (c := ',') (by decide)).append o.passes

theorem CommentPlace.passes_text (p : CommentPlace) : PassesOver p.text := p.passes_front.append p.passes_back

theorem CommentPlace.passes_commented (p : CommentPlace) (x : Comment) : PassesOver (p.commented x) :=
  p.passes_front.append ((PassesOver.comment x).append p.passes_back)

end Properties

open Properties

/-- A comment makes no difference wherever it does not stand on the line of a shorthand entry, exactly if it is
inert; and if it is, it makes a difference wherever it does. -/
theorem properties_commented_iff (f : Frame) (x : Comment) :
    (IsInert x ↔
      ∀ p : CommentPlace, p.IsClean → properties (f.around (p.commented x)) = properties (f.around p.text)) ∧
      (IsInert x →
        ∀ p : CommentPlace, properties (f.around (p.commented x)) = properties (f.around p.text) ↔ p.IsClean) := by
  have hread : ∀ p : CommentPlace, properties (f.around (p.commented x)) = properties (f.around p.text) ↔
      entriesFrom none 0 0 (p.commented x) = entriesFrom none 0 0 p.text := by
    intro p
    rw [properties_around f (p.passes_commented x), properties_around f p.passes_text]
  refine ⟨⟨fun hx p hp => (hread p).2 (entriesFrom_commented hp hx), fun hall => ?_⟩, fun hx p => ?_⟩
  · refine isInert_of_unchanged fun o => ?_
    have := (hread (.before [] .empty o)).1 (hall (.before [] .empty o) trivial)
    exact this.trans (entriesFrom_object o)
  · rw [hread]
    exact ⟨fun heq => by_contra fun hp => entriesFrom_commented_ne hp hx heq, fun hp => entriesFrom_commented hp hx⟩

/-- An entry that is commented out. -/
def oldEntry : Comment := .line " old: String" (by decide)

theorem not_isInert_oldEntry : ¬ IsInert oldEntry := by
  intro h
  refine h.quiet "// " "old: String\n" rfl rfl rfl ⟨.of 'o' "ld" rfl, .empty, .of " " rfl, _, rfl, ?_⟩
  exact .type ⟨.of 'S' "tring" rfl, by simp [Word.of, isTypeStart]⟩ ⟨.empty, '\n', [], rfl, .inl rfl⟩

theorem properties_oldEntry : ¬ ∀ p : CommentPlace, p.IsClean →
    properties (avatarFrame.around (p.commented oldEntry)) = properties (avatarFrame.around p.text) := by
  rw [← (properties_commented_iff avatarFrame oldEntry).1]
  exact not_isInert_oldEntry

end ComponentCatalog
