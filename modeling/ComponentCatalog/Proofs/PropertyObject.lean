import ComponentCatalog.Proofs.Nesting
import ComponentCatalog.Proofs.PropertyEntries

/-!
# The properties object

A properties object is written entry by entry, each with a type, a list of types or a definition. The
properties of a component are those of the entries of its first properties object, whatever the definitions
hold and whatever follows the object.
-/

namespace ComponentCatalog

namespace Properties

open Reader

variable {c : Char} {t : Text}

/-! ## Written objects -/

/-- A list of types is a text of words, blanks and commas. -/
def isListed (c : Char) : Bool := isWord c || isBlank c || c == ','

/-- What stands behind the colon of an entry. -/
inductive Value
  | type (name : TypeName)
  | types (list : Text) (h : ∀ c ∈ list, isListed c = true)
  | definition (text : Text) (h : WellNested text)

/-- A value as it is written. -/
def Value.text : Value → Text
  | type name => name.text
  | types list _ => '[' :: (list ++ [']'])
  | definition text _ => '\x7b' :: (text ++ ['\x7d'])

/-- The property that an entry with this value declares. -/
def Value.property (name : Text) : Value → Property
  | type typeName => { name := name, type := typeName.text }
  | types list _ => { name := name, type := '[' :: (list ++ [']']) }
  | definition text _ => ofDefinition name text

/-- An entry with the blanks around its tokens. -/
structure Declaration where
  before : Gap
  name : Word
  gap : Gap
  gap' : Gap
  value : Value
  after : Gap

/-- An entry as it is written. -/
def Declaration.text (d : Declaration) : Text :=
  d.before.text ++ (d.name.text ++ (d.gap.text ++ ':' :: (d.gap'.text ++ (d.value.text ++ d.after.text))))

/-- The property that an entry declares. -/
def Declaration.property (d : Declaration) : Property := d.value.property d.name.text

/-- Entries with a comma behind each. -/
def separatedText (ds : List Declaration) : Text := ds.flatMap fun d => d.text ++ [',']

/-- What stands behind the last comma. -/
inductive Ending
  | blanks (g : Gap)
  | entry (d : Declaration)

/-- The end of an object as it is written. -/
def Ending.text : Ending → Text
  | blanks g => g.text
  | entry d => d.text

/-- The entry at the end, if there is one. -/
def Ending.declarations : Ending → List Declaration
  | blanks _ => []
  | entry d => [d]

/-- The inside of a properties object: entries with a comma behind each, and maybe one without. -/
structure PropertyObject where
  separated : List Declaration
  ending : Ending

namespace PropertyObject

/-- The inside as it is written. -/
def text (o : PropertyObject) : Text := separatedText o.separated ++ o.ending.text

/-- All entries, from first to last. -/
def declarations (o : PropertyObject) : List Declaration := o.separated ++ o.ending.declarations

end PropertyObject

/-- The word `props`, a colon and a brace that opens, with blanks between them. -/
def IsOpening (t : Text) : Prop := ∃ g g' : Gap, t = "props".toList ++ (g.text ++ ':' :: (g'.text ++ ['\x7b']))

/-- The text around the inside of the first properties object. -/
structure Frame where
  front : Text
  gap : Gap
  gap' : Gap
  rest : Text
  begins : beginsWord front.getLast? = true
  isFirst : ∀ u v w, front = u ++ v ++ w → IsOpening v → beginsWord u.getLast? = false

/-- The whole text, for one inside. -/
def Frame.around (f : Frame) (inside : Text) : Text :=
  f.front ++ ("props".toList ++ (f.gap.text ++ ':' :: (f.gap'.text ++ '\x7b' :: (inside ++ '\x7d' :: f.rest))))

/-! ## Reading an entry -/

theorem isListed_cases (h : isListed c = true) : isWord c = true ∨ isBlank c = true ∨ c = ',' := by
  simpa [isListed, or_assoc] using h

theorem isNeutral_of_listed (h : isListed c = true) : IsNeutral c := by
  rcases isListed_cases h with hword | hblank | rfl
  · exact isNeutral_of_isWord hword
  · exact isNeutral_of_isBlank hblank
  · decide

theorem Value.stops (v : Value) (t : Text) : Stops isBlank (v.text ++ t) := by
  cases v with
  | type name => exact name.stops (fun _ => isBlank_of_isWord) t
  | types list h => exact Stops.cons_iff.2 rfl
  | definition text h => exact Stops.cons_iff.2 rfl

/-- Is an entry's value a type or a list of types? -/
def Value.IsShorthand : Value → Prop
  | type _ => True
  | types _ _ => True
  | definition _ _ => False

theorem Value.notMem_types {list : Text} (h : ∀ c ∈ list, isListed c = true) : ']' ∉ list := fun hmem => by
  cases h ']' hmem

/-- A value is read up to blanks in front of what follows. -/
theorem value_text (n : Text) (v : Value) {g : Gap} (ht : Stops isBlank t) (hword : Stops isWord t)
    (h : v.IsShorthand → MayEnd g t) :
    ∃ (w : Text) (g' : Gap), g.text = w ++ g'.text ∧
      value n (v.text ++ (g.text ++ t)) = some (v.property n, g'.text ++ t) := by
  cases v with
  | type name =>
      obtain ⟨w, g', hg, hend⟩ := exists_shorthandEnd ht (h trivial)
      refine ⟨w, g', hg, ?_⟩
      rw [Value.text, value_type n name (g.stops hword), hend]
      rfl
  | types list hlist =>
      obtain ⟨w, g', hg, hend⟩ := exists_shorthandEnd ht (h trivial)
      refine ⟨w, g', hg, ?_⟩
      rw [Value.text, List.cons_append, List.append_assoc, List.singleton_append,
        value_square n (Value.notMem_types hlist), hend]
      rfl
  | definition text htext =>
      refine ⟨[], g, rfl, ?_⟩
      rw [Value.text, List.cons_append, List.append_assoc, List.singleton_append, value_brace,
        enclosed_wellNested htext]
      rfl

theorem entry_tokens (name : Word) (g g' : Gap) (ht : Stops isBlank t) :
    entry (name.text ++ (g.text ++ ':' :: (g'.text ++ t))) = value name.text t := by
  rw [entry_word name (g.stops (Stops.cons_iff.2 rfl)), colon_gap, colon_colon, ht.dropWhile_append g'.blank,
    Option.bind_some]

theorem entriesFrom_declaration (d : Declaration) (ht : Stops isBlank t) (hword : Stops isWord t)
    (h : d.value.IsShorthand → MayEnd d.after t) :
    entriesFrom none 0 0 (d.text ++ t) = d.property :: entriesFrom none 0 0 t := by
  obtain ⟨w, g', hafter, hvalue⟩ := value_text d.name.text d.value ht hword h
  -- The entry takes all but the blanks `g'`.
  let taken := d.name.text ++ (d.gap.text ++ ':' :: (d.gap'.text ++ (d.value.text ++ w)))
  have htaken : taken ≠ [] := List.append_ne_nil_of_left_ne_nil d.name.ne_nil _
  have htext : d.text ++ t = d.before.text ++ (taken ++ (g'.text ++ t)) := by
    simp [Declaration.text, taken, hafter]
  have hread : entry (taken ++ (g'.text ++ t)) = some (d.property, g'.text ++ t) := by
    rw [hafter, List.append_assoc] at hvalue
    have := entry_tokens d.name d.gap d.gap' (d.value.stops (w ++ (g'.text ++ t)))
    rw [hvalue] at this
    simpa [taken, Declaration.property] using this
  rw [htext, entriesFrom_gap, entriesFrom_entry htaken hread, entriesFrom_of_stops (g'.stops hword),
    entriesFrom_gap]

/-! ## Reading an object -/

theorem entriesFrom_separated (ds : List Declaration) (t : Text) :
    entriesFrom none 0 0 (separatedText ds ++ t) = ds.map Declaration.property ++ entriesFrom none 0 0 t := by
  induction ds with
  | nil => rfl
  | cons d ds ih =>
      have hcomma := entriesFrom_declaration d (t := ',' :: (separatedText ds ++ t)) (Stops.cons_iff.2 rfl)
        (Stops.cons_iff.2 rfl) fun _ => .inr (.inl rfl)
      rw [entriesFrom_sign rfl rfl, ih] at hcomma
      simpa [separatedText] using hcomma

theorem entriesFrom_ending (e : Ending) :
    entriesFrom none 0 0 e.text = e.declarations.map Declaration.property := by
  cases e with
  | blanks g =>
      have hgap : entriesFrom none 0 0 (g.text ++ []) = entriesFrom none 0 0 [] := entriesFrom_gap g []
      simpa [entriesFrom, Ending.text, Ending.declarations] using hgap
  | entry d =>
      simpa [entriesFrom, Ending.text, Ending.declarations] using
        entriesFrom_declaration d (t := []) .nil .nil fun _ => .inl rfl

theorem entriesFrom_object (o : PropertyObject) :
    entriesFrom none 0 0 o.text = o.declarations.map Declaration.property := by
  rw [PropertyObject.text, entriesFrom_separated, entriesFrom_ending, PropertyObject.declarations, List.map_append]

/-! ## Finding the object -/

theorem Value.passes (v : Value) : PassesOver v.text := by
  cases v with
  | type name => exact .word name.toWord
  | types list h =>
      refine .of_neutral fun c hc => ?_
      rcases List.mem_cons.1 hc with rfl | hc
      · decide
      · rcases List.mem_append.1 hc with hc | hc
        · exact isNeutral_of_listed (h c hc)
        · rw [List.mem_singleton.1 hc]
          decide
  | definition text h => exact .braces h

theorem Declaration.passes (d : Declaration) : PassesOver d.text :=
  (PassesOver.gap d.before).append <| (PassesOver.word d.name).append <| (PassesOver.gap d.gap).append <|
    (PassesOver.sign (c := ':') (by decide)).append <|
      (PassesOver.gap d.gap').append <| d.value.passes.append (.gap d.after)

theorem passes_separated (ds : List Declaration) : PassesOver (separatedText ds) :=
  .flatMap fun d _ => d.passes.append (.sign (by decide))

theorem PropertyObject.passes (o : PropertyObject) : PassesOver o.text := by
  refine (passes_separated o.separated).append ?_
  cases o.ending with
  | blanks g => exact .gap g
  | entry d => exact d.passes

theorem objectOpening_eq_some_iff {previous : Option Char} {a : Unit} {r : Text} :
    objectOpening previous t = some (a, r) ↔
      beginsWord previous = true ∧ ∃ v, IsOpening v ∧ t = v ++ r := by
  constructor
  · intro h
    rw [objectOpening, bind_apply, when_apply] at h
    obtain ⟨⟨_, t'⟩, hwhen, h⟩ := Option.bind_eq_some_iff.1 h
    obtain ⟨⟨_, s⟩, hprops, h⟩ := Option.bind_eq_some_iff.1 h
    obtain ⟨⟨_, s'⟩, hcolon, hbrace⟩ := Option.bind_eq_some_iff.1 h
    split at hwhen
    · next hbegins =>
        cases hwhen
        obtain ⟨g, g', hs, -⟩ := exists_of_colon hcolon
        refine ⟨hbegins, _, ⟨g, g', rfl⟩, ?_⟩
        have ht : t = "props".toList ++ s := lit_eq_some_iff.1 hprops
        have hs' : s' = "\x7b".toList ++ r := lit_eq_some_iff.1 hbrace
        rw [ht, hs, hs']
        simp
    · cases hwhen
  · rintro ⟨hbegins, _, ⟨g, g', rfl⟩, rfl⟩
    have hbrace : Stops isBlank ('\x7b' :: r) := Stops.cons_iff.2 rfl
    rw [objectOpening, bind_apply, hbegins, when_apply, if_pos rfl, Option.bind_some, bind_apply,
      List.append_assoc, lit_append, Option.bind_some, bind_apply, List.append_assoc, colon_gap,
      List.cons_append, colon_colon, List.append_assoc, List.singleton_append, hbrace.dropWhile_append g'.blank,
      Option.bind_some]
    rfl

theorem isFirst_of_first? {front : Text} (h : first? objectOpening front = none) :
    ∀ u v w, front = u ++ v ++ w → IsOpening v → beginsWord u.getLast? = false := by
  rintro u v w rfl hv
  rw [Bool.eq_false_iff]
  intro hbegins
  obtain ⟨c, t, ht⟩ := List.exists_cons_of_ne_nil (l := v ++ w) (by obtain ⟨g, g', rfl⟩ := hv; simp)
  rw [List.append_assoc, ht, first?] at h
  have hread : objectOpening (u.getLast?.or none) (c :: t) = some ((), w) := by
    rw [Option.or_none, ← ht]
    exact objectOpening_eq_some_iff.2 ⟨hbegins, v, hv, rfl⟩
  exact firstFrom?_ne_none hread h

/-- A properties opening that begins in front of another one ends in front of it. -/
theorem IsOpening.isPrefix {o v r w : Text} (ho : IsOpening o) (hv : v ≠ [])
    (h : o ++ r = v ++ ("props".toList ++ w)) : ∃ u, v = o ++ u := by
  obtain ⟨g, g', rfl⟩ := ho
  have hletter : 'p' ∉ g.text ++ ':' :: (g'.text ++ ['\x7b']) := by
    intro hmem
    have hblank : ∀ g : Gap, 'p' ∉ g.text := fun g hg => by cases g.blank _ hg
    simp [hblank] at hmem
  rw [List.append_assoc] at h
  -- The other one would begin with the second `p` of this one, or with none.
  rcases v with _ | ⟨a, _ | ⟨b, _ | ⟨c, _ | ⟨d, _ | ⟨e, v⟩⟩⟩⟩⟩
  · exact absurd rfl hv
  · simp at h
  · simp at h
  · simp at h
  · simp at h
  · simp only [String.reduceToList, List.cons_append, List.nil_append, List.cons.injEq] at h
    obtain ⟨rfl, rfl, rfl, rfl, rfl, h⟩ := h
    rcases List.append_eq_append_iff.1 h with ⟨u, hv', -⟩ | ⟨u, htail, hr⟩
    · exact ⟨u, by rw [hv']; simp⟩
    · cases u with
      | nil => exact ⟨[], by simpa using htail.symm⟩
      | cons x u =>
          obtain rfl : 'p' = x := (List.cons.inj hr).1
          exact absurd (by rw [htail]; simp) hletter

theorem properties_around (f : Frame) {inside : Text} (h : PassesOver inside) :
    properties (f.around inside) = entriesFrom none 0 0 inside := by
  let opening := "props".toList ++ (f.gap.text ++ ':' :: (f.gap'.text ++ ['\x7b']))
  have hopening : IsOpening opening := ⟨f.gap, f.gap', rfl⟩
  have haround : f.around inside = f.front ++ (opening ++ (inside ++ '\x7d' :: f.rest)) := by
    simp [Frame.around, opening]
  have hfront : ∀ u c v, f.front = u ++ c :: v →
      objectOpening (u.getLast?.or none) (c :: (v ++ (opening ++ (inside ++ '\x7d' :: f.rest)))) = none := by
    intro u c v hsplit
    refine Option.eq_none_iff_forall_ne_some.2 fun q hread => ?_
    obtain ⟨hbegins, o, ho, ht⟩ := objectOpening_eq_some_iff.1 hread
    obtain ⟨w, hw⟩ := ho.isPrefix (v := c :: v) (List.cons_ne_nil _ _)
      (w := (f.gap.text ++ ':' :: (f.gap'.text ++ ['\x7b'])) ++ (inside ++ '\x7d' :: f.rest))
      (by rw [← ht]; simp [opening])
    rw [Option.or_none, f.isFirst u o w (by rw [hsplit, hw, List.append_assoc]) ho] at hbegins
    cases hbegins
  have hfirst : first? objectOpening (f.around inside) = some ((), inside ++ '\x7d' :: f.rest) := by
    obtain ⟨c, r, hcons⟩ :=
      List.exists_cons_of_ne_nil (l := opening ++ (inside ++ '\x7d' :: f.rest)) (by simp [opening])
    rw [first?, haround, firstFrom?_append hfront, hcons, firstFrom?, ← hcons, Option.or_none,
      objectOpening_eq_some_iff.2 ⟨f.begins, opening, hopening, rfl⟩]
    rfl
  rw [properties, hfirst]
  simp only [h.enclosed_eq]

end Properties

open Properties

/-- The properties of a component are those of the entries of its first properties object. -/
theorem properties_object (f : Frame) (o : PropertyObject) :
    properties (f.around o.text) = o.declarations.map Declaration.property := by
  rw [properties_around f o.passes, entriesFrom_object]

/-- A component with a name in front of its properties and methods behind them. -/
def avatarFrame : Frame where
  front := "export default \x7b\n  name: 'yb-avatar',\n  "
  gap := .empty
  gap' := .of " " rfl
  rest := ",\n  methods: \x7b\x7d\n\x7d;\n"
  begins := rfl
  isFirst := isFirst_of_first? rfl

/-- A definition with a brace in quotes, and a list of types. -/
def avatarObject : PropertyObject where
  separated := [⟨.of "\n    " rfl, .of 's' "rc" rfl, .empty, .of " " rfl,
    .definition " type: String, default: () => \x7b return '\x7d' \x7d " (by decide +kernel), .empty⟩]
  ending := .entry ⟨.of "\n    " rfl, .of 'a' "lt" rfl, .empty, .of " " rfl,
    .types "String, Number" (List.all_eq_true.1 rfl), .of "\n  " rfl⟩

theorem properties_object_avatar : properties (avatarFrame.around avatarObject.text) =
    [{ name := "src", type := "String", default := some "() => \x7b return '" },
      { name := "alt", type := "[String, Number]" }] := by
  rw [properties_object]
  rfl

end ComponentCatalog
