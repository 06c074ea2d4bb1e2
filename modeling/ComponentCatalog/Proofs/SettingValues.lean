import ComponentCatalog.Proofs.IniText
import ComponentCatalog.Settings.Settings

/-!
# Values of the known settings

Settings that hold the known options and nothing else are told by the values of these options. They
stay so when a known option is set, and when the text of such settings is read.
-/

namespace ComponentCatalog

namespace Settings

variable {group option value : Text}

/-! ## Known options -/

theorem known_nodup : (known.map Prod.fst).Nodup ∧ ∀ x ∈ known, (x.2.map Prod.fst).Nodup := by decide

theorem defaults_entries :
    defaults.sections.entries = known.map fun (group, options) => (group, .ofList options) := by
  rw [defaults, OrderedMap.entries_ofList]
  exact known_nodup.1

theorem isKnown_iff_mem : isKnown group option = true ↔
    ∃ options value, (group, options) ∈ known ∧ (option, value) ∈ options := by
  constructor
  · intro h
    obtain ⟨⟨name, options⟩, hmem, h⟩ := List.any_eq_true.1 h
    obtain ⟨hname, hoption⟩ := (Bool.and_eq_true _ _).mp h
    obtain ⟨⟨o, value⟩, hmem', ho⟩ := List.any_eq_true.1 hoption
    obtain rfl : name = group := by simpa using hname
    obtain rfl : o = option := by simpa using ho
    exact ⟨options, value, hmem, hmem'⟩
  · rintro ⟨options, value, hmem, hmem'⟩
    exact List.any_eq_true.2 ⟨_, hmem, by simpa using ⟨value, hmem'⟩⟩

theorem isKnown_iff : isKnown group option = true ↔
    ∃ options, defaults.sections.find? group = some options ∧ option ∈ options.keys := by
  simp only [← OrderedMap.mem_entries_iff, defaults_entries, isKnown_iff_mem]
  constructor
  · rintro ⟨options, value, hmem, hoption⟩
    refine ⟨_, List.mem_map_of_mem hmem, ?_⟩
    rw [OrderedMap.keys, OrderedMap.entries_ofList (known_nodup.2 _ hmem)]
    exact List.mem_map_of_mem hoption
  · rintro ⟨_, hmem, hoption⟩
    obtain ⟨⟨name, options⟩, hknown, heq⟩ := List.mem_map.1 hmem
    obtain ⟨rfl, rfl⟩ := Prod.mk.inj heq
    rw [OrderedMap.keys, OrderedMap.entries_ofList (known_nodup.2 _ hknown)] at hoption
    obtain ⟨⟨_, value⟩, hmem', rfl⟩ := List.mem_map.1 hoption
    exact ⟨options, value, hknown, hmem'⟩

/-- The name of a known option does not begin with a bracket, so its line is no header. -/
theorem isEntry_of_isKnown (h : isKnown group option = true) (value : Text) : Ini.IsEntry option value := by
  have hall : ∀ x ∈ known, ∀ y ∈ x.2, y.1.lower = y.1 ∧ y.1.trim = y.1 ∧ y.1 ≠ [] ∧
      (y.1.head? ≠ some '#' ∧ y.1.head? ≠ some ';') ∧ y.1.head? ≠ some '[' ∧
      (y.1.all fun c => !Ini.isDelimiter c && c != '\n' && c != '\r') = true := by decide
  obtain ⟨options, value', hgroup, hoption⟩ := isKnown_iff_mem.1 h
  obtain ⟨hlower, htrim, hne, hhead, hbracket, hinner⟩ := hall _ hgroup _ hoption
  exact ⟨⟨hlower, htrim, hne, hhead, by simpa [and_assoc] using hinner⟩, fun heq => absurd heq hbracket⟩

theorem isOptionName_of_isKnown (h : isKnown group option = true) : Ini.IsOptionName option :=
  (isEntry_of_isKnown h []).toIsOptionName

theorem isGroupName_of_mem (h : group ∈ defaults.sections.keys) : Ini.IsGroupName group := by
  have hall : ∀ x ∈ known.map Prod.fst, x ≠ Ini.sharedName ∧ x ≠ [] ∧ '\n' ∉ x ∧ '\r' ∉ x := by decide
  have hmem : group ∈ known.map Prod.fst := by
    rw [OrderedMap.keys, defaults_entries] at h
    simpa using h
  obtain ⟨howned, hne, hfeed, hreturn⟩ := hall group hmem
  exact ⟨howned, hne, Ini.isOneLine_of_notMem hfeed hreturn⟩

/-! ## Values -/

/-- A value for every option. -/
abbrev Values := Text → Text → Text

/-- The values with one of them changed. -/
def Values.set (v : Values) (group option value : Text) : Values := fun g o =>
  if g = group ∧ o = option then value else v g o

/-- The known options with their values. -/
def valued (v : Values) : Ini where
  sections := defaults.sections.map fun group options => options.map fun option _ => v group option

theorem valued_sections (v : Values) : (valued v).sections =
    defaults.sections.map fun group options => options.map fun option _ => v group option := rfl

theorem valued_find? {options : Options} (v : Values) (h : defaults.sections.find? group = some options) :
    (valued v).sections.find? group = some (options.map fun option _ => v group option) := by
  rw [valued, OrderedMap.find?_map, h]
  rfl

theorem valued_congr {v w : Values} (h : ∀ group option, isKnown group option = true →
    v group option = w group option) : valued v = valued w := by
  have hsections : (valued v).sections = (valued w).sections :=
    OrderedMap.map_congr fun group options hoptions => OrderedMap.map_congr fun option _ hoption =>
      h group option (isKnown_iff.2 ⟨options, OrderedMap.mem_entries_iff.1 hoptions,
        List.mem_map_of_mem hoption⟩)
  exact congrArg (Ini.mk ∅) hsections

theorem valued_raw? (v : Values) (h : isKnown group option = true) :
    (valued v).raw? group option = some (v group option) := by
  obtain ⟨options, hoptions, hoption⟩ := isKnown_iff.1 h
  obtain ⟨x, hx⟩ := OrderedMap.mem_keys.1 hoption
  have hgroup := isGroupName_of_mem (OrderedMap.mem_keys.2 ⟨_, hoptions⟩)
  have hsection : (valued v).options? group = some (options.map fun option _ => v group option) := by
    rw [Ini.options?, if_neg hgroup.owned, valued_find? v hoptions]
  have hlookup : (options.map fun option _ => v group option).find? option = some (v group option) := by
    rw [OrderedMap.find?_map, hx]
    rfl
  rw [Ini.raw?, hsection]
  simp [(isOptionName_of_isKnown h).lower, hlookup]

theorem valued_addSection (v : Values) (h : group ∈ defaults.sections.keys) :
    (valued v).addSection group = valued v := by
  obtain ⟨options, hoptions⟩ := OrderedMap.mem_keys.1 h
  rw [Ini.addSection, if_pos (OrderedMap.contains_iff.2 ⟨_, valued_find? v hoptions⟩)]

theorem valued_put (v : Values) (h : isKnown group option = true) (value : Text) :
    (valued v).put group option value = valued (v.set group option value) := by
  obtain ⟨options, hoptions, hoption⟩ := isKnown_iff.1 h
  have hmem : group ∈ defaults.sections.keys := OrderedMap.mem_keys.2 ⟨_, hoptions⟩
  have hsections : (valued v).sections.insert group
      ((options.map fun option _ => v group option).insert option value) =
        (valued (v.set group option value)).sections := by
    rw [valued_sections, valued_sections, OrderedMap.insert_map hmem, OrderedMap.insert_map hoption]
    refine OrderedMap.map_congr fun g os hos => ?_
    by_cases hg : g = group
    · subst hg
      obtain rfl : os = options := Option.some.inj ((OrderedMap.mem_entries_iff.1 hos).symm.trans hoptions)
      rw [if_pos rfl]
      exact OrderedMap.map_congr fun o _ _ => by simp [Values.set]
    · rw [if_neg hg]
      exact OrderedMap.map_congr fun o _ _ => by simp [Values.set, hg]
  rw [Ini.put, if_neg (isGroupName_of_mem hmem).owned, (isOptionName_of_isKnown h).lower,
    valued_find? v hoptions]
  exact congrArg (Ini.mk ∅) hsections

/-- Setting a known option changes its value, unless the value has a stray percent sign. -/
theorem valued_set (v : Values) (h : isKnown group option = true) (value : Text) :
    (valued v).set group option value = match Ini.strayPercent? value with
      | some position => (.error (.invalidPercent value position), valued v)
      | none => (.ok (), valued (v.set group option value)) := by
  obtain ⟨options, hoptions, -⟩ := isKnown_iff.1 h
  have hmem : group ∈ defaults.sections.keys := OrderedMap.mem_keys.2 ⟨_, hoptions⟩
  have hname := isGroupName_of_mem hmem
  have hne : group.isEmpty = false := by simpa using hname.nonempty
  cases hstray : Ini.strayPercent? value <;>
    simp only [Ini.set, if_neg hname.owned, valued_addSection v hmem, hne, Bool.false_eq_true, ↓reduceIte,
      valued_put v h, hstray]

/-! ## Reading -/

theorem exists_of_mem_valued {v : Values} {options : Options} (h : (group, options) ∈ (valued v).sections.entries) :
    ∃ os, defaults.sections.find? group = some os ∧ options = os.map fun option _ => v group option := by
  have hsome := OrderedMap.mem_entries_iff.1 h
  rw [valued, OrderedMap.find?_map, Option.map_eq_some_iff] at hsome
  obtain ⟨os, hos, rfl⟩ := hsome
  exact ⟨os, hos, rfl⟩

theorem isKnown_of_mem_valued {v : Values} {options : Options} (h : (group, options) ∈ (valued v).sections.entries)
    (hoption : (option, value) ∈ options.entries) : isKnown group option = true ∧ value = v group option := by
  obtain ⟨os, hos, rfl⟩ := exists_of_mem_valued h
  have hsome := OrderedMap.mem_entries_iff.1 hoption
  rw [OrderedMap.find?_map, Option.map_eq_some_iff] at hsome
  obtain ⟨x, hx, rfl⟩ := hsome
  exact ⟨isKnown_iff.2 ⟨os, hos, OrderedMap.mem_keys.2 ⟨x, hx⟩⟩, rfl⟩

theorem valued_isReadable (v : Values) : Ini.IsReadable (valued v) where
  group group options hmem := by
    obtain ⟨os, hos, -⟩ := exists_of_mem_valued hmem
    exact isGroupName_of_mem (OrderedMap.mem_keys.2 ⟨os, hos⟩)
  option group options hmem option value hoption := isEntry_of_isKnown (isKnown_of_mem_valued hmem hoption).1 value
  shared option value hoption := absurd hoption List.not_mem_nil

/-- Values that fit on lines are read as they are. -/
theorem valued_reread {v : Values} (h : ∀ group option, isKnown group option = true → Ini.IsPlain (v group option)) :
    (valued v).reread = valued v := by
  have hsections : ((valued v).sections.map fun _ options => options.map fun _ value => Ini.readValue value) =
      (valued v).sections.map fun _ options => options := by
    refine OrderedMap.map_congr fun group options hmem => ?_
    refine Eq.trans (OrderedMap.map_congr fun option value hoption => ?_) (OrderedMap.map_id options)
    obtain ⟨hknown, rfl⟩ := isKnown_of_mem_valued hmem hoption
    exact (h group option hknown).readValue
  rw [OrderedMap.map_id] at hsections
  exact congrArg (Ini.mk ∅) hsections

/-- Putting known options one after the other leads from one assignment of values towards another. -/
theorem exists_foldl_put (u v : Values) (group : Text) {options : List Text}
    (h : ∀ option ∈ options, isKnown group option = true) :
    ∃ w : Values, (options.map fun option => (option, v group option)).foldl
        (fun m (option, value) => m.put group option value) (valued u) = valued w ∧
      (∀ g o, w g o = u g o ∨ w g o = v g o) ∧ ∀ option ∈ options, w group option = v group option := by
  induction options generalizing u with
  | nil => exact ⟨u, rfl, fun _ _ => .inl rfl, by simp⟩
  | cons option options ih =>
      obtain ⟨w, hw, htoward, hset⟩ := ih (u.set group option (v group option))
        fun o ho => h o (List.mem_cons_of_mem _ ho)
      have hfirst : ∀ g o, u.set group option (v group option) g o = u g o ∨
          u.set group option (v group option) g o = v g o := by
        intro g o
        unfold Values.set
        split
        · next heq => exact .inr (by rw [heq.1, heq.2])
        · exact .inl rfl
      refine ⟨w, ?_, fun g o => ?_, fun o ho => ?_⟩
      · simp only [List.map_cons, List.foldl_cons, valued_put u (h option List.mem_cons_self), hw]
      · rcases htoward g o with heq | heq
        · rw [heq]
          exact hfirst g o
        · exact .inr heq
      · rcases List.mem_cons.1 ho with rfl | ho
        · rcases htoward group o with heq | heq
          · rw [heq, Values.set, if_pos ⟨rfl, rfl⟩]
          · exact heq
        · exact hset o ho

theorem exists_foldl_withSection (u v : Values) (sections : List (Text × Options))
    (h : ∀ group options, (group, options) ∈ sections → defaults.sections.find? group = some options) :
    ∃ w : Values, sections.foldl (fun m (group, options) =>
        m.withSection group (options.keys.map fun option => (option, v group option))) (valued u) =
          valued w ∧
      (∀ g o, w g o = u g o ∨ w g o = v g o) ∧
      ∀ group options, (group, options) ∈ sections → ∀ option ∈ options.keys,
        w group option = v group option := by
  induction sections generalizing u with
  | nil => exact ⟨u, rfl, fun _ _ => .inl rfl, by simp⟩
  | cons entry sections ih =>
      obtain ⟨group, options⟩ := entry
      have hgroup := h group options List.mem_cons_self
      obtain ⟨m, hm, hfirst, hfirstSet⟩ := exists_foldl_put u v group
        fun option hoption => isKnown_iff.2 ⟨options, hgroup, hoption⟩
      obtain ⟨w, hw, htoward, hset⟩ := ih m fun g os hmem => h g os (List.mem_cons_of_mem _ hmem)
      refine ⟨w, ?_, fun g o => ?_, fun g os hmem o ho => ?_⟩
      · have hsection : (valued u).withSection group
            (options.keys.map fun option => (option, v group option)) = valued m := by
          rw [Ini.withSection, valued_addSection u (OrderedMap.mem_keys.2 ⟨_, hgroup⟩), Ini.putAll, hm]
        simp only [List.foldl_cons, hsection, hw]
      · rcases htoward g o with heq | heq
        · rw [heq]
          exact hfirst g o
        · exact .inr heq
      · rcases List.mem_cons.1 hmem with heq | hmem
        · obtain ⟨rfl, rfl⟩ := Prod.mk.inj heq
          rcases htoward g o with heq | heq
          · rw [heq, hfirstSet o ho]
          · exact heq
        · exact hset g os hmem o ho

theorem valued_overlay (u v : Values) : (valued u).overlay (valued v) = valued v := by
  obtain ⟨w, hw, -, hset⟩ := exists_foldl_withSection u v defaults.sections.entries
    fun group options hmem => OrderedMap.mem_entries_iff.1 hmem
  have hsame : valued w = valued v := valued_congr fun group option hknown => by
    obtain ⟨options, hoptions, hoption⟩ := isKnown_iff.1 hknown
    exact hset group options (OrderedMap.mem_entries_iff.2 hoptions) option hoption
  refine Eq.trans ?_ (hw.trans hsame)
  rw [Ini.overlay, valued_sections, OrderedMap.map, List.foldl_map]
  simp only [OrderedMap.map, OrderedMap.keys, List.map_map]
  rfl

/-- The text of known settings is read as these settings. -/
theorem valued_read (u : Values) {v : Values}
    (h : ∀ group option, isKnown group option = true → Ini.IsPlain (v group option)) (file : Text) :
    (valued u).read file (Utf8.encode (valued v).text) = .ok (valued v) := by
  have hfits : ∀ group options, (group, options) ∈ (valued v).sections.entries → Ini.Fits options.entries := by
    refine fun group options hmem => .of_strayLines fun (option, value) hoption => ?_
    obtain ⟨hknown, rfl⟩ := isKnown_of_mem_valued hmem hoption
    exact (h group option hknown).strayLines
  rw [Ini.read_text _ (valued_isReadable v) (.of_strayLines fun _ hmem => absurd hmem List.not_mem_nil) hfits,
    valued_reread h, valued_overlay]

/-! ## Defaults -/

/-- The values that are built in. -/
def builtIn : Values := fun group option => (defaults.raw? group option).getD []

theorem builtIn_eq {options : Options} (hgroup : defaults.sections.find? group = some options)
    (hoption : options.find? option = some value) : builtIn group option = value := by
  have hknown : isKnown group option = true :=
    isKnown_iff.2 ⟨options, hgroup, OrderedMap.mem_keys.2 ⟨value, hoption⟩⟩
  have howned := (isGroupName_of_mem (OrderedMap.mem_keys.2 ⟨options, hgroup⟩)).owned
  simp [builtIn, Ini.raw?, Ini.options?, howned, hgroup, (isOptionName_of_isKnown hknown).lower, hoption]

theorem builtIn_of_mem {options : List (Text × Text)} (hgroup : (group, options) ∈ known)
    (hoption : (option, value) ∈ options) : builtIn group option = value := by
  have hfind : defaults.sections.find? group = some (.ofList options) := by
    rw [← OrderedMap.mem_entries_iff, defaults_entries]
    exact List.mem_map_of_mem hgroup
  have hvalue : (OrderedMap.ofList options).find? option = some value := by
    rw [← OrderedMap.mem_entries_iff, OrderedMap.entries_ofList (known_nodup.2 _ hgroup)]
    exact hoption
  exact builtIn_eq hfind hvalue

theorem builtIn_isPlain (h : isKnown group option = true) : Ini.IsPlain (builtIn group option) := by
  have hall : ∀ x ∈ known, ∀ y ∈ x.2, y.2.trim = y.2 ∧ '\n' ∉ y.2 ∧ '\r' ∉ y.2 := by decide
  obtain ⟨options, value, hgroup, hoption⟩ := isKnown_iff_mem.1 h
  obtain ⟨htrim, hfeed, hreturn⟩ := hall _ hgroup _ hoption
  rw [builtIn_of_mem hgroup hoption]
  exact ⟨htrim, hfeed, hreturn⟩

theorem valued_builtIn : valued builtIn = defaults := by
  have hsections : (valued builtIn).sections = defaults.sections.map fun _ options => options := by
    rw [valued_sections]
    refine OrderedMap.map_congr fun group options hgroup => ?_
    have hoptions : options.map (fun option _ => builtIn group option) = options.map fun _ value => value :=
      OrderedMap.map_congr fun option value hoption =>
        builtIn_eq (OrderedMap.mem_entries_iff.1 hgroup) (OrderedMap.mem_entries_iff.1 hoption)
    rw [hoptions, OrderedMap.map_id]
  rw [OrderedMap.map_id] at hsections
  exact congrArg (Ini.mk ∅) hsections

end Settings

end ComponentCatalog
