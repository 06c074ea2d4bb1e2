import ComponentCatalog.Proofs.IniChanges
import ComponentCatalog.Proofs.Persistence

/-!
# Changes of one setting

A run that changes a setting writes all settings. Loading them again shows the change and nothing else, as
long as the lines of the new value stay with it; a value with a carriage return can keep the settings from
being loaded, or bring in sections and options.
-/

namespace ComponentCatalog

open CommandLine

namespace Settings

variable {disk made after : Disk} {base : Path} {settings changed : Settings} {group option value : Text}

/-! ## Settings that are loaded -/

theorem isSound_valued {v : Values} (h : v.IsPlain) : (valued v).IsSound where
  group g hg := isGroupName_of_mem (by
    rw [Ini.contains_iff_mem_keys, valued_sections, OrderedMap.keys_map] at hg
    exact hg)
  entry g o x hx := by
    unfold Ini.ownValue? at hx
    split at hx
    · cases hx
    · obtain ⟨options, hoptions, hfind⟩ := Option.bind_eq_some_iff.1 hx
      obtain ⟨hknown, rfl⟩ := isKnown_of_mem_valued (OrderedMap.mem_entries_iff.2 hoptions)
        (OrderedMap.mem_entries_iff.2 hfind)
      exact ⟨isEntry_of_isKnown hknown _, (h g o hknown).isSettled⟩

theorem defaults_isSound : defaults.IsSound := by
  rw [← valued_builtIn]
  exact isSound_valued fun _ _ hknown => builtIn_isPlain hknown

/-- Settings that are loaded can be written and read again, and have all known options. -/
theorem load_isSound (h : Settings.load disk base = .ok settings) :
    settings = { base, ini := settings.ini } ∧ settings.ini.IsSound ∧ defaults.IsPartOf settings.ini := by
  obtain ⟨present, -, h⟩ := exists_of_bind_ok h
  split at h
  · cases h
    exact ⟨rfl, defaults_isSound, .refl _⟩
  · next bytes hbytes =>
      obtain ⟨ini, hini, h⟩ := exists_of_bind_ok h
      cases h
      have hread := mapError_eq_ok.1 hini
      exact ⟨rfl, Ini.read_isSound hread defaults_isSound, Ini.read_isPartOf hread⟩

theorem load_eq_ok_iff {bytes : List UInt8} (h : disk.lookup (ofBase base).file = .ok (.file bytes)) :
    Settings.load disk base = .ok settings ↔
      ∃ ini, defaults.read (ofBase base).file.toText bytes = .ok ini ∧ settings = { base, ini } := by
  have hpresent := Disk.contains_of_lookup h
  have hbytes := Disk.readBytes_eq_ok_iff.2 h
  simp only [Settings.load, hpresent, hbytes, bind, Except.bind, mapError_ok, if_true]
  have hini : (ofBase base).ini = defaults := rfl
  rw [hini]
  cases defaults.read (ofBase base).file.toText bytes with
  | error e => simp
  | ok ini => simp [ofBase, pure, Except.pure, eq_comm]

/-! ## Settings that are changed -/

theorem exists_entry_of_isKnown {m : Ini} (hpart : defaults.IsPartOf m) (hknown : isKnown group option = true) :
    m.sections.contains group = true ∧ group ≠ Ini.sharedName ∧ ∃ value, m.ownValue? group option = some value := by
  obtain ⟨options, hoptions, hoption⟩ := isKnown_iff.1 hknown
  have howned := (isGroupName_of_mem (OrderedMap.mem_keys.2 ⟨_, hoptions⟩)).owned
  have hdefault : (defaults.ownValue? group option).isSome = true := by
    rw [Ini.ownValue?, if_neg howned, hoptions]
    exact Option.isSome_iff_exists.2 (OrderedMap.mem_keys.1 hoption)
  exact ⟨hpart.group _ (OrderedMap.contains_iff.2 ⟨_, hoptions⟩), howned,
    Option.isSome_iff_exists.1 (hpart.entry _ _ hdefault)⟩

theorem isChange_of_isKnown {m : Ini} (hsound : m.IsSound) (hpart : defaults.IsPartOf m)
    (hknown : isKnown group option = true) (value : Text) : m.IsChange group option value := by
  obtain ⟨-, howned, hold⟩ := exists_entry_of_isKnown hpart hknown
  exact ⟨hsound, isEntry_of_isKnown hknown value, hold, howned⟩

theorem set_eq_ok (hchange : settings.ini.IsChange group option value)
    (h : settings.set group option value = (.ok (), changed)) :
    changed = { settings with ini := settings.ini.put group option value } := by
  have hgroup := hchange.sound.group group hchange.contains
  have hadd : settings.ini.addSection group = settings.ini := by rw [Ini.addSection, if_pos hchange.contains]
  have hne : group.isEmpty = false := by simpa using hgroup.nonempty
  simp only [Settings.set, Ini.set, if_neg hchange.owned, hadd, hne] at h
  split at h
  · cases h
  · cases h
    rfl

theorem lookup_of_save (h : changed.save disk = .ok after) :
    after.lookup changed.file = .ok (.file (Utf8.encode changed.ini.text)) := by
  obtain ⟨made, -, hwrite⟩ := exists_of_bind_ok h
  exact Disk.lookup_writeBytes hwrite

/-! ## Settings that are loaded behind a change -/

/-- Settings that are loaded behind a change of an option have the same values of all other known options,
and no section or option that was not there. -/
structure KeepsOthers (before after : Settings) (group option : Text) : Prop where
  others : ∀ g o, isKnown g o = true → ¬ (g = group ∧ o = option) → after.ini.raw? g o = before.ini.raw? g o
  sections : ∀ g, after.ini.sections.contains g = true → before.ini.sections.contains g = true
  options : ∀ g o, (after.ini.ownValue? g o).isSome = true → (before.ini.ownValue? g o).isSome = true

theorem keepsOthers_of_isConfined {before after : Settings} (hchange : before.ini.IsChange group option value)
    (hpart : defaults.IsPartOf before.ini) (h : before.ini.IsConfined after.ini group option) :
    before.KeepsOthers after group option where
  others g o hknown hother := by
    obtain ⟨hgroup, howned, v, hv⟩ := exists_entry_of_isKnown hpart hknown
    have hlower := (isOptionName_of_isKnown hknown).lower
    rw [Ini.raw?_eq hgroup howned, Ini.raw?_eq (h.sections g ▸ hgroup) howned, hlower, h.entries g o hother, hv]
    rfl
  sections g hg := h.sections g ▸ hg
  options g o ho := by
    by_cases heq : g = group ∧ o = option
    · obtain ⟨old, hold⟩ := hchange.known
      rw [heq.1, heq.2, hold]
      rfl
    · rwa [← h.entries g o heq]

end Settings

namespace CommandLine

open Settings

variable {host : Host} {given : Option Text} {base : Path} {disk : Disk} {settings : Settings} {a : Assignment}

/-- A run that ends well gives help, or saves the settings with the new value. -/
theorem exists_save_of_code (hbase : findBase host.environment given = .ok base)
    (hload : Settings.load disk base = .ok settings) (hknown : isKnown a.group a.option = true)
    (hcode : (run host disk (a.words given)).1.code = 0) :
    asksForHelp (a.words given) = true ∧ (run host disk (a.words given)).2 = disk ∨
      asksForHelp (a.words given) = false ∧ ∃ made changed, settings.set a.group a.option a.value = (.ok (), changed) ∧
        changed.save made = .ok (run host disk (a.words given)).2 := by
  rcases ofWords_readsAs given a with hread | hread | ⟨c, p, hread⟩
  · have hperform := (perform_request a hbase hload).trans (changeSetting_known hknown a.value { disk })
    have hfault : ∀ fault s, (a.request given).perform host { disk } ≠ .error fault s := by
      intro fault s h
      rw [(run_of_perform_error hread h).1] at hcode
      cases hcode
    refine .inr ⟨by simp [asksForHelp, hread], ?_⟩
    cases hensure : settings.ensureDirectory disk with
    | error e =>
        simp only [hensure] at hperform
        exact absurd hperform (hfault _ _)
    | ok made =>
        simp only [hensure] at hperform
        cases hset : settings.set a.group a.option a.value with
        | mk outcome changed =>
            rw [hset] at hperform
            cases outcome with
            | error e => exact absurd hperform (hfault _ _)
            | ok =>
                dsimp only at hperform
                cases hsave : changed.save made with
                | error e =>
                    rw [hsave] at hperform
                    exact absurd hperform (hfault _ _)
                | ok after =>
                    rw [hsave] at hperform
                    exact ⟨made, changed, rfl, by rw [hsave, (run_of_perform_ok hread hperform).2]⟩
  · exact .inl (by simp [asksForHelp, run, hread])
  · have hstop : (run host disk (a.words given)).1.code = 2 := by simp [run, hread, Stop.outcome]
    rw [hstop] at hcode
    cases hcode

/-- A run that ends well on settings that can be loaded leaves settings that can be loaded, with all other
known options as they were and nothing new, exactly if it just gives help or the lines of the new value stay
with it. -/
theorem change_keepsOthers_iff {before : Settings} (hbase : findBase host.environment given = .ok base)
    (hload : Settings.load disk base = .ok before) (hknown : isKnown a.group a.option = true)
    (hcode : (run host disk (a.words given)).1.code = 0) :
    (∃ after, Settings.load (run host disk (a.words given)).2 base = .ok after ∧
        before.KeepsOthers after a.group a.option) ↔
      asksForHelp (a.words given) = true ∨ before.ini.StaysConfined a.group a.option a.value := by
  obtain ⟨hbefore, hsound, hpart⟩ := load_isSound hload
  have hchange := isChange_of_isKnown hsound hpart hknown a.value
  rcases exists_save_of_code hbase hload hknown hcode with ⟨hhelp, hsame⟩ | ⟨hhelp, made, changed, hset, hsave⟩
  · rw [hsame]
    exact ⟨fun _ => .inl hhelp, fun _ => ⟨before, hload, fun _ _ _ _ => rfl, fun _ => id, fun _ _ => id⟩⟩
  · have hchanged := set_eq_ok hchange hset
    rw [hbefore] at hchanged
    have hfile := lookup_of_save hsave
    rw [hchanged] at hfile
    constructor
    · rintro ⟨after, hafter, hkeeps⟩
      refine .inr (by_contra fun hstays => ?_)
      obtain ⟨n, hn, rfl⟩ := (load_eq_ok_iff hfile).1 hafter
      rcases hchange.read_more hstays hn with ⟨g, hg, hnew⟩ | ⟨g, o, ho, hnew⟩
      · exact hnew (hkeeps.sections g hg)
      · exact hnew (hkeeps.options g o ho)
    · rw [hhelp]
      rintro (hfalse | hstays)
      · cases hfalse
      · obtain ⟨n, hn, hconfined, -⟩ := hchange.read hpart hstays
        have hkeeps : before.KeepsOthers { base, ini := n } a.group a.option :=
          keepsOthers_of_isConfined hchange hpart hconfined
        exact ⟨_, (load_eq_ok_iff hfile).2 ⟨n, hn, rfl⟩, hkeeps⟩

/-- A carriage return ends a line where settings are read, but not where they are written. -/
theorem change_keepsOthers_iff_carriageReturn :
    let a : Assignment := ⟨"library", "path", "a\rb"⟩
    let base : Path := ⟨["/", "base"]⟩
    findBase plainHost.environment (some "base") = .ok base ∧ Settings.load {} base = .ok (ofBase base) ∧
      isKnown a.group a.option = true ∧ (run plainHost {} (a.words (some "base"))).1.code = 0 ∧
      ¬ ∃ after, Settings.load (run plainHost {} (a.words (some "base"))).2 base = .ok after ∧
        (ofBase base).KeepsOthers after a.group a.option := by
  intro a base
  have hbase : findBase plainHost.environment (some "base") = .ok base := by rfl
  have hload : Settings.load {} base = .ok (ofBase base) := by rfl
  have hknown : isKnown a.group a.option = true := by decide
  have habsent : Stores {} base builtIn := .absent (by rfl) fun made hmade =>
    Disk.contains_child_ensureDirectory (isDownward_directory hbase (by decide)) isPlainName_file (by rfl) hmade
  obtain ⟨hsucceeded, -⟩ := make_works hbase habsent (fun _ _ => builtIn_isPlain) (a := a) {
    read := ofWords_words _ _ (by decide)
    known := hknown
    unstray := by decide
    directory := ⟨_, rfl⟩ }
  obtain ⟨hcode, hhelp⟩ : (run plainHost {} (a.words (some "base"))).1.code = 0 ∧
      asksForHelp (a.words (some "base")) = false := by simpa [Attempt.succeeded, Attempt.make] using hsucceeded
  refine ⟨hbase, hload, hknown, hcode, fun hkeeps => ?_⟩
  have hline : Ini.strayLines a.value = [['b']] := by decide
  have hlast : (defaults.sections.find? "library").bind (·.keys.getLast?) = some "tree_depth".toList := by decide
  rcases (change_keepsOthers_iff hbase hload hknown hcode).1 hkeeps with htrue | hnone | ⟨⟨options, hoptions, hend⟩, -⟩
  · rw [hhelp] at htrue
    cases htrue
  · rw [hline] at hnone
    cases hnone
  · have hpath : some "path".toList = some "tree_depth".toList := by
      rw [← hlast, show defaults.sections.find? "library" = some options from hoptions]
      exact hend.symm
    exact absurd hpath (by decide)

end CommandLine

end ComponentCatalog
