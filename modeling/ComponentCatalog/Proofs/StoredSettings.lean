import ComponentCatalog.Proofs.DiskFiles
import ComponentCatalog.Proofs.SettingValues

/-!
# Settings on a disk

A disk stores values of the known settings if it has no settings file and they are the defaults, or if
its settings file says so. Settings that are stored are loaded; settings that are saved are stored.
-/

namespace ComponentCatalog

/-! ## Base directories -/

namespace Path

variable {part t : Text}

theorem mem_collapse {before parts : List Text} (h : part ∈ collapse before parts) :
    part ∈ before ∨ part ∈ parts := by
  induction parts generalizing before with
  | nil => exact .inl h
  | cons first parts ih =>
      rw [collapse] at h
      split at h
      · exact (ih h).imp (List.dropLast_subset _ ·) (List.mem_cons_of_mem _)
      · rcases ih h with hbefore | hparts
        · rcases List.mem_append.1 hbefore with hmem | hmem
          · exact .inl hmem
          · exact .inr (List.mem_singleton.1 hmem ▸ List.mem_cons_self)
        · exact .inr (List.mem_cons_of_mem _ hparts)

theorem mem_tail_child {p : Path} {name : Text} (h : part ∈ (p.child name).parts.tail) :
    part ∈ p.parts.tail ∨ part = name := by
  obtain ⟨parts⟩ := p
  cases parts with
  | nil => cases h
  | cons first parts =>
      rcases List.mem_append.1 h with hmem | hmem
      · exact .inl hmem
      · exact .inr (List.mem_singleton.1 hmem)

theorem isAnchor_of_mem_pieces (h : part ∈ t.pieces '/') : isAnchor part = false := by
  have hslash := Text.notMem_of_mem_pieces h
  cases part with
  | nil => rfl
  | cons c part =>
      have hc : c ≠ '/' := fun hc => hslash (hc ▸ List.mem_cons_self)
      simpa [isAnchor] using hc

theorem isAnchor_of_mem_tail_ofText (h : part ∈ (ofText t).parts.tail) : isAnchor part = false := by
  have hmem : part ∈ (t.pieces '/').filter fun part => !part.isEmpty && part != ['.'] := by
    unfold ofText anchor at h
    dsimp only at h
    split at h
    · exact List.mem_of_mem_tail h
    · exact h
    · exact h
  exact isAnchor_of_mem_pieces (List.mem_of_mem_filter hmem)

end Path

namespace Settings

variable {env : Environment} {given : Option Text} {base : Path} {disk made : Disk} {u v : Values}

theorem isAnchor_of_mem_tail_resolve {t part : Text} (h : env.resolve t = .ok base)
    (hpart : part ∈ base.parts.tail) : Path.isAnchor part = false := by
  unfold Environment.resolve Environment.absolute at h
  split at h
  · cases h
  · cases h
    rcases Path.mem_collapse hpart with hmem | hmem
    · cases hmem
    · simpa using (List.mem_filter.1 hmem).2

theorem isAnchor_of_mem_tail_home {home : Path} {part : Text} (h : env.expandHome ⟨[['~']]⟩ = .ok home)
    (hpart : part ∈ home.parts.tail) : Path.isAnchor part = false := by
  simp only [Environment.expandHome] at h
  split at h
  · split at h
    · cases h
    · split at h
      · split at h
        · cases h
        · cases h
          rw [List.append_nil] at hpart
          exact Path.isAnchor_of_mem_tail_ofText hpart
      · cases h
  · cases h
    cases hpart

theorem isAnchor_of_mem_tail_findBase (h : findBase env given = .ok base) {part : Text}
    (hpart : part ∈ base.parts.tail) : Path.isAnchor part = false := by
  unfold findBase at h
  split at h
  · exact isAnchor_of_mem_tail_resolve h hpart
  · exact isAnchor_of_mem_tail_resolve h hpart
  · cases hhome : env.expandHome ⟨[['~']]⟩ with
    | error e =>
        rw [hhome] at h
        cases h
    | ok home =>
        rw [hhome] at h
        cases h
        rcases Path.mem_tail_child hpart with hmem | rfl
        · exact isAnchor_of_mem_tail_home hhome hmem
        · rfl

/-- A base without two dots does not lead up on the way to its settings. -/
theorem isDownward_directory (h : findBase env given = .ok base) (hup : ['.', '.'] ∉ base.parts) :
    Disk.IsDownward (ofBase base).directory := by
  refine ⟨fun hmem => ?_, fun part hmem => ?_⟩
  · rcases List.mem_append.1 hmem with hmem | hmem
    · exact hup hmem
    · exact absurd hmem (by decide)
  · rcases Path.mem_tail_child hmem with hmem | rfl
    · exact isAnchor_of_mem_tail_findBase h hmem
    · rfl

theorem isPlainName_file : Disk.IsPlainName "defaults.ini" := ⟨by decide, by decide, by decide⟩

/-! ## Stored values -/

/-- A disk stores values of the known settings for a base. Without a settings file, also once the
directory of the settings is there, these are the built-in values. -/
inductive Stores (disk : Disk) (base : Path) : Values → Prop
  | absent : disk.contains (ofBase base).file = .ok false →
      (∀ made, (ofBase base).ensureDirectory disk = .ok made →
        made.contains (ofBase base).file = .ok false) →
      Stores disk base builtIn
  | present {v : Values} {dir : Directory} :
      disk.lookup (ofBase base).directory = .ok (.directory dir) →
      disk.readBytes (ofBase base).file = .ok (Utf8.encode (valued v).text) → Stores disk base v

/-- Values that fit on lines of a settings file. -/
def Values.IsPlain (v : Values) : Prop := ∀ group option, isKnown group option = true → Ini.IsPlain (v group option)

theorem Values.IsPlain.set (hv : v.IsPlain) {value : Text} (h : Ini.IsPlain value) (group option : Text) :
    (v.set group option value).IsPlain := by
  intro g o hknown
  unfold Values.set
  split
  · exact h
  · exact hv g o hknown

theorem Stores.load (h : Stores disk base v) (hv : v.IsPlain) :
    Settings.load disk base = .ok { base, ini := valued v } := by
  cases h with
  | absent hfile _ =>
      simp only [Settings.load, hfile, bind, Except.bind, mapError_ok]
      rw [valued_builtIn]
      rfl
  | present _ hfile =>
      have hthere := Disk.contains_of_lookup (Disk.readBytes_eq_ok_iff.1 hfile)
      have hread := valued_read builtIn hv (ofBase base).file.toText
      rw [valued_builtIn] at hread
      simp only [Settings.load, hthere, hfile, bind, Except.bind, mapError_ok, if_true]
      simp only [ofBase] at hread ⊢
      rw [hread]
      rfl

theorem Stores.ensureDirectory (h : Stores disk base v) (hmade : (ofBase base).ensureDirectory disk = .ok made) :
    Stores made base v ∧ made.contains (ofBase base).file = disk.contains (ofBase base).file ∧
      (made.readBytes (ofBase base).file).toOption = (disk.readBytes (ofBase base).file).toOption := by
  cases h with
  | absent hfile hafter =>
      obtain ⟨dir, hdir⟩ := Disk.exists_lookup_ensureDirectory hmade
      have hstill := hafter made hmade
      refine ⟨.absent hstill fun again hagain => ?_, hstill.trans hfile.symm, ?_⟩
      · have hsame := Disk.ensureDirectory_of_directory hdir
        cases hagain.symm.trans hsame
        exact hstill
      · rw [Disk.readBytes_of_contains hstill, Disk.readBytes_of_contains hfile]
  | present hdir hfile =>
      cases hmade.symm.trans (Disk.ensureDirectory_of_directory hdir)
      exact ⟨.present hdir hfile, rfl, rfl⟩

/-- Where the directory of the settings is there, they can be saved. -/
theorem Stores.save {dir : Directory} (h : Stores disk base u)
    (hdir : disk.lookup (ofBase base).directory = .ok (.directory dir)) (v : Values) :
    ∃ after, Settings.save { base, ini := valued v } disk = .ok after ∧ Stores after base v := by
  obtain ⟨place, hplace, hnode⟩ : ∃ place, disk.locate (ofBase base).file = .ok place ∧
      ∀ dir, place.node? ≠ some (.directory dir) := by
    cases h with
    | absent hfile _ =>
        obtain ⟨above, habove, -⟩ := Disk.lookup_eq_ok_iff.1 hdir
        have hnul := Disk.hasNul_child (Disk.locate_eq_ok_iff.1 habove).1.1 isPlainName_file
        obtain ⟨place, hplace, -⟩ :=
          Disk.exists_locate_child hdir (Disk.fits_of_contains hfile hnul) isPlainName_file
        have hnone := (Disk.contains_of_locate hplace).symm.trans hfile
        refine ⟨place, hplace, fun dir heq => ?_⟩
        rw [heq] at hnone
        cases hnone
    | present _ hfile =>
        obtain ⟨place, hplace, hfound⟩ := Disk.lookup_eq_ok_iff.1 (Disk.readBytes_eq_ok_iff.1 hfile)
        refine ⟨place, hplace, fun dir heq => ?_⟩
        rw [heq] at hfound
        cases hfound
  obtain ⟨after, hwrite, hlookup, hkeeps⟩ := Disk.exists_writeBytes hplace hnode (Utf8.encode (valued v).text)
  obtain ⟨dir', hdir'⟩ := hkeeps _ _ hdir
  refine ⟨after, ?_, .present hdir' (Disk.readBytes_eq_ok_iff.2 hlookup)⟩
  have hkept : (Settings.mk base none (valued v)).ensureDirectory disk = .ok disk :=
    Disk.ensureDirectory_of_directory hdir
  simp only [Settings.save, hkept, bind, Except.bind]
  exact hwrite

end Settings

end ComponentCatalog
