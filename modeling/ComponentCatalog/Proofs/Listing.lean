import ComponentCatalog.Files.Memory
import ComponentCatalog.Proofs.OrderedMap
import ComponentCatalog.Proofs.PathNames
import Mathlib.Data.List.Induction
import Mathlib.Data.List.Nodup
import Mathlib.Data.List.Perm.Basic

/-!
# Listings

What the listings of a file system should be like, and when two file systems differ only in their
order. Files in memory are of this kind, and the order in which they were written is the only thing
that shows in the order of their listings.
-/

namespace ComponentCatalog

variable {files files' : FileSystem} {dir : Path} {below : List Text} {entries : List Entry}

namespace FileSystem

/-- Every entry of a directory has a name of its own, which is a single part of a path. -/
structure WellNamed (files : FileSystem) : Prop where
  nodup : ∀ {dir : Path} {entries : List Entry}, files.list dir = .ok entries →
    (entries.map Entry.name).Nodup
  plain : ∀ {dir : Path} {entries : List Entry} {e : Entry}, files.list dir = .ok entries →
    e ∈ entries → '/' ∉ e.name

/-- Every name that is listed is a single part of a path. -/
def ListsNames (files : FileSystem) : Prop :=
  ∀ {dir : Path} {entries : List Entry} {e : Entry}, files.list dir = .ok entries → e ∈ entries →
    Path.IsName e.name

/-- Everything is listed and read alike, but for the order of entries. -/
structure Reorders (files files' : FileSystem) : Prop where
  listed : ∀ {dir : Path} {entries : List Entry}, files.list dir = .ok entries →
    ∃ entries', files'.list dir = .ok entries' ∧ entries.Perm entries'
  unlisted : ∀ {dir : Path} {e : FileError}, files.list dir = .error e → files'.list dir = .error e
  read : ∀ p, files.read p = files'.read p

theorem Reorders.wellNamed (h : files.Reorders files') (hw : files.WellNamed) : files'.WellNamed := by
  have hback : ∀ {dir entries'}, files'.list dir = .ok entries' →
      ∃ entries, files.list dir = .ok entries ∧ entries.Perm entries' := by
    intro dir entries' hl'
    cases hl : files.list dir with
    | error e =>
        rw [h.unlisted hl] at hl'
        cases hl'
    | ok entries =>
        obtain ⟨entries'', hl'', hperm⟩ := h.listed hl
        obtain rfl : entries'' = entries' := by simpa using hl''.symm.trans hl'
        exact ⟨entries, rfl, hperm⟩
  constructor
  · intro dir entries' hl'
    obtain ⟨entries, hl, hperm⟩ := hback hl'
    exact (hperm.map Entry.name).nodup_iff.1 (hw.nodup hl)
  · intro dir entries' e hl' he
    obtain ⟨entries, hl, hperm⟩ := hback hl'
    exact hw.plain hl (hperm.symm.subset he)

theorem WellNamed.plain_child (hw : files.WellNamed) (hbelow : ∀ name ∈ below, '/' ∉ name)
    (hl : files.list dir = .ok entries) {entry : Entry} (hentry : entry ∈ entries) :
    ∀ name ∈ below ++ [entry.name], '/' ∉ name := by
  intro name hname
  rcases List.mem_append.1 hname with hname | hname
  · exact hbelow name hname
  · exact List.mem_singleton.1 hname ▸ hw.plain hl hentry

end FileSystem

/-! ## Files in memory -/

namespace MemoryFiles

@[simp] theorem failures_write (files : MemoryFiles) (path content : Text) :
    (files.write path content).failures = files.failures := rfl

/-- No name in a stored path holds a slash. -/
def Plain (files : MemoryFiles) : Prop := ∀ p ∈ files.nodes.keys, ∀ name ∈ p.names, '/' ∉ name

/-- All names in stored paths are single parts of paths. -/
def Named (files : MemoryFiles) : Prop := ∀ p ∈ files.nodes.keys, ∀ name ∈ p.names, Path.IsName name

/-- What holds of the names in written paths goes on to hold of the names in stored ones. -/
theorem names_write {files : MemoryFiles} {P : Text → Prop} (hP : ∀ t, ∀ name ∈ (Path.ofText t).names, P name)
    (h : ∀ p ∈ files.nodes.keys, ∀ name ∈ p.names, P name) (path content : Text) :
    ∀ p ∈ (files.write path content).nodes.keys, ∀ name ∈ p.names, P name := by
  intro p hp name hname
  simp only [MemoryFiles.write, OrderedMap.keys_insert] at hp
  split at hp
  · exact h p hp name hname
  · rcases List.mem_append.1 hp with hp | hp
    · exact h p hp name hname
    · obtain rfl := List.mem_singleton.1 hp
      exact hP path name hname

theorem plain_empty : Plain {} := fun _ hp => absurd hp List.not_mem_nil

theorem Plain.write {files : MemoryFiles} (h : files.Plain) (path content : Text) :
    (files.write path content).Plain :=
  names_write (fun _ _ => Path.notMem_of_mem_names_ofText) h path content

theorem named_empty : Named {} := fun _ hp => absurd hp List.not_mem_nil

theorem Named.write {files : MemoryFiles} (h : files.Named) (path content : Text) :
    (files.write path content).Named :=
  names_write (fun _ _ => Path.isName_of_mem_names_ofText) h path content

/-- What the stored paths show in a directory, one entry for each path. -/
def shown (files : MemoryFiles) (dir : Path) : List Entry :=
  files.nodes.entries.filterMap fun (p, node) => entryBelow? dir p node

theorem name_mem_names {p : Path} {node : MemoryNode} {e : Entry} (h : entryBelow? dir p node = some e) :
    e.name ∈ p.names := by
  have hanchor := isAnchor_of_entryBelow? h
  unfold entryBelow? at h
  split at h
  · next hwithin =>
      simp only [Path.isWithin, Bool.and_eq_true] at hwithin
      obtain ⟨rest, hparts⟩ := List.isPrefixOf_iff_prefix.1 hwithin.1
      rw [← hparts, List.drop_left] at h
      cases rest with
      | nil => cases h
      | cons name deeper =>
          obtain rfl : name = e.name := congrArg Entry.name (Option.some.inj h)
          unfold Path.names
          rw [← hparts]
          cases hdir : dir.parts with
          | nil => simp [Path.isAbsolute, ← hparts, hdir, hanchor hdir]
          | cons part above => split <;> simp
  · cases h

/-- The entries are those that are shown, each name once, and directories where any of the name is. -/
structure Merges (entries shown : List Entry) : Prop where
  nodup : (entries.map Entry.name).Nodup
  mem_iff : ∀ e, e ∈ entries ↔ (∃ s ∈ shown, s.name = e.name) ∧
    e.isDirectory = shown.any fun s => s.name == e.name && s.isDirectory

/-- An entry of another name neither adds nor raises one. -/
theorem Merges.mem_iff_append {entries shown : List Entry} (h : Merges entries shown) {e x : Entry}
    (hx : x.name ≠ e.name) :
    x ∈ entries ↔ (∃ s ∈ shown ++ [e], s.name = x.name) ∧
      x.isDirectory = (shown ++ [e]).any fun s => s.name == x.name && s.isDirectory := by
  have hx' : (e.name == x.name) = false := by simpa using Ne.symm hx
  rw [h.mem_iff]
  simp [or_and_right, exists_or, hx', Ne.symm hx]

/-- An entry of a name that is there makes a directory of it if it is one. -/
theorem Merges.raise {entries shown : List Entry} (h : Merges entries shown) {e y : Entry} (hy : y ∈ entries)
    (hname : y.name = e.name) :
    Merges (entries.map fun x => if x.name = e.name then ⟨x.name, x.isDirectory || e.isDirectory⟩ else x)
      (shown ++ [e]) := by
  constructor
  · have hnames : (entries.map fun x =>
        if x.name = e.name then ⟨x.name, x.isDirectory || e.isDirectory⟩ else x).map Entry.name =
        entries.map Entry.name := by
      rw [List.map_map]
      refine List.map_congr_left fun x _ => ?_
      simp only [Function.comp_apply]
      split <;> rfl
    exact hnames ▸ h.nodup
  · intro x
    obtain ⟨-, hdir⟩ := (h.mem_iff y).1 hy
    rw [List.mem_map]
    constructor
    · rintro ⟨z, hz, rfl⟩
      split
      · next heq =>
          obtain ⟨-, hzdir⟩ := (h.mem_iff z).1 hz
          exact ⟨⟨e, by simp, heq.symm⟩, by simp [hzdir, heq]⟩
      · next hne => exact (h.mem_iff_append hne).1 hz
    · rintro ⟨hshown, hxdir⟩
      by_cases hx : x.name = e.name
      · obtain ⟨name, isDirectory⟩ := x
        obtain rfl : name = e.name := hx
        exact ⟨y, hy, by simpa [hname, hdir] using hxdir.symm⟩
      · exact ⟨x, (h.mem_iff_append hx).2 ⟨hshown, hxdir⟩, if_neg hx⟩

/-- An entry of a new name comes last. -/
theorem Merges.append {entries shown : List Entry} (h : Merges entries shown) {e : Entry}
    (hnew : ∀ x ∈ entries, x.name ≠ e.name) : Merges (entries ++ [e]) (shown ++ [e]) := by
  have hunshown : ∀ s ∈ shown, s.name ≠ e.name := fun s hs hse =>
    hnew ⟨e.name, shown.any fun s => s.name == e.name && s.isDirectory⟩
      ((h.mem_iff _).2 ⟨⟨s, hs, hse⟩, rfl⟩) rfl
  constructor
  · rw [List.map_append, List.nodup_append]
    refine ⟨h.nodup, by simp, ?_⟩
    simpa using hnew
  · intro x
    rw [List.mem_append, List.mem_singleton]
    by_cases hx : x.name = e.name
    · have hnone : (shown.any fun s => s.name == x.name && s.isDirectory) = false := by
        simpa [hx] using fun s hs hse => absurd hse (hunshown s hs)
      constructor
      · rintro (hmem | rfl)
        · exact absurd hx (hnew x hmem)
        · exact ⟨⟨x, by simp, rfl⟩, by rw [List.any_append, hnone]; simp⟩
      · rintro ⟨-, hdir⟩
        rw [List.any_append, hnone] at hdir
        right
        obtain ⟨name, isDirectory⟩ := x
        obtain rfl : name = e.name := hx
        simp only [List.any_cons, List.any_nil, beq_self_eq_true, Bool.true_and, Bool.or_false,
          Bool.false_or] at hdir
        rw [hdir]
    · have hne : x ≠ e := fun heq => hx (congrArg Entry.name heq)
      simp only [hne, or_false]
      exact h.mem_iff_append hx

theorem Merges.addEntry {entries shown : List Entry} (h : Merges entries shown) (e : Entry) :
    Merges (addEntry entries e) (shown ++ [e]) := by
  unfold MemoryFiles.addEntry
  split
  · next hany =>
      obtain ⟨y, hy, hname⟩ : ∃ y ∈ entries, y.name = e.name := by simpa using hany
      exact h.raise hy hname
  · next hany => exact h.append (by simpa using hany)

theorem merges_entries (files : MemoryFiles) (dir : Path) :
    Merges (files.entries dir) (files.shown dir) := by
  unfold entries
  show Merges ((files.shown dir).foldl _ _) _
  induction files.shown dir using List.reverseRecOn with
  | nil => exact ⟨List.nodup_nil, by simp⟩
  | append_singleton shown e ih =>
      rw [List.foldl_append]
      exact ih.addEntry e

/-- A listed name stands in a stored path. -/
theorem exists_name_of_list {files : MemoryFiles} {e : Entry} (hl : files.list dir = .ok entries)
    (he : e ∈ entries) : ∃ p ∈ files.nodes.keys, e.name ∈ p.names := by
  obtain rfl := mem_entries_of_list hl
  obtain ⟨⟨s, hs, hname⟩, -⟩ := ((merges_entries files dir).mem_iff e).1 he
  obtain ⟨⟨p, node⟩, hp, hshown⟩ := List.mem_filterMap.1 hs
  exact ⟨p, List.mem_map_of_mem hp, hname ▸ name_mem_names hshown⟩

theorem fileSystem_listsNames {files : MemoryFiles} (h : files.Named) : files.fileSystem.ListsNames := by
  intro dir entries e hl he
  obtain ⟨p, hp, hname⟩ := exists_name_of_list hl he
  exact h p hp _ hname

theorem nodup_names_of_list {files : MemoryFiles} (hl : files.list dir = .ok entries) :
    (entries.map Entry.name).Nodup := mem_entries_of_list hl ▸ (merges_entries files dir).nodup

theorem fileSystem_wellNamed {files : MemoryFiles} (h : files.Plain) : files.fileSystem.WellNamed := by
  constructor
  · exact fun hl => nodup_names_of_list hl
  · intro dir entries e hl he
    obtain ⟨p, hp, hname⟩ := exists_name_of_list hl he
    exact h p hp _ hname

theorem entries_perm {files files' : MemoryFiles} (h : files.nodes.entries.Perm files'.nodes.entries)
    (dir : Path) : (files.entries dir).Perm (files'.entries dir) := by
  have hshown : (files.shown dir).Perm (files'.shown dir) := h.filterMap _
  have hmerges := merges_entries files dir
  have hmerges' := merges_entries files' dir
  refine (List.perm_ext_iff_of_nodup (hmerges.nodup.of_map _) (hmerges'.nodup.of_map _)).2 fun e => ?_
  rw [hmerges.mem_iff, hmerges'.mem_iff, hshown.any_eq]
  simp only [hshown.mem_iff]

/-- Files that were written in another order are listed in another order, and all else is the same. -/
theorem fileSystem_reorders {files files' : MemoryFiles}
    (h : files.nodes.entries.Perm files'.nodes.entries) (hf : files.failures = files'.failures) :
    files.fileSystem.Reorders files'.fileSystem := by
  have hfind : ∀ p, files.nodes.find? p = files'.nodes.find? p := by
    intro p
    refine Option.ext fun node => ?_
    rw [← OrderedMap.mem_entries_iff, ← OrderedMap.mem_entries_iff, h.mem_iff]
  have hlisted : ∀ dir, files.list dir = .ok (files.entries dir) ∧
      files'.list dir = .ok (files'.entries dir) ∨
      ∃ e, files.list dir = .error e ∧ files'.list dir = .error e := by
    intro dir
    have hempty : (files'.entries dir).isEmpty = (files.entries dir).isEmpty := by
      rw [Bool.eq_iff_iff, List.isEmpty_iff_length_eq_zero, List.isEmpty_iff_length_eq_zero,
        (entries_perm h dir).length_eq]
    unfold list
    simp only [hf, hfind, hempty]
    split
    · exact .inr ⟨_, rfl, rfl⟩
    · split
      · exact .inr ⟨_, rfl, rfl⟩
      · exact .inl ⟨rfl, rfl⟩
  constructor
  · intro dir entries hl
    rcases hlisted dir with ⟨hok, hok'⟩ | ⟨e, he, -⟩
    · obtain rfl : files.entries dir = entries := Except.ok.inj (hok.symm.trans hl)
      exact ⟨_, hok', entries_perm h dir⟩
    · exact absurd (he.symm.trans hl) (by simp)
  · intro dir e hl
    rcases hlisted dir with ⟨hok, -⟩ | ⟨e', he, he'⟩
    · exact absurd (hok.symm.trans hl) (by simp)
    · obtain rfl : e' = e := Except.error.inj (he.symm.trans hl)
      exact he'
  · intro p
    show files.read p = files'.read p
    unfold read
    rw [hf, hfind]

end MemoryFiles

end ComponentCatalog
