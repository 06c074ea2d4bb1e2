import ComponentCatalog.Proofs.IniSound
import ComponentCatalog.Proofs.IniStraying

/-!
# Sections that are written with a change

Sections that can be written and read again get a new value in one place. What is read of them then is the
same in all other places, as long as the lines of the new value stay with it; otherwise the text is refused,
or something is read that was not there.
-/

namespace ComponentCatalog

namespace Ini

variable {file group option value : Text} {start m n : Ini} {options : Options}

/-! ## Sections with one new value -/

/-- An option is the last one of its section. -/
def IsLast (m : Ini) (group option : Text) : Prop :=
  ∃ options, m.sections.find? group = some options ∧ options.keys.getLast? = some option

/-- Nothing but one option is changed. -/
structure IsConfined (before after : Ini) (group option : Text) : Prop where
  sections : ∀ g, after.sections.contains g = before.sections.contains g
  entries : ∀ g o, ¬ (g = group ∧ o = option) → after.ownValue? g o = before.ownValue? g o

theorem isReadable_of_entries (hgroup : ∀ g, m.sections.contains g = true → IsGroupName g)
    (hentry : ∀ g o v, m.ownValue? g o = some v → IsEntry o v) : IsReadable m where
  group g os hmem := hgroup g (OrderedMap.contains_iff.2 ⟨os, OrderedMap.mem_entries_iff.1 hmem⟩)
  option g os hmem o v hoption := by
    have hfind := OrderedMap.mem_entries_iff.1 hmem
    refine hentry g o v ?_
    rw [ownValue?, if_neg (hgroup g (OrderedMap.contains_iff.2 ⟨os, hfind⟩)).owned, hfind]
    exact OrderedMap.mem_entries_iff.1 hoption
  shared o v hoption := by
    refine hentry sharedName o v ?_
    rw [ownValue?, if_pos rfl]
    exact OrderedMap.mem_entries_iff.1 hoption

/-- What is written where one option of `m` gets a new value. -/
structure IsChange (m : Ini) (group option value : Text) : Prop where
  sound : m.IsSound
  entry : IsEntry option value
  known : ∃ old, m.ownValue? group option = some old
  owned : group ≠ sharedName

section Change

variable (h : IsChange m group option value)
include h

theorem IsChange.exists_options :
    ∃ options old, m.sections.find? group = some options ∧ options.find? option = some old := by
  obtain ⟨old, hold⟩ := h.known
  rw [ownValue?, if_neg h.owned] at hold
  obtain ⟨options, hoptions, hfind⟩ := Option.bind_eq_some_iff.1 hold
  exact ⟨options, old, hoptions, hfind⟩

theorem IsChange.contains : m.sections.contains group = true := by
  obtain ⟨options, old, hoptions, -⟩ := h.exists_options
  exact OrderedMap.contains_iff.2 ⟨options, hoptions⟩

theorem IsChange.contains_put (g : Text) : (m.put group option value).sections.contains g = m.sections.contains g := by
  rw [Bool.eq_iff_iff, Ini.contains_put]
  exact or_iff_left_of_imp fun heq => heq.2 ▸ h.contains

theorem IsChange.ownValue?_put (g o : Text) : (m.put group option value).ownValue? g o =
    if group = g ∧ option = o then some value else m.ownValue? g o := by
  rw [Ini.ownValue?_put, h.entry.lower]

theorem IsChange.isReadable : IsReadable (m.put group option value) := by
  refine isReadable_of_entries (fun g hg => h.sound.group g (h.contains_put g ▸ hg)) fun g o v hv => ?_
  rw [h.ownValue?_put] at hv
  split at hv
  · next heq =>
      cases hv
      exact heq.2 ▸ h.entry
  · exact (h.sound.entry g o v hv).1

theorem IsChange.exists_entries : ∃ options before after front back old,
    m.sections.find? group = some options ∧
    m.sections.entries = before ++ (group, options) :: after ∧
    (m.put group option value).sections.entries = before ++ (group, options.insert option value) :: after ∧
    options.entries = front ++ (option, old) :: back ∧
    (options.insert option value).entries = front ++ (option, value) :: back := by
  obtain ⟨options, old, hoptions, hfind⟩ := h.exists_options
  obtain ⟨before, after, hsections, hchanged⟩ := OrderedMap.exists_entries_insert hoptions (options.insert option value)
  obtain ⟨front, back, hentries, hinserted⟩ := OrderedMap.exists_entries_insert hfind value
  refine ⟨options, before, after, front, back, old, hoptions, hsections, ?_, hentries, hinserted⟩
  rw [← hchanged, put, if_neg h.owned, hoptions, h.entry.lower]
  rfl

end Change

theorem IsSound.strayLines {g : Text} (h : m.IsSound) (hmem : (g, options) ∈ m.sections.entries) :
    ∀ entry ∈ options.entries, strayLines entry.2 = [] := by
  intro entry hentry
  have hfind := OrderedMap.mem_entries_iff.1 hmem
  have howned := (h.group g (OrderedMap.contains_iff.2 ⟨options, hfind⟩)).owned
  refine (h.entry g entry.1 entry.2 ?_).2.strayLines
  rw [ownValue?, if_neg howned, hfind]
  exact OrderedMap.mem_entries_iff.1 hentry

theorem IsSound.fits_shared (h : m.IsSound) : Fits m.shared.entries := by
  refine .of_strayLines fun entry hentry => (h.entry sharedName entry.1 entry.2 ?_).2.strayLines
  rw [ownValue?, if_pos rfl]
  exact OrderedMap.mem_entries_iff.1 hentry

theorem shared_put (howned : group ≠ sharedName) : (m.put group option value).shared = m.shared := by
  rw [put, if_neg howned]

theorem isLast_iff {front back : List (Text × Text)} {old : Text} (hoptions : m.sections.find? group = some options)
    (hentries : options.entries = front ++ (option, old) :: back) : m.IsLast group option ↔ back = [] := by
  have hkeys : options.keys = front.map Prod.fst ++ option :: back.map Prod.fst := by
    rw [OrderedMap.keys, hentries, List.map_append, List.map_cons]
  have hnodup : options.keys.Nodup := options.nodup
  constructor
  · rintro ⟨os, hos, hlast⟩
    cases hoptions.symm.trans hos
    rw [hkeys] at hnodup hlast
    cases hback : back.map Prod.fst with
    | nil => exact List.map_eq_nil_iff.1 hback
    | cons o rest =>
        rw [hback, List.getLast?_append_of_ne_nil _ (List.cons_ne_nil _ _),
          List.getLast?_cons_of_ne_nil (List.cons_ne_nil _ _)] at hlast
        have hmem : option ∈ o :: rest := List.mem_of_getLast? hlast
        rw [hback, List.nodup_append, List.nodup_cons] at hnodup
        exact absurd hmem hnodup.2.1.1
  · rintro rfl
    exact ⟨options, hoptions, by rw [hkeys]; simp⟩

/-! ## Reading a change -/

/-- The lines of a value stay with it, or it is the last one of its section, and its stray lines open nothing. -/
def StaysConfined (m : Ini) (group option value : Text) : Prop :=
  strayLines value = [] ∨ m.IsLast group option ∧ ∀ line ∈ strayLines value, opensNothing line = true

theorem IsChange.fits (h : IsChange m group option value) (hstays : m.StaysConfined group option value) {g : Text}
    {os : Options} (hmem : (g, os) ∈ (m.put group option value).sections.entries) : Fits os.entries := by
  obtain ⟨options, before, after, front, back, old, hoptions, hsections, hchanged, hentries, hinserted⟩ :=
    h.exists_entries
  have hold := h.sound.strayLines (OrderedMap.mem_entries_iff.2 hoptions)
  rw [hentries] at hold
  rw [hchanged, List.mem_append, List.mem_cons] at hmem
  rcases hmem with hmem | heq | hmem
  · exact .of_strayLines (h.sound.strayLines (hsections ▸ List.mem_append_left _ hmem))
  · obtain ⟨-, rfl⟩ := Prod.mk.inj heq
    rw [hinserted]
    rcases hstays with hnone | ⟨hlast, hopens⟩
    · refine .of_strayLines fun entry hentry => ?_
      rw [List.mem_append, List.mem_cons] at hentry
      rcases hentry with hentry | rfl | hentry
      · exact hold entry (List.mem_append_left _ hentry)
      · exact hnone
      · exact hold entry (List.mem_append_right _ (List.mem_cons_of_mem _ hentry))
    · obtain rfl := (isLast_iff hoptions hentries).1 hlast
      refine ⟨fun entry hentry => ?_, fun entry hentry => ?_⟩
      · rw [List.dropLast_concat] at hentry
        exact hold entry (List.mem_append_left _ hentry)
      · rw [List.getLast?_concat, Option.mem_some_iff] at hentry
        exact hentry ▸ hopens
  · exact .of_strayLines (h.sound.strayLines (hsections ▸ List.mem_append_right _ (List.mem_cons_of_mem _ hmem)))

theorem IsChange.ownValue?_overlay (h : IsChange m group option value) (start : Ini) (g o : Text) :
    (start.overlay (m.put group option value).reread).ownValue? g o =
      (((m.put group option value).ownValue? g o).map readValue).or (start.ownValue? g o) := by
  have howned : ∀ g ∈ (m.put group option value).reread.sections.keys, g ≠ sharedName := by
    intro g hg
    rw [← contains_iff_mem_keys, contains_reread, h.contains_put] at hg
    exact (h.sound.group g hg).owned
  have hlower : ∀ g o v, (m.put group option value).reread.ownValue? g o = some v → o.lower = o := by
    intro g o v hv
    rw [ownValue?_reread, h.ownValue?_put, Option.map_eq_some_iff] at hv
    obtain ⟨w, hw, -⟩ := hv
    split at hw
    · next heq => exact heq.2 ▸ h.entry.lower
    · exact (h.sound.entry g o w hw).1.lower
  rw [Ini.ownValue?_overlay start howned hlower, ownValue?_reread]

/-- A change is read as the change of one option. -/
theorem IsChange.read (h : IsChange m group option value) (hpart : start.IsPartOf m)
    (hstays : m.StaysConfined group option value) :
    ∃ n, start.read file (Utf8.encode (m.put group option value).text) = .ok n ∧
      m.IsConfined n group option ∧ n.ownValue? group option = some (readValue value) := by
  have hshared : Fits (m.put group option value).shared.entries := by
    rw [shared_put h.owned]
    exact h.sound.fits_shared
  refine ⟨_, read_text start h.isReadable hshared fun _ _ => h.fits hstays, ⟨fun g => ?_, fun g o hother => ?_⟩, ?_⟩
  · rw [Bool.eq_iff_iff, contains_overlay, contains_reread, h.contains_put]
    exact or_iff_right_of_imp (hpart.group g)
  · rw [h.ownValue?_overlay, h.ownValue?_put, if_neg fun heq => hother ⟨heq.1.symm, heq.2.symm⟩]
    cases hold : m.ownValue? g o with
    | some v => rw [Option.map_some, (h.sound.entry g o v hold).2.readValue, Option.some_or]
    | none =>
        cases hnew : start.ownValue? g o with
        | none => rfl
        | some v =>
            have hsome := hpart.entry g o (by rw [hnew]; rfl)
            rw [hold] at hsome
            cases hsome
  · rw [h.ownValue?_overlay, h.ownValue?_put, if_pos ⟨rfl, rfl⟩]
    rfl

/-- Otherwise the text is refused, or something is read that was not there. -/
theorem IsChange.read_more (h : IsChange m group option value) (hstays : ¬ m.StaysConfined group option value)
    (hread : start.read file (Utf8.encode (m.put group option value).text) = .ok n) :
    (∃ g, n.sections.contains g = true ∧ ¬ m.sections.contains g = true) ∨
      ∃ g o, (n.ownValue? g o).isSome = true ∧ ¬ (m.ownValue? g o).isSome = true := by
  obtain ⟨options, before, after, front, back, old, hoptions, hsections, hchanged, hentries, hinserted⟩ :=
    h.exists_entries
  have hold := h.sound.strayLines (OrderedMap.mem_entries_iff.2 hoptions)
  rw [hentries] at hold
  have hshared : Fits (m.put group option value).shared.entries := by
    rw [shared_put h.owned]
    exact h.sound.fits_shared
  rw [StaysConfined, not_or, isLast_iff hoptions hentries, not_and] at hstays
  have hmore := read_text_stray h.isReadable hchanged hinserted hshared
    (fun g os hmem => .of_strayLines (h.sound.strayLines (hsections ▸ List.mem_append_left _ hmem)))
    (fun entry hentry => hold entry (List.mem_append_left _ hentry)) hstays.1
    (fun hback => by simpa using hstays.2 hback) hread
  rcases hmore with ⟨g, hg, hnew⟩ | ⟨g, o, ho, hnew⟩
  · rw [h.contains_put] at hnew
    exact .inl ⟨g, hg, hnew⟩
  · exact .inr ⟨g, o, ho, fun hold => hnew ((isPartOf_put m group option value).entry g o hold)⟩

end Ini

end ComponentCatalog
