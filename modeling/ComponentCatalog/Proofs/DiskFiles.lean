import ComponentCatalog.Proofs.DiskPlaces

/-!
# Files and directories on a disk

What is written is read again. A directory that is made is there afterwards, and everything that was a
directory before still is one.
-/

namespace ComponentCatalog

namespace Disk

variable {disk made : Disk} {p q : Path} {place : Place} {node : DiskNode} {dir : Directory} {name : Text}

/-! ## Paths that can be asked for -/

/-- Can a path be asked for on any disk? -/
def Fits (p : Path) : Prop := p.hasNul = false ∧ (Utf8.encode p.toText).length ≤ pathLimit

theorem locate_eq_ok_iff : disk.locate p = .ok place ↔ Fits p ∧ disk.walk p = .ok place := by
  unfold locate Fits
  cases p.hasNul with
  | true => simp
  | false =>
      by_cases hlong : pathLimit < (Utf8.encode p.toText).length
      · simp [hlong, Nat.not_le.2 hlong]
      · rw [if_neg (by simp), if_neg hlong, mapError_eq_ok]
        simp [Nat.le_of_not_lt hlong]

theorem lookup_eq_ok_iff :
    disk.lookup p = .ok node ↔ ∃ place, disk.locate p = .ok place ∧ place.node? = some node := by
  unfold lookup
  constructor
  · intro h
    obtain ⟨place, hplace, hnode⟩ := exists_of_bind_ok h
    refine ⟨place, hplace, ?_⟩
    split at hnode
    · cases hnode
    · next found hfound =>
        cases hnode
        exact hfound
  · rintro ⟨place, hplace, hnode⟩
    simp only [hplace, bind, Except.bind, hnode]
    rfl

theorem isIn_of_locate (h : disk.locate p = .ok place) : place.IsIn disk.root :=
  Place.IsIn.foldlM .root (locate_eq_ok_iff.1 h).2

theorem contains_of_locate (h : disk.locate p = .ok place) : disk.contains p = .ok place.node?.isSome := by
  unfold contains probe lookup
  simp only [h, bind, Except.bind]
  cases place.node? <;> rfl

theorem fits_of_contains {b : Bool} (h : disk.contains p = .ok b) (hnul : p.hasNul = false) : Fits p := by
  refine ⟨hnul, Nat.le_of_not_lt fun hlong => ?_⟩
  have hlocate : disk.locate p = .error (.system .nameTooLong p) := by
    rw [locate, hnul, if_neg (by simp), if_pos hlong]
  simp [contains, probe, lookup, hlocate, bind, Except.bind] at h

theorem readBytes_eq_ok_iff {bytes : List UInt8} :
    disk.readBytes p = .ok bytes ↔ disk.lookup p = .ok (.file bytes) := by
  unfold readBytes
  cases disk.lookup p with
  | error e => simp [bind, Except.bind]
  | ok node => cases node <;> simp [bind, Except.bind, pure, Except.pure]

theorem contains_of_lookup (h : disk.lookup p = .ok node) : disk.contains p = .ok true := by
  simp only [contains, probe, h]

theorem readBytes_of_contains (h : disk.contains p = .ok false) : (disk.readBytes p).toOption = none := by
  cases hread : disk.readBytes p with
  | error e => rfl
  | ok bytes =>
      rw [contains_of_lookup (readBytes_eq_ok_iff.1 hread)] at h
      cases h

/-! ## Putting a node at a place -/

section Put

variable (hplace : disk.locate p = .ok place) (hnode : ∀ dir, place.node? ≠ some (.directory dir))
include hplace hnode

theorem trail_ne_nil : place.trail ≠ [] := by
  cases isIn_of_locate hplace with
  | root => exact absurd rfl (hnode _)
  | entry => simp

theorem exists_locate_put {other : Place} (node : DiskNode) (hq : disk.locate q = .ok other) :
    ∃ next, (disk.put place node).locate q = .ok next ∧ next.IsIn (Place.rebuild place.trail node) ∧
      next.names = other.names := by
  obtain ⟨hfits, hwalk⟩ := locate_eq_ok_iff.1 hq
  have hkeeps := Place.keepsDirectories_rebuild (isIn_of_locate hplace)
    (DiskNode.KeepsDirectories.of_not_directory hnode node)
  obtain ⟨next, hnext, hin, hnames⟩ := Place.exists_foldlM_of_keeps hkeeps .root .root rfl hwalk
  exact ⟨next, locate_eq_ok_iff.2 ⟨hfits, hnext⟩, hin, hnames⟩

theorem lookup_put_self (node : DiskNode) : (disk.put place node).lookup p = .ok node := by
  obtain ⟨next, hnext, hin, hnames⟩ := exists_locate_put hplace hnode node hplace
  refine lookup_eq_ok_iff.2 ⟨next, hnext, ?_⟩
  rw [hin.node?_eq, hnames]
  exact Place.at?_rebuild place.trail node (.inl (trail_ne_nil hplace hnode))

theorem lookup_put_directory (node : DiskNode) (hdir : disk.lookup q = .ok (.directory dir)) :
    ∃ dir', (disk.put place node).lookup q = .ok (.directory dir') := by
  obtain ⟨other, hother, hfound⟩ := lookup_eq_ok_iff.1 hdir
  obtain ⟨next, hnext, hin, hnames⟩ := exists_locate_put hplace hnode node hother
  have hkeeps := Place.keepsDirectories_rebuild (isIn_of_locate hplace)
    (DiskNode.KeepsDirectories.of_not_directory hnode node)
  obtain ⟨dir', hdir'⟩ := hkeeps other.names dir (by rw [← hfound, (isIn_of_locate hother).node?_eq]; rfl)
  exact ⟨dir', lookup_eq_ok_iff.2 ⟨next, hnext, by rw [hin.node?_eq, hnames, hdir']⟩⟩

/-- A file can be written where no directory stands. -/
theorem exists_writeBytes (bytes : List UInt8) : ∃ made, disk.writeBytes p bytes = .ok made ∧
    made.lookup p = .ok (.file bytes) ∧
    ∀ q dir, disk.lookup q = .ok (.directory dir) → ∃ dir', made.lookup q = .ok (.directory dir') := by
  refine ⟨disk.put place (.file bytes), ?_, lookup_put_self hplace hnode _,
    fun q dir hdir => lookup_put_directory hplace hnode _ hdir⟩
  have htrail := trail_ne_nil hplace hnode
  unfold writeBytes
  simp only [hplace, bind, Except.bind]
  rfl

end Put

/-- What is written to a file is found there. -/
theorem lookup_writeBytes {bytes : List UInt8} (h : disk.writeBytes p bytes = .ok made) :
    made.lookup p = .ok (.file bytes) := by
  obtain ⟨place, hplace, hput⟩ := exists_of_bind_ok h
  have hnode : ∀ dir, place.node? ≠ some (.directory dir) := by
    intro dir hdir
    rw [hdir] at hput
    split at hput
    · cases hput
    · cases hput
    · next hnone => exact hnone dir rfl
  obtain ⟨after, hafter, hlookup, -⟩ := exists_writeBytes hplace hnode bytes
  cases hafter.symm.trans h
  exact hlookup

/-! ## Directories that are made -/

theorem isDirectory_eq_true_iff : disk.isDirectory p = .ok true ↔ ∃ dir, disk.lookup p = .ok (.directory dir) := by
  unfold isDirectory probe
  cases disk.lookup p with
  | ok node => cases node <;> simp [DiskNode.isDirectory]
  | error e => split <;> simp_all

theorem keepDirectory_eq_ok (h : disk.keepDirectory p = .ok made) :
    made.lookup p = .ok (.directory .empty) ∨
      made = disk ∧ ∃ dir, disk.lookup p = .ok (.directory dir) := by
  unfold keepDirectory at h
  split at h
  · next hmake =>
      cases h
      obtain ⟨place, hplace, hmade⟩ := exists_of_bind_ok hmake
      split at hmade
      · cases hmade
      · next hnone =>
          cases hmade
          have hnode : ∀ dir, place.node? ≠ some (.directory dir) := fun dir heq => hnone (by simp [heq])
          exact .inl (lookup_put_self hplace hnode _)
  · obtain ⟨there, hthere, hmade⟩ := exists_of_bind_ok h
    split at hmade
    · next hcond =>
        cases hmade
        obtain ⟨-, rfl⟩ := (Bool.and_eq_true _ _).mp hcond
        exact .inr ⟨rfl, isDirectory_eq_true_iff.1 hthere⟩
    · cases hmade

theorem keepDirectory_of_directory (h : disk.lookup p = .ok (.directory dir)) :
    disk.keepDirectory p = .ok disk := by
  obtain ⟨place, hplace, hnode⟩ := lookup_eq_ok_iff.1 h
  have hmake : disk.makeDirectory p = .error (.system .exists p) := by
    simp [makeDirectory, hplace, hnode, bind, Except.bind]
  have hthere : disk.isDirectory p = .ok true := isDirectory_eq_true_iff.2 ⟨dir, h⟩
  simp only [keepDirectory, hmake, hthere, bind, Except.bind]
  rfl

theorem keepDirectories_of_directory (h : disk.lookup p = .ok (.directory dir)) (fuel : Nat) :
    disk.keepDirectories fuel p = .ok disk := by
  unfold keepDirectories
  rw [keepDirectory_of_directory h]
  split
  · next heq => cases heq
  · rfl

theorem ensureDirectory_of_directory (h : disk.lookup p = .ok (.directory dir)) :
    disk.ensureDirectory p = .ok disk :=
  keepDirectories_of_directory h _

theorem keepDirectories_eq_ok {fuel : Nat} (h : disk.keepDirectories fuel p = .ok made) :
    disk.keepDirectory p = .ok made ∨
      ∃ (less : Nat) (before : Disk), fuel = less + 1 ∧ (∀ made, disk.keepDirectory p ≠ .ok made) ∧
        disk.keepDirectories less p.parent = .ok before ∧ before.keepDirectory p = .ok made := by
  unfold keepDirectories at h
  split at h
  · next hmissing =>
      obtain ⟨before, hbefore, hmade⟩ := exists_of_bind_ok h
      refine .inr ⟨_, before, rfl, fun made heq => ?_, hbefore, hmade⟩
      rw [hmissing] at heq
      cases heq
  · exact .inl h

theorem exists_lookup_ensureDirectory (h : disk.ensureDirectory p = .ok made) :
    ∃ dir, made.lookup p = .ok (.directory dir) := by
  have hkept : ∃ before : Disk, before.keepDirectory p = .ok made := by
    rcases keepDirectories_eq_ok h with hkept | ⟨-, before, -, -, -, hkept⟩
    · exact ⟨disk, hkept⟩
    · exact ⟨before, hkept⟩
  obtain ⟨before, hkept⟩ := hkept
  rcases keepDirectory_eq_ok hkept with hmade | ⟨rfl, hdir⟩
  · exact ⟨_, hmade⟩
  · exact hdir

/-! ## Entries of a directory -/

/-- A name that leads from a directory to one of its entries. -/
structure IsPlainName (name : Text) : Prop where
  entry : isEntryName name = true
  short : Place.tooLong name = false
  noNul : '\x00' ∉ name

theorem IsPlainName.ne_up (h : IsPlainName name) : name ≠ ['.', '.'] ∧ Path.isAnchor name = false := by
  have hentry := h.entry
  simpa [isEntryName] using hentry

theorem exists_locate_child (hdir : disk.lookup p = .ok (.directory dir)) (hfits : Fits (p.child name))
    (hname : IsPlainName name) :
    ∃ place, disk.locate (p.child name) = .ok place ∧ place.node? = dir.find? name := by
  obtain ⟨place, hplace, hnode⟩ := lookup_eq_ok_iff.1 hdir
  obtain ⟨hup, hanchor⟩ := hname.ne_up
  have hstep := Place.step_eq_ok_iff.2 ⟨dir, hnode, .inr ⟨hup, hname.short, rfl⟩⟩
  refine ⟨⟨(name, dir) :: place.trail, dir.find? name⟩, locate_eq_ok_iff.2 ⟨hfits, ?_⟩, rfl⟩
  rw [walk_child hanchor, (locate_eq_ok_iff.1 hplace).2]
  exact hstep

theorem hasNul_child (hp : p.hasNul = false) (hname : IsPlainName name) : (p.child name).hasNul = false := by
  unfold Path.hasNul at hp ⊢
  rw [Path.child, List.any_append, hp]
  simpa using hname.noNul

/-- A path with its root in front only, and without a way up. -/
structure IsDownward (p : Path) : Prop where
  noUp : ['.', '.'] ∉ p.parts
  noAnchor : ∀ part ∈ p.parts.tail, Path.isAnchor part = false

theorem IsDownward.parent (h : IsDownward p) : IsDownward p.parent := by
  refine ⟨fun hmem => h.noUp (List.dropLast_subset _ hmem), fun part hmem => h.noAnchor part ?_⟩
  have htail : p.parent.parts.tail = p.parts.tail.dropLast := List.tail_dropLast
  rw [htail] at hmem
  exact List.dropLast_subset _ hmem

theorem lookup_anchor (hfits : Fits ⟨[name]⟩) (hanchor : Path.isAnchor name = true) :
    disk.lookup ⟨[name]⟩ = .ok (.directory disk.root) := by
  refine lookup_eq_ok_iff.2 ⟨⟨[], some (.directory disk.root)⟩, locate_eq_ok_iff.2 ⟨hfits, ?_⟩, rfl⟩
  have hparts : [name].filter (fun part => !Path.isAnchor part) = [] := by simp [hanchor]
  simp only [walk, Path.append, Path.isAbsolute, List.head?_cons, Option.any_some, hanchor, ↓reduceIte, hparts]
  rfl

theorem lookup_child_empty (hempty : disk.lookup p = .ok (.directory .empty))
    (hanchor : Path.isAnchor name = false) (hup : name ≠ ['.', '.']) :
    disk.lookup (p.child name) ≠ .ok node := by
  intro h
  obtain ⟨above, habove, hnode⟩ := lookup_eq_ok_iff.1 hempty
  obtain ⟨place, hplace, hfound⟩ := lookup_eq_ok_iff.1 h
  have hwalk := (locate_eq_ok_iff.1 hplace).2
  rw [walk_child hanchor, (locate_eq_ok_iff.1 habove).2] at hwalk
  obtain ⟨dir, hdir, ⟨heq, -⟩ | ⟨-, -, rfl⟩⟩ := Place.step_eq_ok_iff.1 hwalk
  · exact hup heq
  · cases hdir.symm.trans hnode
    cases hfound

/-- A directory that is made, or kept, on a way that does not lead up was there before, or is
empty. -/
theorem keepDirectories_fresh {fuel : Nat} (hdown : IsDownward p) (h : disk.keepDirectories fuel p = .ok made) :
    made = disk ∨ made.lookup p = .ok (.directory .empty) := by
  induction fuel generalizing p made with
  | zero =>
      rcases keepDirectories_eq_ok h with hkept | ⟨less, -, hless, -⟩
      · exact (keepDirectory_eq_ok hkept).symm.imp_left And.left
      · omega
  | succ fuel ih =>
      rcases keepDirectories_eq_ok h with hkept | ⟨less, before, hless, hmissing, hbefore, hkept⟩
      · exact (keepDirectory_eq_ok hkept).symm.imp_left And.left
      · obtain rfl : fuel = less := by omega
        rcases keepDirectory_eq_ok hkept with hempty | ⟨rfl, dir, hdir⟩
        · exact .inr hempty
        · rcases ih hdown.parent hbefore with rfl | hparent
          · exact absurd hkept (hmissing _)
          · rcases List.eq_nil_or_concat p.parts with hnil | ⟨front, last, hparts⟩
            · have hself : p.parent = p := by
                obtain ⟨parts⟩ := p
                subst hnil
                rfl
              exact .inr (hself ▸ hparent)
            · obtain rfl : p = (Path.mk front).child last :=
                congrArg Path.mk (hparts.trans (List.concat_eq_append ..))
              have hfront : ((Path.mk front).child last).parent = ⟨front⟩ := by simp [Path.parent, Path.child]
              rw [hfront] at hparent
              have hup : last ≠ ['.', '.'] := fun heq => hdown.noUp (by simp [Path.child, heq])
              cases hanchor : Path.isAnchor last with
              | false => exact absurd hdir (lookup_child_empty hparent hanchor hup)
              | true =>
                  cases front with
                  | nil =>
                      obtain ⟨place, hplace, -⟩ := lookup_eq_ok_iff.1 hdir
                      have hroot : disk.lookup ⟨[last]⟩ = .ok (.directory disk.root) :=
                        lookup_anchor (locate_eq_ok_iff.1 hplace).1 hanchor
                      exact absurd (keepDirectory_of_directory hroot) (hmissing disk)
                  | cons part front =>
                      have hlast := hdown.noAnchor last (by simp [Path.child])
                      rw [hanchor] at hlast
                      cases hlast

theorem contains_child_ensureDirectory (hdown : IsDownward p) (hname : IsPlainName name)
    (habsent : disk.contains (p.child name) = .ok false) (h : disk.ensureDirectory p = .ok made) :
    made.contains (p.child name) = .ok false := by
  rcases keepDirectories_fresh hdown h with rfl | hempty
  · exact habsent
  · obtain ⟨above, habove, -⟩ := lookup_eq_ok_iff.1 hempty
    have hnul := hasNul_child (locate_eq_ok_iff.1 habove).1.1 hname
    obtain ⟨place, hplace, hnode⟩ := exists_locate_child hempty (fits_of_contains habsent hnul) hname
    rw [contains_of_locate hplace, hnode]
    rfl

end Disk

end ComponentCatalog
