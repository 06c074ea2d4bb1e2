import ComponentCatalog.Files.Disk
import ComponentCatalog.Proofs.Results

/-!
# Places on a disk

A walk along a path leads to a place in the tree below the root. Putting a node there changes what
stands at the place and below it; directories elsewhere stay directories.
-/

namespace ComponentCatalog

/-! ## Nodes below a node -/

theorem Directory.find?_cons (name k : Text) (node : DiskNode) (rest : Directory) :
    (cons name node rest).find? k = if name = k then some node else rest.find? k := by
  cases node <;> rfl

theorem Directory.find?_insert (name k : Text) (node : DiskNode) (dir : Directory) :
    (dir.insert name node).find? k = if name = k then some node else dir.find? k := by
  induction dir with
  | empty => exact find?_cons name k node empty
  | file n bytes rest ih =>
      by_cases hn : n = name
      · subst hn
        rw [insert, if_pos rfl, find?_cons, find?]
        split <;> rfl
      · rw [insert, if_neg hn, find?, find?, ih]
        by_cases hk : n = k
        · rw [if_pos hk, if_pos hk, if_neg fun h => hn (hk.trans h.symm)]
        · rw [if_neg hk, if_neg hk]
  | directory n content rest _ ih =>
      by_cases hn : n = name
      · subst hn
        rw [insert, if_pos rfl, find?_cons, find?]
        split <;> rfl
      · rw [insert, if_neg hn, find?, find?, ih]
        by_cases hk : n = k
        · rw [if_pos hk, if_pos hk, if_neg fun h => hn (hk.trans h.symm)]
        · rw [if_neg hk, if_neg hk]

namespace DiskNode

/-- What a name stands for in a node. -/
def child? (node : DiskNode) (name : Text) : Option DiskNode :=
  match node with
  | .file _ => none
  | .directory dir => dir.find? name

/-- What stands below a node at the end of names. -/
def at? (node : DiskNode) : List Text → Option DiskNode
  | [] => some node
  | name :: names => (node.child? name).bind (·.at? names)

theorem at?_append (node : DiskNode) (names more : List Text) :
    node.at? (names ++ more) = (node.at? names).bind (·.at? more) := by
  induction names generalizing node with
  | nil => rfl
  | cons name names ih =>
      rw [List.cons_append, at?, at?]
      cases node.child? name with
      | none => rfl
      | some inner => exact ih inner

theorem at?_concat (node : DiskNode) (names : List Text) (name : Text) :
    node.at? (names ++ [name]) = (node.at? names).bind (·.child? name) := by
  rw [at?_append]
  congr 1
  funext inner
  rw [at?]
  cases inner.child? name <;> rfl

/-- Wherever there is a directory below `old?`, there is one below `new`. -/
def KeepsDirectories (old? : Option DiskNode) (new : DiskNode) : Prop :=
  ∀ names dir, old?.bind (·.at? names) = some (.directory dir) → ∃ dir', new.at? names = some (.directory dir')

theorem KeepsDirectories.of_not_directory {old? : Option DiskNode}
    (h : ∀ dir, old? ≠ some (.directory dir)) (new : DiskNode) : KeepsDirectories old? new := by
  intro names dir hdir
  match old?, names with
  | none, _ => cases hdir
  | some (.file _), [] => cases hdir
  | some (.file _), _ :: _ => cases hdir
  | some (.directory dir), _ => exact absurd rfl (h dir)

theorem KeepsDirectories.insert {dir : Directory} {name : Text} {new : DiskNode}
    (h : KeepsDirectories (dir.find? name) new) :
    KeepsDirectories (some (.directory dir)) (.directory (dir.insert name new)) := by
  intro names inner hinner
  cases names with
  | nil => exact ⟨_, rfl⟩
  | cons k names =>
      have hentry : (DiskNode.directory (dir.insert name new)).child? k =
          if name = k then some new else dir.find? k := Directory.find?_insert ..
      rw [at?, hentry]
      by_cases hk : name = k
      · subst hk
        rw [if_pos rfl]
        exact h names inner hinner
      · rw [if_neg hk]
        exact ⟨inner, hinner⟩

end DiskNode

namespace Place

open DiskNode

/-- The names that lead to a place. -/
def names (place : Place) : List Text := (place.trail.map Prod.fst).reverse

/-- A place in the tree below a root. -/
inductive IsIn (root : Directory) : Place → Prop
  | root : IsIn root ⟨[], some (.directory root)⟩
  | entry {trail : List (Text × Directory)} {dir : Directory} (name : Text) :
      IsIn root ⟨trail, some (.directory dir)⟩ → IsIn root ⟨(name, dir) :: trail, dir.find? name⟩

variable {root : Directory} {place next : Place} {part : Text}

theorem IsIn.node?_eq (h : place.IsIn root) : place.node? = (DiskNode.directory root).at? place.names := by
  induction h with
  | root => rfl
  | @entry trail dir name _ ih =>
      have hnames : names ⟨(name, dir) :: trail, dir.find? name⟩ =
          names ⟨trail, some (.directory dir)⟩ ++ [name] := by simp [names]
      rw [hnames, at?_concat, ← ih]
      rfl

theorem IsIn.parent (h : place.IsIn root) : place.parent.IsIn root := by
  cases h with
  | root => exact .root
  | entry name hparent => exact hparent

theorem names_parent (place : Place) : place.parent.names = place.names.dropLast := by
  obtain ⟨trail, node?⟩ := place
  cases trail <;> simp [Place.parent, names]

/-- What a step does: up, or to an entry of the directory that is here. -/
theorem step_eq_ok_iff : place.step part = .ok next ↔ ∃ dir, place.node? = some (.directory dir) ∧
    (part = ['.', '.'] ∧ next = place.parent ∨
      part ≠ ['.', '.'] ∧ tooLong part = false ∧ next = ⟨(part, dir) :: place.trail, dir.find? part⟩) := by
  constructor
  · intro hstep
    unfold step at hstep
    split at hstep
    · cases hstep
    · cases hstep
    · next dir hnode =>
        refine ⟨dir, hnode, ?_⟩
        split at hstep
        · next hup => exact .inl ⟨hup, (Except.ok.inj hstep).symm⟩
        · next hup =>
            split at hstep
            · cases hstep
            · next hshort => exact .inr ⟨hup, by simpa using hshort, (Except.ok.inj hstep).symm⟩
  · rintro ⟨dir, hnode, ⟨rfl, rfl⟩ | ⟨hup, hshort, rfl⟩⟩
    · simp [step, hnode]
    · simp [step, hnode, hup, hshort]

theorem IsIn.step (h : place.IsIn root) (hstep : place.step part = .ok next) : next.IsIn root := by
  obtain ⟨dir, hnode, ⟨-, rfl⟩ | ⟨-, -, rfl⟩⟩ := step_eq_ok_iff.1 hstep
  · exact h.parent
  · obtain ⟨trail, node?⟩ := place
    subst hnode
    exact .entry part h

theorem IsIn.foldlM {parts : List Text} (h : place.IsIn root) (hwalk : parts.foldlM Place.step place = .ok next) :
    next.IsIn root := by
  induction parts generalizing place with
  | nil => cases hwalk; exact h
  | cons part parts ih =>
      obtain ⟨mid, hstep, hrest⟩ := foldlM_cons_eq_ok hwalk
      exact ih (h.step hstep) hrest

/-! ## Another tree -/

variable {root' : Directory} {place' : Place}

/-- A walk in a tree goes the same way in a tree that has all its directories. -/
theorem exists_foldlM_of_keeps {parts : List Text}
    (hkeeps : KeepsDirectories (some (.directory root)) (.directory root'))
    (h : place.IsIn root) (h' : place'.IsIn root') (hnames : place'.names = place.names)
    (hwalk : parts.foldlM Place.step place = .ok next) :
    ∃ next', parts.foldlM Place.step place' = .ok next' ∧ next'.IsIn root' ∧ next'.names = next.names := by
  induction parts generalizing place place' with
  | nil =>
      cases hwalk
      exact ⟨place', rfl, h', hnames⟩
  | cons part parts ih =>
      obtain ⟨mid, hstep, hrest⟩ := foldlM_cons_eq_ok hwalk
      obtain ⟨dir, hnode, hmid⟩ := step_eq_ok_iff.1 hstep
      obtain ⟨dir', hnode'⟩ : ∃ dir', place'.node? = some (.directory dir') := by
        rw [h'.node?_eq, hnames]
        exact hkeeps place.names dir (by rw [← hnode, h.node?_eq]; rfl)
      have hsame : ∃ mid', place'.step part = .ok mid' ∧ mid'.names = mid.names := by
        rcases hmid with ⟨hup, rfl⟩ | ⟨hup, hshort, rfl⟩
        · exact ⟨place'.parent, step_eq_ok_iff.2 ⟨dir', hnode', .inl ⟨hup, rfl⟩⟩,
            by rw [names_parent, names_parent, hnames]⟩
        · refine ⟨_, step_eq_ok_iff.2 ⟨dir', hnode', .inr ⟨hup, hshort, rfl⟩⟩, ?_⟩
          unfold names at hnames ⊢
          simp [hnames]
      obtain ⟨mid', hstep', hmidNames⟩ := hsame
      obtain ⟨next', hwalk', hnext', hnextNames⟩ := ih (h.step hstep) (h'.step hstep') hmidNames hrest
      refine ⟨next', ?_, hnext', hnextNames⟩
      rw [List.foldlM_cons, hstep']
      exact hwalk'

/-- Putting a node at a place keeps all directories but those that stood at the place. -/
theorem keepsDirectories_rebuild {trail : List (Text × Directory)} {old? : Option DiskNode} {node : DiskNode}
    (h : IsIn root ⟨trail, old?⟩) (hnode : KeepsDirectories old? node) :
    KeepsDirectories (some (.directory root)) (.directory (rebuild trail node)) := by
  induction trail generalizing old? node with
  | nil =>
      cases h with
      | root =>
          cases node with
          | directory dir => exact hnode
          | file bytes =>
              obtain ⟨dir, hdir⟩ := hnode [] root rfl
              cases hdir
  | cons entry trail ih =>
      cases h with
      | entry name hparent => exact ih hparent hnode.insert

theorem at?_rebuild (trail : List (Text × Directory)) (node : DiskNode)
    (h : trail ≠ [] ∨ node.isDirectory = true) :
    (DiskNode.directory (rebuild trail node)).at? (trail.map Prod.fst).reverse = some node := by
  induction trail generalizing node with
  | nil =>
      cases node with
      | file bytes => simp [isDirectory] at h
      | directory dir => rfl
  | cons entry trail ih =>
      obtain ⟨name, dir⟩ := entry
      have hentry : (DiskNode.directory (dir.insert name node)).child? name = some node := by
        rw [child?, Directory.find?_insert, if_pos rfl]
      rw [List.map_cons, List.reverse_cons, at?_concat, rebuild, ih _ (.inr rfl)]
      exact hentry

end Place

end ComponentCatalog
