import ComponentCatalog.Files.Memory
import ComponentCatalog.Proofs.Outcome

/-!
# What a failed build leaves behind

A build that returns leaves a ready index. One that fails promises an index that is not ready or that
is as it was. It breaks the promise exactly if the logger refuses the report of the failure too, and
what was filled in until then is marked as ready.
-/

namespace ComponentCatalog

open Work

/-- A build leaves a ready index, or one that is not ready, or the index that was there. -/
def BuildContract (lib : Library) (w : Workspace) : Prop :=
  match build lib w with
  | .ok _ w' => w'.index.ready = true
  | .error _ w' => w'.index.ready = false ∨ w'.index = w.index

/-- The scans come to their end: none of them is left by a refused message. -/
def ScansEnd (lib : Library) : Prop := ∃ edits, Does (scanAll lib) (.ok ()) edits

/-- The logger lets a build begin, refuses a later message and then the report of that, while the
index is marked as ready, from before or by this build, and is not what it was. -/
def SpoiltBuild (lib : Library) (w : Workspace) : Prop :=
  lib.logger.refusal? .info lib.opening = none ∧
    ∃ fault w', populate lib (w.told .info lib.opening) = .error fault w' ∧
      lib.logger.refusal? .error fault.ofBuild ≠ none ∧
      (w.index.ready = true ∨ ScansEnd lib) ∧ w'.index ≠ w.index

/-! ## Filling the index -/

theorem Does.result_unique {α : Type} {body : Work α} {r r' : Except Fault α} {edits edits' : List Edit}
    (h : Does body r edits) (h' : Does body r' edits') : r = r' := by
  obtain ⟨log, hw⟩ := h {}
  obtain ⟨log', hw'⟩ := h' {}
  rw [hw] at hw'
  cases r <;> cases r' <;> simp_all [ending]

theorem tell_ok_index {lib : Library} {level : Level} {text : Text} {u : Unit} {w w' : Workspace}
    (h : tell lib level text w = .ok u w') : w'.index = w.index := by
  rw [tell_apply] at h
  cases hr : lib.logger.refusal? level text with
  | none => rw [hr] at h; cases h; rfl
  | some message => rw [hr] at h; cases h

theorem tell_error_index {lib : Library} {level : Level} {text : Text} {fault : Fault}
    {w w' : Workspace} (h : tell lib level text w = .error fault w') : w'.index = w.index := by
  rw [tell_apply] at h
  cases hr : lib.logger.refusal? level text with
  | none => rw [hr] at h; cases h
  | some message => rw [hr] at h; cases h; rfl

theorem populate_ok_ready {lib : Library} {u : Unit} {w w' : Workspace}
    (h : populate lib w = .ok u w') : w'.index.ready = true := by
  obtain ⟨r, edits, hr⟩ := scanAll_determined lib
  obtain ⟨log, hw⟩ := populate_apply hr w
  rw [hw] at h
  cases r with
  | error fault => cases h
  | ok u => rw [tell_ok_index h]; rfl

/-- A filling that fails leaves a ready index if it began with one, or at its very last message. -/
theorem populate_error_ready {lib : Library} {fault : Fault} {w w' : Workspace}
    (h : populate lib w = .error fault w') :
    w'.index.ready = true ↔ w.index.ready = true ∨ ScansEnd lib := by
  obtain ⟨r, edits, hr⟩ := scanAll_determined lib
  obtain ⟨log, hw⟩ := populate_apply hr w
  rw [hw] at h
  cases r with
  | ok u =>
      have hend : ScansEnd lib := ⟨edits, hr⟩
      rw [tell_error_index h]
      simp [Index.marked, hend]
  | error e =>
      have hend : ¬ ScansEnd lib := by
        rintro ⟨edits', hr'⟩
        cases Does.result_unique hr hr'
      cases h
      simp [Index.marked, hend]

/-! ## The contract -/

/-- A build keeps its contract exactly if it is not spoilt by a logger that refuses the report of a
failure. -/
theorem buildContract_iff (lib : Library) (w : Workspace) :
    BuildContract lib w ↔ ¬ SpoiltBuild lib w := by
  unfold BuildContract SpoiltBuild
  rw [build_apply]
  cases hopen : lib.logger.refusal? .info lib.opening with
  | some message => simp
  | none =>
      cases hp : populate lib (w.told .info lib.opening) with
      | ok u w' => simpa using populate_ok_ready hp
      | error fault w' =>
          have hready := populate_error_ready hp
          rw [Workspace.told_index] at hready
          simp only [giveUp_apply]
          cases hreport : lib.logger.refusal? .error fault.ofBuild with
          | none =>
              have hmarked : (w'.index.marked false).ready = false := rfl
              simp [hmarked, hreport]
          -- The report is refused before the index is marked as not ready.
          | some message =>
              simp only [Workspace.told_index, ← hready, ← Bool.not_eq_true]
              grind

/-- A library of which nothing is there, and a logger that refuses all complaints about it. -/
def vanishedLibrary : Library where
  root := Path.ofText "/lib"
  files := MemoryFiles.fileSystem {}
  settings := .ofBase ⟨[]⟩
  logger := .refusing [("Cannot", "stop"), ("Failed", "stop")]

/-- A ready index from an earlier build. -/
def earlierWorkspace : Workspace where
  index := { pluginsDoc := some (.ofText "plugins" "Plugins"), ready := true }

theorem not_buildContract_vanishedLibrary : ¬ BuildContract vanishedLibrary earlierWorkspace := by
  intro h
  have hbuild : ∃ fault w', build vanishedLibrary earlierWorkspace = .error fault w' ∧
      w'.index.ready = true ∧ w'.index.pluginsDoc = none := ⟨_, _, rfl, rfl, rfl⟩
  obtain ⟨fault, w', hb, hready, hdoc⟩ := hbuild
  rw [BuildContract, hb] at h
  rcases h with h | h
  · rw [hready] at h; cases h
  · rw [h] at hdoc; cases hdoc

end ComponentCatalog
