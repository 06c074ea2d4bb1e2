import ComponentCatalog.Proofs.Provenance

/-!
# How a build ends

A build goes through the same edits whatever the index was before. It ends well if the logger takes
its messages; otherwise it stops at one of four places, and what it leaves behind depends on the
place.
-/

namespace ComponentCatalog

open Work

/-- A workspace after a message to the logger of the index. -/
def Workspace.told (w : Workspace) (level : Level) (text : Text) : Workspace :=
  { w with log := w.log ++ [⟨.index, level, text⟩] }

@[simp] theorem Workspace.told_index (w : Workspace) (level : Level) (text : Text) :
    (w.told level text).index = w.index := rfl

theorem tell_apply (lib : Library) (level : Level) (text : Text) (w : Workspace) :
    tell lib level text w = match lib.logger.refusal? level text with
      | none => .ok () (w.told level text)
      | some message => .error (.interrupted message) (w.told level text) := by
  show (note .index level text >>= fun _ => _) w = _
  rw [bind_apply]
  cases h : lib.logger.refusal? level text <;> simp [note] <;> rfl

theorem Index.cleared_eq (index : Index) : index.cleared = ({} : Index).marked index.ready := rfl

/-- What filling the index comes to once the scans come to `r` with `edits`. -/
theorem populate_apply {lib : Library} {r : Except Fault Unit} {edits : List Edit}
    (h : Does (scanAll lib) r edits) (w : Workspace) :
    ∃ log, populate lib w = match r with
      | .error fault => .error fault ⟨(({} : Index).edited edits).marked w.index.ready, w.log ++ log⟩
      | .ok () =>
        let index := (({} : Index).edited edits).marked true
        tell lib .info index.report ⟨index, w.log ++ log⟩ := by
  obtain ⟨log, hw⟩ := h ⟨w.index.cleared, w.log⟩
  rw [Index.cleared_eq, Index.edited_marked] at hw
  refine ⟨log, ?_⟩
  show (update Index.cleared >>= fun _ => _) w = _
  rw [bind_apply]
  show (scanAll lib >>= fun _ => _) ⟨w.index.cleared, w.log⟩ = _
  rw [bind_apply, Index.cleared_eq, hw]
  cases r <;> rfl

/-- What a build comes to, from its first message on. -/
theorem build_apply (lib : Library) (w : Workspace) :
    build lib w = match lib.logger.refusal? .info lib.opening with
      | some message => .error (.interrupted message) (w.told .info lib.opening)
      | none => match populate lib (w.told .info lib.opening) with
        | .ok _ w => .ok () w
        | .error fault w => giveUp lib fault w := by
  show (tell lib .info lib.opening >>= fun _ => _) w = _
  rw [bind_apply, tell_apply]
  cases lib.logger.refusal? .info lib.opening with
  | some message => rfl
  | none =>
      show tryCatch (populate lib) (giveUp lib) _ = _
      rw [tryCatch_apply]
      cases populate lib (w.told .info lib.opening) <;> rfl

/-- A build that gives up says so; the index is marked as not ready unless the logger refuses. -/
theorem giveUp_apply (lib : Library) (fault : Fault) (w : Workspace) :
    giveUp lib fault w = match lib.logger.refusal? .error fault.ofBuild with
      | some message => .error (.interrupted message) (w.told .error fault.ofBuild)
      | none => .error fault { w.told .error fault.ofBuild with index := w.index.marked false } := by
  show (tell lib .error fault.ofBuild >>= fun _ => _) w = _
  rw [bind_apply, tell_apply]
  cases lib.logger.refusal? .error fault.ofBuild <;> rfl

/-- A build leaves the index alone, or fills an empty one by edits that come from files. -/
theorem build_index (lib : Library) (w : Workspace) :
    ((build lib).after w).index = w.index ∨
      ∃ edits ready, (∀ e ∈ edits, e.Sourced lib) ∧
        ((build lib).after w).index = (({} : Index).edited edits).marked ready := by
  obtain ⟨r, edits, hdoes, hedits, -⟩ := scanAll_makes lib
  obtain ⟨log, hpopulate⟩ := populate_apply hdoes (w.told .info lib.opening)
  rw [Work.after, build_apply]
  cases hopen : lib.logger.refusal? .info lib.opening with
  | some message => exact .inl rfl
  | none =>
      right
      -- Whether the report is refused or not, the records stay as they were filled.
      have hgiveUp : ∀ fault ready log, ∃ ready',
          ((giveUp lib fault).after ⟨(({} : Index).edited edits).marked ready, log⟩).index =
            (({} : Index).edited edits).marked ready' := by
        intro fault ready log
        rw [Work.after, giveUp_apply]
        cases lib.logger.refusal? .error fault.ofBuild with
        | some message => exact ⟨ready, rfl⟩
        | none => exact ⟨false, rfl⟩
      cases r with
      | error fault =>
          obtain ⟨ready, hready⟩ := hgiveUp fault w.index.ready (w.log ++ [⟨.index, .info, lib.opening⟩] ++ log)
          refine ⟨edits, ready, hedits, ?_⟩
          rw [hpopulate]
          exact hready
      | ok u =>
          simp only [tell_apply] at hpopulate
          rw [hpopulate]
          cases lib.logger.refusal? .info _ with
          | none => exact ⟨edits, true, hedits, rfl⟩
          | some message =>
              obtain ⟨ready, hready⟩ := hgiveUp (.interrupted message) true _
              exact ⟨edits, ready, hedits, hready⟩

end ComponentCatalog
