import ComponentCatalog.Proofs.Edit

/-!
# What work comes to

Work on an index comes to the same result in every workspace, and changes the index by the same
edits. The rules for single steps of work are put together along the steps of a scan.
-/

namespace ComponentCatalog

/-- A logger that never refuses a message. -/
def Logger.Accepts (logger : Logger) : Prop := ∀ level text, logger.refusal? level text = none

theorem Logger.silent_accepts : Logger.silent.Accepts := fun _ _ => rfl

namespace Work

variable {α β : Type} {lib : Library}

/-- How work with result `r` ends in a workspace. -/
def ending (r : Except Fault α) (w : Workspace) : EStateM.Result Fault Workspace α :=
  match r with
  | .ok a => .ok a w
  | .error fault => .error fault w

/-- The workspace that work leaves, however it ends. -/
def after (body : Work α) (w : Workspace) : Workspace :=
  match body w with
  | .ok _ w => w
  | .error _ w => w

/-- Work comes to `r` in every workspace; it makes these edits, and the log only grows. -/
def Does (body : Work α) (r : Except Fault α) (edits : List Edit) : Prop :=
  ∀ w, ∃ log, body w = ending r ⟨w.index.edited edits, w.log ++ log⟩

/-! ## Single steps -/

theorem bind_apply (x : Work α) (k : α → Work β) (w : Workspace) :
    (x >>= k) w = match x w with
      | .ok a w => k a w
      | .error fault w => .error fault w := by
  show EStateM.bind x k w = _
  unfold EStateM.bind
  cases x w <;> rfl

theorem tryCatch_apply (x : Work α) (h : Fault → Work α) (w : Workspace) :
    (tryCatch x h) w = match x w with
      | .ok a w => .ok a w
      | .error fault w => h fault w := by
  show EStateM.tryCatch x h w = _
  unfold EStateM.tryCatch
  cases x w <;> rfl

theorem Does.pure (a : α) : Does (pure a) (.ok a) [] := fun w => ⟨[], by simp [ending]; rfl⟩

theorem Does.throw (fault : Fault) : Does (throw fault : Work α) (.error fault) [] :=
  fun w => ⟨[], by simp [ending]; rfl⟩

theorem Does.note (channel : Channel) (level : Level) (text : Text) :
    Does (note channel level text) (.ok ()) [] := fun _ => ⟨[_], rfl⟩

theorem Does.update {f : Index → Index} {e : Edit} (h : ∀ index, f index = e.apply index) :
    Does (update f) (.ok ()) [e] :=
  fun w => ⟨[], by
    show EStateM.Result.ok () { w with index := f w.index } = _
    simp [ending, h]⟩

theorem Does.check {ε : Type} {cause : ε → Fault} {x : Except ε α} :
    Does (check cause x) (x.mapError cause) [] := by
  cases x with
  | ok a => exact Does.pure a
  | error e => exact Does.throw (cause e)

theorem Does.setting {x : Except SettingError α} {a : α} (h : x = .ok a) :
    Does (setting x) (.ok a) [] := by
  subst h
  exact Does.pure a

/-! ## Steps after one another -/

theorem Does.bind {x : Work α} {k : α → Work β} {a : α} {r : Except Fault β} {edits edits' : List Edit}
    (hx : Does x (.ok a) edits) (hk : Does (k a) r edits') : Does (x >>= k) r (edits ++ edits') := by
  intro w
  obtain ⟨log, h⟩ := hx w
  obtain ⟨log', h'⟩ := hk ⟨w.index.edited edits, w.log ++ log⟩
  refine ⟨log ++ log', ?_⟩
  rw [bind_apply, h, Index.edited_append, ← List.append_assoc]
  exact h'

theorem Does.bind_error {x : Work α} {k : α → Work β} {fault : Fault} {edits : List Edit}
    (hx : Does x (.error fault) edits) : Does (x >>= k) (.error fault) edits := by
  intro w
  obtain ⟨log, h⟩ := hx w
  exact ⟨log, by rw [bind_apply, h]; rfl⟩

theorem Does.then {x : Work α} {k : α → Work β} {a : α} {r : Except Fault β} {edits : List Edit}
    (hx : Does x (.ok a) []) (hk : Does (k a) r edits) : Does (x >>= k) r edits := hx.bind hk

theorem Does.map {x : Work α} {a : α} {edits : List Edit} (f : α → β) (hx : Does x (.ok a) edits) :
    Does (f <$> x) (.ok (f a)) edits := by
  rw [map_eq_pure_bind, ← List.append_nil edits]
  exact hx.bind (Does.pure (f a))

theorem Does.map_error {x : Work α} {fault : Fault} {edits : List Edit} {f : α → β}
    (hx : Does x (.error fault) edits) : Does (f <$> x) (.error fault) edits := by
  rw [map_eq_pure_bind]
  exact hx.bind_error

theorem Does.tryCatch_ok {x : Work α} {h : Fault → Work α} {a : α} {edits : List Edit}
    (hx : Does x (.ok a) edits) : Does (tryCatch x h) (.ok a) edits := by
  intro w
  obtain ⟨log, hw⟩ := hx w
  exact ⟨log, by rw [tryCatch_apply, hw]; rfl⟩

theorem Does.tryCatch_error {x : Work α} {h : Fault → Work α} {fault : Fault} {r : Except Fault α}
    {edits edits' : List Edit} (hx : Does x (.error fault) edits) (hh : Does (h fault) r edits') :
    Does (tryCatch x h) r (edits ++ edits') := by
  intro w
  obtain ⟨log, hw⟩ := hx w
  obtain ⟨log', hw'⟩ := hh ⟨w.index.edited edits, w.log ++ log⟩
  refine ⟨log ++ log', ?_⟩
  rw [tryCatch_apply, hw, Index.edited_append, ← List.append_assoc]
  exact hw'

theorem Does.forM {xs : List α} {body : α → Work Unit} {edits : α → List Edit}
    (h : ∀ x ∈ xs, Does (body x) (.ok ()) (edits x)) :
    Does (xs.forM body) (.ok ()) (xs.flatMap edits) := by
  induction xs with
  | nil => exact Does.pure ()
  | cons x xs ih =>
      rw [List.flatMap_cons]
      exact (h x (by simp)).bind (ih fun y hy => h y (by simp [hy]))

theorem Does.mapM {xs : List α} {body : α → Work β} {f : α → β}
    (h : ∀ x ∈ xs, Does (body x) (.ok (f x)) []) : Does (xs.mapM body) (.ok (xs.map f)) [] := by
  induction xs with
  | nil => exact Does.pure []
  | cons x xs ih =>
      rw [List.mapM_cons]
      exact (h x (by simp)).then ((ih fun y hy => h y (by simp [hy])).then (Does.pure _))

theorem Does.foldlM {xs : List α} {step : β → α → Work β} {f : β → α → β} {b : β}
    (h : ∀ b, ∀ x ∈ xs, Does (step b x) (.ok (f b x)) []) :
    Does (xs.foldlM step b) (.ok (xs.foldl f b)) [] := by
  induction xs generalizing b with
  | nil => exact Does.pure b
  | cons x xs ih =>
      rw [List.foldlM_cons]
      exact (h b x (by simp)).then (ih fun b y hy => h b y (by simp [hy]))

/-! ## Files -/

theorem Does.read {p : Path} {t : Text} (h : lib.files.read p = .ok t) : Does (read lib p) (.ok t) [] := by
  unfold Work.read
  rw [h]
  exact Does.pure t

theorem Does.read_error {p : Path} {e : FileError} (h : lib.files.read p = .error e) :
    Does (Work.read lib p) (.error (.file e)) [] := by
  unfold Work.read
  rw [h]
  exact Does.throw _

theorem Does.list {p : Path} {entries : List Entry} (h : lib.files.list p = .ok entries) :
    Does (list lib p) (.ok entries) [] := by
  unfold Work.list
  rw [h]
  exact (Does.pure entries).then ((Does.note _ _ _).then (Does.pure entries))

theorem Does.list_error {p : Path} {e : FileError} (h : lib.files.list p = .error e) :
    Does (Work.list lib p) (.error (.file e)) [] := by
  unfold Work.list
  rw [h]
  exact (Does.throw _).bind_error

/-! ## Messages and guarded work -/

theorem Does.tell (h : lib.logger.Accepts) (level : Level) (text : Text) :
    Does (tell lib level text) (.ok ()) [] := by
  refine (Does.note _ _ _).then ?_
  rw [h level text]
  exact Does.pure ()

theorem Does.guarded_ok {what : Text} {body : Work Unit} {edits : List Edit}
    (h : Does body (.ok ()) edits) : Does (guarded lib what body) (.ok ()) edits := h.tryCatch_ok

theorem Does.guarded_error (hl : lib.logger.Accepts) {what : Text} {body : Work Unit} {fault : Fault}
    {edits : List Edit} (h : Does body (.error fault) edits) :
    Does (guarded lib what body) (.ok ()) edits := by
  rw [← List.append_nil edits]
  exact h.tryCatch_error (Does.tell hl .warning _)

end Work

end ComponentCatalog
