import ComponentCatalog.Proofs.Work

/-!
# Work under any logger and any settings

Settings that cannot be read and loggers that refuse may end work anywhere. What it comes to and the
edits it makes until then are still the same in every workspace, as no scan looks at the index. What
holds of every edit that a step can make holds of the edits of the whole work.
-/

namespace ComponentCatalog

namespace Work

variable {α β ε : Type} {lib : Library} {P : Edit → Prop} {Q : α → Prop} {R : β → Prop}

/-- Work that comes to one result and makes the same edits in every workspace. -/
def Determined (body : Work α) : Prop := ∃ r edits, Does body r edits

/-- Determined work that only makes edits with `P`, and only gives a value with `Q`. -/
def Makes (P : Edit → Prop) (Q : α → Prop) (body : Work α) : Prop :=
  ∃ r edits, Does body r edits ∧ (∀ e ∈ edits, P e) ∧ ∀ a, r = .ok a → Q a

theorem Makes.determined {body : Work α} (h : Makes P Q body) : Determined body := by
  obtain ⟨r, edits, h, -⟩ := h
  exact ⟨r, edits, h⟩

theorem Makes.mono {P' : Edit → Prop} {body : Work α} (h : Makes P Q body) (hP : ∀ e, P e → P' e) :
    Makes P' Q body := by
  obtain ⟨r, edits, h, hedits, hvalue⟩ := h
  exact ⟨r, edits, h, fun e he => hP e (hedits e he), hvalue⟩

theorem Makes.trivial {body : Work α} (h : Makes P Q body) : Makes P (fun _ => True) body := by
  obtain ⟨r, edits, h, hedits, -⟩ := h
  exact ⟨r, edits, h, hedits, fun _ _ => True.intro⟩

/-! ## Single steps -/

theorem Makes.pure {a : α} (h : Q a) : Makes P Q (pure a) :=
  ⟨_, _, Does.pure a, by simp, fun _ ha => Except.ok.inj ha ▸ h⟩

theorem Makes.throw (fault : Fault) : Makes P Q (throw fault : Work α) :=
  ⟨_, _, Does.throw fault, by simp, fun _ ha => by cases ha⟩

theorem Makes.note (channel : Channel) (level : Level) (text : Text) :
    Makes P (fun _ => True) (note channel level text) :=
  ⟨_, _, Does.note channel level text, by simp, fun _ _ => True.intro⟩

theorem Makes.check {cause : ε → Fault} {x : Except ε α} : Makes P (x = .ok ·) (check cause x) := by
  refine ⟨_, _, Does.check, by simp, fun a ha => ?_⟩
  cases x with
  | error e => cases ha
  | ok b => exact congrArg Except.ok (Except.ok.inj ha)

theorem Makes.update {f : Index → Index} {e : Edit} (h : ∀ index, f index = e.apply index) (he : P e) :
    Makes P (fun _ => True) (update f) :=
  ⟨_, _, Does.update h, by simpa using he, fun _ _ => True.intro⟩

/-! ## Steps after one another -/

theorem Makes.bind {x : Work α} {k : α → Work β} (hx : Makes P Q x) (hk : ∀ a, Q a → Makes P R (k a)) :
    Makes P R (x >>= k) := by
  obtain ⟨r, edits, hdoes, hedits, hvalue⟩ := hx
  cases r with
  | error fault => exact ⟨_, _, hdoes.bind_error, hedits, fun _ ha => by cases ha⟩
  | ok a =>
      obtain ⟨r', edits', hdoes', hedits', hvalue'⟩ := hk a (hvalue a rfl)
      refine ⟨_, _, hdoes.bind hdoes', fun e he => ?_, hvalue'⟩
      exact (List.mem_append.1 he).elim (hedits e) (hedits' e)

theorem Makes.then {x : Work Unit} {k : Unit → Work β} (hx : Makes P (fun _ => True) x)
    (hk : Makes P R (k ())) : Makes P R (x >>= k) := hx.bind fun _ _ => hk

theorem Makes.map {x : Work α} {f : α → β} (hx : Makes P Q x) (h : ∀ a, Q a → R (f a)) :
    Makes P R (f <$> x) := by
  rw [map_eq_pure_bind]
  exact hx.bind fun a ha => .pure (h a ha)

theorem Makes.tryCatch {x : Work α} {handle : Fault → Work α} (hx : Makes P Q x)
    (hh : ∀ fault, Makes P Q (handle fault)) : Makes P Q (tryCatch x handle) := by
  obtain ⟨r, edits, hdoes, hedits, hvalue⟩ := hx
  cases r with
  | ok a => exact ⟨_, _, hdoes.tryCatch_ok, hedits, hvalue⟩
  | error fault =>
      obtain ⟨r', edits', hdoes', hedits', hvalue'⟩ := hh fault
      refine ⟨_, _, hdoes.tryCatch_error hdoes', fun e he => ?_, hvalue'⟩
      exact (List.mem_append.1 he).elim (hedits e) (hedits' e)

theorem Makes.forM {xs : List α} {body : α → Work Unit}
    (h : ∀ x ∈ xs, Makes P (fun _ => True) (body x)) : Makes P (fun _ => True) (xs.forM body) := by
  induction xs with
  | nil => exact .pure True.intro
  | cons x xs ih => exact (h x (by simp)).then (ih fun y hy => h y (by simp [hy]))

theorem Makes.mapM {xs : List α} {body : α → Work β} (h : ∀ x ∈ xs, Makes P R (body x)) :
    Makes P (fun ys => ∀ y ∈ ys, R y) (xs.mapM body) := by
  induction xs with
  | nil => exact .pure (by simp)
  | cons x xs ih =>
      rw [List.mapM_cons]
      refine (h x (by simp)).bind fun y hy => (ih fun z hz => h z (by simp [hz])).bind fun ys hys => ?_
      exact .pure (by simpa using ⟨hy, hys⟩)

theorem Makes.foldlM {xs : List α} {step : β → α → Work β} {b : β} (hb : R b)
    (h : ∀ b, R b → ∀ x ∈ xs, Makes P R (step b x)) : Makes P R (xs.foldlM step b) := by
  induction xs generalizing b with
  | nil => exact .pure hb
  | cons x xs ih =>
      rw [List.foldlM_cons]
      exact (h b hb x (by simp)).bind fun b hb => ih hb fun b hb y hy => h b hb y (by simp [hy])

/-! ## Messages, settings and files -/

theorem Makes.tell (level : Level) (text : Text) : Makes P (fun _ => True) (tell lib level text) := by
  refine (Makes.note _ _ _).then ?_
  cases lib.logger.refusal? level text with
  | none => exact .pure True.intro
  | some message => exact .throw _

theorem Makes.guarded {what : Text} {body : Work Unit} (h : Makes P (fun _ => True) body) :
    Makes P (fun _ => True) (guarded lib what body) := h.tryCatch fun _ => .tell _ _

theorem Makes.setting {x : Except SettingError α} : Makes P (x = .ok ·) (setting x) := .check

theorem Makes.read (p : Path) : Makes P (lib.files.read p = .ok ·) (read lib p) := .check

theorem Makes.list (p : Path) : Makes P (lib.files.list p = .ok ·) (list lib p) :=
  Makes.check.bind fun _ h => (Makes.note _ _ _).then (.pure h)

/-! ## Work that ends well -/

theorem Makes.guarded_ok (hlog : lib.logger.Accepts) {what : Text} {body : Work Unit}
    (h : Makes P (fun _ => True) body) :
    ∃ edits, Does (Work.guarded lib what body) (.ok ()) edits ∧ ∀ e ∈ edits, P e := by
  obtain ⟨r, edits, hdoes, hedits, -⟩ := h
  cases r with
  | ok u => exact ⟨edits, Does.guarded_ok hdoes, hedits⟩
  | error fault => exact ⟨edits, Does.guarded_error hlog hdoes, hedits⟩

theorem forM_ok {xs : List α} {body : α → Work Unit}
    (h : ∀ x ∈ xs, ∃ edits, Does (body x) (.ok ()) edits ∧ ∀ e ∈ edits, P e) :
    ∃ edits, Does (xs.forM body) (.ok ()) edits ∧ ∀ e ∈ edits, P e := by
  induction xs with
  | nil => exact ⟨_, Does.pure (), by simp⟩
  | cons x xs ih =>
      obtain ⟨edits, hx, hedits⟩ := h x (by simp)
      obtain ⟨edits', hxs, hedits'⟩ := ih fun y hy => h y (by simp [hy])
      exact ⟨_, hx.bind hxs, fun e he => (List.mem_append.1 he).elim (hedits e) (hedits' e)⟩

end Work

end ComponentCatalog
