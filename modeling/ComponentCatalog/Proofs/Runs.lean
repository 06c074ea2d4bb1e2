import ComponentCatalog.CommandLine.Run

/-!
# Parts of a run

How the parts of a run follow on one another, and what opening a library leaves of the state of a run.
-/

namespace ComponentCatalog.CommandLine

namespace Run

variable {α β ε : Type} (s : RunState)

theorem bind_apply (x : Run α) (k : α → Run β) : (x >>= k) s = match x s with
    | .ok a s => k a s
    | .error fault s => .error fault s := by
  show EStateM.bind x k s = _
  unfold EStateM.bind
  cases x s <;> rfl

theorem check_apply (cause : ε → Fault) (x : Except ε α) : check cause x s = match x with
    | .ok a => .ok a s
    | .error e => .error (cause e) s := by
  cases x <;> rfl

theorem change_apply (f : Disk → Except FileError Disk) : change f s = match f s.disk with
    | .ok disk => .ok () { s with disk }
    | .error e => .error (.file e) s := by
  show (check .file (f s.disk) >>= fun disk => modify fun s => { s with disk }) s = _
  rw [bind_apply, check_apply]
  cases f s.disk <;> rfl

/-- A part of a run leaves all as it is, and what it comes to has the property `p`. -/
def Brings (p : α → Prop) (x : Run α) : Prop := ∀ s a left, x s = .ok a left → p a ∧ left = s

variable {p : α → Prop}

theorem Brings.pure {a : α} (h : p a) : Brings p (pure a) := by
  rintro s _ _ ⟨⟩
  exact ⟨h, rfl⟩

theorem Brings.throw (fault : Fault) : Brings p (throw fault) := nofun

theorem Brings.get : Brings (fun _ => True) (get : Run RunState) := by
  rintro s _ _ ⟨⟩
  exact ⟨trivial, rfl⟩

theorem Brings.check {cause : ε → Fault} {x : Except ε α} : Brings (fun _ => True) (check cause x) := by
  cases x with
  | ok a => exact .pure trivial
  | error e => exact .throw (cause e)

theorem Brings.bind {q : β → Prop} {x : Run α} {k : α → Run β} (hx : Brings p x)
    (hk : ∀ a, p a → Brings q (k a)) : Brings q (x >>= k) := by
  intro s b left h
  rw [bind_apply] at h
  cases hfirst : x s with
  | error fault mid =>
      rw [hfirst] at h
      cases h
  | ok a mid =>
      rw [hfirst] at h
      obtain ⟨ha, rfl⟩ := hx s a mid hfirst
      exact hk a ha mid b left h

end Run

namespace Request

open Run

theorem storedSettings_brings (r : Request) (env : Environment) :
    Brings (fun _ => True) (r.storedSettings env) :=
  Brings.check.bind fun _ _ => Brings.get.bind fun _ _ => .check

theorem settings_brings (r : Request) (env : Environment) : Brings (fun _ => True) (r.settings env) := by
  refine (r.storedSettings_brings env).bind fun settings _ => ?_
  split
  · exact .check
  · exact .pure trivial

/-- Opening a library changes nothing. Nobody refuses messages about it. -/
theorem openLibrary_brings (r : Request) (env : Environment) :
    Brings (fun lib => lib.logger = .silent) (r.openLibrary env) := by
  refine (r.settings_brings env).bind fun settings _ => Brings.check.bind fun root _ => ?_
  refine Brings.get.bind fun s _ => Brings.check.bind fun found _ => ?_
  cases found with
  | true => exact .pure rfl
  | false => exact .throw _

theorem storedSettings_apply {r : Request} {env : Environment} {base : Path} {stored : Settings} {s : RunState}
    (hbase : Settings.findBase env r.base = .ok base) (hload : Settings.load s.disk base = .ok stored) :
    r.storedSettings env s = .ok stored s := by
  show (check .setting (Settings.findBase env r.base) >>= _ : Run Settings) s = _
  rw [bind_apply, check_apply, hbase]
  show check id (Settings.load s.disk base) s = _
  rw [check_apply, hload]

/-- The library that a request names is opened where it is a directory. -/
theorem openLibrary_apply {r : Request} {env : Environment} {base root : Path} {stored settings : Settings}
    {t : Text} {s : RunState} (hbase : Settings.findBase env r.base = .ok base)
    (hload : Settings.load s.disk base = .ok stored) (hlibrary : r.library? = some t)
    (hpin : stored.pin env t = .ok settings) (hroot : settings.libraryPath env = .ok root)
    (hfound : s.disk.isDirectory root = .ok true) :
    r.openLibrary env s = .ok { root, files := s.disk.fileSystem, settings } s := by
  have hsettings : r.settings env s = .ok settings s := by
    rw [Request.settings, bind_apply, storedSettings_apply hbase hload]
    simp only [hlibrary, check_apply, hpin]
  rw [openLibrary, bind_apply, hsettings]
  show (check .setting (settings.libraryPath env) >>= _ : Run Library) s = _
  rw [bind_apply, check_apply, hroot]
  show (check .file (s.disk.isDirectory root) >>= _ : Run Library) s = _
  rw [bind_apply, check_apply, hfound]
  rfl

end Request

/-- Someone without a home, who names a base directory. -/
def plainHost : Host := ⟨{}, "libscout"⟩

end ComponentCatalog.CommandLine
