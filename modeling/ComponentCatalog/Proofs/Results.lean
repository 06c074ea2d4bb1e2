/-!
# Results that may be errors
-/

namespace ComponentCatalog

variable {ε ε' α β : Type} {x : Except ε α} {f : α → Except ε β}

theorem exists_of_bind_ok {b : β} (h : (x >>= f) = .ok b) : ∃ a, x = .ok a ∧ f a = .ok b := by
  cases x with
  | error e => cases h
  | ok a => exact ⟨a, rfl, h⟩

theorem foldlM_cons_eq_ok {g : β → α → Except ε β} {a : α} {l : List α} {b c : β}
    (h : (a :: l).foldlM g b = .ok c) : ∃ mid, g b a = .ok mid ∧ l.foldlM g mid = .ok c := by
  rw [List.foldlM_cons] at h
  exact exists_of_bind_ok h

theorem bind_eq_error {e : ε} (h : (x >>= f) = .error e) : x = .error e ∨ ∃ a, x = .ok a ∧ f a = .error e := by
  cases x with
  | error e' => cases h; exact .inl rfl
  | ok a => exact .inr ⟨a, rfl, h⟩

@[simp] theorem mapError_ok (g : ε → ε') (a : α) : (Except.ok a : Except ε α).mapError g = .ok a := rfl

@[simp] theorem mapError_error (g : ε → ε') (e : ε) :
    (Except.error e : Except ε α).mapError g = .error (g e) := rfl

theorem mapError_eq_ok {g : ε → ε'} {a : α} : x.mapError g = .ok a ↔ x = .ok a := by
  cases x <;> simp

theorem mapError_eq_error {g : ε → ε'} {e : ε'} (h : x.mapError g = .error e) : ∃ e', x = .error e' ∧ g e' = e := by
  cases x with
  | error e' => exact ⟨e', rfl, Except.error.inj h⟩
  | ok a => cases h

end ComponentCatalog
