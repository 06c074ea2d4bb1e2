import ComponentCatalog.Proofs.IniEntries
import ComponentCatalog.Proofs.Results

/-!
# Steps of a reading

What one line does to a reading. Nothing that was read is taken away by the lines that follow.
-/

namespace ComponentCatalog

namespace Ini

variable {file : Text} {r s : Reading} {line : NumberedLine}

/-! ## What a line does -/

/-- A line begins a section or an option, or it is malformed. -/
inductive Reading.Begins (r : Reading) (line : NumberedLine) : Reading → Prop
  | shared (indent : Nat) : header? line.text.trim = some sharedName →
      r.Begins line { r with indent, current? := some sharedName, option? := none }
  | header {group : Text} (indent : Nat) : header? line.text.trim = some group → group ≠ sharedName →
      group ∉ r.seenSections → r.Begins line { r with
        indent
        ini := r.ini.addSection group
        seenSections := group :: r.seenSections
        current? := some group
        option? := none }
  -- A line without a delimiter leaves the option as it is. One with an empty name ends it, and is remembered.
  | malformed (indent : Nat) (seenOptions : List (Text × Text)) (option? : Option Text) :
      r.seenOptions ⊆ seenOptions → option? = none ∨ option? = r.option? →
      r.Begins line { r with indent, seenOptions, option?, malformed := r.malformed ++ [line] }
  | option {group name value : Text} (indent : Nat) : r.current? = some group → header? line.text.trim = none →
      assignment? line.text.trim = some (name, value) → name.lower ≠ [] → (group, name.lower) ∉ r.seenOptions →
      r.Begins line (Reading.extend { r with
        indent
        seenOptions := (group, name.lower) :: r.seenOptions
        option? := some name.lower
        value := [] } group name.lower value)

/-- A line is skipped, goes on with a value, or begins something. -/
inductive Reading.Takes (r : Reading) (line : NumberedLine) : Reading → Prop
  | skip : (isComment line.text.trim || line.text.trim.isEmpty) = true → r.Takes line r
  | more {group option : Text} : r.current? = some group → r.option? = some option →
      isComment line.text.trim = false → r.Takes line (r.extend group option line.text.trim)
  | begins {s : Reading} : isComment line.text.trim = false → line.text.trim ≠ [] → r.Begins line s →
      r.Takes line s

theorem fresh_begins {indent : Nat} (h : Reading.step.fresh file r line line.text.trim indent = .ok s) :
    r.Begins line s := by
  unfold Reading.step.fresh at h
  dsimp only at h
  split at h
  · next group hheader =>
      unfold Reading.openSection at h
      split at h
      · next hshared =>
          subst hshared
          cases h
          exact .shared indent hheader
      · next howned =>
          split at h
          · cases h
          · next hnew =>
              cases h
              exact .header indent hheader howned (by simpa using hnew)
  · next hheader =>
      split at h
      · cases h
      · next group hcurrent =>
          unfold Reading.optionLine at h
          split at h
          · cases h
            exact .malformed indent r.seenOptions r.option? (List.Subset.refl _) (.inr rfl)
          · next name value hassignment =>
              dsimp only at h
              split at h
              · cases h
              · next hnew =>
                  split at h
                  · cases h
                    exact .malformed indent _ none (List.subset_cons_self _ _) (.inl rfl)
                  · next hne =>
                      cases h
                      exact .option indent hcurrent hheader hassignment (by simpa using hne) (by simpa using hnew)

theorem step_takes (h : r.step file line = .ok s) : r.Takes line s := by
  unfold Reading.step at h
  dsimp only at h
  cases hcomment : isComment line.text.trim with
  | true =>
      rw [hcomment, if_pos rfl] at h
      cases h
      exact .skip (by rw [hcomment, Bool.true_or])
  | false =>
      rw [hcomment, if_neg (by simp)] at h
      split at h
      · next group option hcurrent hoption =>
          split at h
          · cases h
            exact .more hcurrent hoption hcomment
          · next hstays =>
              have hne : line.text.trim ≠ [] := fun hnil => hstays (by rw [hnil]; rfl)
              exact .begins hcomment hne (fresh_begins h)
      · split at h
        · next hempty =>
            cases h
            exact .skip (by rw [hempty, Bool.or_true])
        · next hempty => exact .begins hcomment (by simpa using hempty) (fresh_begins h)

/-- What every line that is taken in keeps is kept by all lines. -/
theorem foldlM_keeps {P : Reading → Prop} {lines : List NumberedLine}
    (hstep : ∀ line ∈ lines, ∀ r s, Reading.Takes r line s → P r → P s) (hr : P r)
    (h : lines.foldlM (Reading.step file) r = .ok s) : P s := by
  induction lines generalizing r with
  | nil =>
      cases h
      exact hr
  | cons line lines ih =>
      obtain ⟨t, hfirst, hrest⟩ := foldlM_cons_eq_ok h
      exact ih (fun l hl => hstep l (List.mem_cons_of_mem _ hl))
        (hstep line List.mem_cons_self r t (step_takes hfirst) hr) hrest

/-! ## Growing -/

/-- Nothing that was read is taken away. -/
structure Reading.Grows (r s : Reading) : Prop where
  malformed : r.malformed ≠ [] → s.malformed ≠ []
  sections : r.seenSections ⊆ s.seenSections
  options : r.seenOptions ⊆ s.seenOptions
  ini : r.ini.IsPartOf s.ini

theorem Reading.Grows.refl (r : Reading) : r.Grows r :=
  ⟨id, List.Subset.refl _, List.Subset.refl _, .refl r.ini⟩

theorem Reading.Grows.trans {t : Reading} (h : r.Grows s) (h' : s.Grows t) : r.Grows t where
  malformed hne := h'.malformed (h.malformed hne)
  sections := List.Subset.trans h.sections h'.sections
  options := List.Subset.trans h.options h'.options
  ini := h.ini.trans h'.ini

theorem Reading.Begins.grows (h : r.Begins line s) : r.Grows s := by
  cases h with
  | shared indent hheader => exact ⟨id, List.Subset.refl _, List.Subset.refl _, .refl r.ini⟩
  | header indent hheader howned hnew =>
      exact ⟨id, List.subset_cons_self _ _, List.Subset.refl _, isPartOf_addSection ..⟩
  | malformed indent seenOptions option? hseen hoption =>
      exact ⟨fun _ => by simp, List.Subset.refl _, hseen, .refl r.ini⟩
  | option indent hcurrent hheader hassignment hne hnew =>
      exact ⟨id, List.Subset.refl _, List.subset_cons_self _ _, isPartOf_put ..⟩

theorem Reading.Takes.grows (h : r.Takes line s) : r.Grows s := by
  cases h with
  | skip hskip => exact .refl r
  | more hcurrent hoption hcomment => exact ⟨id, List.Subset.refl _, List.Subset.refl _, isPartOf_put ..⟩
  | begins hcomment hne hbegins => exact hbegins.grows

theorem foldlM_grows {lines : List NumberedLine} (h : lines.foldlM (Reading.step file) r = .ok s) : r.Grows s :=
  foldlM_keeps (P := fun s => r.Grows s) (fun _ _ _ _ htakes hr => hr.trans htakes.grows) (.refl r) h

end Ini

end ComponentCatalog
