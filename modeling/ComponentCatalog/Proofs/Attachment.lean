import ComponentCatalog.Proofs.EditView

/-!
# Documentation behind its category

If no component of a category is set, and the category not documented again, once its documentation
is attached, then the order of the edits does not show in the components: each has the record that is
set for it and what is attached to its category.
-/

namespace ComponentCatalog

namespace Edit

/-- The category that an edit is about. -/
def category? : Edit → Option Text
  | component _ category _ _ | attach category _ => some category
  | _ => none

/-- The sections that an edit attaches to a category. -/
def sectionsOf? (category : Text) : Edit → Option (List Section)
  | attach c sections => if c = category then some sections else none
  | _ => none

/-- What comes later is not about a category to which documentation is attached now. -/
def Closes (now later : Edit) : Prop :=
  match now with
  | attach category _ => later.category? ≠ some category
  | _ => True

theorem sectionsOf?_eq_some {category : Text} {sections : List Section} {e : Edit}
    (h : e.sectionsOf? category = some sections) : e = .attach category sections := by
  cases e with
  | attach c s =>
      simp only [sectionsOf?, Option.ite_none_right_eq_some, Option.some.injEq] at h
      rw [h.1, h.2]
  | _ => cases h

theorem sets_component_iff {k : Text} {e : Edit} :
    e.sets .component k = true ↔ ∃ category p source, e = .component k category p source := by
  cases e <;> simp [sets, kind, key?]

end Edit

/-- No edit is about a category that was documented before. -/
def Settled (edits : List Edit) : Prop := edits.Pairwise Edit.Closes

/-- A component with all that edits attach to its category. -/
def ComponentRecord.documentedBy (name : Text) (edits : List Edit) (c : ComponentRecord) :
    ComponentRecord :=
  (edits.filterMap (Edit.sectionsOf? c.category)).foldl
    (fun d sections => Scan.attach c.category sections name d) c

variable {edits edits' : List Edit} {k category source : Text} {p : Path} {c : ComponentRecord}

theorem ComponentRecord.documentedBy_cons (e : Edit) :
    c.documentedBy k (e :: edits) = match e.sectionsOf? c.category with
      | some sections => (Scan.attach c.category sections k c).documentedBy k edits
      | none => c.documentedBy k edits := by
  unfold documentedBy
  cases h : e.sectionsOf? c.category with
  | none => rw [List.filterMap_cons_none h]
  | some sections => simp only [List.filterMap_cons_some h, List.foldl_cons, Scan.attach_category]

namespace Index

/-- One edit, seen at a key under which it sets nothing. -/
theorem find?_apply {e : Edit} (h : e.sets .component k = false) (index : Index) :
    (e.apply index).components.find? k =
      (index.components.find? k).map fun c => match e.sectionsOf? c.category with
        | some sections => Scan.attach c.category sections k c
        | none => c := by
  cases e with
  | component name category p source =>
      have hne : name ≠ k := by simpa [Edit.sets, Edit.kind, Edit.key?] using h
      simp [Edit.apply, OrderedMap.find?_insert, hne, Edit.sectionsOf?]
  | attach category sections =>
      rw [Edit.apply, OrderedMap.find?_map]
      congr 1
      funext c
      by_cases hc : category = c.category
      · simp [Edit.sectionsOf?, hc]
      · simp [Edit.sectionsOf?, hc, Scan.attach_of_ne (Ne.symm hc)]
  | _ => simp [Edit.apply, Edit.sectionsOf?]

theorem find?_edited_of_not_sets (h : ∀ e ∈ edits, e.sets .component k = false) (index : Index) :
    (index.edited edits).components.find? k = (index.components.find? k).map (·.documentedBy k edits) := by
  induction edits generalizing index with
  | nil => simp [ComponentRecord.documentedBy]
  | cons e edits ih =>
      rw [edited_cons, ih (fun e' he' => h e' (by simp [he'])), find?_apply (h e (by simp)), Option.map_map]
      congr 1
      funext c
      rw [ComponentRecord.documentedBy_cons, Function.comp_apply]
      split <;> rfl

/-- Whatever stands before the last edit that sets a component is lost, and nothing of what is attached
to its category does. -/
theorem find?_edited_of_settled (hs : Settled edits) (hmem : .component k category p source ∈ edits)
    (huniq : ∀ e ∈ edits, e.sets .component k = true → e = .component k category p source) (index : Index) :
    (index.edited edits).components.find? k =
      some ((Scan.componentRecord k category p source).documentedBy k edits) := by
  induction edits generalizing index with
  | nil => cases hmem
  | cons e edits ih =>
      have hs' := List.pairwise_cons.1 hs
      rw [edited_cons, ComponentRecord.documentedBy_cons]
      by_cases hlater : .component k category p source ∈ edits
      · have hnone : e.sectionsOf? category = none := by
          cases h : e.sectionsOf? category with
          | none => rfl
          | some sections =>
              obtain rfl := Edit.sectionsOf?_eq_some h
              exact absurd rfl (hs'.1 _ hlater)
        rw [ih hs'.2 hlater fun e' he' => huniq e' (by simp [he'])]
        simp only [Scan.componentRecord, hnone]
      · obtain rfl : .component k category p source = e := by simpa [hlater] using hmem
        have hnot : ∀ e' ∈ edits, e'.sets .component k = false := by
          intro e' he'
          rw [← Bool.not_eq_true]
          exact fun hsets => hlater (huniq e' (by simp [he']) hsets ▸ he')
        rw [find?_edited_of_not_sets hnot]
        simp [Edit.apply, OrderedMap.find?_insert, Edit.sectionsOf?]

end Index

theorem Settled.length_sections_le (hs : Settled edits) (category : Text) :
    (edits.filterMap (Edit.sectionsOf? category)).length ≤ 1 := by
  induction edits with
  | nil => simp
  | cons e edits ih =>
      have hs' := List.pairwise_cons.1 hs
      cases h : e.sectionsOf? category with
      | none =>
          rw [List.filterMap_cons_none h]
          exact ih hs'.2
      | some sections =>
          obtain rfl := Edit.sectionsOf?_eq_some h
          have hnil : edits.filterMap (Edit.sectionsOf? category) = [] := by
            rw [List.filterMap_eq_nil_iff]
            intro e' he'
            cases h' : e'.sectionsOf? category with
            | none => rfl
            | some sections' =>
                obtain rfl := Edit.sectionsOf?_eq_some h'
                exact absurd rfl (hs'.1 _ he')
          rw [List.filterMap_cons_some h, hnil]
          simp

theorem Settled.documentedBy_perm (hs : Settled edits) (h : edits.Perm edits') :
    c.documentedBy k edits = c.documentedBy k edits' := by
  have hperm := h.filterMap (Edit.sectionsOf? c.category)
  have hlen := hs.length_sections_le c.category
  unfold ComponentRecord.documentedBy
  generalize edits.filterMap (Edit.sectionsOf? c.category) = attached at hperm hlen
  match attached, hlen with
  | [], _ => rw [List.nil_perm.1 hperm]
  | [sections], _ => rw [List.singleton_perm.1 hperm]

/-- Settled edits leave the same component under a key in whatever order they come, if all edits that
set it are the same. -/
theorem Index.find?_edited_perm (h : edits.Perm edits') (hs : Settled edits) (hs' : Settled edits')
    (huniq : ∀ e ∈ edits, ∀ e' ∈ edits, e.sets .component k = true → e'.sets .component k = true → e = e')
    {index index' : Index} (hfind : index.components.find? k = index'.components.find? k) :
    (index.edited edits).components.find? k = (index'.edited edits').components.find? k := by
  by_cases hsets : ∃ e ∈ edits, e.sets .component k = true
  · obtain ⟨e, he, hek⟩ := hsets
    obtain ⟨category, p, source, rfl⟩ := Edit.sets_component_iff.1 hek
    have hall : ∀ e' ∈ edits, e'.sets .component k = true → e' = .component k category p source :=
      fun e' he' hk => huniq e' he' _ he hk hek
    rw [find?_edited_of_settled hs he hall,
      find?_edited_of_settled hs' (h.subset he) fun e' he' => hall e' (h.symm.subset he'),
      hs.documentedBy_perm h]
  · have hnot : ∀ e ∈ edits, e.sets .component k = false := by
      intro e he
      rw [← Bool.not_eq_true]
      exact fun hek => hsets ⟨e, he, hek⟩
    rw [find?_edited_of_not_sets hnot, find?_edited_of_not_sets fun e he => hnot e (h.symm.subset he), hfind]
    congr 1
    funext c
    exact hs.documentedBy_perm h

end ComponentCatalog
