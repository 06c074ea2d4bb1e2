import ComponentCatalog.Proofs.Edit
import ComponentCatalog.Proofs.OrderedMap

/-!
# What is seen of an edited index

The record of a key follows from the edits that set a record under this key; for a component those
that attach the documentation of its category are needed too. The documentation of a kind follows
from the edits that set it.
-/

namespace ComponentCatalog

namespace Edit

/-- The name of the record that an edit writes, if it writes one. -/
def key? : Edit → Option Text
  | component name .. | utility name .. | config name .. | plugin name _ | project name _ => some name
  | attach .. | utilitiesDoc _ | configsDoc _ | pluginsDoc _ => none

/-- Does an edit set the record of a kind under a key? -/
def sets (κ : ResourceKind) (k : Text) (e : Edit) : Bool := e.kind == κ && e.key? == some k

/-- Does an edit set the documentation of a kind? Components have none, but for their categories. -/
def documents (κ : ResourceKind) (e : Edit) : Bool := e.kind == κ && e.key? == none

/-- Does an edit change the component of a key, while it is in a category? -/
def concerns (k category : Text) (e : Edit) : Bool :=
  match e with
  | attach c _ => c == category
  | e => e.sets .component k

theorem sets_iff {κ : ResourceKind} {k : Text} {e : Edit} :
    e.sets κ k = true ↔ e.kind = κ ∧ e.key? = some k := by simp [sets]

theorem kind_of_sets {κ : ResourceKind} {k : Text} {e : Edit} (h : e.sets κ k = true) : e.kind = κ :=
  (sets_iff.1 h).1

theorem kind_of_documents {κ : ResourceKind} {e : Edit} (h : e.documents κ = true) : e.kind = κ := by
  simp only [documents, Bool.and_eq_true, beq_iff_eq] at h
  exact h.1

end Edit

/-- Attaching leaves a component alone or documents it. -/
theorem Scan.attach_eq (category : Text) (sections : List Section) (name : Text) (c : ComponentRecord) :
    Scan.attach category sections name c = c ∨
      ∃ documentation, Scan.attach category sections name c = c.document documentation := by
  unfold Scan.attach
  split
  · split
    · exact .inr ⟨_, rfl⟩
    · exact .inl rfl
  · exact .inl rfl

theorem Scan.attach_category (category : Text) (sections : List Section) (name : Text)
    (c : ComponentRecord) : (Scan.attach category sections name c).category = c.category := by
  rcases attach_eq category sections name c with h | ⟨documentation, h⟩ <;> rw [h]
  rfl

theorem Scan.attach_of_ne {category : Text} {sections : List Section} {name : Text} {c : ComponentRecord}
    (h : c.category ≠ category) : Scan.attach category sections name c = c := if_neg h

/-- What is recorded of a resource of a kind. -/
abbrev ResourceKind.Record : ResourceKind → Type
  | component => ComponentRecord
  | utility => UtilityRecord
  | config => ConfigRecord
  | plugin => PluginRecord
  | project => ExampleRecord

namespace Index

/-- The records of a kind. -/
def records (index : Index) : (κ : ResourceKind) → OrderedMap Text κ.Record
  | .component => index.components
  | .utility => index.utilities
  | .config => index.configs
  | .plugin => index.plugins
  | .project => index.examples

/-- The documentation of a kind as a whole; components and projects have none. -/
def documentation (index : Index) : ResourceKind → Option KindDocumentation
  | .utility => index.utilitiesDoc
  | .config => index.configsDoc
  | .plugin => index.pluginsDoc
  | .component | .project => none

variable {edits edits' : List Edit} {k : Text}

theorem records_apply {κ : ResourceKind} (hκ : κ ≠ .component) {e : Edit} (h : e.sets κ k = false)
    (index : Index) : ((e.apply index).records κ).find? k = (index.records κ).find? k := by
  cases κ <;> cases e <;>
    simp_all [records, Edit.apply, Edit.sets, Edit.kind, Edit.key?, OrderedMap.find?_insert]

theorem mem_keys_apply {κ : ResourceKind} {e : Edit} {index : Index} :
    k ∈ ((e.apply index).records κ).keys ↔ e.sets κ k = true ∨ k ∈ (index.records κ).keys := by
  cases κ <;> cases e <;>
    simp [records, Edit.apply, Edit.sets, Edit.kind, Edit.key?, OrderedMap.mem_keys_insert,
      OrderedMap.keys_map]

/-- The keys of the records are those that edits set. -/
theorem mem_keys_edited {κ : ResourceKind} {index : Index} :
    k ∈ ((index.edited edits).records κ).keys ↔
      (∃ e ∈ edits, e.sets κ k = true) ∨ k ∈ (index.records κ).keys := by
  induction edits generalizing index with
  | nil => simp
  | cons e edits ih =>
      rw [edited_cons, ih, mem_keys_apply]
      simp only [List.mem_cons, exists_eq_or_imp]
      rw [or_left_comm, or_assoc]

theorem records_congr (κ : ResourceKind) (hκ : κ ≠ .component)
    (h : edits.filter (·.sets κ k) = edits'.filter (·.sets κ k)) (index : Index) :
    ((index.edited edits).records κ).find? k = ((index.edited edits').records κ).find? k := by
  refine edited_congr (fun index => (index.records κ).find? k) (fun e he => records_apply hκ he) ?_ h index
  intro e he index index' hs
  cases κ <;> cases e <;>
    simp_all [records, Edit.apply, Edit.sets, Edit.kind, Edit.key?, OrderedMap.find?_insert]

theorem documentation_apply {κ : ResourceKind} {e : Edit} (h : e.documents κ = false) (index : Index) :
    (e.apply index).documentation κ = index.documentation κ := by
  cases κ <;> cases e <;> simp_all [documentation, Edit.apply, Edit.documents, Edit.kind, Edit.key?]

theorem documentation_congr (κ : ResourceKind)
    (h : edits.filter (·.documents κ) = edits'.filter (·.documents κ)) (index : Index) :
    (index.edited edits).documentation κ = (index.edited edits').documentation κ := by
  refine edited_congr (fun index => index.documentation κ) (fun e he => documentation_apply he) ?_ h index
  intro e he index index' hs
  cases κ <;> cases e <;> simp_all [documentation, Edit.apply, Edit.documents, Edit.kind, Edit.key?]

/-! ## Components -/

/-- The component of a key, if it is in the category. -/
def componentIn (index : Index) (k category : Text) : Option ComponentRecord :=
  (index.components.find? k).filter fun c => c.category == category

theorem componentIn_attach_of_ne {category c : Text} (h : c ≠ category) (sections : List Section)
    (index : Index) :
    ((Edit.attach c sections).apply index).componentIn k category = index.componentIn k category := by
  simp only [componentIn, Edit.apply, OrderedMap.find?_map]
  cases index.components.find? k with
  | none => rfl
  | some record =>
      simp only [Option.map_some, Option.filter_some, Scan.attach_category]
      by_cases hc : record.category = category
      · rw [Scan.attach_of_ne fun hcat => h (hcat.symm.trans hc)]
      · simp [hc]

theorem componentIn_attach (category : Text) (sections : List Section) (index : Index) :
    ((Edit.attach category sections).apply index).componentIn k category =
      (index.componentIn k category).map (Scan.attach category sections k) := by
  simp only [componentIn, Edit.apply, OrderedMap.find?_map]
  cases index.components.find? k with
  | none => rfl
  | some record =>
      simp only [Option.map_some, Option.filter_some, Scan.attach_category]
      split <;> rfl

theorem componentIn_congr {category : Text}
    (h : edits.filter (·.concerns k category) = edits'.filter (·.concerns k category)) (index : Index) :
    (index.edited edits).componentIn k category = (index.edited edits').componentIn k category := by
  refine edited_congr (fun index => index.componentIn k category) ?_ ?_ h index
  · intro e he index
    cases e with
    | attach c sections => exact componentIn_attach_of_ne (by simpa [Edit.concerns] using he) sections index
    | _ => simp_all [componentIn, Edit.apply, Edit.concerns, Edit.sets, Edit.kind, Edit.key?,
        OrderedMap.find?_insert]
  · intro e he index index' hs
    cases e with
    | attach c sections =>
        obtain rfl : c = category := by simpa [Edit.concerns] using he
        rw [componentIn_attach, componentIn_attach, hs]
    | _ => simp_all [componentIn, Edit.apply, Edit.concerns, Edit.sets, Edit.kind, Edit.key?,
        OrderedMap.find?_insert]

/-- Whether a key has a component, and in which category, takes no documentation to tell. -/
theorem componentCategory_congr
    (h : edits.filter (·.sets .component k) = edits'.filter (·.sets .component k)) (index : Index) :
    ((index.edited edits).components.find? k).map (·.category) =
      ((index.edited edits').components.find? k).map (·.category) := by
  refine edited_congr (fun index => (index.components.find? k).map (·.category)) ?_ ?_ h index
  · intro e he index
    cases e with
    | attach c sections =>
        simp [Edit.apply, OrderedMap.find?_map, Function.comp_def, Scan.attach_category]
    | _ => simp_all [Edit.apply, Edit.sets, Edit.kind, Edit.key?, OrderedMap.find?_insert]
  · intro e he index index' hs
    cases e <;> simp_all [Edit.apply, Edit.sets, Edit.kind, Edit.key?, OrderedMap.find?_insert]

end Index

end ComponentCatalog
