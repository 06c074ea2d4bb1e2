import ComponentCatalog.Proofs.Readers
import ComponentCatalog.Query.Merge
import ComponentCatalog.Script.Component
import Mathlib.Data.List.Forall2

/-!
# Declarations joined with the rows of their names

A declaration takes what the first row of its name says, and is documented exactly if there is one. What
scripts declare is not described yet, so it stays as it is where there is no table at all.
-/

namespace ComponentCatalog

/-! ## Declarations without a description -/

/-- A property that no table describes. -/
structure Property.IsBare (p : Property) : Prop where
  description : p.description = []
  documented : p.documented = false

/-- An event that no table describes. -/
structure Event.IsBare (e : Event) : Prop where
  description : e.description = []
  documented : e.documented = false

theorem Properties.isBare_of_entry {t left : Text} {p : Property} (h : entry t = some (p, left)) : p.IsBare := by
  unfold entry at h
  rw [Reader.orElse_apply, Reader.map_apply, Reader.map_apply] at h
  cases hbraced : bracedEntry t with
  | some found =>
      rw [hbraced] at h
      cases h
      exact ⟨rfl, rfl⟩
  | none =>
      rw [hbraced] at h
      cases hshort : shorthandEntry t with
      | some found =>
          rw [hshort] at h
          cases h
          exact ⟨rfl, rfl⟩
      | none =>
          rw [hshort] at h
          cases h

theorem Properties.isBare_of_mem_entriesFrom {previous : Option Char} {depth : Int} {skip : Nat} {t : Text}
    {p : Property} (h : p ∈ entriesFrom previous depth skip t) : p.IsBare := by
  fun_induction entriesFrom previous depth skip t with
  | case1 => cases h
  | case2 _ _ _ _ _ ih => exact ih h
  | case3 previous depth c r q left hentry ih =>
      rcases List.mem_cons.1 h with rfl | h
      · split at hentry
        · exact isBare_of_entry hentry
        · cases hentry
      · exact ih h
  | case4 _ _ _ _ _ ih => exact ih h

theorem properties_isBare (t : Text) : ∀ p ∈ properties t, p.IsBare := by
  intro p hp
  unfold properties at hp
  split at hp
  · exact Properties.isBare_of_mem_entriesFrom hp
  · split at hp
    · obtain ⟨name, -, rfl⟩ := List.mem_map.1 hp
      exact ⟨rfl, rfl⟩
    · cases hp

theorem events_isBare (t : Text) : ∀ e ∈ events t, e.IsBare := by
  intro e he
  obtain ⟨name, -, rfl⟩ := List.mem_map.1 he
  exact ⟨rfl, rfl⟩

/-! ## First rows -/

section

variable {ρ : Type} {nameOf : ρ → Text} {name : Text} {rows : List ρ} {row : ρ}

/-- `row` is the first of the rows with a name. -/
def IsFirstRow (nameOf : ρ → Text) (name : Text) (rows : List ρ) (row : ρ) : Prop :=
  ∃ before after, rows = before ++ row :: after ∧ nameOf row = name ∧ ∀ r ∈ before, nameOf r ≠ name

theorem find?_eq_some_iff_isFirstRow :
    rows.find? (fun r => nameOf r == name) = some row ↔ IsFirstRow nameOf name rows row := by
  simp only [List.find?_eq_some_iff_append, IsFirstRow, beq_iff_eq, Bool.not_eq_eq_eq_not, Bool.not_true,
    beq_eq_false_iff_ne, ne_eq]
  exact ⟨fun ⟨hname, before, after, hsplit, hfirst⟩ => ⟨before, after, hsplit, hname, hfirst⟩,
    fun ⟨before, after, hsplit, hname, hfirst⟩ => ⟨hname, before, after, hsplit, hfirst⟩⟩

theorem find?_row_eq_none_iff :
    rows.find? (fun r => nameOf r == name) = none ↔ ∀ r ∈ rows, nameOf r ≠ name := by
  simp [List.find?_eq_none]

theorem IsFirstRow.mem (h : IsFirstRow nameOf name rows row) : row ∈ rows ∧ nameOf row = name := by
  obtain ⟨before, after, rfl, hname, -⟩ := h
  exact ⟨List.mem_append_right _ List.mem_cons_self, hname⟩

theorem IsFirstRow.unique {other : ρ} (h : IsFirstRow nameOf name rows row)
    (h' : IsFirstRow nameOf name rows other) : row = other :=
  Option.some.inj ((find?_eq_some_iff_isFirstRow.2 h).symm.trans (find?_eq_some_iff_isFirstRow.2 h'))

end

/-! ## Declarations and their rows -/

/-- A declaration with a name is documented exactly if there is a row of the name, and takes what the first
one says; without one it is left plain. -/
structure TakesFirst {ρ : Type} (nameOf : ρ → Text) (name : Text) (rows : List ρ) (documented : Bool)
    (taken : ρ → Prop) (plain : Prop) : Prop where
  documented : documented = true ↔ ∃ row ∈ rows, nameOf row = name
  described : ∀ row, IsFirstRow nameOf name rows row → taken row
  undescribed : (∀ row ∈ rows, nameOf row ≠ name) → plain

theorem TakesFirst.of_find? {ρ : Type} {nameOf : ρ → Text} {name : Text} {rows : List ρ} {documented : Bool}
    {taken : ρ → Prop} {plain : Prop}
    (hsome : ∀ row, rows.find? (fun r => nameOf r == name) = some row → documented = true ∧ taken row)
    (hnone : rows.find? (fun r => nameOf r == name) = none → documented = false ∧ plain) :
    TakesFirst nameOf name rows documented taken plain := by
  cases hrow : rows.find? fun r => nameOf r == name with
  | some row =>
      obtain ⟨hdocumented, htaken⟩ := hsome row hrow
      have hfirst := find?_eq_some_iff_isFirstRow.1 hrow
      exact {
        documented := iff_of_true hdocumented ⟨row, hfirst.mem⟩
        described := fun other hother => hfirst.unique hother ▸ htaken
        undescribed := fun hno => absurd hfirst.mem.2 (hno row hfirst.mem.1) }
  | none =>
      obtain ⟨hdocumented, hplain⟩ := hnone hrow
      have hno := find?_row_eq_none_iff.1 hrow
      exact {
        documented := iff_of_false (by simp [hdocumented]) fun ⟨row, hmem, hname⟩ => hno row hmem hname
        described := fun row hfirst => absurd hfirst.mem.2 (hno row hfirst.mem.1)
        undescribed := fun _ => hplain }

namespace Property

/-- `q` is the property `p` with what a table says of it. -/
structure Joined (rows : List PropertyRow) (p q : Property) : Prop extends
    TakesFirst PropertyRow.name p.name rows q.documented (fun row => q.description = row.description)
      (q.description = []) where
  name : q.name = p.name
  type : q.type = p.type
  default : q.default = p.default

variable (rows : List PropertyRow) (p : Property)

theorem describe_joined : Joined rows p (p.describe rows) where
  toTakesFirst := .of_find? (fun row hrow => by simp [describe, hrow]) fun hrow => by simp [describe, hrow]
  name := by unfold describe; split <;> rfl
  type := by unfold describe; split <;> rfl
  default := by unfold describe; split <;> rfl

theorem describe_describe : (p.describe rows).describe rows = p.describe rows := by
  unfold describe
  cases hrow : rows.find? fun row => row.name == p.name <;> simp [hrow]

theorem IsBare.describe_nil {p : Property} (h : p.IsBare) : p.describe [] = p := by
  obtain ⟨hdescription, hdocumented⟩ := h
  cases p
  subst hdescription hdocumented
  rfl

end Property

namespace Event

/-- `f` is the event `e` with what a table says of it. -/
structure Joined (rows : List EventRow) (e f : Event) : Prop extends
    TakesFirst EventRow.name e.name rows f.documented
      (fun row => f.type = row.type ∧ f.description = row.description)
      (f.type = e.type ∧ f.description = []) where
  name : f.name = e.name
  source : f.source = e.source

variable (rows : List EventRow) (e : Event)

theorem describe_joined : Joined rows e (e.describe rows) where
  toTakesFirst := .of_find? (fun row hrow => by simp [describe, hrow]) fun hrow => by simp [describe, hrow]
  name := by unfold describe; split <;> rfl
  source := by unfold describe; split <;> rfl

theorem describe_describe : (e.describe rows).describe rows = e.describe rows := by
  unfold describe
  cases hrow : rows.find? fun row => row.name == e.name <;> simp [hrow]

theorem IsBare.describe_nil {e : Event} (h : e.IsBare) : e.describe [] = e := by
  obtain ⟨hdescription, hdocumented⟩ := h
  cases e
  subst hdescription hdocumented
  rfl

end Event

/-! ## Lists of declarations -/

section

variable {α ρ : Type} {describe : List ρ → α → α} {rows : List ρ} {xs : List α}

/-- Where declarations stay as they are without rows, leaving them alone is the same. -/
theorem ite_map_eq_map (h : ∀ x ∈ xs, describe [] x = x) :
    (if rows.isEmpty then xs else xs.map (describe rows)) = xs.map (describe rows) := by
  cases rows with
  | nil => exact ((List.map_congr_left h).trans (List.map_id' xs)).symm
  | cons row rows => rfl

theorem map_map_of_idempotent (h : ∀ x, describe rows (describe rows x) = describe rows x) :
    (xs.map (describe rows)).map (describe rows) = xs.map (describe rows) := by
  rw [List.map_map]
  exact List.map_congr_left fun x _ => h x

theorem forall₂_map_self {R : α → α → Prop} {f : α → α} (h : ∀ x, R x (f x)) : List.Forall₂ R xs (xs.map f) :=
  List.forall₂_map_right_iff.2 (List.forall₂_same.2 fun x _ => h x)

end

variable {ps : List Property} {es : List Event}

theorem mergeProperties_eq_map (h : ∀ p ∈ ps, p.IsBare) (rows : List PropertyRow) :
    mergeProperties ps rows = ps.map (Property.describe rows) :=
  ite_map_eq_map fun p hp => (h p hp).describe_nil

theorem mergeEvents_eq_map (h : ∀ e ∈ es, e.IsBare) (rows : List EventRow) :
    mergeEvents es rows = es.map (Event.describe rows) :=
  ite_map_eq_map fun e he => (h e he).describe_nil

theorem mergeProperties_mergeProperties (ps : List Property) (rows : List PropertyRow) :
    mergeProperties (mergeProperties ps rows) rows = mergeProperties ps rows := by
  unfold mergeProperties
  cases rows.isEmpty with
  | true => rfl
  | false => exact map_map_of_idempotent (Property.describe_describe rows)

theorem mergeEvents_mergeEvents (es : List Event) (rows : List EventRow) :
    mergeEvents (mergeEvents es rows) rows = mergeEvents es rows := by
  unfold mergeEvents
  cases rows.isEmpty with
  | true => rfl
  | false => exact map_map_of_idempotent (Event.describe_describe rows)

/-- Declarations that are not described yet are joined with tables one by one and in order: each takes what
the first row of its name says, and stays as it is if there is none. To join them again changes nothing. -/
theorem merge_joins (hps : ∀ p ∈ ps, p.IsBare) (hes : ∀ e ∈ es, e.IsBare) (rows : List PropertyRow)
    (eventRows : List EventRow) :
    (List.Forall₂ (Property.Joined rows) ps (mergeProperties ps rows) ∧
      mergeProperties ps rows = ps.map (Property.describe rows) ∧
      mergeProperties (mergeProperties ps rows) rows = mergeProperties ps rows) ∧
    (List.Forall₂ (Event.Joined eventRows) es (mergeEvents es eventRows) ∧
      mergeEvents es eventRows = es.map (Event.describe eventRows) ∧
      mergeEvents (mergeEvents es eventRows) eventRows = mergeEvents es eventRows) := by
  have hproperties := mergeProperties_eq_map hps rows
  have hevents := mergeEvents_eq_map hes eventRows
  refine ⟨⟨?_, hproperties, mergeProperties_mergeProperties ps rows⟩, ?_, hevents,
    mergeEvents_mergeEvents es eventRows⟩
  · rw [hproperties]
    exact forall₂_map_self (Property.describe_joined rows)
  · rw [hevents]
    exact forall₂_map_self (Event.describe_joined eventRows)

/-- A component of two properties and an event. -/
def sizedComponent : Text := "props: \x7b size: Number, alt: String \x7d, $emit('close')"

/-- A table with two rows for `size`, and one for a property that is not declared. -/
def sizeRows : List PropertyRow :=
  [⟨"width", "Number", "1", "Not there"⟩, ⟨"size", "Number", "40", "Width"⟩, ⟨"size", "Text", "", "Height"⟩]

theorem merge_joins_sizedComponent :
    (∀ p ∈ properties sizedComponent, p.IsBare) ∧ (∀ e ∈ events sizedComponent, e.IsBare) ∧
    List.Forall₂ (Property.Joined sizeRows) (properties sizedComponent)
      (mergeProperties (properties sizedComponent) sizeRows) ∧
    List.Forall₂ (Event.Joined [⟨"close", "Event", "Closed"⟩]) (events sizedComponent)
      (mergeEvents (events sizedComponent) [⟨"close", "Event", "Closed"⟩]) := by
  obtain ⟨⟨hproperties, -⟩, hevents, -⟩ := merge_joins (properties_isBare sizedComponent)
    (events_isBare sizedComponent) sizeRows [⟨"close", "Event", "Closed"⟩]
  exact ⟨properties_isBare _, events_isBare _, hproperties, hevents⟩

example : (mergeProperties (properties sizedComponent) sizeRows).map (fun p => (p.description, p.documented)) =
    [("Width".toList, true), ([], false)] := by decide +kernel

end ComponentCatalog
