import ComponentCatalog.Catalog.Build

/-!
# Edits of an index

All that scans do to an index is a list of edits: a record is set under its name, the documentation
of a category is attached, or the documentation of a kind is set.
-/

namespace ComponentCatalog

/-- One change that a scan makes in an index. -/
inductive Edit where
  | component (name category : Text) (p : Path) (source : Text)
  | attach (category : Text) (sections : List Section)
  | utility (name : Text) (p : Path) (source : Text)
  | config (name : Text) (p : Path) (source : Text)
  | plugin (name : Text) (record : PluginRecord)
  | project (name : Text) (record : ExampleRecord)
  | utilitiesDoc (doc : Option KindDocumentation)
  | configsDoc (doc : Option KindDocumentation)
  | pluginsDoc (doc : Option KindDocumentation)

/-- The kinds of resources, each with a scan of its own. -/
inductive ResourceKind where
  | component
  | utility
  | config
  | plugin
  | project
deriving Repr, DecidableEq

/-- The kind of resources that an edit is about. -/
def Edit.kind : Edit → ResourceKind
  | component .. | attach .. => .component
  | utility .. | utilitiesDoc _ => .utility
  | config .. | configsDoc _ => .config
  | plugin .. | pluginsDoc _ => .plugin
  | project .. => .project

/-- The index after an edit. -/
def Edit.apply (index : Index) : Edit → Index
  | component name category p source =>
    { index with
      components := index.components.insert name (Scan.componentRecord name category p source) }
  | attach category sections =>
    { index with components := index.components.map (Scan.attach category sections) }
  | utility name p source =>
    { index with utilities := index.utilities.insert name (Scan.utilityRecord name p source) }
  | config name p source =>
    { index with configs := index.configs.insert name (Scan.configRecord name p source) }
  | plugin name record => { index with plugins := index.plugins.insert name record }
  | project name record => { index with examples := index.examples.insert name record }
  | utilitiesDoc doc => { index with utilitiesDoc := doc }
  | configsDoc doc => { index with configsDoc := doc }
  | pluginsDoc doc => { index with pluginsDoc := doc }

namespace Index

/-- The index after edits, from first to last. -/
def edited (index : Index) (edits : List Edit) : Index := edits.foldl Edit.apply index

@[simp] theorem edited_nil (index : Index) : index.edited [] = index := rfl

@[simp] theorem edited_cons (index : Index) (e : Edit) (edits : List Edit) :
    index.edited (e :: edits) = (e.apply index).edited edits := rfl

theorem edited_append (index : Index) (edits edits' : List Edit) :
    index.edited (edits ++ edits') = (index.edited edits).edited edits' := by
  simp [edited]

/-- What every edit preserves is preserved by all of them. -/
theorem edited_preserves {P : Index → Prop} {edits : List Edit}
    (hstep : ∀ e ∈ edits, ∀ index, P index → P (e.apply index)) {index : Index} (h : P index) :
    P (index.edited edits) := by
  induction edits generalizing index with
  | nil => exact h
  | cons e edits ih => exact ih (fun e he => hstep e (by simp [he])) (hstep e (by simp) index h)

/-- The index with its mark set, and with the same content. -/
def marked (index : Index) (ready : Bool) : Index := { index with ready }

theorem edited_marked (index : Index) (ready : Bool) (edits : List Edit) :
    (index.marked ready).edited edits = (index.edited edits).marked ready := by
  induction edits generalizing index with
  | nil => rfl
  | cons e edits ih =>
      have he : e.apply (index.marked ready) = (e.apply index).marked ready := by cases e <;> rfl
      rw [edited_cons, edited_cons, he, ih]

/-- What is seen of an index is the same after two lists of edits if those of them are the same that
can change it, and if what such an edit makes of it follows from what it was. -/
theorem edited_congr {β : Type} (see : Index → β) {relevant : Edit → Bool}
    (hframe : ∀ e, relevant e = false → ∀ index, see (e.apply index) = see index)
    (hstep : ∀ e, relevant e = true → ∀ index index', see index = see index' →
      see (e.apply index) = see (e.apply index'))
    {edits edits' : List Edit} (h : edits.filter relevant = edits'.filter relevant) (index : Index) :
    see (index.edited edits) = see (index.edited edits') := by
  -- Edits that are not relevant can be dropped: nothing that is seen depends on them.
  have hfilter : ∀ (edits : List Edit) (index index' : Index), see index = see index' →
      see (index.edited edits) = see (index'.edited (edits.filter relevant)) := by
    intro edits
    induction edits with
    | nil => exact fun _ _ hs => hs
    | cons e edits ih =>
        intro index index' hs
        cases he : relevant e with
        | false =>
            rw [List.filter_cons_of_neg (by simp [he])]
            exact ih _ _ ((hframe e he index).trans hs)
        | true =>
            rw [List.filter_cons_of_pos he]
            exact ih _ _ (hstep e he index index' hs)
  rw [hfilter edits index index rfl, hfilter edits' index index rfl, h]

end Index

end ComponentCatalog
