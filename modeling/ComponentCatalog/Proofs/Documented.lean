import ComponentCatalog.Proofs.EditView
import ComponentCatalog.Proofs.Outcome
import Mathlib.Data.List.TakeWhile

/-!
# Documented records

What a record holds besides a documentation is read from the documentation that it holds, and the
documentation of a component is the part about it of the documentation of its category. No edit of a
scan changes that, so it holds wherever a build ends.
-/

namespace ComponentCatalog

open Work

/-! ## The part of a documentation that is about a component -/

/-- The part is the first section that documents a name, with its subsections. -/
def Scan.IsPartAbout (name : Text) (sections : List Section) (part : Text) : Prop :=
  ∃ before head following, sections = before ++ head :: following ∧
    (∀ s ∈ before, documents s name = false) ∧ documents head name = true ∧
      part = head.withSubsections following

theorem Scan.isPartAbout_of_documentationOf? {name part : Text} {sections : List Section}
    (h : documentationOf? name sections = some part) : IsPartAbout name sections part := by
  unfold documentationOf? at h
  split at h
  · cases h
  · next head following hrest =>
      have hsections := List.takeWhile_append_dropWhile (p := fun s => !documents s name) (l := sections)
      rw [hrest] at hsections
      have hhead := List.head?_dropWhile_not (fun s => !documents s name) sections
      rw [hrest] at hhead
      refine ⟨_, head, following, hsections.symm, fun s hs => ?_, by simpa using hhead, ?_⟩
      · simpa using List.mem_takeWhile_imp hs
      · exact (Option.some.inj h).symm

/-! ## Where a category lies -/

theorem Settings.ne_nil_of_componentDirs {s : Settings} {dirs : List Text} (h : s.componentDirs = .ok dirs)
    {configured : Text} (hc : configured ∈ dirs) : configured ≠ [] := by
  unfold componentDirs at h
  cases hget : s.get "library" "component_dirs" "" with
  | error e => rw [hget] at h; cases h
  | ok t =>
      rw [hget] at h
      cases h
      simpa using (List.mem_filter.1 hc).2

theorem Scan.category_cons (configured name : Text) (below : List Text) :
    category configured (name :: below) = configured ++ '/' :: Text.join ['/'] (name :: below) := by
  rw [category, Text.join_cons _ _ (by simp)]
  simp

theorem Scan.names_category {configured : Text} {below : List Text} (h : ∀ name ∈ below, Path.IsName name) :
    (Path.ofText (category configured below)).names = (Path.ofText configured).names ++ below := by
  cases below with
  | nil => simp [category, Text.join]
  | cons name below =>
      have hkept : (name :: below).filter (fun part => !part.isEmpty && part != ['.']) = name :: below :=
        List.filter_eq_self.2 fun part hpart => by simpa using (h part hpart).2
      rw [category_cons, Path.names_ofText, Path.names_ofText, Text.pieces_append, List.filter_append,
        Text.pieces_join (by simp) fun part hpart => (h part hpart).1, hkept]

theorem Scan.isAbsolute_category {configured : Text} (h : configured ≠ []) (below : List Text) :
    (Path.ofText (category configured below)).isAbsolute = (Path.ofText configured).isAbsolute := by
  rw [Path.isAbsolute_ofText, Path.isAbsolute_ofText]
  cases below with
  | nil => rfl
  | cons name below =>
      cases configured with
      | nil => exact absurd rfl h
      | cons c configured =>
          rw [category_cons]
          rfl

namespace Library

/-- A directory lists a documentation, and this is its text. -/
def HasDocumentation (lib : Library) (dir : Path) (t : Text) : Prop :=
  ∃ readme, lib.settings.readmeName = .ok readme ∧ lib.files.HasFile dir readme ∧
    lib.files.read (dir.child readme) = .ok t

variable {lib : Library} {category : Text} {dir : Path}

/-- The directory of a category is the one that the category names, if names are single parts of
paths. Only the number of slashes in front may be another. -/
theorem IsCategory.alike (h : lib.IsCategory category dir) (hnames : lib.files.ListsNames) :
    dir.Alike (lib.root.join category) := by
  obtain ⟨dirs, configured, below, hdirs, hconfigured, hleads, rfl⟩ := h
  have hbelow := hleads.isName hnames
  have habsolute := Scan.isAbsolute_category (Settings.ne_nil_of_componentDirs hdirs hconfigured) below
  rw [hleads.eq_descend]
  exact Path.alike_append habsolute (Scan.names_category hbelow) hbelow _

end Library

/-! ## Records and their documentation -/

/-- A component as it should be documented: by the part about it of a documentation in a directory of
its category, if at all. -/
structure ComponentRecord.Documented (lib : Library) (c : ComponentRecord) : Prop where
  examples : c.examples = codeSamples c.documentation
  propertyRows : c.propertyRows = ComponentCatalog.propertyRows c.documentation
  eventRows : c.eventRows = ComponentCatalog.eventRows c.documentation
  origin : ∃ dir name, lib.IsCategory c.category dir ∧ lib.files.HasFile dir name ∧
    c.filePath = (dir.child name).toText
  documentation : c.documentation = [] ∨ ∃ dir t, lib.IsCategory c.category dir ∧
    (lib.files.ListsNames → dir.Alike (lib.root.join c.category)) ∧ lib.HasDocumentation dir t ∧
      Scan.IsPartAbout c.name (sections t) c.documentation

/-- An index in which every record holds what its documentation says. -/
structure Index.Documented (lib : Library) (index : Index) : Prop where
  components : ∀ k c, index.components.find? k = some c → c.name = k ∧ c.Documented lib
  plugins : ∀ k plugin, index.plugins.find? k = some plugin → plugin.Sampled
  kinds : ∀ κ doc, index.documentation κ = some doc → doc.Sampled

/-- The documentation of a kind that an edit sets holds its own samples. -/
theorem Edit.Sourced.sampled {lib : Library} {e : Edit} (he : e.Sourced lib) {κ : ResourceKind}
    (hκ : e.documents κ = true) (index : Index) :
    ∀ doc, (e.apply index).documentation κ = some doc → doc.Sampled := by
  cases he with
  | utilitiesDoc hsampled | configsDoc hsampled | pluginsDoc hsampled =>
      obtain rfl := Edit.kind_of_documents hκ
      exact hsampled
  | attach =>
      obtain rfl := Edit.kind_of_documents hκ
      nofun
  | _ => simp [Edit.documents, Edit.key?] at hκ

namespace Index.Documented

variable {lib : Library} {index : Index}

theorem empty : ({} : Index).Documented lib where
  components _ _ h := by cases h
  plugins _ _ h := by cases h
  kinds κ _ h := by cases κ <;> cases h

theorem marked (h : index.Documented lib) (ready : Bool) : (index.marked ready).Documented lib :=
  ⟨h.components, h.plugins, fun κ doc hdoc => h.kinds κ doc (by cases κ <;> exact hdoc)⟩

/-- A component keeps its place and its file when it is documented. -/
theorem attach {c : ComponentRecord} {category t : Text} {dir : Path} (h : c.Documented lib)
    (hcategory : lib.IsCategory category dir) (hdoc : lib.HasDocumentation dir t) :
    (Scan.attach category (sections t) c.name c).name = c.name ∧
      (Scan.attach category (sections t) c.name c).Documented lib := by
  unfold Scan.attach
  split
  · next hc =>
      split
      · next documentation hpart =>
          subst hc
          exact ⟨rfl, rfl, rfl, rfl, h.origin, .inr ⟨dir, t, hcategory, hcategory.alike, hdoc,
            Scan.isPartAbout_of_documentationOf? hpart⟩⟩
      · exact ⟨rfl, h⟩
  · exact ⟨rfl, h⟩

theorem component {category name source : Text} {key : Text} {dir : Path}
    (hcategory : lib.IsCategory category dir) (hfile : lib.files.HasFile dir name) :
    (Scan.componentRecord key category (dir.child name) source).Documented lib :=
  ⟨rfl, rfl, rfl, ⟨dir, name, hcategory, hfile, rfl⟩, .inl rfl⟩

/-- An edit leaves every record with what its documentation says. -/
theorem apply (h : index.Documented lib) {e : Edit} (he : e.Sourced lib) :
    (e.apply index).Documented lib := by
  have hkinds : ∀ κ doc, (e.apply index).documentation κ = some doc → doc.Sampled := by
    intro κ doc hdoc
    cases hκ : e.documents κ with
    | true => exact he.sampled hκ index doc hdoc
    | false => exact h.kinds κ doc (documentation_apply hκ index ▸ hdoc)
  cases he with
  | component hcategory hextension hfile hname hread =>
      refine ⟨fun k c hc => ?_, h.plugins, hkinds⟩
      simp only [Edit.apply, OrderedMap.find?_insert] at hc
      split at hc
      · next hk =>
          cases hc
          exact ⟨hk, component hcategory hfile⟩
      · exact h.components k c hc
  | attach hcategory hreadme hfile hread =>
      refine ⟨fun k c hc => ?_, h.plugins, hkinds⟩
      simp only [Edit.apply, OrderedMap.find?_map] at hc
      obtain ⟨c, hfind, rfl⟩ := Option.map_eq_some_iff.1 hc
      obtain ⟨rfl, hdoc⟩ := h.components k c hfind
      have hdocumentation : lib.HasDocumentation _ _ := ⟨_, hreadme, hfile, hread⟩
      exact attach hdoc hcategory hdocumentation
  | plugin hsampled =>
      refine ⟨h.components, fun k plugin hplugin => ?_, hkinds⟩
      simp only [Edit.apply, OrderedMap.find?_insert] at hplugin
      split at hplugin
      · cases hplugin
        exact hsampled
      · exact h.plugins k plugin hplugin
  | _ => exact ⟨h.components, h.plugins, hkinds⟩

theorem edited {edits : List Edit} (h : index.Documented lib) (hedits : ∀ e ∈ edits, e.Sourced lib) :
    (index.edited edits).Documented lib :=
  edited_preserves (fun e he _ h => h.apply (hedits e he)) h

end Index.Documented

/-- Wherever a build of a new index ends, each record holds what its documentation says. -/
theorem build_documented (lib : Library) (log : List LogEntry) :
    ((build lib).after ⟨{}, log⟩).index.Documented lib := by
  rcases build_index lib ⟨{}, log⟩ with h | ⟨edits, ready, hedits, h⟩
  · rw [h]
    exact .empty
  · rw [h]
    exact (Index.Documented.empty.edited hedits).marked ready

end ComponentCatalog
