import ComponentCatalog.Proofs.ProjectScan

/-!
# File systems that agree outside of a path

Two file systems that list and read everything alike, but for a path and what is below it, are walked
alike outside of that path, and what the scans find elsewhere is the same in both.
-/

namespace ComponentCatalog

/-! ## Paths within one another -/

namespace Path

theorem isWithin_iff {p dir : Path} :
    p.isWithin dir = true ↔ dir.parts <+: p.parts ∧ p.isAbsolute = dir.isAbsolute := by
  simp [isWithin]

/-- What is within a directory that neither is within a path nor holds it is not within the path. -/
theorem isWithin_eq_false_of_apart {p q dir : Path} (hq : q.isWithin dir = true)
    (houtside : dir.isWithin p = false) (haround : p.isWithin dir = false) : q.isWithin p = false := by
  rw [← Bool.not_eq_true, isWithin_iff] at *
  rintro ⟨hbelow, habs⟩
  obtain ⟨hbelow', habs'⟩ := hq
  rcases List.prefix_or_prefix_of_prefix hbelow hbelow' with h | h
  · exact houtside ⟨h, habs'.symm.trans habs⟩
  · exact haround ⟨h, habs.symm.trans habs'⟩

end Path

namespace FileSystem

variable {files files' : FileSystem} {dir p : Path} {below : List Text} {entries : List Entry}

theorem isWithin_child {e : Entry} (hl : files.list dir = .ok entries) (he : e ∈ entries)
    (h : dir.isWithin p = true) : (dir.child e.name).isWithin p = true := by
  rw [Path.isWithin_iff] at h ⊢
  rw [files.isAbsolute_child hl he]
  exact ⟨h.1.trans (List.prefix_append _ _), h.2⟩

theorem child_isWithin {e : Entry} (hl : files.list dir = .ok entries) (he : e ∈ entries) :
    (dir.child e.name).isWithin dir = true :=
  isWithin_child hl he (Path.isWithin_iff.2 ⟨List.prefix_refl _, rfl⟩)

end FileSystem

/-! ## Walks -/

/-- The path at which a visit is: the entry of a file, else the directory. -/
def Visit.place : Visit → Path
  | unlisted dir _ => dir
  | enter dir _ => dir
  | file dir _ name => dir.child name
  | leave dir _ _ => dir

namespace FileSystem

variable {files files' : FileSystem} {dir p : Path} {below : List Text} {entries : List Entry}

theorem place_isWithin (h : dir.isWithin p = true) {v : Visit} (hv : v ∈ files.walkFrom dir below) :
    v.place.isWithin p = true := by
  induction dir, below using files.walk_induction with
  | unlisted dir below e hl =>
      rw [walk_unlisted hl, List.mem_singleton] at hv
      exact hv ▸ h
  | listed dir below entries hl ih =>
      rcases (mem_walk_listed hl).1 hv with rfl | rfl | ⟨e, he, hd, hv⟩ | ⟨e, he, -, rfl⟩
      · exact h
      · exact h
      · exact ih e he hd (isWithin_child hl he h) hv
      · exact isWithin_child hl he h

theorem filter_walk_within (h : dir.isWithin p = true) :
    (files.walkFrom dir below).filter (fun v => !v.place.isWithin p) = [] := by
  rw [List.filter_eq_nil_iff]
  intro v hv
  simp [place_isWithin h hv]

/-- Every path that is neither `p` nor below it is listed and read alike. -/
structure AgreesOutside (files : FileSystem) (p : Path) (files' : FileSystem) : Prop where
  list : ∀ {q : Path}, q.isWithin p = false → files.list q = files'.list q
  read : ∀ {q : Path}, q.isWithin p = false → files.read q = files'.read q

namespace AgreesOutside

/-- The visits outside of a path are the same in file systems that agree there. -/
theorem filter_walk (h : files.AgreesOutside p files') (dir : Path) (below : List Text) :
    (files.walkFrom dir below).filter (fun v => !v.place.isWithin p) =
      (files'.walkFrom dir below).filter (fun v => !v.place.isWithin p) := by
  induction dir, below using files.walk_induction with
  | unlisted dir below e hl =>
      by_cases hin : dir.isWithin p = true
      · rw [filter_walk_within hin, filter_walk_within hin]
      · rw [walk_unlisted hl, walk_unlisted (h.list (by simpa using hin) ▸ hl)]
  | listed dir below entries hl ih =>
      -- Within the path no visit is left on either side; elsewhere both list the same entries.
      by_cases hin : dir.isWithin p = true
      · rw [filter_walk_within hin, filter_walk_within hin]
      · rw [walk_listed hl, walk_listed (h.list (by simpa using hin) ▸ hl)]
        simp only [List.filter_append, List.filter_cons, List.filter_flatMap]
        have hentries : ∀ e ∈ entries,
            (if e.isDirectory then files.walkFrom (dir.child e.name) (below ++ [e.name])
              else [.file dir below e.name]).filter (fun v => !v.place.isWithin p) =
            (if e.isDirectory then files'.walkFrom (dir.child e.name) (below ++ [e.name])
              else [.file dir below e.name]).filter (fun v => !v.place.isWithin p) := by
          intro e he
          cases hd : e.isDirectory with
          | false => rfl
          | true => exact ih e he hd
        rw [List.flatMap_congr hentries]

theorem flatMap_filter_of_nil {α β : Type} {xs : List α} {f : α → List β} {keep : α → Bool}
    (h : ∀ x ∈ xs, keep x = false → f x = []) : xs.flatMap f = (xs.filter keep).flatMap f := by
  induction xs with
  | nil => rfl
  | cons x xs ih =>
      have hxs := ih fun y hy => h y (by simp [hy])
      cases hx : keep x with
      | true => rw [List.filter_cons_of_pos hx, List.flatMap_cons, List.flatMap_cons, hxs]
      | false =>
          rw [List.filter_cons_of_neg (by simp [hx]), List.flatMap_cons, h x (by simp) hx, hxs,
            List.nil_append]

/-- What is made of the visits of a walk is the same if it comes from visits outside of the path, and
from each of those in the same way. -/
theorem flatMap_walk {β : Type} (h : files.AgreesOutside p files') {f f' : Visit → List β}
    (hin : ∀ v ∈ files.walk dir, v.place.isWithin p = true → f v = [])
    (hin' : ∀ v ∈ files'.walk dir, v.place.isWithin p = true → f' v = [])
    (hout : ∀ v ∈ files.walk dir, v.place.isWithin p = false → f v = f' v) :
    (files.walk dir).flatMap f = (files'.walk dir).flatMap f' := by
  have hwalk := h.filter_walk dir []
  calc (files.walk dir).flatMap f
      = ((files.walk dir).filter fun v => !v.place.isWithin p).flatMap f :=
        flatMap_filter_of_nil fun v hv hp => hin v hv (by simpa using hp)
    _ = ((files.walk dir).filter fun v => !v.place.isWithin p).flatMap f' := by
        refine List.flatMap_congr fun v hv => ?_
        obtain ⟨hv, hp⟩ := List.mem_filter.1 hv
        exact hout v hv (by simpa using hp)
    _ = ((files'.walk dir).filter fun v => !v.place.isWithin p).flatMap f' := by
        exact congrArg (List.flatMap f') hwalk
    _ = (files'.walk dir).flatMap f' :=
        (flatMap_filter_of_nil fun v hv hp => hin' v hv (by simpa using hp)).symm

/-! ## Plugins and example projects -/

theorem pluginRecord_eq (h : files.AgreesOutside p files') (l : Layout) (name : Text)
    (hl : files.list dir = .ok entries) (houtside : dir.isWithin p = false)
    (haround : p.isWithin dir = false) :
    pluginRecord files l dir name entries = pluginRecord files' l dir name entries := by
  unfold pluginRecord
  refine List.foldl_ext _ _ _ fun plugin e he => ?_
  have hread := h.read (Path.isWithin_eq_false_of_apart (child_isWithin hl he) houtside haround)
  unfold pluginWith pluginChange
  rw [hread]

theorem treeNodes_eq (h : files.AgreesOutside p files') {top : Path} (houtside : top.isWithin p = false)
    (haround : p.isWithin top = false) (levels : Nat) (hdir : dir.isWithin top = true) :
    treeNodes files levels dir = treeNodes files' levels dir := by
  induction levels generalizing dir with
  | zero => rfl
  | succ levels ih =>
      unfold treeNodes
      rw [← h.list (Path.isWithin_eq_false_of_apart hdir houtside haround)]
      cases hl : files.list dir with
      | error e => rfl
      | ok entries =>
          refine List.map_congr_left fun e he => ?_
          rw [ih (isWithin_child hl (List.mem_filter.1 he).1 hdir)]

end AgreesOutside

end FileSystem

/-- A project lies neither within a path nor around it, and reads nothing there. -/
structure ProjectApart (files : FileSystem) (l : Layout) (p dir : Path) : Prop where
  outside : dir.isWithin p = false
  around : p.isWithin dir = false
  manifest : (dir.join l.manifestName).isWithin p = false
  documentation : l.showsReadme (treeNodes files l.treeDepth.toNat dir) = true →
    (dir.join l.readmeName).isWithin p = false

namespace FileSystem

theorem AgreesOutside.projectDirectoryEdits_eq {files files' : FileSystem} {l : Layout} {p dir : Path}
    (h : files.AgreesOutside p files') (ha : ProjectApart files l p dir) (name : Text) :
    projectDirectoryEdits files l dir name = projectDirectoryEdits files' l dir name := by
  have hdir : dir.isWithin dir = true := Path.isWithin_iff.2 ⟨List.prefix_refl _, rfl⟩
  have htree := h.treeNodes_eq ha.outside ha.around l.treeDepth.toNat hdir
  have hmanifest : projectManifest files l dir = projectManifest files' l dir := by
    unfold projectManifest
    rw [h.read ha.manifest]
  have hdoc : projectDocumentation files l dir (treeNodes files l.treeDepth.toNat dir) =
      projectDocumentation files' l dir (treeNodes files l.treeDepth.toNat dir) := by
    unfold projectDocumentation
    split
    · next hs => rw [h.read (ha.documentation hs)]
    · rfl
  unfold projectDirectoryEdits
  rw [← hmanifest]
  cases projectManifest files l dir with
  | error fault => rfl
  | ok manifest => simp only [projectRecord, ← htree, hdoc]

end FileSystem

end ComponentCatalog
