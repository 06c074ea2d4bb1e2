import ComponentCatalog.Files.Memory
import ComponentCatalog.Proofs.Listing
import ComponentCatalog.Proofs.ModuleScan
import Mathlib.Data.List.Nodup

/-!
# Walks that end

A directory refers to the directories in it, and those to the ones in them; nothing in the listings
themselves says that this ends. In files in memory it does: a directory with an entry is shorter than
some stored path. A walk then meets everything to which listings lead, and nothing twice, since no
listing has two entries of one name.
-/

namespace ComponentCatalog

variable {lib : Library} {l : Layout}

/-- A directory or a file that is met. -/
structure Met where
  path : Path
  isDirectory : Bool
deriving Repr, DecidableEq

/-- What a visit is the first to meet: the directory that is listed, or the file. -/
def Visit.met? : Visit → Option Met
  | .unlisted dir _ => some ⟨dir, true⟩
  | .enter dir _ => some ⟨dir, true⟩
  | .file dir _ name => some ⟨dir.child name, false⟩
  | .leave _ _ _ => none

namespace FileSystem

/-- The visits of a walk without a bound on its depth: a directory that is listed is entered, each entry
is met, a directory among them with a walk of its own, and the directory is left. -/
inductive Unfolds (files : FileSystem) : Path → List Text → List Visit → Prop where
  | unlisted {dir below e} : files.list dir = .error e → Unfolds files dir below [.unlisted dir e]
  | listed {dir below entries} {visitsOf : Entry → List Visit} : files.list dir = .ok entries →
      (∀ e ∈ entries, e.isDirectory = true →
        Unfolds files (dir.child e.name) (below ++ [e.name]) (visitsOf e)) →
      (∀ e ∈ entries, e.isDirectory = false → visitsOf e = [.file dir below e.name]) →
      Unfolds files dir below (.enter dir entries :: entries.flatMap visitsOf ++ [.leave dir below entries])

/-- What can be reached: the start, and every entry of a directory that is reached and listed. -/
inductive Reaches (files : FileSystem) (start : Path) : Met → Prop where
  | start : Reaches files start ⟨start, true⟩
  | entry {dir entries e} : Reaches files start ⟨dir, true⟩ → files.list dir = .ok entries →
      e ∈ entries → Reaches files start ⟨dir.child e.name, e.isDirectory⟩

variable {files : FileSystem} {start dir : Path} {below : List Text} {entries : List Entry}
  {visits : List Visit} {m : Met}

/-! ## The end of a walk -/

theorem unfolds_walkFrom (files : FileSystem) (dir : Path) (below : List Text) :
    files.Unfolds dir below (files.walkFrom dir below) := by
  induction dir, below using files.walk_induction with
  | unlisted dir below e hl => exact walk_unlisted hl ▸ .unlisted hl
  | listed dir below entries hl ih =>
      rw [walk_listed hl]
      refine .listed hl (fun e he hd => ?_) fun e he hd => ?_
      · simpa only [hd, ↓reduceIte] using ih e he hd
      · simp [hd]

/-- Without a bound on the depth there is one walk, and it is the one of bounded depth. -/
theorem unfolds_iff : files.Unfolds dir below visits ↔ visits = files.walkFrom dir below := by
  constructor
  · intro h
    induction h with
    | unlisted hl => exact (walk_unlisted hl).symm
    | @listed dir below entries visitsOf hl hdirs hfiles ih =>
        rw [walk_listed hl]
        congr 2
        refine List.flatMap_congr fun e he => ?_
        cases hd : e.isDirectory with
        | true => exact ih e he hd
        | false => exact hfiles e he hd
  · rintro rfl
    exact unfolds_walkFrom files dir below

/-! ## What a walk meets -/

/-- What a walk meets, in its order. -/
def met (files : FileSystem) (dir : Path) (below : List Text) : List Met :=
  (files.walkFrom dir below).filterMap Visit.met?

/-- What is met of an entry of a directory. -/
def metOf (files : FileSystem) (dir : Path) (below : List Text) (e : Entry) : List Met :=
  if e.isDirectory then files.met (dir.child e.name) (below ++ [e.name]) else [⟨dir.child e.name, false⟩]

theorem met_unlisted {e : FileError} (hl : files.list dir = .error e) :
    files.met dir below = [⟨dir, true⟩] := by
  unfold met
  rw [walk_unlisted hl]
  rfl

theorem met_listed (hl : files.list dir = .ok entries) :
    files.met dir below = ⟨dir, true⟩ :: entries.flatMap (files.metOf dir below) := by
  unfold met
  rw [walk_listed hl]
  simp only [List.cons_append, List.filterMap_cons, List.filterMap_append, List.filterMap_nil,
    List.filterMap_flatMap, Visit.met?, List.append_nil]
  congr 1
  refine List.flatMap_congr fun e _ => ?_
  unfold metOf met
  cases e.isDirectory <;> rfl

theorem start_mem_met (files : FileSystem) (dir : Path) (below : List Text) :
    ⟨dir, true⟩ ∈ files.met dir below := by
  cases hl : files.list dir with
  | error e => exact met_unlisted hl ▸ List.mem_singleton_self _
  | ok entries => exact met_listed hl ▸ List.mem_cons_self

theorem Reaches.of_mem_met (h : files.Reaches start ⟨dir, true⟩) (hm : m ∈ files.met dir below) :
    files.Reaches start m := by
  induction dir, below using files.walk_induction with
  | unlisted dir below e hl =>
      rw [met_unlisted hl, List.mem_singleton] at hm
      exact hm ▸ h
  | listed dir below entries hl ih =>
      rw [met_listed hl, List.mem_cons, List.mem_flatMap] at hm
      rcases hm with rfl | ⟨e, he, hm⟩
      · exact h
      · have hentry := h.entry hl he
        unfold metOf at hm
        cases hd : e.isDirectory with
        | true =>
            rw [if_pos hd] at hm
            exact ih e he hd (hd ▸ hentry) hm
        | false =>
            rw [if_neg (by simp [hd]), List.mem_singleton] at hm
            exact hm ▸ hd ▸ hentry

/-- A walk meets what is reached, and the walk through a directory that is reached is a part of it. -/
theorem Reaches.mem_met (h : files.Reaches start m) :
    m ∈ files.met start [] ∧
      (m.isDirectory = true → ∃ below, files.walkFrom m.path below ⊆ files.walkFrom start []) := by
  induction h with
  | start => exact ⟨start_mem_met files start [], fun _ => ⟨[], fun _ hv => hv⟩⟩
  | @entry dir entries e _ hl he ih =>
      obtain ⟨below, hsub⟩ := ih.2 rfl
      cases hd : e.isDirectory with
      | true =>
          have hchild : files.walkFrom (dir.child e.name) (below ++ [e.name]) ⊆ files.walkFrom start [] :=
            fun v hv => hsub ((mem_walk_listed hl).2 (.inr (.inr (.inl ⟨e, he, hd, hv⟩))))
          exact ⟨List.filterMap_subset _ hchild (start_mem_met files _ _), fun _ => ⟨_, hchild⟩⟩
      | false =>
          have hfile : .file dir below e.name ∈ files.walkFrom start [] :=
            hsub ((mem_walk_listed hl).2 (.inr (.inr (.inr ⟨e, he, hd, rfl⟩))))
          exact ⟨List.mem_filterMap.2 ⟨_, hfile, rfl⟩, fun h => absurd h (by simp)⟩

theorem mem_met_iff : m ∈ files.met start [] ↔ files.Reaches start m :=
  ⟨Reaches.start.of_mem_met, fun h => h.mem_met.1⟩

/-! ## Nothing is met twice -/

theorem prefix_of_mem_met (hm : m ∈ files.met dir below) : dir.parts <+: m.path.parts := by
  induction dir, below using files.walk_induction with
  | unlisted dir below e hl =>
      rw [met_unlisted hl, List.mem_singleton] at hm
      exact hm ▸ List.prefix_rfl
  | listed dir below entries hl ih =>
      rw [met_listed hl, List.mem_cons, List.mem_flatMap] at hm
      rcases hm with rfl | ⟨e, he, hm⟩
      · exact List.prefix_rfl
      · unfold metOf at hm
        refine (List.prefix_append dir.parts [e.name]).trans ?_
        split at hm
        · next hd => exact ih e he hd hm
        · rw [List.mem_singleton.1 hm]
          exact List.prefix_rfl

theorem prefix_of_mem_metOf {e : Entry} (hm : m ∈ files.metOf dir below e) :
    dir.parts ++ [e.name] <+: m.path.parts := by
  unfold metOf at hm
  split at hm
  · exact prefix_of_mem_met hm
  · rw [List.mem_singleton.1 hm]
    exact List.prefix_rfl

/-- The paths that are met of entries with two names begin differently. -/
theorem path_ne_of_name_ne {e e' : Entry} {m m' : Met} (hne : e.name ≠ e'.name)
    (hm : m ∈ files.metOf dir below e) (hm' : m' ∈ files.metOf dir below e') : m.path ≠ m'.path := by
  intro hpath
  have hparts := List.prefix_of_prefix_length_le (prefix_of_mem_metOf hm)
    (hpath ▸ prefix_of_mem_metOf hm') (by simp)
  have hsame := hparts.eq_of_length (by simp)
  exact hne (by simpa using hsame)

/-- If no listing has two entries of one name, no path is met twice, be it as a directory or a file. -/
theorem nodup_met (hnames : ∀ {dir entries}, files.list dir = .ok entries → (entries.map Entry.name).Nodup)
    (dir : Path) (below : List Text) : ((files.met dir below).map Met.path).Nodup := by
  induction dir, below using files.walk_induction with
  | unlisted dir below e hl => exact met_unlisted hl ▸ List.nodup_singleton dir
  | listed dir below entries hl ih =>
      rw [met_listed hl, List.map_cons, List.map_flatMap, List.nodup_cons, List.nodup_flatMap]
      refine ⟨fun hdir => ?_, fun e he => ?_, ?_⟩
      · -- Whatever is met of an entry is longer than the directory itself.
        obtain ⟨e, -, hdir⟩ := List.mem_flatMap.1 hdir
        obtain ⟨m, hm, rfl⟩ := List.mem_map.1 hdir
        have hlength := (prefix_of_mem_metOf hm).length_le
        rw [List.length_append, List.length_singleton] at hlength
        omega
      · unfold metOf
        cases hd : e.isDirectory with
        | true => exact ih e he hd
        | false => exact List.nodup_singleton _
      · refine (List.pairwise_map.1 (hnames hl)).imp fun hne p hp hp' => ?_
        obtain ⟨m, hm, rfl⟩ := List.mem_map.1 hp
        obtain ⟨m', hm', hpath⟩ := List.mem_map.1 hp'
        exact path_ne_of_name_ne hne hm hm' hpath.symm

end FileSystem

/-! ## Scans in files in memory -/

namespace Scan

theorem componentDirectory_ends (hlog : lib.logger.Accepts) (hl : lib.settings.Lays l) (configured : Text)
    (w : Workspace) : ∃ w', componentDirectory lib configured w = .ok () w' := by
  obtain ⟨log, h⟩ := Work.Does.forM (fun v _ => visitComponent_does hlog hl configured v) w
  exact ⟨_, h⟩

theorem scripts_ends (hlog : lib.logger.Accepts) (hl : lib.settings.Lays l) (dir : Path) (w : Workspace) :
    ∃ paths w', scripts lib dir w = .ok paths w' := by
  obtain ⟨log, h⟩ := scripts_does hlog hl dir w
  exact ⟨_, _, h⟩

end Scan

namespace MemoryFiles

variable {files : MemoryFiles} {start : Path} {m : Met}

/-- What is reached is the start, or no longer than the longest stored path. -/
theorem length_le_of_reaches (h : files.fileSystem.Reaches start m) :
    m.path.parts.length ≤ max start.parts.length files.depth := by
  cases h with
  | start => exact Nat.le_max_left _ _
  | entry _ hl he =>
      have hlt := length_lt_depth (mem_entries_of_list hl ▸ he)
      simp only [Path.child, List.length_append, List.length_singleton]
      omega

/-- The walk from any directory of files in memory ends: there are visits that it comes to without a
bound on its depth, and no others. The scans of components and of scripts go through these visits one by
one, and they end under a logger that never refuses. Nothing that is met has more parts than the longest
stored path, or the start; and what can be reached is met, each path a single time. -/
theorem walk_ends (files : MemoryFiles) (lib : Library) (hfiles : lib.files = files.fileSystem)
    (hl : lib.settings.Lays l) (start : Path) :
    ∃ visits : List Visit,
      (∀ visits', files.fileSystem.Unfolds start [] visits' ↔ visits' = visits) ∧
      (∀ configured, lib.root.join configured = start →
        Scan.componentDirectory lib configured = visits.forM (Scan.visitComponent lib configured) ∧
        (lib.logger.Accepts → ∀ w, ∃ w', Scan.componentDirectory lib configured w = .ok () w')) ∧
      Scan.scripts lib start = List.flatten <$> visits.mapM (Scan.visitScript lib) ∧
      (lib.logger.Accepts → ∀ w, ∃ paths w', Scan.scripts lib start w = .ok paths w') ∧
      (∀ m ∈ visits.filterMap Visit.met?, m.path.parts.length ≤ max start.parts.length files.depth) ∧
      ((visits.filterMap Visit.met?).map Met.path).Nodup ∧
      ∀ m, m ∈ visits.filterMap Visit.met? ↔ files.fileSystem.Reaches start m := by
  refine ⟨files.fileSystem.walk start, fun _ => FileSystem.unfolds_iff, ?_, ?_, ?_, ?_, ?_, ?_⟩
  · rintro configured rfl
    refine ⟨hfiles ▸ rfl, fun hlog => Scan.componentDirectory_ends hlog hl configured⟩
  · exact hfiles ▸ rfl
  · exact fun hlog => Scan.scripts_ends hlog hl start
  · exact fun m hm => length_le_of_reaches (FileSystem.mem_met_iff.1 hm)
  · exact FileSystem.nodup_met nodup_names_of_list start []
  · exact fun m => FileSystem.mem_met_iff

/-- A stored path that goes on below a file and has two dots in it, a marked directory, and a directory
that is not listed. -/
def tangledFiles : MemoryFiles :=
  (((({} : MemoryFiles).write "/lib/ui/card" "").write "/lib/ui/card/../Card.vue" "").write "/lib/ui/drafts/" ""
    |>.write "/lib/ui/locked/Lock.vue" "").fail (Path.ofText "/lib/ui/locked") (.failure .permission "locked")

/-- The library of these files. -/
def tangledLibrary : Library where
  root := Path.ofText "/lib"
  files := tangledFiles.fileSystem
  settings := .ofBase ⟨[]⟩

theorem walk_ends_tangledLibrary :
    tangledLibrary.files = tangledFiles.fileSystem ∧ tangledLibrary.settings.Lays .standard ∧
    tangledLibrary.logger.Accepts ∧
    ∃ visits : List Visit, tangledFiles.fileSystem.Unfolds (Path.ofText "/lib/ui") [] visits ∧
      visits.filterMap Visit.met? =
        [⟨Path.ofText "/lib/ui", true⟩, ⟨Path.ofText "/lib/ui/card", true⟩,
          ⟨Path.ofText "/lib/ui/card/..", true⟩, ⟨Path.ofText "/lib/ui/card/../Card.vue", false⟩,
          ⟨Path.ofText "/lib/ui/drafts", true⟩, ⟨Path.ofText "/lib/ui/locked", true⟩] ∧
      Scan.componentDirectory tangledLibrary "ui" = visits.forM (Scan.visitComponent tangledLibrary "ui") ∧
      ∀ w, ∃ w', Scan.componentDirectory tangledLibrary "ui" w = .ok () w' := by
  obtain ⟨visits, hunfolds, hcomponents, -, -, -, -, -⟩ := walk_ends tangledFiles tangledLibrary rfl
    (Settings.ofBase_lays ⟨[]⟩) (Path.ofText "/lib/ui")
  obtain ⟨hscan, hends⟩ := hcomponents "ui" rfl
  refine ⟨rfl, Settings.ofBase_lays _, Logger.silent_accepts, visits, (hunfolds visits).2 rfl, ?_, hscan,
    hends Logger.silent_accepts⟩
  obtain rfl := (hunfolds _).1 (FileSystem.unfolds_walkFrom _ _ _)
  decide +kernel

end MemoryFiles

end ComponentCatalog
