import ComponentCatalog.Catalog.Walk
import Mathlib.Data.List.Basic

/-!
# Walks

A walk is as deep as the directories are, so its depth never shows: a directory is entered, its
entries are met as they are listed, each directory with everything below it, and the directory is
left. A walk meets the files of exactly those directories to which listed directories lead.
-/

namespace ComponentCatalog

namespace FileSystem

variable {files files' : FileSystem} {dir p : Path} {below : List Text} {entries : List Entry}

/-- The visits of a walk that has come to `dir` by the names `below`. -/
def walkFrom (files : FileSystem) (dir : Path) (below : List Text) : List Visit :=
  files.walkWithin (files.height dir) dir below

theorem walkWithin_congr {levels levels' : Nat} (h : files.height dir ≤ levels)
    (h' : files.height dir ≤ levels') :
    files.walkWithin levels dir below = files.walkWithin levels' dir below := by
  induction levels generalizing levels' dir below with
  | zero =>
      unfold walkWithin
      cases hl : files.list dir with
      | error e => rfl
      | ok entries =>
          simp only
          congr 2
          refine List.flatMap_congr fun e he => ?_
          cases hd : e.isDirectory with
          | false => rfl
          | true => exact absurd (files.height_child hl he hd) (by omega)
  | succ levels ih =>
      -- One level down both bounds have lost one, and the directory is less high by at least that.
      unfold walkWithin
      cases hl : files.list dir with
      | error e => rfl
      | ok entries =>
          simp only
          congr 2
          refine List.flatMap_congr fun e he => ?_
          cases hd : e.isDirectory with
          | false => rfl
          | true =>
              have hlt := files.height_child hl he hd
              cases levels' with
              | zero => omega
              | succ levels' => exact ih (by omega) (by omega)

theorem walk_unlisted {e : FileError} (h : files.list dir = .error e) :
    files.walkFrom dir below = [.unlisted dir e] := by
  unfold walkFrom walkWithin
  rw [h]

/-- A directory is met with all its entries in their order, and with all below them. -/
theorem walk_listed (h : files.list dir = .ok entries) :
    files.walkFrom dir below = .enter dir entries ::
      entries.flatMap (fun e =>
        if e.isDirectory then files.walkFrom (dir.child e.name) (below ++ [e.name])
        else [.file dir below e.name]) ++
      [.leave dir below entries] := by
  unfold walkFrom
  rw [walkWithin, h]
  simp only
  congr 2
  refine List.flatMap_congr fun e he => ?_
  cases hd : e.isDirectory with
  | false => rfl
  | true =>
      have hlt := files.height_child h he hd
      simp only [↓reduceIte]
      cases hh : files.height dir with
      | zero => omega
      | succ levels => exact walkWithin_congr (by omega) (Nat.le_refl _)

/-- What holds of a walk is shown from the walks through the directories in its directory. -/
theorem walk_induction (files : FileSystem) {motive : Path → List Text → Prop}
    (unlisted : ∀ dir below e, files.list dir = .error e → motive dir below)
    (listed : ∀ dir below entries, files.list dir = .ok entries →
      (∀ e ∈ entries, e.isDirectory = true → motive (dir.child e.name) (below ++ [e.name])) →
      motive dir below)
    (dir : Path) (below : List Text) : motive dir below := by
  induction hn : files.height dir using Nat.strongRecOn generalizing dir below with
  | ind n ih =>
      cases hl : files.list dir with
      | error e => exact unlisted dir below e hl
      | ok entries =>
          refine listed dir below entries hl fun e he hd => ?_
          exact ih _ (hn ▸ files.height_child hl he hd) _ _ rfl

theorem mem_walk_listed {v : Visit} (h : files.list dir = .ok entries) :
    v ∈ files.walkFrom dir below ↔ v = .enter dir entries ∨ v = .leave dir below entries ∨
      (∃ e ∈ entries, e.isDirectory = true ∧
        v ∈ files.walkFrom (dir.child e.name) (below ++ [e.name])) ∨
      ∃ e ∈ entries, e.isDirectory = false ∧ v = .file dir below e.name := by
  rw [walk_listed h]
  simp only [List.cons_append, List.mem_cons, List.mem_append, List.mem_flatMap, List.not_mem_nil,
    or_false]
  constructor
  · rintro (rfl | ⟨e, he, hv⟩ | rfl)
    · exact .inl rfl
    · cases hd : e.isDirectory with
      | false => exact .inr (.inr (.inr ⟨e, he, hd, by simpa [hd] using hv⟩))
      | true => exact .inr (.inr (.inl ⟨e, he, hd, by simpa [hd] using hv⟩))
    · exact .inr (.inl rfl)
  · rintro (rfl | rfl | ⟨e, he, hd, hv⟩ | ⟨e, he, hd, rfl⟩)
    · exact .inl rfl
    · exact .inr (.inr rfl)
    · exact .inr (.inl ⟨e, he, by simpa [hd] using hv⟩)
    · exact .inr (.inl ⟨e, he, by simp [hd]⟩)

/-! ## What a walk meets -/

/-- Listed directories lead from `start` by the names `below` to a directory. -/
inductive Leads (files : FileSystem) (start : Path) : List Text → Path → Prop where
  | start : Leads files start [] start
  | child {below dir entries e} : Leads files start below dir → files.list dir = .ok entries →
      e ∈ entries → e.isDirectory = true → Leads files start (below ++ [e.name]) (dir.child e.name)

theorem Leads.parts {start : Path} (h : files.Leads start below dir) : dir.parts = start.parts ++ below := by
  induction h with
  | start => simp
  | child _ _ _ _ ih => simp [Path.child, ih]

theorem Leads.walk_subset {start : Path} (h : files.Leads start below dir) :
    files.walkFrom dir below ⊆ files.walkFrom start [] := by
  induction h with
  | start => exact fun _ hv => hv
  | child _ hl he hd ih =>
      exact fun v hv => ih ((mem_walk_listed hl).2 (.inr (.inr (.inl ⟨_, he, hd, hv⟩))))

theorem leads_of_mem_walk {start d : Path} {b : List Text} {v : Visit}
    (hv : (∃ name, v = .file d b name) ∨ ∃ entries, v = .leave d b entries)
    (hm : v ∈ files.walkFrom dir below) (h : files.Leads start below dir) :
    files.Leads start b d ∧ ∃ entries, files.list d = .ok entries ∧
      (v = .leave d b entries ∨ ∃ e ∈ entries, e.isDirectory = false ∧ v = .file d b e.name) := by
  induction dir, below using files.walk_induction with
  | unlisted dir below e hl =>
      rw [walk_unlisted hl, List.mem_singleton] at hm
      subst hm
      simp at hv
  | listed dir below entries hl ih =>
      rcases (mem_walk_listed hl).1 hm with rfl | rfl | ⟨e, he, hd, hm⟩ | ⟨e, he, hd, rfl⟩
      · simp at hv
      · obtain ⟨rfl, rfl⟩ : dir = d ∧ below = b := by simpa using hv
        exact ⟨h, entries, hl, .inl rfl⟩
      · exact ih e he hd hm (h.child hl he hd)
      · obtain ⟨rfl, rfl⟩ : dir = d ∧ below = b := by simpa using hv
        exact ⟨h, entries, hl, .inr ⟨e, he, hd, rfl⟩⟩

theorem file_mem_walk {start : Path} {name : Text} :
    .file dir below name ∈ files.walk start ↔
      files.Leads start below dir ∧ ∃ entries, files.list dir = .ok entries ∧ ⟨name, false⟩ ∈ entries := by
  constructor
  · intro hm
    obtain ⟨h, entries, hl, hv⟩ := leads_of_mem_walk (.inl ⟨name, rfl⟩) hm .start
    refine ⟨h, entries, hl, ?_⟩
    obtain ⟨⟨n, d⟩, he, hd, hn⟩ := hv.resolve_left (by simp)
    obtain rfl : name = n := by simpa using hn
    obtain rfl : d = false := hd
    exact he
  · rintro ⟨h, entries, hl, he⟩
    exact h.walk_subset ((mem_walk_listed hl).2 (.inr (.inr (.inr ⟨_, he, rfl, rfl⟩))))

theorem leave_mem_walk {start : Path} :
    .leave dir below entries ∈ files.walk start ↔
      files.Leads start below dir ∧ files.list dir = .ok entries := by
  constructor
  · intro hm
    obtain ⟨h, entries', hl, hv⟩ := leads_of_mem_walk (.inr ⟨entries, rfl⟩) hm .start
    obtain rfl : entries = entries' := by simpa using hv
    exact ⟨h, hl⟩
  · rintro ⟨h, hl⟩
    exact h.walk_subset ((mem_walk_listed hl).2 (.inr (.inl rfl)))

end FileSystem

end ComponentCatalog
