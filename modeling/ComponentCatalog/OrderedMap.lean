/-!
# Maps in order of insertion

A map that keeps its keys in the order in which they first came. Setting the value of a key again
leaves the key at its place.
-/

namespace ComponentCatalog

/-- A map as the list of its entries. No key comes twice. -/
structure OrderedMap (κ α : Type) where
  entries : List (κ × α)
  nodup : (entries.map Prod.fst).Nodup

namespace OrderedMap

variable {κ α β : Type}

/-- The map without entries. -/
def empty : OrderedMap κ α := ⟨[], List.nodup_nil⟩

instance : EmptyCollection (OrderedMap κ α) := ⟨empty⟩

instance : Inhabited (OrderedMap κ α) := ⟨empty⟩

@[ext] theorem ext {m n : OrderedMap κ α} (h : m.entries = n.entries) : m = n := by
  cases m; cases n; simp_all

/-- The keys, in the order of their first insertions. -/
def keys (m : OrderedMap κ α) : List κ := m.entries.map Prod.fst

/-- The values, in the order of their keys. -/
def values (m : OrderedMap κ α) : List α := m.entries.map Prod.snd

/-- The number of keys. -/
def size (m : OrderedMap κ α) : Nat := m.entries.length

/-- The map with every value changed by its key and itself. -/
def map (f : κ → α → β) (m : OrderedMap κ α) : OrderedMap κ β :=
  ⟨m.entries.map fun (key, v) => (key, f key v), by
    have : (m.entries.map fun (key, v) => (key, f key v)).map Prod.fst = m.entries.map Prod.fst := by
      simp [Function.comp_def]
    exact this ▸ m.nodup⟩

/-- The entries of the keys that `p` holds of. -/
def filterKeys (p : κ → Bool) (m : OrderedMap κ α) : OrderedMap κ α :=
  ⟨m.entries.filter fun entry => p entry.1,
    (List.filter_sublist.map Prod.fst).nodup m.nodup⟩

variable [DecidableEq κ]

/-- The value of a key. -/
def find? (m : OrderedMap κ α) (key : κ) : Option α :=
  (m.entries.find? fun entry => entry.1 == key).map (·.2)

/-- Does a key have a value? -/
def contains (m : OrderedMap κ α) (key : κ) : Bool := (m.find? key).isSome

/-- The entries with the value of a key set: at its place, or at the end. -/
def setEntry (key : κ) (v : α) : List (κ × α) → List (κ × α)
  | [] => [(key, v)]
  | entry :: rest => if entry.1 = key then (key, v) :: rest else entry :: setEntry key v rest

theorem mem_keys_setEntry {key k : κ} {v : α} {entries : List (κ × α)} :
    k ∈ (setEntry key v entries).map Prod.fst ↔ k = key ∨ k ∈ entries.map Prod.fst := by
  induction entries with
  | nil => simp [setEntry]
  | cons entry rest ih =>
    by_cases h : entry.1 = key
    · simp [setEntry, h]
    · simp only [setEntry, h, ↓reduceIte, List.map_cons, List.mem_cons, ih]
      grind

theorem nodup_setEntry {key : κ} {v : α} {entries : List (κ × α)}
    (h : (entries.map Prod.fst).Nodup) : ((setEntry key v entries).map Prod.fst).Nodup := by
  induction entries with
  | nil => simp [setEntry]
  | cons entry rest ih =>
    simp only [List.map_cons, List.nodup_cons] at h
    by_cases hk : entry.1 = key
    · simp only [setEntry, hk, ↓reduceIte, List.map_cons, List.nodup_cons]
      exact ⟨hk ▸ h.1, h.2⟩
    · simp only [setEntry, hk, ↓reduceIte, List.map_cons, List.nodup_cons, mem_keys_setEntry]
      exact ⟨by simp [h.1], ih h.2⟩

/-- The map with the value of a key set. -/
def insert (m : OrderedMap κ α) (key : κ) (v : α) : OrderedMap κ α :=
  ⟨setEntry key v m.entries, nodup_setEntry m.nodup⟩

/-- The map without a key. -/
def erase (m : OrderedMap κ α) (key : κ) : OrderedMap κ α := m.filterKeys (· != key)

/-- The map of a list of entries; of several with one key the last counts. -/
def ofList (entries : List (κ × α)) : OrderedMap κ α :=
  entries.foldl (fun m (key, v) => m.insert key v) empty

end OrderedMap

end ComponentCatalog
