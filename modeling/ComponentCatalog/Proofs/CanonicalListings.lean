import ComponentCatalog.Proofs.ComponentLookup
import ComponentCatalog.Query.Listing

/-!
# Listings do not depend on the order of the index

The names of a listing are strictly ordered, so the records alone decide what it looks like.
-/

namespace ComponentCatalog

open Work

/-! ## The order of names -/

/-- The order by code points, in which a proper beginning comes first. -/
def Text.Before (s t : Text) : Prop := List.Lex (fun a b : Char => a.toNat < b.toNat) s t

namespace Text.Before

variable {s t u : Text}

theorem trans (h : Before s t) (h' : Before t u) : Before s u := by
  unfold Before at h h' ⊢
  induction h generalizing u with
  | nil => cases h' <;> exact .nil
  | rel hab =>
      cases h' with
      | rel hbc => exact .rel (Nat.lt_trans hab hbc)
      | cons => exact .rel hab
  | cons _ ih =>
      cases h' with
      | rel hab => exact .rel hab
      | cons h' => exact .cons (ih h')

theorem irrefl (t : Text) : ¬ Before t t := by
  intro h
  unfold Before at h
  induction t with
  | nil => cases h
  | cons c t ih =>
      cases h with
      | rel hlt => exact Nat.lt_irrefl _ hlt
      | cons h => exact ih h

theorem trichotomy (s t : Text) : Before s t ∨ s = t ∨ Before t s := by
  induction s generalizing t with
  | nil =>
      cases t with
      | nil => exact .inr (.inl rfl)
      | cons d t => exact .inl .nil
  | cons c s ih =>
      cases t with
      | nil => exact .inr (.inr .nil)
      | cons d t =>
          rcases Nat.lt_trichotomy c.toNat d.toNat with hlt | heq | hlt
          · exact .inl (.rel hlt)
          · obtain rfl := Char.toNat_inj.1 heq
            rcases ih t with h | rfl | h
            · exact .inl (.cons h)
            · exact .inr (.inl rfl)
            · exact .inr (.inr (.cons h))
          · exact .inr (.inr (.rel hlt))

end Text.Before

theorem Text.le_iff {s t : Text} : Text.le s t = true ↔ s = t ∨ Text.Before s t := by
  have hcode : (fun a b : Char => decide (a.val < b.val) = true) = fun a b => a.toNat < b.toNat := by
    funext a b
    exact propext (decide_eq_true_iff.trans UInt32.lt_iff_toNat_lt)
  rw [Text.le, Bool.not_eq_true', ← Bool.not_eq_true, List.lex_eq_true_iff_lex, hcode]
  change ¬ Text.Before t s ↔ _
  constructor
  · intro h
    rcases Text.Before.trichotomy s t with hst | heq | hts
    · exact .inr hst
    · exact .inl heq
    · exact absurd hts h
  · rintro (rfl | hst) hts
    · exact Text.Before.irrefl s hts
    · exact Text.Before.irrefl s (hst.trans hts)

/-- The order of names in a listing: by their folded forms, and names that differ only in case by
themselves. -/
def Precedes (s t : Text) : Prop := s.fold.Before t.fold ∨ s.fold = t.fold ∧ s.Before t

namespace Precedes

variable {s t u : Text}

theorem trans (h : Precedes s t) (h' : Precedes t u) : Precedes s u := by
  rcases h with h | ⟨heq, h⟩ <;> rcases h' with h' | ⟨heq', h'⟩
  · exact .inl (h.trans h')
  · exact .inl (heq' ▸ h)
  · exact .inl (heq ▸ h')
  · exact .inr ⟨heq.trans heq', h.trans h'⟩

theorem irrefl (t : Text) : ¬ Precedes t t := fun h =>
  h.elim (Text.Before.irrefl _) fun h => Text.Before.irrefl _ h.2

theorem trichotomy (s t : Text) : Precedes s t ∨ s = t ∨ Precedes t s := by
  rcases Text.Before.trichotomy s.fold t.fold with h | heq | h
  · exact .inl (.inl h)
  · rcases Text.Before.trichotomy s t with h | rfl | h
    · exact .inl (.inr ⟨heq, h⟩)
    · exact .inr (.inl rfl)
    · exact .inr (.inr (.inr ⟨heq.symm, h⟩))
  · exact .inr (.inr (.inl h))

end Precedes

/-! ## Sorted items -/

namespace ListedItem

variable {x y z : ListedItem} {xs ys : List ListedItem}

theorem le_iff : le x y = true ↔ x.name = y.name ∨ Precedes x.name y.name := by
  unfold le
  by_cases hfold : x.name.fold = y.name.fold
  · simp only [hfold, ↓reduceIte, Text.le_iff, Precedes, Text.Before.irrefl, false_or, true_and]
  · have hname : x.name ≠ y.name := fun h => hfold (congrArg Text.fold h)
    simp only [hfold, ↓reduceIte, Text.le_iff, Precedes, hname, false_or, false_and, or_false]

theorem le_trans (x y z : ListedItem) (hxy : le x y = true) (hyz : le y z = true) : le x z = true := by
  rw [le_iff] at hxy hyz ⊢
  rcases hxy with hxy | hxy
  · rwa [hxy]
  · rcases hyz with hyz | hyz
    · exact .inr (hyz ▸ hxy)
    · exact .inr (hxy.trans hyz)

theorem le_total (x y : ListedItem) : (le x y || le y x) = true := by
  rw [Bool.or_eq_true, le_iff, le_iff]
  rcases Precedes.trichotomy x.name y.name with h | h | h
  · exact .inl (.inr h)
  · exact .inl (.inl h)
  · exact .inr (.inr h)

/-- No item stands in front of another one of the same name or of an earlier one. -/
def Ordered (xs : List ListedItem) : Prop := xs.Pairwise fun x y => Precedes x.name y.name

theorem ordered_mergeSort (hnodup : (xs.map ListedItem.name).Nodup) : Ordered (xs.mergeSort le) := by
  have hsorted := List.pairwise_mergeSort le_trans le_total xs
  have hnames : ((xs.mergeSort le).map ListedItem.name).Nodup :=
    ((List.mergeSort_perm xs le).map _).nodup_iff.2 hnodup
  refine (hsorted.and (List.pairwise_map.1 hnames)).imp fun ⟨hle, hne⟩ => ?_
  exact (le_iff.1 hle).resolve_left hne

/-- Items can be ordered in one way only. -/
theorem Ordered.eq_of_perm (hx : Ordered xs) (hy : Ordered ys) (h : xs.Perm ys) : xs = ys :=
  h.eq_of_pairwise (fun x _ _ _ hxy hyx => absurd (hxy.trans hyx) (Precedes.irrefl x.name)) hx hy

end ListedItem

/-! ## Listings -/

namespace Index

variable {index index' : Index} {kind : ListedKind}

/-- The names of the resources of a kind. -/
def names (index : Index) : ListedKind → List Text
  | .components => index.components.keys
  | .utilities => index.utilities.keys
  | .plugins => index.plugins.keys

/-- Two indexes hold the same records of a kind, in whatever order. -/
def SameRecords (index index' : Index) : ListedKind → Prop
  | .components => ∀ key, index.components.find? key = index'.components.find? key
  | .utilities => ∀ key, index.utilities.find? key = index'.utilities.find? key
  | .plugins => ∀ key, index.plugins.find? key = index'.plugins.find? key

/-- What an index says of a resource: the name is a key, and the rest comes from the record of that key. -/
inductive Summarises (index : Index) : ListedKind → ListedItem → Prop
  | component {name : Text} {c : ComponentRecord} : index.components.find? name = some c →
      Summarises index .components ⟨name, .category c.category, summary c.documentation⟩
  | utility {name : Text} {u : UtilityRecord} : index.utilities.find? name = some u →
      Summarises index .utilities ⟨name, .functions (u.functions.map FunctionDecl.name), summary u.documentation⟩
  | plugin {name : Text} {p : PluginRecord} : index.plugins.find? name = some p →
      Summarises index .plugins ⟨name, .nothing, summary p.documentation⟩

theorem mem_items_iff {item : ListedItem} : item ∈ index.items kind ↔ index.Summarises kind item := by
  constructor
  · intro h
    cases kind <;> obtain ⟨⟨name, record⟩, hmem, rfl⟩ := List.mem_map.1 h
    · exact .component (OrderedMap.mem_entries_iff.1 hmem)
    · exact .utility (OrderedMap.mem_entries_iff.1 hmem)
    · exact .plugin (OrderedMap.mem_entries_iff.1 hmem)
  · rintro (h | h | h) <;> exact List.mem_map.2 ⟨_, OrderedMap.mem_entries_iff.2 h, rfl⟩

theorem map_name_items (index : Index) (kind : ListedKind) :
    (index.items kind).map ListedItem.name = index.names kind := by
  cases kind <;> exact List.map_map

theorem nodup_names (index : Index) (kind : ListedKind) : (index.names kind).Nodup := by
  cases kind with
  | components => exact index.components.nodup
  | utilities => exact index.utilities.nodup
  | plugins => exact index.plugins.nodup

theorem SameRecords.items_perm (h : SameRecords index index' kind) :
    (index.items kind).Perm (index'.items kind) := by
  cases kind with
  | components => exact (OrderedMap.entries_perm h).map _
  | utilities => exact (OrderedMap.entries_perm h).map _
  | plugins => exact (OrderedMap.entries_perm h).map _

theorem SameRecords.mem_names_iff (h : SameRecords index index' kind) (name : Text) :
    name ∈ index.names kind ↔ name ∈ index'.names kind := by
  rw [← map_name_items, ← map_name_items]
  exact (h.items_perm.map _).mem_iff

theorem listing_perm (index : Index) (kind : ListedKind) : (index.listing kind).Perm (index.items kind) :=
  List.mergeSort_perm ..

theorem map_name_listing_perm (index : Index) (kind : ListedKind) :
    ((index.listing kind).map ListedItem.name).Perm (index.names kind) :=
  index.map_name_items kind ▸ (index.listing_perm kind).map _

theorem mem_listing_iff {item : ListedItem} : item ∈ index.listing kind ↔ index.Summarises kind item :=
  (index.listing_perm kind).mem_iff.trans mem_items_iff

theorem listing_ordered (index : Index) (kind : ListedKind) : ListedItem.Ordered (index.listing kind) :=
  ListedItem.ordered_mergeSort (index.map_name_items kind ▸ index.nodup_names kind)

theorem SameRecords.listing_eq (h : SameRecords index index' kind) : index.listing kind = index'.listing kind :=
  (index.listing_ordered kind).eq_of_perm (index'.listing_ordered kind)
    ((index.listing_perm kind).trans (h.items_perm.trans (index'.listing_perm kind).symm))

end Index

theorem queryListing_ready {lib : Library} {w : Workspace} {kind : ListedKind} (hready : w.index.ready = true)
    (hnul : ∀ name ∈ w.index.names kind, '\x00' ∉ name) :
    queryListing lib kind w = .ok (w.index.listing kind) w := by
  have hany : ((w.index.items kind).any fun item => item.name.contains '\x00') = false := by
    rw [List.any_eq_false]
    intro item hitem
    have hname : item.name ∈ w.index.names kind := by
      rw [← Index.map_name_items]
      exact List.mem_map_of_mem hitem
    simpa using hnul item.name hname
  unfold queryListing
  rw [bind_apply, ensureBuilt_ready hready]
  show (if ((w.index.items kind).any fun item => item.name.contains '\x00') = true then throw Fault.nulInName
    else pure (w.index.listing kind) : Work _) w = _
  rw [hany]
  rfl

/-- A ready index lists the keys of a kind once each, in the order of the names, every one with the summary of
its record; and every ready index of the same records gives the same list. -/
theorem queryListing_canonical (lib : Library) {w : Workspace} {kind : ListedKind} (hready : w.index.ready = true)
    (hnul : ∀ name ∈ w.index.names kind, '\x00' ∉ name) :
    ∃ listing, queryListing lib kind w = .ok listing w ∧
      (listing.map ListedItem.name).Perm (w.index.names kind) ∧
      (∀ item, item ∈ listing ↔ w.index.Summarises kind item) ∧
      ListedItem.Ordered listing ∧
      ∀ (lib' : Library) (w' : Workspace), w'.index.ready = true → w.index.SameRecords w'.index kind →
        queryListing lib' kind w' = .ok listing w' := by
  refine ⟨_, queryListing_ready hready hnul, Index.map_name_listing_perm .., fun item => Index.mem_listing_iff,
    Index.listing_ordered .., ?_⟩
  intro lib' w' hready' hsame
  rw [hsame.listing_eq]
  exact queryListing_ready hready' fun name hname => hnul name ((hsame.mem_names_iff name).2 hname)

/-- A ready index of two plugins, in the order in which they are given. -/
def pluginPair (first second : PluginRecord) : Workspace where
  index := {
    plugins := (({} : OrderedMap Text PluginRecord).insert first.name first).insert second.name second
    ready := true }

/-- A plugin whose name differs only in case from that of `smallCard`. -/
def largeCard : PluginRecord := { name := "Card", dirPath := "plugins/Card", documentation := "A large card. Rare." }

/-- A plugin whose name differs only in case from that of `largeCard`. -/
def smallCard : PluginRecord := { name := "card", dirPath := "plugins/card", documentation := "A small card. Usual." }

theorem queryListing_canonical_pluginPair :
    (pluginPair largeCard smallCard).index.ready = true ∧
    (∀ name ∈ (pluginPair largeCard smallCard).index.names .plugins, '\x00' ∉ name) ∧
    ∃ listing,
      queryListing avatarLibrary .plugins (pluginPair largeCard smallCard) =
        .ok listing (pluginPair largeCard smallCard) ∧
      (listing.map ListedItem.name).Perm ["Card".toList, "card".toList] ∧
      ⟨"Card", .nothing, "A large card"⟩ ∈ listing ∧ ⟨"card", .nothing, "A small card"⟩ ∈ listing ∧
      ListedItem.Ordered listing ∧
      queryListing avatarLibrary .plugins (pluginPair smallCard largeCard) =
        .ok listing (pluginPair smallCard largeCard) := by
  have hnul : ∀ name ∈ (pluginPair largeCard smallCard).index.names .plugins, '\x00' ∉ name := by decide
  have hsame : (pluginPair largeCard smallCard).index.SameRecords (pluginPair smallCard largeCard).index .plugins := by
    intro key
    have hne : smallCard.name ≠ largeCard.name := by decide
    simp only [pluginPair, OrderedMap.find?_insert]
    by_cases hlarge : largeCard.name = key
    · have hsmall : smallCard.name ≠ key := hlarge ▸ hne
      rw [if_neg hsmall, if_pos hlarge, if_pos hlarge]
    · rw [if_neg hlarge, if_neg hlarge]
  obtain ⟨listing, hlisting, hnames, hitems, hordered, hother⟩ := queryListing_canonical avatarLibrary rfl hnul
  have hlarge : ⟨"Card", .nothing, "A large card"⟩ ∈ listing := (hitems _).2 (.plugin (p := largeCard) rfl)
  have hsmall : ⟨"card", .nothing, "A small card"⟩ ∈ listing := (hitems _).2 (.plugin (p := smallCard) rfl)
  exact ⟨rfl, hnul, listing, hlisting, hnames, hlarge, hsmall, hordered, hother avatarLibrary _ rfl hsame⟩

example : ((pluginPair smallCard largeCard).index.listing .plugins).map ListedItem.name =
    ["Card".toList, "card".toList] := by cbv

end ComponentCatalog
