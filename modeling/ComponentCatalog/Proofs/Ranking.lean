import ComponentCatalog.Similarity.Ranking
import Mathlib.Data.List.Induction
import Mathlib.Data.List.Perm.Basic

/-!
# Rankings

The best match and the ranking of candidates, told by the order of similarities: the best match is
the first of the most similar candidates, and a ranking is cut from the candidates above the
threshold in falling order.
-/

namespace ComponentCatalog

variable {α : Type} {query : Text} {threshold : Double}

namespace Double

theorem lt_iff {x y : Double} (hx : x.isNaN = false) (hy : y.isNaN = false) :
    x.lt y = true ↔ x.order < y.order := by
  simp [lt, hx, hy]

theorem isNaN_ofRatio (negative : Bool) (num den : Nat) : (ofRatio negative num den).isNaN = false := by
  unfold ofRatio
  split
  · simp [isNaN]
  · simp only [isNaN, decide_eq_false_iff_not]
    omega

end Double

/-! ## Similarities -/

theorem isNaN_similarity (a b : Text) : (similarity a b).isNaN = false := by
  unfold similarity Score.toDouble
  split
  · rfl
  · exact Double.isNaN_ofRatio ..

/-- The place of a similarity in the order of all doubles. -/
def closeness (query name : Text) : Int := (similarity query name).order

theorem lt_similarity_iff (ht : threshold.isNaN = false) (name : Text) :
    threshold.lt (similarity query name) = true ↔ threshold.order < closeness query name :=
  Double.lt_iff ht (isNaN_similarity query name)

/-! ## The best match -/

/-- `best` is the first of the most similar candidates, with its similarity, if there is one above
zero and the threshold. -/
inductive Leads (query : Text) (threshold : Double) (seen : List (Text × α)) : Double × Option α → Prop
  | nothing (h : ∀ c ∈ seen, closeness query c.1 ≤ max threshold.order 0) :
      Leads query threshold seen (.zero, none)
  | first {before after : List (Text × α)} {key : Text} {best : α}
      (split : seen = before ++ (key, best) :: after)
      (above : max threshold.order 0 < closeness query key)
      (before : ∀ c ∈ before, closeness query c.1 < closeness query key)
      (after : ∀ c ∈ after, closeness query c.1 ≤ closeness query key) :
      Leads query threshold seen (similarity query key, some best)

theorem Leads.better {seen : List (Text × α)} {best : Double × Option α}
    (h : Leads query threshold seen best) (ht : threshold.isNaN = false) (c : Text × α) :
    Leads query threshold (seen ++ [c]) (better? query threshold best c) := by
  have hc : threshold.lt (similarity query c.1) = true ↔ _ := lt_similarity_iff ht c.1
  unfold better?
  cases h with
  | nothing h =>
      have hzero : Double.zero.lt (similarity query c.1) = true ↔ 0 < closeness query c.1 :=
        Double.lt_iff rfl (isNaN_similarity query c.1)
      simp only [Bool.and_eq_true, hzero, hc]
      split
      · next habove =>
          refine .first rfl (by omega) (fun d hd => ?_) (by simp)
          have := h d hd
          omega
      · refine .nothing fun d hd => ?_
        rcases List.mem_append.1 hd with hd | hd
        · exact h d hd
        · obtain rfl := List.mem_singleton.1 hd
          omega
  | first split above hbefore hafter =>
      have hbest (key : Text) : (similarity query key).lt (similarity query c.1) = true ↔
          closeness query key < closeness query c.1 :=
        lt_similarity_iff (isNaN_similarity query key) c.1
      simp only [Bool.and_eq_true, hbest, hc]
      split
      · next habove =>
          refine .first rfl (by omega) (fun d hd => ?_) (by simp)
          rw [split, List.mem_append, List.mem_cons] at hd
          rcases hd with hd | rfl | hd
          · exact Int.lt_trans (hbefore d hd) habove.1
          · exact habove.1
          · exact Int.lt_of_le_of_lt (hafter d hd) habove.1
      · have hsplit := congrArg (· ++ [c]) split
        simp only [List.append_assoc, List.cons_append] at hsplit
        refine .first hsplit above hbefore fun d hd => ?_
        rcases List.mem_append.1 hd with hd | hd
        · exact hafter d hd
        · obtain rfl := List.mem_singleton.1 hd
          omega

theorem leads_foldl (ht : threshold.isNaN = false) (candidates : List (Text × α)) :
    Leads query threshold candidates (candidates.foldl (better? query threshold) (.zero, none)) := by
  induction candidates using List.reverseRecOn with
  | nil => exact .nothing (by simp)
  | append_singleton seen c ih =>
      rw [List.foldl_append]
      exact ih.better ht c

/-- There is no best match exactly if no candidate is above zero and the threshold. -/
theorem bestMatch?_eq_none_iff (ht : threshold.isNaN = false) {candidates : List (Text × α)} :
    bestMatch? query candidates threshold = none ↔
      ∀ c ∈ candidates, closeness query c.1 ≤ max threshold.order 0 := by
  unfold bestMatch?
  generalize hbest : candidates.foldl (better? query threshold) (.zero, none) = best
  cases hbest ▸ leads_foldl ht candidates with
  | nothing h => simpa using h
  | first split above before after =>
      simp only [reduceCtorEq, false_iff, split]
      intro hall
      have hle := hall _ (List.mem_append_right _ List.mem_cons_self)
      exact Int.not_le.2 above hle

/-- The best match is the first of the most similar candidates. -/
theorem exists_of_bestMatch?_eq_some (ht : threshold.isNaN = false) {candidates : List (Text × α)} {best : α}
    (h : bestMatch? query candidates threshold = some best) :
    ∃ before key after, candidates = before ++ (key, best) :: after ∧
      max threshold.order 0 < closeness query key ∧
      (∀ c ∈ before, closeness query c.1 < closeness query key) ∧
      ∀ c ∈ after, closeness query c.1 ≤ closeness query key := by
  unfold bestMatch? at h
  generalize hbest : candidates.foldl (better? query threshold) (.zero, none) = found at h
  cases hbest ▸ leads_foldl ht candidates with
  | nothing => cases h
  | first split above before after =>
      cases h
      exact ⟨_, _, _, split, above, before, after⟩

/-! ## Rankings -/

/-- The candidates that are more similar than the threshold. -/
def above (query : Text) (threshold : Double) (candidates : List (Text × α)) : List (Text × α) :=
  candidates.filter fun c => threshold.lt (similarity query c.1)

theorem above_eq (ht : threshold.isNaN = false) (candidates : List (Text × α)) :
    above query threshold candidates =
      candidates.filter fun c => decide (threshold.order < closeness query c.1) := by
  refine List.filter_congr fun c _ => ?_
  rw [Bool.eq_iff_iff, decide_eq_true_eq]
  exact lt_similarity_iff ht c.1

theorem nearMisses_eq (query : Text) (threshold : Double) (candidates : List (Text × α)) :
    nearMisses query candidates threshold =
      (above query threshold candidates).map fun c => (similarity query c.1, c.2) := by
  rw [nearMisses, above, ← List.filterMap_eq_filter, List.map_filterMap]
  refine List.filterMap_congr fun c _ => ?_
  cases h : threshold.lt (similarity query c.1) <;> simp [h, Option.guard]

section

variable {β : Type} (key : β → Int)

theorem falls_trans (x y z : β) (hxy : decide (key y ≤ key x) = true) (hyz : decide (key z ≤ key y) = true) :
    decide (key z ≤ key x) = true := by
  simp only [decide_eq_true_eq] at hxy hyz ⊢
  exact Int.le_trans hyz hxy

theorem falls_total (x y : β) : (decide (key y ≤ key x) || decide (key x ≤ key y)) = true := by
  simp only [Bool.or_eq_true, decide_eq_true_eq]
  exact Int.le_total _ _

end

/-- Candidates by falling similarity; equally similar ones keep their order. -/
def mostSimilarFirst (query : Text) (near : List (Text × α)) : List (Text × α) :=
  near.mergeSort fun c d => decide (closeness query d.1 ≤ closeness query c.1)

theorem mostSimilarFirst_perm (query : Text) (near : List (Text × α)) :
    (mostSimilarFirst query near).Perm near := List.mergeSort_perm ..

theorem mostSimilarFirst_pairwise (query : Text) (near : List (Text × α)) :
    (mostSimilarFirst query near).Pairwise fun c d => closeness query d.1 ≤ closeness query c.1 := by
  let key : Text × α → Int := fun c => closeness query c.1
  exact (List.pairwise_mergeSort (falls_trans key) (falls_total key) near).imp of_decide_eq_true

/-- The payloads of the candidates above the threshold, the most similar first. -/
def bestFirst (query : Text) (threshold : Double) (candidates : List (Text × α)) : List α :=
  (byScore (nearMisses query candidates threshold)).map (·.2)

theorem bestFirst_eq (query : Text) (threshold : Double) (candidates : List (Text × α)) :
    bestFirst query threshold candidates =
      (mostSimilarFirst query (above query threshold candidates)).map (·.2) := by
  have hsort := List.map_mergeSort (f := fun c : Text × α => (similarity query c.1, c.2))
    (l := above query threshold candidates)
    (r := fun c d => decide (closeness query d.1 ≤ closeness query c.1))
    (s := fun x y => decide (y.1.order ≤ x.1.order)) fun c _ d _ => rfl
  rw [bestFirst, nearMisses_eq, byScore, ← hsort, List.map_map]
  rfl

section

variable (ht : threshold.isNaN = false) (name : α → Text) (xs : List α)
include ht

theorem above_named : above query threshold (xs.map fun x => (name x, x)) =
    (xs.filter fun x => decide (threshold.order < closeness query (name x))).map fun x => (name x, x) := by
  rw [above_eq ht, List.filter_map]
  rfl

theorem bestFirst_perm : (bestFirst query threshold (xs.map fun x => (name x, x))).Perm
    (xs.filter fun x => decide (threshold.order < closeness query (name x))) := by
  have h := (mostSimilarFirst_perm query (above query threshold (xs.map fun x => (name x, x)))).map (·.2)
  rw [← bestFirst_eq, above_named ht, List.map_map] at h
  simpa [Function.comp_def] using h

theorem bestFirst_pairwise : (bestFirst query threshold (xs.map fun x => (name x, x))).Pairwise
    fun x y => closeness query (name y) ≤ closeness query (name x) := by
  have hname : ∀ c ∈ mostSimilarFirst query (above query threshold (xs.map fun x => (name x, x))),
      name c.2 = c.1 := by
    intro c hc
    rw [(mostSimilarFirst_perm ..).mem_iff, above_named ht] at hc
    obtain ⟨x, -, rfl⟩ := List.mem_map.1 hc
    rfl
  rw [bestFirst_eq]
  refine List.pairwise_map.2 ((mostSimilarFirst_pairwise ..).imp_of_mem fun hc hd hle => ?_)
  rwa [hname _ hc, hname _ hd]

end

end ComponentCatalog
