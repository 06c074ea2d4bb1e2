import ComponentCatalog.Proofs.Ranking
import Mathlib.Data.List.DropRight

/-!
# What a ranking is

A ranking has the most similar candidates first and keeps the order of equally similar ones, and there
is only one. So a higher threshold cuts it short, and its first candidate is the best match.
-/

namespace ComponentCatalog

variable {α : Type} {query : Text} {threshold : Double} {near ranked ranked' : List (Text × α)}
  {c d : Text × α}

/-- No candidate is less similar than one behind it. -/
def Falling (query : Text) (ranked : List (Text × α)) : Prop :=
  ranked.Pairwise fun c d => closeness query d.1 ≤ closeness query c.1

/-- The candidates that are as similar as `s`. -/
def asSimilar (query : Text) (s : Int) (candidates : List (Text × α)) : List (Text × α) :=
  candidates.filter fun c => closeness query c.1 = s

/-- `ranked` has the most similar candidates of `near` first; equally similar ones keep their order. -/
structure IsRanking (query : Text) (near ranked : List (Text × α)) : Prop where
  perm : ranked.Perm near
  falling : Falling query ranked
  stable : ∀ s, asSimilar query s ranked = asSimilar query s near

theorem mem_asSimilar {s : Int} : c ∈ asSimilar query s near ↔ c ∈ near ∧ closeness query c.1 = s := by
  simp [asSimilar]

theorem asSimilar_cons (s : Int) (c : Text × α) (near : List (Text × α)) :
    asSimilar query s (c :: near) =
      if closeness query c.1 = s then c :: asSimilar query s near else asSimilar query s near := by
  simp [asSimilar, List.filter_cons]

/-! ## There is one ranking -/

theorem mem_iff_of_asSimilar (hsame : ∀ s, asSimilar query s ranked = asSimilar query s ranked') :
    c ∈ ranked ↔ c ∈ ranked' := by
  have hc := congrArg (c ∈ ·) (hsame (closeness query c.1))
  simpa [mem_asSimilar] using hc

theorem asSimilar_tail {rest : List (Text × α)} {s : Int}
    (hsame : asSimilar query s (c :: ranked) = asSimilar query s (c :: rest)) :
    asSimilar query s ranked = asSimilar query s rest := by
  rw [asSimilar_cons, asSimilar_cons] at hsame
  split at hsame
  · exact (List.cons.inj hsame).2
  · exact hsame

theorem Falling.le_head (h : Falling query (c :: ranked)) (hd : d ∈ c :: ranked) :
    closeness query d.1 ≤ closeness query c.1 := by
  rcases List.mem_cons.1 hd with rfl | hd
  · exact Int.le_refl _
  · exact List.rel_of_pairwise_cons h hd

theorem Falling.eq_of_asSimilar (h : Falling query ranked) (h' : Falling query ranked')
    (hsame : ∀ s, asSimilar query s ranked = asSimilar query s ranked') : ranked = ranked' := by
  induction ranked generalizing ranked' with
  | nil =>
      cases ranked' with
      | nil => rfl
      | cons d rest => exact absurd ((mem_iff_of_asSimilar hsame).2 List.mem_cons_self) List.not_mem_nil
  | cons c ranked ih =>
      have hc : c ∈ ranked' := (mem_iff_of_asSimilar hsame).1 List.mem_cons_self
      cases ranked' with
      | nil => cases hc
      | cons d rest =>
          have hd : d ∈ c :: ranked := (mem_iff_of_asSimilar hsame).2 List.mem_cons_self
          have hcd : closeness query d.1 = closeness query c.1 :=
            Int.le_antisymm (h.le_head hd) (h'.le_head hc)
          have hhead := hsame (closeness query c.1)
          rw [asSimilar_cons, asSimilar_cons, if_pos rfl, if_pos hcd] at hhead
          obtain ⟨rfl, -⟩ := List.cons.inj hhead
          rw [ih (List.Pairwise.of_cons h) (List.Pairwise.of_cons h') fun s => asSimilar_tail (hsame s)]

theorem IsRanking.eq (h : IsRanking query near ranked) (h' : IsRanking query near ranked') : ranked = ranked' :=
  h.falling.eq_of_asSimilar h'.falling fun s => (h.stable s).trans (h'.stable s).symm

/-! ## Higher thresholds -/

theorem IsRanking.filter (h : IsRanking query near ranked) (p : Text × α → Bool) :
    IsRanking query (near.filter p) (ranked.filter p) where
  perm := h.perm.filter p
  falling := List.Pairwise.filter p h.falling
  stable s := by
    have hs := congrArg (List.filter p) (h.stable s)
    simp only [asSimilar, List.filter_filter, Bool.and_comm] at hs ⊢
    exact hs

/-- What is above a bound stands at the front. -/
theorem Falling.filter_prefix (h : Falling query ranked) (bound : Int) :
    (ranked.filter fun c => decide (bound < closeness query c.1)) <+: ranked := by
  induction ranked with
  | nil => exact List.nil_prefix
  | cons c ranked ih =>
      by_cases hc : bound < closeness query c.1
      · rw [List.filter_cons_of_pos (by simpa using hc)]
        exact List.cons_prefix_cons.2 ⟨rfl, ih (List.Pairwise.of_cons h)⟩
      · have hnone : ((c :: ranked).filter fun c => decide (bound < closeness query c.1)) = [] := by
          refine List.filter_eq_nil_iff.2 fun d hd => ?_
          have hle := h.le_head hd
          simp only [decide_eq_true_eq]
          omega
        rw [hnone]
        exact List.nil_prefix

theorem above_raised {raised : Double} (ht : threshold.isNaN = false) (hraised : raised.isNaN = false)
    (hle : threshold.order ≤ raised.order) (candidates : List (Text × α)) :
    above query raised candidates =
      (above query threshold candidates).filter fun c => decide (raised.order < closeness query c.1) := by
  rw [above_eq ht, above_eq hraised, List.filter_filter]
  refine List.filter_congr fun c _ => ?_
  rw [Bool.eq_iff_iff, Bool.and_eq_true, decide_eq_true_eq, decide_eq_true_eq]
  omega

/-! ## The ranking of candidates -/

theorem mostSimilarFirst_isRanking (query : Text) (near : List (Text × α)) :
    IsRanking query near (mostSimilarFirst query near) := by
  let key : Text × α → Int := fun c => closeness query c.1
  have hperm := mostSimilarFirst_perm query near
  refine ⟨hperm, mostSimilarFirst_pairwise query near, fun s => ?_⟩
  -- Equally similar candidates are in order already, so sorting leaves them one after the other.
  have hclass : (asSimilar query s near).Sublist (mostSimilarFirst query near) := by
    refine List.sublist_mergeSort (falls_trans key) (falls_total key) ?_ List.filter_sublist
    refine List.pairwise_of_forall_mem_list fun c hc d hd => ?_
    rw [decide_eq_true_eq]
    exact Int.le_of_eq ((mem_asSimilar.1 hd).2.trans (mem_asSimilar.1 hc).2.symm)
  have hpart : (asSimilar query s near).Sublist (asSimilar query s (mostSimilarFirst query near)) := by
    simpa [asSimilar, List.filter_filter] using hclass.filter fun c => decide (closeness query c.1 = s)
  exact (hpart.eq_of_length (hperm.filter _).length_eq.symm).symm

theorem rank_eq (query : Text) (threshold : Double) (candidates : List (Text × α)) (limit : Int) :
    rank query candidates threshold limit =
      upTo limit ((mostSimilarFirst query (above query threshold candidates)).map (·.2)) :=
  congrArg (upTo limit) (bestFirst_eq query threshold candidates)

/-- A limit that no ranking exceeds leaves it whole. -/
theorem rank_length (query : Text) (threshold : Double) (candidates : List (Text × α)) :
    rank query candidates threshold candidates.length =
      (mostSimilarFirst query (above query threshold candidates)).map (·.2) := by
  have hlen : (above query threshold candidates).length ≤ candidates.length := List.length_filter_le ..
  rw [rank_eq]
  refine List.take_of_length_le ?_
  rw [List.length_map, (mostSimilarFirst_perm ..).length_eq]
  exact hlen

/-- The ranking of the candidates above the threshold is cut at the limit, at its front if that is not
negative and at its end if it is; a higher threshold leaves the front of the ranking. -/
theorem rank_isRanking (ht : threshold.isNaN = false) (candidates : List (Text × α)) :
    ∃ ranked, IsRanking query (above query threshold candidates) ranked ∧
      rank query candidates threshold candidates.length = ranked.map (·.2) ∧
      (∀ k : Nat, rank query candidates threshold k =
        (rank query candidates threshold candidates.length).take
          (min k (above query threshold candidates).length)) ∧
      (∀ k : Nat, rank query candidates threshold (-(k + 1)) =
        (rank query candidates threshold candidates.length).rdrop (k + 1)) ∧
      ∀ raised : Double, raised.isNaN = false → threshold.order ≤ raised.order →
        rank query candidates raised candidates.length <+:
          rank query candidates threshold candidates.length := by
  have hranking := mostSimilarFirst_isRanking query (above query threshold candidates)
  refine ⟨_, hranking, rank_length .., fun k => ?_, fun k => ?_, fun raised hraised hle => ?_⟩
  · rw [rank_length, rank_eq, ← List.take_take, List.take_of_length_le (i := List.length _)]
    · rfl
    · rw [List.length_map, (mostSimilarFirst_perm ..).length_eq]
  · rw [rank_length, rank_eq, ← Int.negSucc_eq]
    rfl
  · rw [rank_length, rank_length]
    refine List.IsPrefix.map _ ?_
    -- The candidates above the higher threshold have one ranking, which is part of the other one.
    have hpart := hranking.filter fun c => decide (raised.order < closeness query c.1)
    rw [← above_raised ht hraised hle] at hpart
    rw [(mostSimilarFirst_isRanking query _).eq hpart]
    exact hranking.falling.filter_prefix raised.order

/-- Three names, two of which are equally similar to `ab`. -/
def closeNames : List (Text × Nat) := [("ax", 1), ("ay", 2), ("ab", 3)]

theorem rank_isRanking_closeNames :
    Double.isNaN ⟨false, 0x3fd3333333333333⟩ = false ∧ Double.isNaN Double.one = false ∧
      (∃ ranked, IsRanking "ab" (above "ab" ⟨false, 0x3fd3333333333333⟩ closeNames) ranked ∧
        rank "ab" closeNames ⟨false, 0x3fd3333333333333⟩ closeNames.length = ranked.map (·.2)) ∧
      rank "ab" closeNames Double.one closeNames.length <+:
        rank "ab" closeNames ⟨false, 0x3fd3333333333333⟩ closeNames.length := by
  have hthreshold : Double.isNaN ⟨false, 0x3fd3333333333333⟩ = false := by decide
  obtain ⟨ranked, hranking, hwhole, -, -, hraised⟩ := rank_isRanking hthreshold closeNames
  exact ⟨hthreshold, by decide, ⟨ranked, hranking, hwhole⟩, hraised Double.one (by decide) (by decide)⟩

/-! ## The best match -/

theorem IsRanking.head?_eq {before after : List (Text × α)} (h : IsRanking query near ranked)
    (hsplit : near = before ++ c :: after)
    (hbefore : ∀ d ∈ before, closeness query d.1 < closeness query c.1)
    (hafter : ∀ d ∈ after, closeness query d.1 ≤ closeness query c.1) : ranked.head? = some c := by
  have hclass : asSimilar query (closeness query c.1) near =
      c :: asSimilar query (closeness query c.1) after := by
    have hnone : asSimilar query (closeness query c.1) before = [] :=
      List.filter_eq_nil_iff.2 fun d hd => by
        have hlt := hbefore d hd
        simp only [decide_eq_true_eq]
        omega
    rw [hsplit, asSimilar, List.filter_append]
    exact (congrArg (· ++ _) hnone).trans ((asSimilar_cons _ c after).trans (if_pos rfl))
  have hbest : ∀ d ∈ near, closeness query d.1 ≤ closeness query c.1 := by
    intro d hd
    rw [hsplit, List.mem_append, List.mem_cons] at hd
    rcases hd with hd | rfl | hd
    · exact Int.le_of_lt (hbefore d hd)
    · exact Int.le_refl _
    · exact hafter d hd
  have hc : c ∈ ranked := h.perm.mem_iff.2 (by simp [hsplit])
  cases ranked with
  | nil => cases hc
  | cons d ranked =>
      have hcd : closeness query d.1 = closeness query c.1 :=
        Int.le_antisymm (hbest d (h.perm.mem_iff.1 List.mem_cons_self)) (h.falling.le_head hc)
      have hsame := h.stable (closeness query c.1)
      rw [hclass, asSimilar_cons, if_pos hcd] at hsame
      exact congrArg some (List.cons.inj hsame).1

/-- A ranking that is not cut to nothing keeps its first candidate. -/
theorem head?_rank (query : Text) (threshold : Double) (candidates : List (Text × α)) {limit : Int}
    (hlimit : 1 ≤ limit) : (rank query candidates threshold limit).head? =
      (mostSimilarFirst query (above query threshold candidates)).head?.map (·.2) := by
  obtain ⟨k, rfl⟩ := Int.eq_ofNat_of_zero_le (Int.le_trans (by decide) hlimit)
  have hk : k ≠ 0 := by omega
  rw [rank_eq]
  exact (List.head?_take ..).trans ((if_neg hk).trans List.head?_map)

theorem above_eq_nil_of_bestMatch? (ht : threshold.isNaN = false) (hzero : 0 ≤ threshold.order)
    {candidates : List (Text × α)} (hnone : bestMatch? query candidates threshold = none) :
    above query threshold candidates = [] := by
  rw [above_eq ht]
  refine List.filter_eq_nil_iff.2 fun c hc => ?_
  have hle := (bestMatch?_eq_none_iff ht).1 hnone c hc
  simp only [decide_eq_true_eq]
  omega

/-- The best match is the first candidate of a ranking that is not cut to nothing. -/
theorem bestMatch?_eq_head?_rank (ht : threshold.isNaN = false) (hzero : 0 ≤ threshold.order)
    (candidates : List (Text × α)) {limit : Int} (hlimit : 1 ≤ limit) :
    bestMatch? query candidates threshold = (rank query candidates threshold limit).head? := by
  have hranking := mostSimilarFirst_isRanking query (above query threshold candidates)
  rw [head?_rank query threshold candidates hlimit]
  cases hbest : bestMatch? query candidates threshold with
  | none =>
      rw [above_eq_nil_of_bestMatch? ht hzero hbest] at hranking ⊢
      rw [hranking.perm.eq_nil]
      rfl
  | some best =>
      obtain ⟨before, key, after, hsplit, habove, hbefore, hafter⟩ := exists_of_bestMatch?_eq_some ht hbest
      have hnear : above query threshold candidates =
          above query threshold before ++ (key, best) :: above query threshold after := by
        rw [above_eq ht, above_eq ht, above_eq ht, hsplit, List.filter_append,
          List.filter_cons_of_pos (by simpa using Int.lt_of_le_of_lt (Int.le_max_left ..) habove)]
      rw [hranking.head?_eq hnear (fun d hd => hbefore d (List.mem_of_mem_filter hd)) fun d hd =>
        hafter d (List.mem_of_mem_filter hd)]
      rfl

theorem bestMatch?_eq_head?_rank_closeNames :
    Double.isNaN Double.zero = false ∧ 0 ≤ Double.zero.order ∧ (1 : Int) ≤ 2 ∧
      bestMatch? "ab" closeNames Double.zero = (rank "ab" closeNames Double.zero 2).head? :=
  ⟨by decide, by decide, by decide, bestMatch?_eq_head?_rank (by decide) (by decide) closeNames (by decide)⟩

end ComponentCatalog
