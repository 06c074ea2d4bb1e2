import ComponentCatalog.Proofs.Distance
import ComponentCatalog.Proofs.Ranking
import Mathlib.Algebra.Order.Field.Rat
import Mathlib.Algebra.Order.Group.Unbundled.Abs
import Mathlib.Algebra.Order.Group.Unbundled.Int
import Mathlib.Algebra.Order.Field.Basic

/-!
# Similarity as a measure

Distances of texts obey the triangle inequality and are bounded by the lengths of the texts. So the
similarity of two names is a proper quotient, and what it is rounded to stays between 0 and 1.
-/

namespace ComponentCatalog

variable {a b c : Text} {m n : Nat}

/-! ## Distances -/

theorem EditSequence.trans (h : EditSequence m a b) (h' : EditSequence n b c) : EditSequence (m + n) a c := by
  induction h with
  | done a => rwa [Nat.zero_add]
  | edit hedit _ ih =>
      rw [Nat.succ_add]
      exact .edit hedit (ih h')

theorem distance_triangle (a b c : Text) : distance a c ≤ distance a b + distance b c :=
  ((editSequence_distance a b).trans (editSequence_distance b c)).distance_le

theorem EditSequence.length_le (h : EditSequence n a b) : a.length ≤ b.length + n := by
  induction h with
  | done a => exact Nat.le_refl _
  | edit hedit _ ih => cases hedit <;> simp only [List.length_append, List.length_cons] at ih ⊢ <;> omega

theorem length_le_add_distance (a b : Text) : a.length ≤ b.length + distance a b :=
  (editSequence_distance a b).length_le

theorem distance_le_max (a b : Text) : distance a b ≤ max a.length b.length := by
  induction a generalizing b with
  | nil => rw [nil_distance]; exact Nat.le_max_right _ _
  | cons x a ih =>
      cases b with
      | nil => rw [distance_nil]; exact Nat.le_max_left _ _
      | cons c b =>
          have := ih b
          have := distance_cons_cons_le x c a b
          simp only [List.length_cons]
          omega

theorem distance_eq_zero_iff : distance a b = 0 ↔ a = b := by
  constructor
  · intro h
    have hsequence := editSequence_distance a b
    rw [h] at hsequence
    cases hsequence
    rfl
  · rintro rfl
    exact distance_self a

/-! ## Rounding -/

namespace Double

/-- Both are numbers, and the first is not the larger one. -/
def AtMost (x y : Double) : Prop := x.isNaN = false ∧ y.isNaN = false ∧ x.order ≤ y.order

theorem zero_atMost {x : Double} (h : x.isNaN = false) (hsign : x.negative = false) : zero.AtMost x :=
  ⟨rfl, h, by simp [order, zero, hsign]⟩

theorem negative_ofRatio (negative : Bool) (num den : Nat) : (ofRatio negative num den).negative = negative := by
  unfold ofRatio
  split <;> rfl

theorem roundHalfEven_le (num den : Nat) : roundHalfEven num den ≤ num / den + 1 := by
  unfold roundHalfEven
  dsimp only
  split <;> omega

theorem roundHalfEven_mul (q : Nat) {den : Nat} (h : 0 < den) : roundHalfEven (den * q) den = q := by
  simp [roundHalfEven, h]

theorem scaled_neg (num den k : Nat) : scaled num den (-(k : Int)) = (num * 2 ^ k, den) := by
  cases k with
  | zero => simp [scaled]
  | succ k => rfl

theorem lastBit_eq {num den k : Nat} (h : (num.log2 : Int) - den.log2 - 53 = -(k + 1 : Nat)) :
    lastBit num den =
      max (if num * 2 ^ (k + 1) / den < 2 ^ 53 then -((k + 1 : Nat) : Int) else -(k : Int)) (-1074) := by
  rw [lastBit, h, scaled_neg]
  dsimp only
  congr 2
  omega

/-- A quotient that is scaled by the lengths of both numbers has 53 bits before the point at most. -/
theorem scaled_log2_lt {num den k : Nat} (hden : den ≠ 0) (h : num.log2 + k = den.log2 + 52) :
    num * 2 ^ k / den < 2 ^ 53 := by
  refine (Nat.div_lt_iff_lt_mul (Nat.pos_of_ne_zero hden)).2 ?_
  calc num * 2 ^ k < 2 ^ (num.log2 + 1) * 2 ^ k :=
        Nat.mul_lt_mul_of_pos_right Nat.lt_log2_self (Nat.two_pow_pos k)
    _ = 2 ^ 53 * 2 ^ den.log2 := by
        rw [← Nat.pow_add, ← Nat.pow_add]
        congr 1
        omega
    _ ≤ 2 ^ 53 * den := Nat.mul_le_mul_left _ (Nat.log2_self_le hden)

theorem scaled_mono (num den : Nat) {k k' : Nat} (h : k ≤ k') : num * 2 ^ k / den ≤ num * 2 ^ k' / den :=
  Nat.div_le_div_right (Nat.mul_le_mul_left _ (Nat.pow_le_pow_right Nat.two_pos h))

/-- Of a quotient up to 1 so many bits stand behind the point that 53 bits are left at most. Only of 1 itself
they are 52. -/
theorem exists_lastBit {num den : Nat} (hnum : num ≠ 0) (h : num ≤ den) : ∃ k : Nat, lastBit num den = -k ∧
    k ≤ 1074 ∧ num * 2 ^ k / den < 2 ^ 53 ∧ (53 ≤ k ∨ k = 52 ∧ num = den) := by
  have hden : den ≠ 0 := by omega
  have hlog : num.log2 ≤ den.log2 := (Nat.le_log2 hden).2 (Nat.le_trans (Nat.log2_self_le hnum) h)
  obtain ⟨k, hk⟩ : ∃ k, num.log2 + k = den.log2 + 52 := ⟨den.log2 + 52 - num.log2, by omega⟩
  rw [lastBit_eq (k := k) (by omega)]
  split
  · next hbits =>
      refine ⟨min (k + 1) 1074, by omega, by omega, ?_, by omega⟩
      exact Nat.lt_of_le_of_lt (scaled_mono num den (Nat.min_le_left _ _)) hbits
  · next hbits =>
      refine ⟨min k 1074, by omega, by omega, ?_, ?_⟩
      · exact Nat.lt_of_le_of_lt (scaled_mono num den (Nat.min_le_left _ _)) (scaled_log2_lt hden hk)
      · by_cases hlast : k = 52
        · subst hlast
          refine .inr ⟨rfl, Nat.le_antisymm h ?_⟩
          have := (Nat.le_div_iff_mul_le (Nat.pos_of_ne_zero hden)).1 (Nat.le_of_not_lt hbits)
          omega
        · omega

theorem ofRatio_atMost_one {num den : Nat} (h : num ≤ den) : (ofRatio false num den).AtMost one := by
  refine ⟨isNaN_ofRatio .., rfl, ?_⟩
  unfold ofRatio
  split
  · decide
  · next hne =>
      obtain ⟨hnum, hden⟩ : num ≠ 0 ∧ den ≠ 0 := by simpa using hne
      obtain ⟨k, hk, hmax, hbits, hlast⟩ := exists_lastBit hnum h
      have hexponent : (-(k : Int) + 1074).toNat = 1074 - k := by omega
      have hunit : exponentUnit = 2 ^ 52 := rfl
      simp only [hk, scaled_neg, hexponent, order, one, hunit, Bool.false_eq_true, if_false]
      rcases hlast with hlast | ⟨rfl, rfl⟩
      · have := roundHalfEven_le (num * 2 ^ k) den
        omega
      · have := roundHalfEven_mul (2 ^ 52) (Nat.pos_of_ne_zero hden)
        omega

end Double

/-! ## Scores -/

/-- The exact quotient that a score stands for. Where there is nothing to edit, all agrees. -/
def Score.value (s : Score) : ℚ := if s.total = 0 then 1 else s.kept / s.total

namespace Score

variable {s : Score}

theorem value_nonneg (s : Score) : 0 ≤ s.value := by
  unfold value
  split
  · exact zero_le_one
  · exact div_nonneg (Nat.cast_nonneg _) (Nat.cast_nonneg _)

theorem value_le_one (h : s.kept ≤ s.total) : s.value ≤ 1 := by
  unfold value
  split
  · exact le_refl _
  · exact div_le_one_of_le₀ (Nat.cast_le.2 h) (Nat.cast_nonneg _)

theorem value_eq_one_iff (h : s.kept ≤ s.total) : s.value = 1 ↔ s.kept = s.total := by
  unfold value
  split
  · exact iff_of_true rfl (by omega)
  · next hne => rw [div_eq_one_iff_eq (Nat.cast_ne_zero.2 hne), Nat.cast_inj]

theorem toDouble_atMost_one (h : s.kept ≤ s.total) : s.toDouble.AtMost .one := by
  unfold toDouble
  split
  · exact ⟨rfl, rfl, Int.le_refl _⟩
  · exact Double.ofRatio_atMost_one h

theorem zero_atMost_toDouble (s : Score) : Double.zero.AtMost s.toDouble := by
  unfold toDouble
  split
  · exact Double.zero_atMost rfl rfl
  · exact Double.zero_atMost (Double.isNaN_ofRatio ..) (Double.negative_ofRatio ..)

end Score

theorem score_comm (a b : Text) : score a b = score b a := by
  simp only [score, distance_comm a.lower, Nat.max_comm a.lower.length]

/-- What is kept and what is edited make up the whole. -/
theorem kept_add_distance (a b : Text) :
    (score a b).kept + distance a.lower b.lower = (score a b).total :=
  Nat.sub_add_cancel (distance_le_max a.lower b.lower)

theorem kept_le_total (a b : Text) : (score a b).kept ≤ (score a b).total := Nat.sub_le _ _

/-- Similarity is symmetric and lies between 0 and 1. It is rounded from a quotient that has no negative numerator
and no zero for its denominator, and that is 1 exactly for names of the same small letters. The distances behind
it obey the triangle inequality, and lie between the difference and the maximum of both lengths. -/
theorem similarity_normalised (a b c : Text) :
    similarity a b = similarity b a ∧
      (Double.zero.AtMost (similarity a b) ∧ (similarity a b).AtMost .one) ∧
      (0 ≤ (score a b).value ∧ (score a b).value ≤ 1 ∧ ((score a b).value = 1 ↔ a.lower = b.lower)) ∧
      ((score a b).total = max a.lower.length b.lower.length ∧
        ((score a b).kept : Int) = (score a b).total - distance a.lower b.lower ∧
        ((score a b).total = 0 ∧ similarity a b = .one ∨
          0 < (score a b).total ∧ similarity a b = .ofRatio false (score a b).kept (score a b).total)) ∧
      distance a c ≤ distance a b + distance b c ∧
      |(a.length : Int) - b.length| ≤ distance a b ∧ distance a b ≤ max a.length b.length := by
  have hkept := kept_add_distance a b
  have hle := kept_le_total a b
  refine ⟨congrArg Score.toDouble (score_comm a b), ⟨Score.zero_atMost_toDouble _, Score.toDouble_atMost_one hle⟩,
    ⟨Score.value_nonneg _, Score.value_le_one hle, ?_⟩, ⟨rfl, by omega, ?_⟩, distance_triangle a b c, ?_,
    distance_le_max a b⟩
  · rw [Score.value_eq_one_iff hle, ← distance_eq_zero_iff]
    omega
  · unfold similarity Score.toDouble
    split
    · next hzero => exact .inl ⟨hzero, rfl⟩
    · next hne => exact .inr ⟨Nat.pos_of_ne_zero hne, rfl⟩
  · have hback := length_le_add_distance b a
    rw [distance_comm] at hback
    have := length_le_add_distance a b
    rw [abs_le]
    omega

end ComponentCatalog
