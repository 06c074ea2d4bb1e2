import ComponentCatalog.Similarity.Distance
import Mathlib.Order.Bounds.Defs

/-!
# Shortest edits

The edit distance of two texts is the length of a shortest sequence of edits of single characters that
makes one of them the other.
-/

namespace ComponentCatalog

variable {a b : Text} {x c : Char}

/-! ## The rows as a recursion -/

namespace Distance

theorem nextRow_cons (c x : Char) (a : Text) (here : Nat) (below : List Nat) :
    nextRow c (x :: a) (here :: below) =
      (if x = c then below.headD 0 else 1 + min (below.headD 0) (min here ((nextRow c a below).headD 0))) ::
        nextRow c a below := rfl

theorem row_cons (x : Char) (a b : Text) : row (x :: a) b = distance (x :: a) b :: row a b := by
  induction b with
  | nil => rfl
  | cons c b ih =>
      show nextRow c (x :: a) (row (x :: a) b) = (nextRow c (x :: a) (row (x :: a) b)).headD 0 :: _
      rw [ih, nextRow_cons]
      rfl

end Distance

theorem distance_nil (a : Text) : distance a [] = a.length := by cases a <;> rfl

theorem nil_distance (b : Text) : distance [] b = b.length := by
  induction b with
  | nil => rfl
  | cons c b ih => exact congrArg (· + 1) ih

/-- Equal characters need no edit; of different ones, one is replaced, inserted or deleted. -/
theorem distance_cons_cons (x c : Char) (a b : Text) :
    distance (x :: a) (c :: b) =
      if x = c then distance a b else 1 + min (distance a b) (min (distance (x :: a) b) (distance a (c :: b))) := by
  show (Distance.nextRow c (x :: a) (Distance.row (x :: a) b)).headD 0 = _
  rw [Distance.row_cons, Distance.nextRow_cons]
  rfl

theorem distance_comm (a b : Text) : distance a b = distance b a := by
  induction a generalizing b with
  | nil => rw [nil_distance, distance_nil]
  | cons x a iha =>
      induction b with
      | nil => rw [nil_distance, distance_nil]
      | cons c b ihb =>
          rw [distance_cons_cons, distance_cons_cons, iha b, iha (c :: b), ihb]
          by_cases h : x = c
          · rw [if_pos h, if_pos h.symm]
          · rw [if_neg h, if_neg (Ne.symm h), Nat.min_comm (distance (c :: b) a)]

/-! ## One character more or less -/

/-- One character more in one of the texts makes the distance larger or smaller by at most one. -/
theorem distance_cons_le_and_le (a : Text) :
    (∀ c b, distance a b ≤ distance a (c :: b) + 1) ∧ ∀ x b, distance (x :: a) b ≤ distance a b + 1 := by
  -- Each half needs the other one for the text that is shorter by a character, so both go through one induction.
  have hleft : ∀ a : Text, (∀ c b, distance a b ≤ distance a (c :: b) + 1) →
      ∀ x b, distance (x :: a) b ≤ distance a b + 1 := by
    intro a hright x b
    cases b with
    | nil => simp [distance_nil]
    | cons c b =>
        rw [distance_cons_cons]
        have := hright c b
        split <;> omega
  induction a with
  | nil =>
      have hright : ∀ c b, distance [] b ≤ distance [] (c :: b) + 1 := by
        intro c b
        simp only [nil_distance, List.length_cons]
        omega
      exact ⟨hright, hleft [] hright⟩
  | cons x a ih =>
      have hright : ∀ c b, distance (x :: a) b ≤ distance (x :: a) (c :: b) + 1 := by
        intro c b
        rw [distance_cons_cons]
        have := ih.1 c b
        have := ih.2 x b
        split <;> omega
      exact ⟨hright, hleft (x :: a) hright⟩

theorem distance_cons_le (x : Char) (a b : Text) : distance (x :: a) b ≤ distance a b + 1 :=
  (distance_cons_le_and_le a).2 x b

theorem distance_le_distance_cons (a : Text) (c : Char) (b : Text) : distance a b ≤ distance a (c :: b) + 1 :=
  (distance_cons_le_and_le a).1 c b

theorem distance_le_cons_distance (x : Char) (a b : Text) : distance a b ≤ distance (x :: a) b + 1 := by
  rw [distance_comm a, distance_comm (x :: a)]
  exact distance_le_distance_cons b x a

/-- A common match is never worse than an edit. -/
theorem distance_le_cons_cons (x c : Char) (a b : Text) : distance a b ≤ distance (x :: a) (c :: b) := by
  rw [distance_cons_cons]
  have := distance_le_cons_distance x a b
  have := distance_le_distance_cons a c b
  split <;> omega

theorem distance_cons_cons_le (x c : Char) (a b : Text) : distance (x :: a) (c :: b) ≤ distance a b + 1 := by
  rw [distance_cons_cons]
  split <;> omega

/-! ## Edits -/

/-- An edit of a single character makes one text another. -/
inductive EditsTo : Text → Text → Prop
  | insert (before : Text) (c : Char) (after : Text) : EditsTo (before ++ after) (before ++ c :: after)
  | delete (before : Text) (c : Char) (after : Text) : EditsTo (before ++ c :: after) (before ++ after)
  | replace (before : Text) (c d : Char) (after : Text) :
      EditsTo (before ++ c :: after) (before ++ d :: after)

/-- So many edits, one after the other, make one text another. -/
inductive EditSequence : Nat → Text → Text → Prop
  | done (a : Text) : EditSequence 0 a a
  | edit {n : Nat} {a mid b : Text} : EditsTo a mid → EditSequence n mid b → EditSequence (n + 1) a b

theorem EditsTo.cons (x : Char) (h : EditsTo a b) : EditsTo (x :: a) (x :: b) := by
  cases h with
  | insert before c after => exact .insert (x :: before) c after
  | delete before c after => exact .delete (x :: before) c after
  | replace before c d after => exact .replace (x :: before) c d after

theorem EditSequence.cons {n : Nat} (x : Char) (h : EditSequence n a b) : EditSequence n (x :: a) (x :: b) := by
  induction h with
  | done a => exact .done (x :: a)
  | edit hedit _ ih => exact .edit (hedit.cons x) ih

theorem editSequence_distance (a b : Text) : EditSequence (distance a b) a b := by
  induction a generalizing b with
  | nil =>
      induction b with
      | nil => exact .done []
      | cons c b ih =>
          rw [nil_distance] at ih ⊢
          exact .edit (.insert [] c []) (ih.cons c)
  | cons x a iha =>
      induction b with
      | nil =>
          have ha := iha []
          rw [distance_nil] at ha ⊢
          exact .edit (.delete [] x a) ha
      | cons c b ihb =>
          by_cases hxc : x = c
          · subst hxc
            rw [distance_cons_cons, if_pos rfl]
            exact (iha b).cons x
          · have hcons := distance_cons_cons x c a b
            rw [if_neg hxc] at hcons
            obtain h | h | h : distance (x :: a) (c :: b) = distance a b + 1 ∨
                distance (x :: a) (c :: b) = distance (x :: a) b + 1 ∨
                distance (x :: a) (c :: b) = distance a (c :: b) + 1 := by omega
            · rw [h]
              exact .edit (.replace [] x c a) ((iha b).cons c)
            · rw [h]
              exact .edit (.insert [] c (x :: a)) (ihb.cons c)
            · rw [h]
              exact .edit (.delete [] x a) (iha (c :: b))

/-! ## No sequence is shorter -/

/-- Texts whose distances to all others differ by one at most keep this behind a common character. -/
theorem distance_cons_le_of_le {a' : Text} (h : ∀ b, distance a b ≤ distance a' b + 1) (x : Char) (b : Text) :
    distance (x :: a) b ≤ distance (x :: a') b + 1 := by
  induction b with
  | nil =>
      have := h []
      simp only [distance_nil, List.length_cons] at this ⊢
      omega
  | cons c b ih =>
      rw [distance_cons_cons, distance_cons_cons]
      have := h b
      have := h (c :: b)
      split <;> omega

theorem distance_append_le_of_le {a' : Text} (h : ∀ b, distance a b ≤ distance a' b + 1) (before b : Text) :
    distance (before ++ a) b ≤ distance (before ++ a') b + 1 := by
  induction before generalizing b with
  | nil => exact h b
  | cons x before ih => exact distance_cons_le_of_le ih x b

theorem distance_replace_le (c d : Char) (a b : Text) : distance (c :: a) b ≤ distance (d :: a) b + 1 := by
  cases b with
  | nil => simp [distance_nil]
  | cons e b =>
      calc distance (c :: a) (e :: b) ≤ distance a b + 1 := distance_cons_cons_le c e a b
        _ ≤ distance (d :: a) (e :: b) + 1 := Nat.succ_le_succ (distance_le_cons_cons d e a b)

/-- An edit brings a text nearer to another by one at most. -/
theorem EditsTo.distance_le {mid : Text} (h : EditsTo a mid) (b : Text) : distance a b ≤ distance mid b + 1 := by
  cases h with
  | insert before c after => exact distance_append_le_of_le (distance_le_cons_distance c after) before b
  | delete before c after => exact distance_append_le_of_le (distance_cons_le c after) before b
  | replace before c d after => exact distance_append_le_of_le (distance_replace_le c d after) before b

theorem distance_self (a : Text) : distance a a = 0 := by
  induction a with
  | nil => rfl
  | cons x a ih => rw [distance_cons_cons, if_pos rfl, ih]

theorem EditSequence.distance_le {n : Nat} (h : EditSequence n a b) : distance a b ≤ n := by
  induction h with
  | done a => exact Nat.le_of_eq (distance_self a)
  | edit hedit _ ih => exact Nat.le_trans (hedit.distance_le _) (Nat.succ_le_succ ih)

/-- The distance is the least number of edits. -/
theorem distance_isLeast (a b : Text) : IsLeast {n | EditSequence n a b} (distance a b) :=
  ⟨editSequence_distance a b, fun _ h => h.distance_le⟩

example : distance "kitten" "sitting" = 3 := by decide

end ComponentCatalog
