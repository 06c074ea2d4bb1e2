import ComponentCatalog.Text.Utf8

/-!
# Text that was stored

The bytes of a text are read as that text, without a fault.
-/

namespace ComponentCatalog.Utf8

variable {n k m : Nat}

/-! ## Single bytes -/

theorem toNat_ofNat (hk : k < 256) : (UInt8.ofNat k).toNat = k := by
  simpa using Nat.mod_eq_of_lt hk

theorem ofNat_lt_iff (hk : k < 256) (hm : m < 256) : UInt8.ofNat k < UInt8.ofNat m ↔ k < m := by
  rw [UInt8.lt_iff_toNat_lt, toNat_ofNat hk, toNat_ofNat hm]

theorem ofNat_eq_iff (hk : k < 256) (hm : m < 256) : UInt8.ofNat k = UInt8.ofNat m ↔ k = m := by
  rw [← UInt8.toNat_inj, toNat_ofNat hk, toNat_ofNat hm]

/-- A byte that continues a character adds its six bits. -/
theorem continuation_cons {read value more : Nat} {low high : UInt8} (hm : m < 64)
    (hlow : low.toNat ≤ 0x80 + m) (hhigh : 0x80 + m ≤ high.toNat) (bytes : List UInt8) :
    continuation read value low high (more + 1) (UInt8.ofNat (0x80 + m) :: bytes) =
      continuation (read + 1) (value * 64 + m) 0x80 0xbf more bytes := by
  have hnat : (UInt8.ofNat (0x80 + m)).toNat = 0x80 + m := toNat_ofNat (by omega)
  rw [continuation, if_pos, hnat, Nat.add_sub_cancel_left]
  simp only [Bool.and_eq_true, decide_eq_true_eq, UInt8.le_iff_toNat_le, hnat]
  exact ⟨hlow, hhigh⟩

theorem continuation_tail {read value more : Nat} (hm : m < 64) (bytes : List UInt8) :
    continuation read value 0x80 0xbf (more + 1) (UInt8.ofNat (0x80 + m) :: bytes) =
      continuation (read + 1) (value * 64 + m) 0x80 0xbf more bytes :=
  continuation_cons hm (by simp) (by simp only [UInt8.reduceToNat]; omega) bytes

/-! ## First bytes -/

theorem header_ofNat (hk : k < 256) :
    header? (UInt8.ofNat k) =
      if k < 0xc2 then none
      else if k < 0xe0 then some (1, k - 0xc0, 0x80, 0xbf)
      else if k = 0xe0 then some (2, 0, 0xa0, 0xbf)
      else if k = 0xed then some (2, 0xd, 0x80, 0x9f)
      else if k < 0xf0 then some (2, k - 0xe0, 0x80, 0xbf)
      else if k = 0xf0 then some (3, 0, 0x90, 0xbf)
      else if k < 0xf4 then some (3, k - 0xf0, 0x80, 0xbf)
      else if k = 0xf4 then some (3, 4, 0x80, 0x8f)
      else none := by
  have hlt {m : Nat} (hm : m < 256) : UInt8.ofNat k < UInt8.ofNat m ↔ k < m := ofNat_lt_iff hk hm
  have heq {m : Nat} (hm : m < 256) : UInt8.ofNat k = UInt8.ofNat m ↔ k = m := ofNat_eq_iff hk hm
  have hc2 : UInt8.ofNat k < 0xc2 ↔ k < 0xc2 := hlt (by decide)
  have he0 : UInt8.ofNat k < 0xe0 ↔ k < 0xe0 := hlt (by decide)
  have he0' : UInt8.ofNat k = 0xe0 ↔ k = 0xe0 := heq (by decide)
  have hed : UInt8.ofNat k = 0xed ↔ k = 0xed := heq (by decide)
  have hf0 : UInt8.ofNat k < 0xf0 ↔ k < 0xf0 := hlt (by decide)
  have hf0' : UInt8.ofNat k = 0xf0 ↔ k = 0xf0 := heq (by decide)
  have hf4 : UInt8.ofNat k < 0xf4 ↔ k < 0xf4 := hlt (by decide)
  have hf4' : UInt8.ofNat k = 0xf4 ↔ k = 0xf4 := heq (by decide)
  simp only [header?, hc2, he0, he0', hed, hf0, hf0', hf4, hf4', toNat_ofNat hk]

theorem header_two (hlow : 0xc2 ≤ k) (hhigh : k < 0xe0) :
    header? (UInt8.ofNat k) = some (1, k - 0xc0, 0x80, 0xbf) := by
  rw [header_ofNat (by omega), if_neg (by omega), if_pos hhigh]

/-- The range of the second of three bytes keeps out overlong forms and surrogates. -/
theorem header_three (hlow : 0xe0 ≤ k) (hhigh : k < 0xf0) :
    header? (UInt8.ofNat k) =
      some (2, k - 0xe0, if k = 0xe0 then 0xa0 else 0x80, if k = 0xed then 0x9f else 0xbf) := by
  rw [header_ofNat (by omega), if_neg (by omega), if_neg (by omega)]
  by_cases he0 : k = 0xe0
  · subst he0
    rfl
  · by_cases hed : k = 0xed
    · subst hed
      rfl
    · rw [if_neg he0, if_neg hed, if_pos hhigh, if_neg he0, if_neg hed]

/-- The range of the second of four bytes keeps out overlong forms and numbers above the last code
point. -/
theorem header_four (hlow : 0xf0 ≤ k) (hhigh : k ≤ 0xf4) :
    header? (UInt8.ofNat k) =
      some (3, k - 0xf0, if k = 0xf0 then 0x90 else 0x80, if k = 0xf4 then 0x8f else 0xbf) := by
  rw [header_ofNat (by omega), if_neg (by omega), if_neg (by omega), if_neg (by omega), if_neg (by omega),
    if_neg (by omega)]
  by_cases hf0 : k = 0xf0
  · subst hf0
    rfl
  · by_cases hf4 : k = 0xf4
    · subst hf4
      rfl
    · rw [if_neg hf0, if_pos (by omega), if_neg hf0, if_neg hf4]

theorem front_ascii (hk : k < 0x80) (bytes : List UInt8) :
    front (UInt8.ofNat k) bytes = .char (Char.ofNat k) 0 := by
  have hlt : UInt8.ofNat k < 0x80 := (ofNat_lt_iff (by omega) (by decide)).2 hk
  rw [front, if_pos hlt, toNat_ofNat (by omega)]

theorem front_header {more value : Nat} {low high : UInt8} (hlow : 0x80 ≤ k) (hhigh : k < 256)
    (h : header? (UInt8.ofNat k) = some (more, value, low, high)) (bytes : List UInt8) :
    front (UInt8.ofNat k) bytes = continuation 0 value low high more bytes := by
  have hge : ¬ UInt8.ofNat k < 0x80 := fun hlt =>
    Nat.not_lt.2 hlow ((ofNat_lt_iff hhigh (by decide)).1 hlt)
  rw [front, if_neg hge, h]

/-! ## Single characters -/

theorem front_encodeChar (c : Char) :
    ∃ b tail, encodeChar c = b :: tail ∧ ∀ rest, front b (tail ++ rest) = .char c tail.length := by
  have hvalid : c.toNat < 0xd800 ∨ 0xdfff < c.toNat ∧ c.toNat < 0x110000 := c.valid
  have hchar (n : Nat) (hn : n = c.toNat) : Char.ofNat n = c := by rw [hn, Char.ofNat_toNat]
  unfold encodeChar
  generalize c.toNat = n at hvalid hchar
  simp only [Nat.pow_eq, Nat.pow_zero, Nat.pow_one, Nat.reducePow, Nat.div_one]
  split
  · refine ⟨_, [], rfl, fun rest => ?_⟩
    rw [front_ascii (by omega), hchar n rfl]
    rfl
  · split
    · refine ⟨_, [_], rfl, fun rest => ?_⟩
      rw [front_header (by omega) (by omega) (header_two (by omega) (by omega)), List.singleton_append,
        continuation_tail (by omega), continuation, hchar _ (by omega)]
      rfl
    · split
      · refine ⟨_, [_, _], rfl, fun rest => ?_⟩
        rw [front_header (by omega) (by omega) (header_three (by omega) (by omega)), List.cons_append,
          List.singleton_append, continuation_cons (by omega), continuation_tail (by omega), continuation,
          hchar _ (by omega)]
        · rfl
        · split <;> simp only [UInt8.reduceToNat] <;> omega
        · split <;> simp only [UInt8.reduceToNat] <;> omega
      · refine ⟨_, [_, _, _], rfl, fun rest => ?_⟩
        rw [front_header (by omega) (by omega) (header_four (by omega) (by omega)), List.cons_append,
          List.cons_append, List.singleton_append, continuation_cons (by omega), continuation_tail (by omega),
          continuation_tail (by omega), continuation, hchar _ (by omega)]
        · rfl
        · split <;> simp only [UInt8.reduceToNat] <;> omega
        · split <;> simp only [UInt8.reduceToNat] <;> omega

/-! ## Texts -/

theorem decodeStrictFrom_skip (position : Nat) (bytes rest : List UInt8) :
    decodeStrictFrom position bytes.length (bytes ++ rest) =
      decodeStrictFrom (position + bytes.length) 0 rest := by
  induction bytes generalizing position with
  | nil => rfl
  | cons b bytes ih =>
      rw [List.cons_append, List.length_cons, decodeStrictFrom, ih]
      congr 1
      omega

theorem decodeStrictFrom_encode (position : Nat) (t : Text) :
    decodeStrictFrom position 0 (encode t) = (t, none) := by
  induction t generalizing position with
  | nil => rfl
  | cons c t ih =>
      obtain ⟨b, tail, hchar, hfront⟩ := front_encodeChar c
      rw [encode, List.flatMap_cons, hchar, List.cons_append, decodeStrictFrom]
      simp only [hfront, decodeStrictFrom_skip]
      rw [← encode, ih]

theorem decodeStrict_encode (t : Text) : decodeStrict (encode t) = (t, none) := decodeStrictFrom_encode 0 t

end ComponentCatalog.Utf8
