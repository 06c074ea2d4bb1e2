import ComponentCatalog.Proofs.Nesting
import Mathlib.Logic.Equiv.Basic

/-!
# Brackets of each kind

A matcher tells brackets from other characters by comparing them, so it does the same on a text in which
characters are renamed. What holds of braces holds of square and round brackets in this way.
-/

namespace ComponentCatalog

variable {s t r : Text}

/-! ## Renamed characters -/

/-- The characters that quoted texts, escapes and comments are told by. -/
def lexicalMarks : Text := "'\"\x60\\/*\n"

/-- Different characters stay different, and those that quotes and comments are told by stay as they are. -/
structure KeepsMarks (f : Char → Char) : Prop where
  injective : Function.Injective f
  fixes : ∀ c ∈ lexicalMarks, f c = c

/-- The state in a renamed text: of a quoted one, the quote that ends it is renamed. -/
def Lexical.rename (f : Char → Char) : Lexical → Lexical
  | quoted quote => quoted (f quote)
  | state => state

/-- What is enclosed and what follows it, with every character renamed. -/
def Enclosed.rename (f : Char → Char) (e : Enclosed) : Enclosed :=
  ⟨e.inside.map f, e.after.map (List.map f)⟩

theorem Enclosed.rename_mk (f : Char → Char) (inside : Text) (after : Option Text) :
    rename f ⟨inside, after⟩ = ⟨inside.map f, after.map (List.map f)⟩ := rfl

theorem Enclosed.rename_prepend (f : Char → Char) (e : Enclosed) (t : Text) :
    (e.prepend t).rename f = (e.rename f).prepend (t.map f) := by
  simp [rename, prepend]

theorem Enclosed.rename_injective {f : Char → Char} (hf : Function.Injective f) :
    Function.Injective (Enclosed.rename f) := by
  rintro ⟨inside, after⟩ ⟨inside', after'⟩ h
  simp only [rename, Enclosed.mk.injEq] at h
  rw [hf.list_map h.1, Option.map_injective hf.list_map h.2]

namespace KeepsMarks

variable {f : Char → Char}

theorem eq_iff (hf : KeepsMarks f) {c m : Char} (hm : m ∈ lexicalMarks) : f c = m ↔ c = m :=
  hf.injective.eq_iff' (hf.fixes m hm)

theorem isQuote_eq (hf : KeepsMarks f) (c : Char) : isQuote (f c) = isQuote c := by
  rw [Bool.eq_iff_iff]
  simp only [isQuote, Bool.or_eq_true, beq_iff_eq]
  rw [hf.eq_iff (by decide), hf.eq_iff (by decide), hf.eq_iff (by decide)]

theorem enclosedFrom_map (hf : KeepsMarks f) (opener closer : Char) :
    ∀ (state : Lexical) (depth : Nat) (t : Text),
      enclosedFrom (f opener) (f closer) (state.rename f) depth (t.map f) =
        (enclosedFrom opener closer state depth t).rename f
  | _, _, [] => rfl
  | state, depth, [c] => by
      have hplain : state.rename f = .plain ↔ state = .plain := by cases state <;> simp [Lexical.rename]
      simp only [List.map_cons, List.map_nil, enclosedFrom, hplain, hf.injective.eq_iff]
      split_ifs <;> rfl
  | state, depth, c :: d :: t => by
      have hnext := fun state depth => enclosedFrom_map hf opener closer state depth (d :: t)
      have hskip := fun state => enclosedFrom_map hf opener closer state depth t
      have hslash := fun c => hf.eq_iff (c := c) (m := '/') (by decide)
      have hstar := fun c => hf.eq_iff (c := c) (m := '*') (by decide)
      simp only [List.map_cons] at hnext ⊢
      -- In each state the comparisons come out alike, so both matchers go the same way.
      cases state with
      | quoted quote =>
          simp only [Lexical.rename, enclosedFrom, hf.injective.eq_iff, hf.eq_iff (m := '\\') (by decide)]
          split_ifs <;> simp [Enclosed.rename_prepend, ← hnext, ← hskip, Lexical.rename]
      | lineComment =>
          simp only [Lexical.rename, enclosedFrom, hf.eq_iff (m := '\n') (by decide)]
          split_ifs <;> simp [Enclosed.rename_prepend, ← hnext, Lexical.rename]
      | blockComment =>
          simp only [Lexical.rename, enclosedFrom, hslash, hstar]
          split_ifs <;> simp [Enclosed.rename_prepend, ← hnext, ← hskip, Lexical.rename]
      | plain =>
          simp only [Lexical.rename, enclosedFrom, hf.injective.eq_iff, hf.isQuote_eq, hslash, hstar]
          split_ifs <;> simp [Enclosed.rename_prepend, ← hnext, ← hskip, Lexical.rename, Enclosed.rename_mk]

end KeepsMarks

/-! ## Kinds of brackets -/

/-- The kinds of brackets that may enclose text. -/
inductive Bracket
  | brace
  | square
  | round
deriving DecidableEq

namespace Bracket

/-- The bracket that opens. -/
def opener : Bracket → Char
  | brace => '\x7b'
  | square => '['
  | round => '('

/-- The bracket that closes. -/
def closer : Bracket → Char
  | brace => '\x7d'
  | square => ']'
  | round => ')'

/-- Braces and the brackets of kind `b` change places. -/
def exchange (b : Bracket) : Equiv.Perm Char :=
  (Equiv.swap '\x7b' b.opener).trans (Equiv.swap '\x7d' b.closer)

/-- Well nested for the brackets of kind `b`: as braces they make the text well nested. -/
def Nests (b : Bracket) (s : Text) : Prop := WellNested (s.map b.exchange)

instance (b : Bracket) (s : Text) : Decidable (b.Nests s) := inferInstanceAs (Decidable (WellNested _))

theorem exchange_opener (b : Bracket) : b.exchange b.opener = '\x7b' := by cases b <;> decide

theorem exchange_closer (b : Bracket) : b.exchange b.closer = '\x7d' := by cases b <;> decide

theorem keepsMarks_exchange (b : Bracket) : KeepsMarks b.exchange where
  injective := b.exchange.injective
  fixes := by cases b <;> exact List.all_iff_forall_prop.1 (by decide)

/-- A bracket encloses a text exactly if the text is well nested and has a closing bracket behind it. -/
theorem enclosed_iff (b : Bracket) :
    enclosed b.opener b.closer t = ⟨s, some r⟩ ↔ b.Nests s ∧ t = s ++ b.closer :: r := by
  have hf := b.keepsMarks_exchange
  have hbraces := hf.enclosedFrom_map b.opener b.closer .plain 0 t
  rw [b.exchange_opener, b.exchange_closer] at hbraces
  calc enclosed b.opener b.closer t = ⟨s, some r⟩
      ↔ enclosed '\x7b' '\x7d' (t.map b.exchange) = ⟨s.map b.exchange, some (r.map b.exchange)⟩ := by
        rw [← (Enclosed.rename_injective hf.injective).eq_iff]
        exact Eq.congr_left hbraces.symm
    _ ↔ b.Nests s ∧ t.map b.exchange = s.map b.exchange ++ '\x7d' :: r.map b.exchange := enclosed_eq_iff
    _ ↔ b.Nests s ∧ t = s ++ b.closer :: r := by
        rw [← b.exchange_closer, ← List.map_cons, ← List.map_append, hf.injective.list_map.eq_iff]

theorem Nests.enclosed_eq {b : Bracket} (h : b.Nests s) (t : Text) :
    enclosed b.opener b.closer (s ++ b.closer :: t) = ⟨s, some t⟩ :=
  b.enclosed_iff.2 ⟨h, rfl⟩

end Bracket

end ComponentCatalog
