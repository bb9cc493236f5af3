import Mathlib.Tactic
import Mathlib.Data.Rat.Floor
import NovaSniper.Lib.Unordered

/-!
What the source asks of its `f64`.

The source is translated once, over any type with these operations. The exact rationals
are one such reading of `f64`; the rationals with an unordered value are another, since every
test of the source is a comparison that the reading itself decides.
-/

namespace NovaSniper.FloatOps

open NovaSniper.Lib

/-- A reading of `f64`: arithmetic, comparisons that are decided one by one, literals, and
`x.round() as u64`. -/
class F64 (F : Type) extends Zero F, One F, Add F, Sub F, Mul F, Div F, LT F, LE F where
  decLt : DecidableLT F
  decLe : DecidableLE F
  lit : ℚ → F
  roundU64 : F → ℕ

attribute [reducible, instance] F64.decLt F64.decLe

export F64 (lit roundU64)

variable {F : Type} [F64 F]

/-- `f64::EPSILON`. -/
def EPSILON : F := lit (1 / 2 ^ 52)

/-- `f64::min`: an argument that does not compare with itself gives way to the other. -/
def fmin (a b : F) : F := if a < b ∨ ¬ b ≤ b then a else b

/-- `f64::max`. -/
def fmax (a b : F) : F := if b < a ∨ ¬ b ≤ b then a else b

/-- `Iterator::sum`. -/
def fsum (xs : List F) : F := xs.foldl (· + ·) 0

/-- A piece of a formatted text: a literal part, or a float with the number of decimals
its placeholder asks for. -/
inductive Piece (F : Type)
  | text (s : String)
  | float (x : F) (precision : Option ℕ)
  deriving DecidableEq

/-- A formatted text, its floats not yet rendered. -/
abbrev Msg (F : Type) := List (Piece F)

/-- A text without placeholders for floats. -/
def plain (s : String) : Msg F := [.text s]

/-! ### The exact reading -/

/-- Halves away from zero, then the saturating cast. -/
def roundRat (q : ℚ) : ℕ := min (q + 1 / 2).floor.toNat (2 ^ 64 - 1)

instance : F64 ℚ where
  decLt := inferInstance
  decLe := inferInstance
  lit q := q
  roundU64 := roundRat

@[simp] lemma lit_rat (q : ℚ) : (lit q : ℚ) = q := rfl

/-- The tolerance of the source, as a number. -/
lemma epsilon_rat : (EPSILON : ℚ) = 1 / 2 ^ 52 := rfl

lemma epsilon_pos : (0 : ℚ) < EPSILON := by norm_num [epsilon_rat]

lemma epsilon_lt_one : (EPSILON : ℚ) < 1 := by norm_num [epsilon_rat]

@[simp] lemma fmin_rat (a b : ℚ) : fmin a b = min a b := by
  unfold fmin
  split_ifs with h
  · simp only [le_refl, not_true_eq_false, or_false] at h
    exact (min_eq_left h.le).symm
  · simp only [le_refl, not_true_eq_false, or_false, not_lt] at h
    exact (min_eq_right h).symm

@[simp] lemma fmax_rat (a b : ℚ) : fmax a b = max a b := by
  unfold fmax
  split_ifs with h
  · simp only [le_refl, not_true_eq_false, or_false] at h
    exact (max_eq_left h.le).symm
  · simp only [le_refl, not_true_eq_false, or_false, not_lt] at h
    exact (max_eq_right h).symm

@[simp] lemma fsum_rat (xs : List ℚ) : fsum xs = xs.sum := List.sum_eq_foldl.symm

example : roundU64 ((1 / 1000 : ℚ) * 1000000000) = 1000000 := by decide +kernel

/-! ### The reading with an unordered value -/

/-- NaN casts to zero. -/
def roundUnordered : Unordered ℚ → ℕ
  | .value q => roundRat q
  | .nan => 0

instance : F64 (Unordered ℚ) where
  decLt := inferInstance
  decLe := inferInstance
  lit q := .value q
  roundU64 := roundUnordered

lemma fsum_ne_nan (xs : List (Unordered ℚ)) : fsum xs ≠ .nan ↔ ∀ x ∈ xs, x ≠ .nan := by
  have hzero : (0 : Unordered ℚ) ≠ .nan := nofun
  exact (Unordered.foldl_add_ne_nan xs 0).trans (and_iff_right hzero)

example : fmin (Unordered.nan : Unordered ℚ) 1 = 1 ∧ fmax (0 : Unordered ℚ) .nan = 0 := by
  decide +kernel

end NovaSniper.FloatOps
