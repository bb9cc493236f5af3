import Mathlib.Tactic

/-!
A type with one more value that is ordered with nothing, itself included.

Every comparison with it is false, and an operation that meets it gives it back. Two facts
follow that a program which tests by comparing has to reckon with: a comparison that fails
does not make the opposite one true, and one such value in a sum is the whole sum.
-/

namespace NovaSniper.Lib

inductive Unordered (α : Type*)
  | value (x : α)
  | nan
  deriving DecidableEq

namespace Unordered

variable {α : Type*}

/-- A relation on the values, and false where one side is none. -/
def rel (r : α → α → Prop) : Unordered α → Unordered α → Prop
  | value x, value y => r x y
  | _, _ => False

/-- An operation on the values, and no value where one side is none. -/
def lift (f : α → α → α) : Unordered α → Unordered α → Unordered α
  | value x, value y => value (f x y)
  | _, _ => nan

instance [LT α] : LT (Unordered α) := ⟨rel (· < ·)⟩
instance [LE α] : LE (Unordered α) := ⟨rel (· ≤ ·)⟩
instance [Zero α] : Zero (Unordered α) := ⟨value 0⟩
instance [One α] : One (Unordered α) := ⟨value 1⟩
instance [Add α] : Add (Unordered α) := ⟨lift (· + ·)⟩
instance [Sub α] : Sub (Unordered α) := ⟨lift (· - ·)⟩
instance [Mul α] : Mul (Unordered α) := ⟨lift (· * ·)⟩

/-- Division by zero has no value. -/
def quot [Div α] [Zero α] [DecidableEq α] : Unordered α → Unordered α → Unordered α
  | value x, value y => if y = 0 then nan else value (x / y)
  | _, _ => nan

instance [Div α] [Zero α] [DecidableEq α] : Div (Unordered α) := ⟨quot⟩

instance decidableRel (r : α → α → Prop) [DecidableRel r] : DecidableRel (rel r)
  | value x, value y => inferInstanceAs (Decidable (r x y))
  | value _, nan => isFalse id
  | nan, value _ => isFalse id
  | nan, nan => isFalse id

instance [LT α] [DecidableLT α] : DecidableLT (Unordered α) := decidableRel (· < ·)
instance [LE α] [DecidableLE α] : DecidableLE (Unordered α) := decidableRel (· ≤ ·)

@[simp] lemma value_lt_value [LT α] {x y : α} : value x < value y ↔ x < y := Iff.rfl
@[simp] lemma value_le_value [LE α] {x y : α} : value x ≤ value y ↔ x ≤ y := Iff.rfl
@[simp] lemma not_nan_lt [LT α] (b : Unordered α) : ¬ nan < b := by cases b <;> exact id
@[simp] lemma not_lt_nan [LT α] (a : Unordered α) : ¬ a < nan := by cases a <;> exact id
@[simp] lemma not_le_nan [LE α] (a : Unordered α) : ¬ a ≤ nan := by cases a <;> exact id

@[simp] lemma value_add [Add α] (x y : α) : value x + value y = value (x + y) := rfl

lemma exists_value {a : Unordered α} : a ≠ nan ↔ ∃ x, a = value x := by
  cases a with
  | value x => simp
  | nan => simp

lemma ne_nan_of_lt [LT α] {a b : Unordered α} (h : a < b) : a ≠ nan ∧ b ≠ nan := by
  refine ⟨?_, ?_⟩
  · rintro rfl
    exact not_nan_lt b h
  · rintro rfl
    exact not_lt_nan a h

/-- A sum has a value exactly when all of its parts do. -/
lemma add_ne_nan [Add α] {a b : Unordered α} : a + b ≠ nan ↔ a ≠ nan ∧ b ≠ nan := by
  cases a with
  | nan =>
    cases b with
    | nan => simp [HAdd.hAdd, Add.add, lift]
    | value y => simp [HAdd.hAdd, Add.add, lift]
  | value x =>
    cases b with
    | nan => simp [HAdd.hAdd, Add.add, lift]
    | value y => simp

/-- **One value that is none poisons a sum**, and nothing else does. -/
theorem foldl_add_ne_nan [Add α] (xs : List (Unordered α)) (a : Unordered α) :
    xs.foldl (· + ·) a ≠ nan ↔ a ≠ nan ∧ ∀ x ∈ xs, x ≠ nan := by
  induction xs generalizing a with
  | nil => simp
  | cons x xs ih =>
    rw [List.foldl_cons, ih, add_ne_nan, List.forall_mem_cons, and_assoc]

section Linear

variable [LinearOrder α] {a b : Unordered α}

/-- Between values, and only there, one of the two comparisons holds. -/
theorem lt_of_not_le (ha : a ≠ nan) (hb : b ≠ nan) (h : ¬ a ≤ b) : b < a := by
  obtain ⟨x, rfl⟩ := exists_value.mp ha
  obtain ⟨y, rfl⟩ := exists_value.mp hb
  rw [value_le_value] at h
  rw [value_lt_value]
  exact not_le.mp h

theorem le_of_not_lt (ha : a ≠ nan) (hb : b ≠ nan) (h : ¬ a < b) : b ≤ a := by
  obtain ⟨x, rfl⟩ := exists_value.mp ha
  obtain ⟨y, rfl⟩ := exists_value.mp hb
  rw [value_lt_value] at h
  rw [value_le_value]
  exact not_lt.mp h

end Linear

end Unordered

end NovaSniper.Lib
