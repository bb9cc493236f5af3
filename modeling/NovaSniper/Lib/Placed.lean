import Mathlib.Tactic

/-!
Lists in which every entry may ask for something of the entries before it.
-/

namespace NovaSniper.Lib

universe u v

variable {α : Type u} {β : Type v} {P : List α → α → Prop} {a : α} {l l' : List α}

/-- Every entry satisfies `P` with the entries before it. -/
def Placed (P : List α → α → Prop) (l : List α) : Prop := ∀ u a v, l = u ++ a :: v → P u a

namespace Placed

lemma nil : Placed P [] := by
  intro u a v h
  simp at h

lemma cons_iff : Placed P (a :: l) ↔ P [] a ∧ Placed (fun u => P (a :: u)) l := by
  refine ⟨fun h => ⟨h [] a l rfl, fun u b v huv => h (a :: u) b v (by rw [huv]; rfl)⟩, ?_⟩
  rintro ⟨ha, hl⟩ u b v huv
  cases u with
  | nil =>
    obtain ⟨rfl, -⟩ := List.cons.inj huv
    exact ha
  | cons c u =>
    obtain ⟨rfl, hrest⟩ := List.cons.inj huv
    exact hl u b v hrest

lemma append_iff : Placed P (l ++ l') ↔ Placed P l ∧ Placed (fun u => P (l ++ u)) l' := by
  induction l generalizing P with
  | nil => exact ⟨fun h => ⟨nil, h⟩, fun h => h.2⟩
  | cons a l ih =>
    rw [List.cons_append, cons_iff, cons_iff, ih, and_assoc]
    rfl

lemma concat_iff : Placed P (l ++ [a]) ↔ Placed P l ∧ P l a := by
  rw [append_iff, cons_iff, List.append_nil]
  exact and_congr_right fun _ => and_iff_left nil

/-- In a list put together from blocks, each block stands after the blocks before it. -/
lemma flatMap_iff {f : β → List α} {xs : List β} : Placed P (xs.flatMap f) ↔
    Placed (fun u x => Placed (fun w => P (u.flatMap f ++ w)) (f x)) xs := by
  induction xs generalizing P with
  | nil => exact iff_of_true nil nil
  | cons x xs ih =>
    rw [List.flatMap_cons, append_iff, cons_iff, ih]
    simp only [List.flatMap_cons, List.flatMap_nil, List.nil_append, List.append_assoc]

end Placed

end NovaSniper.Lib
