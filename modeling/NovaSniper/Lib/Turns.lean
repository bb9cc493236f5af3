import Mathlib.Data.Int.CardIntervalMod
import Mathlib.Tactic

/-!
Taking turns: the numbers below `n` one after another, over and over.
-/

namespace NovaSniper.Lib.Turns

/-- The first `k` turns. -/
def turns (n k : ℕ) : List ℕ := (List.range k).map (· % n)

@[simp] lemma length_turns (n k : ℕ) : (turns n k).length = k := by simp [turns]

lemma turns_succ (n k : ℕ) : turns n (k + 1) = turns n k ++ [k % n] := by
  simp [turns, List.range_succ]

/-- The turns from the `a`-th on. -/
lemma take_drop_turns {n k a m : ℕ} (h : a + m ≤ k) :
    ((turns n k).drop a).take m = (List.range' a m).map (· % n) := by
  refine List.ext_getElem ?_ ?_
  · simp
    omega
  · intro x hx hx'
    simp [turns]

/-- **A round is fair.** Any `n` turns in a row are those of each number once. -/
theorem perm_of_window {n k : ℕ} {u w v : List ℕ} (h : turns n k = u ++ w ++ v)
    (hw : w.length = n) : w.Perm (List.range n) := by
  have hlen : u.length + n ≤ k := by
    have := congrArg List.length h
    simp only [length_turns, List.length_append] at this
    omega
  have hwin : ((turns n k).drop u.length).take n = w := by
    rw [h, List.append_assoc, List.drop_left, ← hw, List.take_left]
  rw [← hwin, take_drop_turns hlen]
  have hico : Multiset.Ico u.length (u.length + n) =
      ↑(List.range' u.length (u.length + n - u.length)) := rfl
  have hmod := Nat.multiset_Ico_map_mod u.length n
  rw [hico, Nat.add_sub_cancel_left, Multiset.map_coe] at hmod
  exact Multiset.coe_eq_coe.mp hmod

lemma count_turns {n : ℕ} (hn : 0 < n) (k : ℕ) {i : ℕ} (hi : i < n) :
    (turns n k).count i = k / n + if i < k % n then 1 else 0 := by
  have hcount := Nat.count_modEq_card k hn i
  rw [Nat.mod_eq_of_lt hi] at hcount
  rw [← hcount]
  unfold turns Nat.count
  rw [List.count_eq_countP, List.countP_map]
  refine List.countP_congr ?_
  intro x _
  simp [Nat.ModEq, Nat.mod_eq_of_lt hi]

/-- **Turns are even.** Two numbers differ by one turn at most. -/
theorem count_turns_le {n : ℕ} (k : ℕ) {i j : ℕ} (hi : i < n) (hj : j < n) :
    (turns n k).count i ≤ (turns n k).count j + 1 := by
  have hn : 0 < n := by omega
  rw [count_turns hn k hi, count_turns hn k hj]
  split_ifs <;> omega

end NovaSniper.Lib.Turns
