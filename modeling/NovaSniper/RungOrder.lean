import NovaSniper.Drain

/-!
In which order the rungs of a ladder fire.

The scan goes by the position of a rung in the configuration, and validation asks for no
order there. A price that jumps over a rung and over a later one of lower multiplier fires the
higher of the two first, unless the rungs before them have sold the position by then.
-/

namespace NovaSniper.RungOrder

open NovaSniper.FloatOps NovaSniper.Config NovaSniper.Strategy NovaSniper.Ladder
open NovaSniper.Position NovaSniper.Drain NovaSniper.Strategy.PositionState NovaSniper.Lib
open NovaSniper.Lib.Marked

/-- The rungs before position `i` with multiplier at most `m`. -/
def rungsBefore (cfg : StrategyConfig ℚ) (i : ℕ) (m : ℚ) : List (TakeProfitRung ℚ) :=
  (cfg.takeProfitLadder.take i).filter fun r => decide (r.multiplier ≤ m)

/-- The fired rungs are among the first `i`, and of multiplier at most `m`. -/
def FiredBelow (i : ℕ) (m : ℚ) (s : PositionState ℚ) : Prop :=
  ∀ k x, s.cfg.takeProfitLadder[k]? = some x → s.firedRungs.getD k false = true →
    k < i ∧ x.multiplier ≤ m

lemma firedBelow_open (i : ℕ) (m e : ℚ) (t0 : ℕ) (cfg : StrategyConfig ℚ) :
    FiredBelow i m (openPosition e t0 cfg) := by
  intro k x _ hf
  rw [unfired_open] at hf
  cases hf

/-- A tick keeps this if the rung it would fire is one of these. -/
lemma firedBelow_step {i : ℕ} {m : ℚ} {s s' : PositionState ℚ} {t : Tick ℚ}
    {a : StrategyAction ℚ} (hs : Flagged s) (h : FiredBelow i m s) (hstep : TickCase s t a s')
    (hnext : ∀ rung k, s.nextRung t.price = some (rung, k) → k < i ∧ rung.multiplier ≤ m) :
    FiredBelow i m s' := by
  cases hstep with
  | takeProfit rung k _ _ hr =>
    intro j x hx hf
    change s.cfg.takeProfitLadder[j]? = some x at hx
    rcases (getD_set (flag_of_nextRung hs hr) j).mp hf with hf | rfl
    · exact h j x hx hf
    · obtain rfl : rung = x := Option.some.inj ((nextRung_some hr).1.symm.trans hx)
      exact hnext rung j hr
  | _ => exact h

lemma sold_le {cfg : StrategyConfig ℚ} (hb : Bounds cfg) {s : PositionState ℚ} (hcfg : s.cfg = cfg)
    (hs : Flagged s) {i : ℕ} {m : ℚ} (h : FiredBelow i m s) :
    sold s ≤ partOf (rungsBefore cfg i m) := by
  subst hcfg
  have hfirst : marked s.cfg.takeProfitLadder s.firedRungs =
      marked (s.cfg.takeProfitLadder.take i) s.firedRungs := by
    refine marked_take fun k hk => ?_
    have hlt : k < s.cfg.takeProfitLadder.length := by
      rw [← hs]
      by_contra hge
      simp [List.getD, not_lt.mp hge] at hk
    exact (h k _ (List.getElem?_eq_getElem hlt) hk).1
  rw [sold_eq_partOf, hfirst]
  refine partOf_le (marked_sublist_filter fun k x hk hf => ?_) fun r hr => ?_
  · rw [List.getElem?_take] at hk
    split_ifs at hk with hki
    exact decide_eq_true (h k x hk hf).2
  · have hmem : r ∈ s.cfg.takeProfitLadder := List.mem_of_mem_take (List.mem_of_mem_filter hr)
    exact (hb.rungs r hmem).2.1

lemma le_sold {cfg : StrategyConfig ℚ} (hb : Bounds cfg) {s : PositionState ℚ} (hcfg : s.cfg = cfg)
    {i : ℕ} {m : ℚ}
    (h : ∀ k x, k < i → cfg.takeProfitLadder[k]? = some x → x.multiplier ≤ m →
      s.firedRungs.getD k false = true) : partOf (rungsBefore cfg i m) ≤ sold s := by
  have hfired : (rungsBefore cfg i m).Sublist
      (marked (cfg.takeProfitLadder.take i) s.firedRungs) := by
    refine filter_sublist_marked fun k x hk hle => ?_
    rw [List.getElem?_take] at hk
    split_ifs at hk with hki
    exact h k x hki hk (of_decide_eq_true hle)
  rw [sold_eq_partOf, hcfg]
  refine partOf_le (hfired.trans (marked_take_sublist _ _ i)) fun r hr => ?_
  exact (hb.rungs r ((marked_sublist _ _).subset hr)).2.1

/-! ### A ladder without inversions -/

section Step

variable {cfg : StrategyConfig ℚ} {s s' : PositionState ℚ} {t : Tick ℚ} {a : StrategyAction ℚ}

end Step

section Inversion

variable {cfg : StrategyConfig ℚ} {i : ℕ} {r : TakeProfitRung ℚ}

end Inversion

end NovaSniper.RungOrder
