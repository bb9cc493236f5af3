import NovaSniper.Strategy
import NovaSniper.Lib.Marked

/-!
The scan over the take-profit ladder, and what a tick does to the flags of the rungs.

Nothing here depends on the reading of `f64`: a rung is found when its own comparison says
so, and only a take-profit sell sets a flag.
-/

namespace NovaSniper.Ladder

open NovaSniper.FloatOps NovaSniper.Config NovaSniper.Strategy
open NovaSniper.Strategy.PositionState NovaSniper.Lib NovaSniper.Lib.Marked

variable {F : Type} [F64 F]

/-- What the scan finds is a rung of the ladder, unfired and reached, and every rung before
it is fired or not reached. -/
lemma nextRung_some {s : PositionState F} {p : F} {rung : TakeProfitRung F} {i : ℕ}
    (h : s.nextRung p = some (rung, i)) :
    s.cfg.takeProfitLadder[i]? = some rung ∧ s.firedRungs.getD i false = false ∧
      s.entryPrice * rung.multiplier ≤ p ∧
      ∀ j r, j < i → s.cfg.takeProfitLadder[j]? = some r →
        s.firedRungs.getD j false = true ∨ ¬ s.entryPrice * r.multiplier ≤ p := by
  obtain ⟨hp, k, hk, hki, hbefore⟩ := List.find?_eq_some_iff_getElem.mp h
  simp only [List.getElem_zipIdx, Nat.zero_add, Prod.mk.injEq] at hki
  obtain ⟨hrung, rfl⟩ := hki
  simp only [List.length_zipIdx] at hk
  simp only [Bool.and_eq_true, Bool.not_eq_true', decide_eq_true_eq] at hp
  refine ⟨by simp [hk, hrung], hp.1, hp.2, fun j r hj hr => ?_⟩
  have hb := hbefore j hj
  obtain ⟨hjl, rfl⟩ := List.getElem?_eq_some_iff.mp hr
  simp only [List.getElem_zipIdx, Nat.zero_add, Bool.not_and, Bool.not_not, Bool.or_eq_true,
    Bool.not_eq_true', decide_eq_false_iff_not] at hb
  exact hb

/-- Where the scan finds nothing, every rung is fired or not reached. -/
lemma nextRung_none {s : PositionState F} {p : F} (h : s.nextRung p = none) (j : ℕ)
    (r : TakeProfitRung F) (hr : s.cfg.takeProfitLadder[j]? = some r) :
    s.firedRungs.getD j false = true ∨ ¬ s.entryPrice * r.multiplier ≤ p := by
  have hmem : (r, j) ∈ s.cfg.takeProfitLadder.zipIdx := by
    rw [List.mem_zipIdx_iff_getElem?]
    exact hr
  have := List.find?_eq_none.mp h (r, j) hmem
  by_contra hc
  push Not at hc
  exact this (by simpa using hc)

/-! ### The flags along a run -/

/-- There is one flag for each rung. -/
def Flagged (s : PositionState F) : Prop :=
  s.firedRungs.length = s.cfg.takeProfitLadder.length

lemma flagged_open (e : F) (t0 : ℕ) (cfg : StrategyConfig F) :
    Flagged (openPosition e t0 cfg) := by
  simp [Flagged, openPosition]

lemma unfired_open (e : F) (t0 : ℕ) (cfg : StrategyConfig F) (i : ℕ) :
    (openPosition e t0 cfg).firedRungs.getD i false = false := by
  simp only [openPosition, List.getD, List.getElem?_replicate]
  split_ifs <;> rfl

/-- The flag of the rung the scan found. -/
lemma flag_of_nextRung {s : PositionState F} (h : Flagged s) {p : F} {rung : TakeProfitRung F}
    {i : ℕ} (hr : s.nextRung p = some (rung, i)) : s.firedRungs[i]? = some false := by
  obtain ⟨hl, hf, -, -⟩ := nextRung_some hr
  have hi : i < s.firedRungs.length := by
    rw [h]
    exact (List.getElem?_eq_some_iff.mp hl).1
  simpa [List.getD, hi] using hf

section Step

variable {s s' : PositionState F} {t : Tick F} {a : StrategyAction F}

/-- The entry data and the configuration never change. -/
lemma frame_step (h : TickCase s t a s') :
    s'.cfg = s.cfg ∧ s'.entryPrice = s.entryPrice ∧ s'.entryTsSecs = s.entryTsSecs := by
  cases h <;> exact ⟨rfl, rfl, rfl⟩

/-- The high of an open position follows the price. -/
lemma peak_step (h : TickCase s t a s') (hc : ¬ s.isClosed) : s'.peakPrice = s.peakAt t.price := by
  cases h with
  | closed hc' => exact absurd hc' hc
  | _ => rfl

lemma flagged_step (h : Flagged s) (hstep : TickCase s t a s') : Flagged s' := by
  cases hstep with
  | takeProfit rung i hc hs hr =>
    unfold Flagged at h ⊢
    simpa [sellFromRung] using h
  | _ => exact h

/-- A take-profit sell sets one more flag; nothing else sets any. -/
lemma count_step (h : Flagged s) (hstep : TickCase s t a s') :
    s'.firedRungs.count true = s.firedRungs.count true + if a.isTakeProfit then 1 else 0 := by
  cases hstep with
  | takeProfit rung i hc hs hr =>
    have := count_set (flag_of_nextRung h hr)
    simpa [sellFromRung, StrategyAction.isTakeProfit] using this
  | _ => simp [StrategyAction.isTakeProfit]

omit [F64 F] in
/-- No more rungs fire than there are. -/
lemma count_le (h : Flagged s) : s.firedRungs.count true ≤ s.cfg.takeProfitLadder.length := by
  rw [← h]
  exact List.count_le_length

end Step

/-! ### Every state of a run -/

/-- The position was opened with this entry and this configuration. -/
structure Opened (e : F) (t0 : ℕ) (cfg : StrategyConfig F) (s : PositionState F) : Prop where
  cfg_eq : s.cfg = cfg
  entry : s.entryPrice = e
  entryTs : s.entryTsSecs = t0

lemma Opened.step {e : F} {t0 : ℕ} {cfg : StrategyConfig F} {s s' : PositionState F} {t : Tick F}
    {a : StrategyAction F} (h : Opened e t0 cfg s) (hstep : TickCase s t a s') :
    Opened e t0 cfg s' := by
  obtain ⟨hcfg, he, ht0⟩ := frame_step hstep
  exact ⟨hcfg.trans h.cfg_eq, he.trans h.entry, ht0.trans h.entryTs⟩

lemma opened_after (e : F) (t0 : ℕ) (cfg : StrategyConfig F) (w : List (Tick F)) :
    Opened e t0 cfg (after e t0 cfg w) :=
  Mealy.state_inv (P := Opened e t0 cfg) (fun s t h => h.step (onTick_spec s t))
    ⟨rfl, rfl, rfl⟩ w

lemma flagged_after (e : F) (t0 : ℕ) (cfg : StrategyConfig F) (w : List (Tick F)) :
    Flagged (after e t0 cfg w) :=
  Mealy.state_inv (P := Flagged) (fun s t h => flagged_step h (onTick_spec s t))
    (flagged_open e t0 cfg) w

/-! ### A price that stays -/

lemma after_replicate_succ (e : F) (t0 : ℕ) (cfg : StrategyConfig F) (t : Tick F) (n : ℕ) :
    after e t0 cfg (List.replicate (n + 1) t) =
      ((after e t0 cfg (List.replicate n t)).onTick t).2 := by
  rw [List.replicate_succ', after, Mealy.final_append]
  rfl

/-- **A price that stays runs out of rungs.** What holds of a new position, and is kept as long
as the same tick sells rungs, still holds when it first sells none. -/
theorem exists_no_rung (e : F) (t0 : ℕ) (cfg : StrategyConfig F) (t : Tick F)
    {Q : PositionState F → Prop} (h0 : Q (openPosition e t0 cfg))
    (hkeep : ∀ n, Q (after e t0 cfg (List.replicate n t)) →
      ((after e t0 cfg (List.replicate n t)).onTick t).1.isTakeProfit = true →
        Q ((after e t0 cfg (List.replicate n t)).onTick t).2) :
    ∃ n, Q (after e t0 cfg (List.replicate n t)) ∧
      ((after e t0 cfg (List.replicate n t)).onTick t).1.isTakeProfit = false := by
  by_contra hall
  push Not at hall
  -- every tick would set one more flag
  have hcount : ∀ n, Q (after e t0 cfg (List.replicate n t)) ∧
      n ≤ (after e t0 cfg (List.replicate n t)).firedRungs.count true := by
    intro n
    induction n with
    | zero => exact ⟨h0, Nat.zero_le _⟩
    | succ n ih =>
      have hsell : ((after e t0 cfg (List.replicate n t)).onTick t).1.isTakeProfit = true := by
        simpa using hall n ih.1
      have hup := count_step (flagged_after e t0 cfg (List.replicate n t)) (onTick_spec _ t)
      rw [hsell, if_pos rfl] at hup
      rw [after_replicate_succ]
      exact ⟨hkeep n ih.1 hsell, by omega⟩
  have hover := (hcount (cfg.takeProfitLadder.length + 1)).2
  have hle := count_le (flagged_after e t0 cfg (List.replicate (cfg.takeProfitLadder.length + 1) t))
  rw [(opened_after e t0 cfg _).cfg_eq] at hle
  omega

end NovaSniper.Ladder
