import NovaSniper.ExitPolicy

/-!
A price that stays up sells every rung it has reached.

One rung fires at a tick, so a gap over several targets is worked off by the ticks after
it. Each of these sets one more flag, and there are only as many flags as rungs.
-/

namespace NovaSniper.Drain

open NovaSniper.FloatOps NovaSniper.Config NovaSniper.Strategy NovaSniper.Ladder
open NovaSniper.ExitPolicy NovaSniper.Strategy.PositionState NovaSniper.Lib
open NovaSniper.Lib.Marked

/-- Some rung whose target the price has reached is still unfired. -/
def Due (s : PositionState ℚ) (p : ℚ) : Prop :=
  ∃ i r, s.cfg.takeProfitLadder[i]? = some r ∧ s.firedRungs.getD i false = false ∧
    s.entryPrice * r.multiplier ≤ p

lemma Due.mono {s : PositionState ℚ} {p q : ℚ} (h : Due s p) (hpq : p ≤ q) : Due s q := by
  obtain ⟨i, r, hl, hf, hreach⟩ := h
  exact ⟨i, r, hl, hf, hreach.trans hpq⟩

/-- No rung is due once all have fired. -/
lemma not_due_of_count {s : PositionState ℚ} (h : Flagged s) {p : ℚ}
    (hall : s.cfg.takeProfitLadder.length ≤ s.firedRungs.count true) : ¬ Due s p := by
  rintro ⟨i, r, hl, hf, -⟩
  have hcount : s.firedRungs.count true = s.firedRungs.length :=
    le_antisymm List.count_le_length (h.trans_le hall)
  have hi : i < s.firedRungs.length := by
    rw [h]
    exact (List.getElem?_eq_some_iff.mp hl).1
  have htrue : true = s.firedRungs[i] :=
    List.count_eq_length.mp hcount _ (List.getElem_mem hi)
  simp [List.getD, hi, ← htrue] at hf

/-! ### One tick -/

section Step

variable {s s' : PositionState ℚ} {t : Tick ℚ} {a : StrategyAction ℚ}

/-- A rung that is due comes before every exit but the stop loss. -/
lemma takeProfit_of_due (hstep : TickCase s t a s') (hc : ¬ s.isClosed) (hs : ¬ s.StopHit t)
    (hd : Due s t.price) : a.isTakeProfit = true := by
  have hfound : s.nextRung t.price ≠ none := by
    intro hr
    obtain ⟨i, r, hl, hf, hreach⟩ := hd
    rcases nextRung_none hr i r hl with hfired | hnot
    · rw [hf] at hfired
      cases hfired
    · exact hnot hreach
  cases hstep with
  | closed hc' => exact absurd hc' hc
  | stopLoss _ hs' => exact absurd hs' hs
  | takeProfit rung i _ _ _ => rfl
  | trailingStop _ _ hr _ => exact absurd hr hfound
  | maxHold _ _ _ hr _ _ _ => exact absurd hr hfound
  | hold _ _ _ hr _ _ _ => exact absurd hr hfound

lemma fired_step (h : Flagged s) (hstep : TickCase s t a s') {i : ℕ}
    (hf : s.firedRungs.getD i false = true) : s'.firedRungs.getD i false = true := by
  cases hstep with
  | takeProfit rung j _ _ hr => exact (getD_set (flag_of_nextRung h hr) i).mpr (.inl hf)
  | _ => exact hf

lemma closed_step (hstep : TickCase s t a s') (hc : s.isClosed) : s'.isClosed := by
  cases hstep with
  | closed _ => exact hc
  | _ => contradiction

/-- What is no longer due never is again. -/
lemma not_due_step (h : Flagged s) (hstep : TickCase s t a s') {p : ℚ} (hd : ¬ Due s p) :
    ¬ Due s' p := by
  rintro ⟨i, r, hl, hf, hreach⟩
  obtain ⟨hcfg, he, -⟩ := frame_step hstep
  rw [hcfg] at hl
  rw [he] at hreach
  refine hd ⟨i, r, hl, ?_, hreach⟩
  by_contra hne
  have hfired := fired_step h hstep (i := i) (by simpa using hne)
  rw [hf] at hfired
  cases hfired

/-- A tick is seen to fire a rung exactly when it sets that rung's flag. -/
lemma observe_flags (h : Flagged s) (hstep : TickCase s t a s') :
    (∃ i, observe s (a, s') = .takeProfit i ∧ s.firedRungs[i]? = some false ∧
      s'.firedRungs = s.firedRungs.set i true) ∨
    ((observe s (a, s')).rung? = none ∧ s'.firedRungs = s.firedRungs) := by
  cases hstep with
  | takeProfit rung i _ _ hr =>
    have hflag := flag_of_nextRung h hr
    exact .inl ⟨i, congrArg _ (firstDiff_set hflag), hflag, rfl⟩
  | _ => exact .inr ⟨rfl, rfl⟩

end Step

/-! ### Runs -/

/-- How often each rung has fired, read off its flag. -/
def Counted (ds : List Decision) (s : PositionState ℚ) : Prop :=
  ∀ i, ds.count (.takeProfit i) = if s.firedRungs.getD i false = true then 1 else 0

lemma counted_step {ds : List Decision} {s s' : PositionState ℚ} {t : Tick ℚ}
    {a : StrategyAction ℚ} (h : Flagged s) (hd : Counted ds s) (hstep : TickCase s t a s') :
    Counted (ds ++ [observe s (a, s')]) s' := by
  intro j
  rw [List.count_append, hd j]
  rcases observe_flags h hstep with ⟨i, hi, hflag, hs'⟩ | ⟨hnone, hs'⟩
  · rw [hi, hs']
    simp only [getD_set hflag]
    by_cases hj : j = i
    · subst hj
      simp [List.getD, hflag]
    · have hne : ¬ i = j := fun h => hj h.symm
      simp [hj, hne]
  · have hne : observe s (a, s') ≠ .takeProfit j := by
      intro heq
      rw [heq] at hnone
      cases hnone
    rw [hs']
    simp [hne]

/-- **A rung never fires twice.** Along every run each rung has fired as often as its flag
says. -/
theorem counted (e : ℚ) (t0 : ℕ) (cfg : StrategyConfig ℚ) (w : List (Tick ℚ)) :
    Counted (decisions e t0 cfg w) (after e t0 cfg w) := by
  have h0 : Flagged (openPosition e t0 cfg) ∧ Counted [] (openPosition e t0 cfg) := by
    refine ⟨flagged_open e t0 cfg, fun i => ?_⟩
    rw [unfired_open]
    rfl
  refine (Mealy.history_inv (H := fun _ ds s => Flagged s ∧ Counted ds s) ?_ h0 w).2
  intro _ ds s t h
  have hstep := onTick_spec s t
  exact ⟨flagged_step h.1 hstep, counted_step h.1 h.2 hstep⟩

section Sustained

variable {cfg : StrategyConfig ℚ} {e p : ℚ} {t0 : ℕ}

lemma not_stopHit {s : PositionState ℚ} (hs : Opened e t0 cfg s)
    (hstop : e * cfg.stopLossMultiplier < p) {t : Tick ℚ} (ht : p ≤ t.price) : ¬ s.StopHit t := by
  unfold StopHit
  rw [hs.entry, hs.cfg_eq]
  exact not_le.mpr (hstop.trans_le ht)

/-- Ticks at or above a price that stops no loss drain the rungs it reaches, one each. -/
lemma drains (hstop : e * cfg.stopLossMultiplier < p) {s : PositionState ℚ}
    (hs : Flagged s ∧ Opened e t0 cfg s) {v : List (Tick ℚ)} (hv : ∀ t ∈ v, p ≤ t.price) :
    ((Mealy.final onTick s v).isClosed ∨ ¬ Due (Mealy.final onTick s v) p) ∨
      s.firedRungs.count true + v.length ≤ (Mealy.final onTick s v).firedRungs.count true := by
  have hkeep : ∀ s t, Flagged s ∧ Opened e t0 cfg s →
      Flagged (onTick s t).2 ∧ Opened e t0 cfg (onTick s t).2 := fun s t h =>
    ⟨flagged_step h.1 (onTick_spec s t), h.2.step (onTick_spec s t)⟩
  have hdone : ∀ s t, Flagged s ∧ Opened e t0 cfg s → s.isClosed ∨ ¬ Due s p →
      (onTick s t).2.isClosed ∨ ¬ Due (onTick s t).2 p := fun s t h hd =>
    hd.imp (closed_step (onTick_spec s t)) (not_due_step h.1 (onTick_spec s t))
  refine Mealy.progress (fun s => s.firedRungs.count true) hkeep hdone ?_ hs v hv
  intro s t h ht hd
  push Not at hd
  have hsell : (s.onTick t).1.isTakeProfit = true :=
    takeProfit_of_due (onTick_spec s t) hd.1 (not_stopHit h.2 hstop ht) (hd.2.mono ht)
  have hcount := count_step h.1 (onTick_spec s t)
  rw [hsell] at hcount
  exact hcount.ge

end Sustained

/-- **A sustained price drains the ladder.** After any run, let the prices stay at or above a
price that is over the stop loss, for as many ticks as there are rungs. Each of these ticks
that finds the position open and a reached rung unfired sells a rung; and at their end the
position is closed or every rung the price reaches has fired, exactly once in the whole run. -/
theorem sustained_price (cfg : StrategyConfig ℚ) (e p : ℚ) (t0 : ℕ) (w v : List (Tick ℚ))
    (hstop : e * cfg.stopLossMultiplier < p) (hv : ∀ t ∈ v, p ≤ t.price)
    (hlen : v.length = cfg.takeProfitLadder.length) :
    (∀ u t rest, v = u ++ t :: rest →
      ¬ (after e t0 cfg (w ++ u)).isClosed → Due (after e t0 cfg (w ++ u)) p →
        ((after e t0 cfg (w ++ u)).onTick t).1.isTakeProfit = true) ∧
    ((after e t0 cfg (w ++ v)).isClosed ∨
      ∀ i r, cfg.takeProfitLadder[i]? = some r → e * r.multiplier ≤ p →
        (decisions e t0 cfg (w ++ v)).count (.takeProfit i) = 1) := by
  refine ⟨?_, ?_⟩
  · intro u t rest huv hc hd
    have ht : p ≤ t.price := hv t (by simp [huv])
    exact takeProfit_of_due (onTick_spec _ t) hc
      (not_stopHit (opened_after e t0 cfg (w ++ u)) hstop ht) (hd.mono ht)
  · have hfin := opened_after e t0 cfg (w ++ v)
    have hflag := flagged_after e t0 cfg (w ++ v)
    have hdrain := drains hstop ⟨flagged_after e t0 cfg w, opened_after e t0 cfg w⟩ hv
    have happ : Mealy.final onTick (after e t0 cfg w) v = after e t0 cfg (w ++ v) :=
      (Mealy.final_append onTick _ w v).symm
    rw [happ] at hdrain
    have hdone : (after e t0 cfg (w ++ v)).isClosed ∨ ¬ Due (after e t0 cfg (w ++ v)) p := by
      refine hdrain.elim id fun hle => .inr (not_due_of_count hflag ?_)
      rw [hfin.cfg_eq]
      omega
    refine hdone.imp_right fun hnot i r hl hreach => ?_
    rw [counted e t0 cfg (w ++ v) i, if_pos]
    by_contra hf
    refine hnot ⟨i, r, ?_, by simpa using hf, ?_⟩
    · rw [hfin.cfg_eq]
      exact hl
    · rw [hfin.entry]
      exact hreach

/-- A gap over two targets, and a third tick that finds nothing more to sell. -/
theorem sustained_price_example :
    (decisions 1 0 exampleConfig.strategy [⟨6, 1⟩, ⟨7, 2⟩, ⟨6, 3⟩]).count (.takeProfit 1) = 1 :=
  ((sustained_price exampleConfig.strategy 1 6 0 [] [⟨6, 1⟩, ⟨7, 2⟩, ⟨6, 3⟩] (by decide +kernel)
    (by decide +kernel) rfl).2.resolve_left (by decide +kernel)) 1 ⟨5, 30⟩ rfl (by decide +kernel)

end NovaSniper.Drain
