import NovaSniper.Position

/-!
What a position brings in a market that does not gap.

A tick brings its price for the part of the original position that it sells. Where no price falls
by more than a share `d` from one tick to the next, an open position cannot be sold for much less
than a level that its stops keep under it: the stop-loss threshold, and once the trailing stop is
armed the lower of the entry price and the trigger. The level never falls, and what the rungs
have brought is kept.
-/

namespace NovaSniper.Proceeds

open NovaSniper.FloatOps NovaSniper.Config NovaSniper.Strategy NovaSniper.Ladder
open NovaSniper.Position NovaSniper.Strategy.PositionState NovaSniper.Lib NovaSniper.Lib.Marked

/-- What a tick brings. -/
def gain (s : PositionState ℚ) (t : Tick ℚ) : ℚ :=
  t.price * (s.remaining - (s.onTick t).2.remaining)

/-- What a run on a new position brings, the position being one. -/
def proceeds (e : ℚ) (t0 : ℕ) (cfg : StrategyConfig ℚ) (w : List (Tick ℚ)) : ℚ :=
  Mealy.total onTick gain (openPosition e t0 cfg) w

/-- What the fired rungs bring at their targets. -/
def atTargets (s : PositionState ℚ) : ℚ :=
  ((marked s.cfg.takeProfitLadder s.firedRungs).map fun r =>
    s.entryPrice * r.multiplier * (r.sellPct / 100)).sum

/-- No price is lower than the one before it by more than a share `d` of it. -/
def Gapless (d : ℚ) (p : ℚ) (w : List (Tick ℚ)) : Prop :=
  List.IsChain (fun p q => (1 - d) * p ≤ q) (p :: w.map (·.price))

/-- The price that the stops of an open position keep under it. -/
def level (s : PositionState ℚ) : ℚ :=
  if s.entryPrice * s.cfg.trailingStopActivation ≤ s.peakPrice then
    max (s.entryPrice * s.cfg.stopLossMultiplier)
      (min s.entryPrice (s.peakPrice * (1 - s.cfg.trailingStopDrawdown)))
  else s.entryPrice * s.cfg.stopLossMultiplier

/-! ### The level -/

section Level

variable {s s' : PositionState ℚ} {t : Tick ℚ} {a : StrategyAction ℚ}

lemma peak_le_peakAt (s : PositionState ℚ) (p : ℚ) : s.peakPrice ≤ s.peakAt p := by
  unfold peakAt
  split_ifs with h
  · exact h.le
  · exact le_rfl

lemma stop_le_level (s : PositionState ℚ) :
    s.entryPrice * s.cfg.stopLossMultiplier ≤ level s := by
  unfold level
  split_ifs with harm
  · exact le_max_left _ _
  · exact le_rfl

lemma level_le_entry (hb : Bounds s.cfg) (he : 0 < s.entryPrice) : level s ≤ s.entryPrice := by
  have hstop : s.entryPrice * s.cfg.stopLossMultiplier ≤ s.entryPrice :=
    mul_le_of_le_one_right he.le hb.slLt.le
  unfold level
  split_ifs with harm
  · exact max_le hstop (min_le_left _ _)
  · exact hstop

/-- A tick that leaves the position open leaves the price above the level. -/
lemma level_le_price (hb : Bounds s.cfg) (he : 0 < s.entryPrice) (hstep : TickCase s t a s')
    (ho : ¬ s'.isClosed) : level s' ≤ t.price := by
  have hfull : ∀ {s₁ : PositionState ℚ}, s₁.remaining = 0 → s₁.isClosed := closed_of_zero
  cases hstep with
  | closed hc => exact absurd hc ho
  | stopLoss _ _ => exact absurd (hfull rfl) ho
  | trailingStop _ _ _ _ => exact absurd (hfull rfl) ho
  | maxHold _ _ _ _ _ _ _ => exact absurd (hfull rfl) ho
  | takeProfit rung i hc hs hr =>
    -- a target lies above the entry price
    obtain ⟨hl, -, hreach, -⟩ := nextRung_some hr
    have hmul : 1 < rung.multiplier := (hb.rungs rung (List.mem_of_getElem? hl)).1
    calc _ ≤ s.entryPrice := level_le_entry (s := { (s.sellFromRung rung).2 with
          peakPrice := s.peakAt t.price, firedRungs := s.firedRungs.set i true }) hb he
      _ ≤ s.entryPrice * rung.multiplier := le_mul_of_one_le_right he.le hmul.le
      _ ≤ t.price := hreach
  | hold b hc hs hr ht hh hlatch =>
    have hstop : s.entryPrice * s.cfg.stopLossMultiplier < t.price := not_le.mp hs
    unfold level
    split_ifs with harm
    · have htrail : s.peakAt t.price * (1 - s.cfg.trailingStopDrawdown) < t.price := by
        by_contra hle
        exact ht ⟨.inr harm, not_lt.mp hle⟩
      exact max_le hstop.le ((min_le_right _ _).trans htrail.le)
    · exact hstop.le

/-- The level of an open position never falls. -/
lemma level_mono (hb : Bounds s.cfg) (he : 0 < s.entryPrice) (hpk : 0 ≤ s.peakPrice)
    (hstep : TickCase s t a s') : level s ≤ level s' := by
  obtain ⟨hcfg, hentry, -⟩ := frame_step hstep
  have hpeak : s.peakPrice ≤ s'.peakPrice := by
    cases hstep with
    | closed _ => exact le_rfl
    | _ => exact peak_le_peakAt s t.price
  have hstop : 0 < s.entryPrice * s.cfg.stopLossMultiplier := mul_pos he hb.slPos
  unfold level
  rw [hcfg, hentry]
  split_ifs with harm harm' harm'
  · refine max_le (le_max_left _ _) ?_
    rcases le_total 0 (1 - s.cfg.trailingStopDrawdown) with hd | hd
    · exact le_max_of_le_right (min_le_min_left _ (mul_le_mul_of_nonneg_right hpeak hd))
    · -- the trigger is not above zero
      have htrig : s.peakPrice * (1 - s.cfg.trailingStopDrawdown) ≤ 0 :=
        mul_nonpos_of_nonneg_of_nonpos hpk hd
      exact le_max_of_le_left ((min_le_right _ _).trans (htrig.trans hstop.le))
  · exact absurd (harm.trans hpeak) harm'
  · exact le_max_left _ _
  · exact le_rfl

end Level

/-! ### What a tick brings -/

section Gain

variable {s s' : PositionState ℚ} {t : Tick ℚ} {a : StrategyAction ℚ}

/-- Nothing is bought back. -/
lemma remaining_step (hb : Bounds s.cfg) (h : Rep s) (hstep : TickCase s t a s') :
    s'.remaining ≤ s.remaining := by
  have hzero : 0 ≤ s.remaining := by
    rcases h.range with h0 | ⟨hgt, -⟩
    · exact h0.ge
    · exact epsilon_pos.le.trans hgt.le
  cases hstep with
  | closed _ => exact le_rfl
  | hold _ _ _ _ _ _ _ => exact le_rfl
  | stopLoss _ _ => exact hzero
  | trailingStop _ _ _ _ => exact hzero
  | maxHold _ _ _ _ _ _ _ => exact hzero
  | takeProfit rung i hc hs hr =>
    have hpct := (hb.rungs rung (List.mem_of_getElem? (nextRung_some hr).1)).2.1
    show (s.sellFromRung rung).2.remaining ≤ s.remaining
    rcases remaining_sellFromRung s rung with ⟨h0, -⟩ | ⟨-, heq⟩
    · rw [h0]
      exact hzero
    · rw [heq]
      linarith

/-- As long as the position stays open, a tick brings at least the targets of what it sells. -/
lemma atTargets_step (h : Rep s) (hb : Bounds s.cfg)
    (hstep : TickCase s t a s') (ho : ¬ s'.isClosed) :
    atTargets s' ≤ atTargets s + t.price * (s.remaining - s'.remaining) := by
  cases hstep with
  | closed hc => exact absurd hc ho
  | stopLoss _ _ => exact absurd (closed_of_zero rfl) ho
  | trailingStop _ _ _ _ => exact absurd (closed_of_zero rfl) ho
  | maxHold _ _ _ _ _ _ _ => exact absurd (closed_of_zero rfl) ho
  | hold b _ _ _ _ _ _ =>
    show atTargets s ≤ atTargets s + t.price * (s.remaining - s.remaining)
    rw [sub_self, mul_zero, add_zero]
  | takeProfit rung i hc hs hr =>
    obtain ⟨hl, -, hreach, -⟩ := nextRung_some hr
    have hpct : 0 < rung.sellPct := (hb.rungs rung (List.mem_of_getElem? hl)).2.1
    have hsum : atTargets { (s.sellFromRung rung).2 with
        peakPrice := s.peakAt t.price, firedRungs := s.firedRungs.set i true } =
        s.entryPrice * rung.multiplier * (rung.sellPct / 100) + atTargets s :=
      sum_marked_set (fun r : TakeProfitRung ℚ =>
        s.entryPrice * r.multiplier * (r.sellPct / 100)) hl (h.flag hr)
    rcases remaining_sellFromRung s rung with ⟨h0, -⟩ | ⟨-, heq⟩
    · exact absurd (closed_of_zero h0) ho
    · rw [hsum]
      show _ ≤ atTargets s + t.price * (s.remaining - (s.sellFromRung rung).2.remaining)
      rw [heq, sub_sub_cancel, add_comm]
      gcongr

end Gain

/-! ### Whole runs -/

section Runs

variable {cfg : StrategyConfig ℚ} {e d : ℚ} {t0 : ℕ}

/-- What is known of the state after a tick at price `p`. -/
structure Standing (cfg : StrategyConfig ℚ) (e : ℚ) (t0 : ℕ) (p : ℚ) (s : PositionState ℚ) :
    Prop where
  opened : Opened e t0 cfg s
  rep : Rep s
  peak : 0 ≤ s.peakPrice
  above : ¬ s.isClosed → level s ≤ p

lemma standing_open (hcfg : Accepted cfg) (he : 0 < e) (t0 : ℕ) :
    Standing cfg e t0 e (openPosition e t0 cfg) where
  opened := ⟨rfl, rfl, rfl⟩
  rep := rep_open e t0 cfg
  peak := he.le
  above _ := level_le_entry (s := openPosition e t0 cfg) hcfg.bounds he

lemma Standing.bounds {p : ℚ} {s : PositionState ℚ} (hcfg : Accepted cfg)
    (h : Standing cfg e t0 p s) : Bounds s.cfg := h.opened.cfg_eq ▸ hcfg.bounds

lemma Standing.entry_pos {p : ℚ} {s : PositionState ℚ} (he : 0 < e)
    (h : Standing cfg e t0 p s) : 0 < s.entryPrice := h.opened.entry ▸ he

lemma standing_step (hcfg : Accepted cfg) (he : 0 < e) {p : ℚ} {s s' : PositionState ℚ}
    {t : Tick ℚ} {a : StrategyAction ℚ} (h : Standing cfg e t0 p s)
    (hstep : TickCase s t a s') : Standing cfg e t0 t.price s' := by
  refine ⟨h.opened.step hstep, rep_step (h.bounds hcfg) h.rep hstep, ?_,
    level_le_price (h.bounds hcfg) (h.entry_pos he) hstep⟩
  cases hstep with
  | closed _ => exact h.peak
  | _ => exact h.peak.trans (peak_le_peakAt s t.price)

lemma gapless_cons {p : ℚ} {t : Tick ℚ} {w : List (Tick ℚ)} :
    Gapless d p (t :: w) ↔ (1 - d) * p ≤ t.price ∧ Gapless d t.price w := by
  unfold Gapless
  rw [List.map_cons, List.isChain_cons_cons]

lemma onTick_of_closed {s : PositionState ℚ} (hc : s.isClosed) (t : Tick ℚ) :
    (s.onTick t).2 = s := by
  unfold onTick
  rw [if_pos hc]

/-- After a run there is a last price, which the prices to come follow without a gap. -/
lemma exists_standing (hcfg : Accepted cfg) (he : 0 < e) {p : ℚ} {s : PositionState ℚ}
    (h : Standing cfg e t0 p s) {u v : List (Tick ℚ)} (hgap : Gapless d p (u ++ v)) :
    ∃ q, Standing cfg e t0 q (Mealy.final onTick s u) ∧ Gapless d q v := by
  induction u generalizing p s with
  | nil => exact ⟨p, h, hgap⟩
  | cons t u ih =>
    obtain ⟨-, hrest⟩ := gapless_cons.mp hgap
    exact ih (standing_step hcfg he h (onTick_spec s t)) hrest

/-- **From a state on.** What is sold later is sold at no less than the level less a gap. -/
lemma sold_above (hcfg : Accepted cfg) (he : 0 < e) (hd : d ≤ 1) {p : ℚ} {s : PositionState ℚ}
    (h : Standing cfg e t0 p s) {v : List (Tick ℚ)} (hgap : Gapless d p v) :
    (1 - d) * level s * s.remaining ≤
      Mealy.total onTick gain s v + (1 - d) * level s * (Mealy.final onTick s v).remaining := by
  have hshare : 0 ≤ 1 - d := sub_nonneg.mpr hd
  set low := (1 - d) * level s with hlow
  refine Mealy.le_total (V := fun s => low * s.remaining)
    (J := fun s v => ∃ p, Standing cfg e t0 p s ∧ Gapless d p v ∧
      (¬ s.isClosed → low ≤ (1 - d) * level s)) ?_ ⟨p, h, hgap, fun _ => hlow.le⟩
  rintro s t w ⟨p, hs, hw, hle⟩
  obtain ⟨hprice, hrest⟩ := gapless_cons.mp hw
  have hstep := onTick_spec s t
  have hdrop := remaining_step (hs.bounds hcfg) hs.rep hstep
  refine ⟨?_, t.price, standing_step hcfg he hs hstep, hrest, fun ho => ?_⟩
  · by_cases hc : s.isClosed
    · rw [gain, onTick_of_closed hc, sub_self, mul_zero, zero_add]
    · have hsold : low ≤ t.price := calc
        low ≤ (1 - d) * level s := hle hc
        _ ≤ (1 - d) * p := mul_le_mul_of_nonneg_left (hs.above hc) hshare
        _ ≤ t.price := hprice
      calc low * s.remaining
          = low * (s.remaining - (s.onTick t).2.remaining) + low * (s.onTick t).2.remaining := by
            ring
        _ ≤ gain s t + low * (s.onTick t).2.remaining := by
            unfold gain
            gcongr
  · -- a position that is open was open before
    have hc : ¬ s.isClosed := fun hc => ho (by rwa [onTick_of_closed hc])
    exact (hle hc).trans (mul_le_mul_of_nonneg_left
      (level_mono (hs.bounds hcfg) (hs.entry_pos he) hs.peak hstep) hshare)

/-- While the position is open, the fired rungs have brought at least their targets. -/
lemma atTargets_le (hcfg : Accepted cfg) (e : ℚ) (t0 : ℕ) (u : List (Tick ℚ))
    (ho : ¬ (after e t0 cfg u).isClosed) :
    atTargets (after e t0 cfg u) ≤ proceeds e t0 cfg u := by
  induction u using List.reverseRecOn with
  | nil => simp [after, atTargets, openPosition, marked_replicate, proceeds]
  | append_singleton u t ih =>
    have hlast : after e t0 cfg (u ++ [t]) = ((after e t0 cfg u).onTick t).2 :=
      Mealy.final_append onTick _ u [t]
    rw [hlast] at ho ⊢
    have hc : ¬ (after e t0 cfg u).isClosed := fun hc => ho (by rwa [onTick_of_closed hc])
    have hopened := opened_after e t0 cfg u
    have hbounds : Bounds (after e t0 cfg u).cfg := hopened.cfg_eq.symm ▸ hcfg.bounds
    have hstep := atTargets_step (ran hcfg e t0 u).rep hbounds
      (onTick_spec (after e t0 cfg u) t) ho
    have hmore : proceeds e t0 cfg (u ++ [t]) =
        proceeds e t0 cfg u + gain (after e t0 cfg u) t := by
      unfold proceeds
      rw [Mealy.total_append, Mealy.total_cons, Mealy.total_nil, add_zero]
      rfl
    calc atTargets ((after e t0 cfg u).onTick t).2
        ≤ atTargets (after e t0 cfg u) + gain (after e t0 cfg u) t := hstep
      _ ≤ proceeds e t0 cfg u + gain (after e t0 cfg u) t := by
        gcongr
        exact ih hc
      _ = proceeds e t0 cfg (u ++ [t]) := hmore.symm

/-- **What a position brings.** Let no price of a run be lower than the one before it, the entry
price first, by more than a share `d` of it. Then from any point on at which the position is open,
the run brings in all at least the targets of the rungs fired so far, and for whatever it sells
from there the level of that point less a share `d`; and the level is never under the stop-loss
threshold. In particular a position that ends closed has lost no more than the stop-loss and one
gap allow. -/
theorem proceeds_floor (hcfg : Accepted cfg) (he : 0 < e) (t0 : ℕ) (hd : d ≤ 1)
    (u v : List (Tick ℚ)) (hgap : Gapless d e (u ++ v))
    (ho : ¬ (after e t0 cfg u).isClosed) :
    let s := after e t0 cfg u
    let s' := after e t0 cfg (u ++ v)
    atTargets s + (1 - d) * level s * (s.remaining - s'.remaining) ≤
        proceeds e t0 cfg (u ++ v) ∧
      e * cfg.stopLossMultiplier ≤ level s := by
  intro s s'
  have hopened : Opened e t0 cfg s := opened_after e t0 cfg u
  refine ⟨?_, ?_⟩
  · obtain ⟨p, hs, hv⟩ := exists_standing hcfg he (standing_open hcfg he t0) hgap
    have hrungs := atTargets_le hcfg e t0 u ho
    have hrest := sold_above hcfg he hd hs hv
    have hsplit : proceeds e t0 cfg (u ++ v) =
        proceeds e t0 cfg u + Mealy.total onTick gain s v := Mealy.total_append onTick _ u v
    have hlast : Mealy.final onTick s v = s' := (Mealy.final_append onTick _ u v).symm
    rw [hsplit]
    have hle : (1 - d) * level s * s.remaining ≤
        Mealy.total onTick gain s v + (1 - d) * level s * s'.remaining := hlast ▸ hrest
    linarith
  · have hle := stop_le_level s
    rwa [hopened.entry, hopened.cfg_eq] at hle

/-- Two rungs are sold at 2.1 and 5, and the rest in the fall to 3, of which no tick takes more
than two fifths. -/
theorem proceeds_floor_example :
    proceeds 1 0 exampleConfig.strategy
        [⟨21 / 10, 1⟩, ⟨5, 2⟩, ⟨3, 3⟩] = 333 / 100 ∧
      atTargets (after 1 0 exampleConfig.strategy [⟨21 / 10, 1⟩, ⟨5, 2⟩]) +
          (1 - 2 / 5) * level (after 1 0 exampleConfig.strategy [⟨21 / 10, 1⟩, ⟨5, 2⟩]) *
            ((after 1 0 exampleConfig.strategy [⟨21 / 10, 1⟩, ⟨5, 2⟩]).remaining -
              (after 1 0 exampleConfig.strategy
                ([⟨21 / 10, 1⟩, ⟨5, 2⟩] ++ [⟨3, 3⟩])).remaining) ≤
        proceeds 1 0 exampleConfig.strategy ([⟨21 / 10, 1⟩, ⟨5, 2⟩] ++ [⟨3, 3⟩]) :=
  ⟨by decide +kernel,
    (proceeds_floor accepted_example one_pos 0 (by norm_num) [⟨21 / 10, 1⟩, ⟨5, 2⟩] [⟨3, 3⟩]
      (by norm_num [Gapless]) (by decide +kernel)).1⟩

end Runs

end NovaSniper.Proceeds
