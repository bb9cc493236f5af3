import NovaSniper.RungOrder

/-!
Whether the trailing stop waits for the price to fall.

The trigger is the high less a part of it, and validation does not look at that part: a
drawdown of nothing, or a negative one, puts the trigger at or above the high itself. Then
only rungs that have sold everything can keep the stop from selling on a rise.
-/

namespace NovaSniper.TrailingStop

open NovaSniper.FloatOps NovaSniper.Config NovaSniper.Strategy NovaSniper.Ladder
open NovaSniper.Position NovaSniper.ExitPolicy NovaSniper.Drain NovaSniper.RungOrder
open NovaSniper.Strategy.PositionState NovaSniper.Lib NovaSniper.Lib.Marked

/-- In every run of positive prices, a tick with a trailing-stop sell is under the high. -/
def OnDrawdown (cfg : StrategyConfig ℚ) : Prop :=
  ∀ (e : ℚ) (t0 : ℕ) (w : List (Tick ℚ)) (t : Tick ℚ) (f : ℚ), 0 < e →
    (∀ x ∈ w ++ [t], 0 < x.price) →
      ((after e t0 cfg w).onTick t).1 = .sell f .trailingStop →
        t.price < high e ((w ++ [t]).map (·.price))

/-- The rungs that are reached when the stop is armed sell the position down to the
tolerance. -/
def SoldByActivation (cfg : StrategyConfig ℚ) : Prop :=
  1 - partOf (cfg.takeProfitLadder.filter fun r =>
    decide (r.multiplier ≤ cfg.trailingStopActivation)) ≤ EPSILON

lemma rungsBefore_length (cfg : StrategyConfig ℚ) (m : ℚ) :
    rungsBefore cfg cfg.takeProfitLadder.length m =
      cfg.takeProfitLadder.filter fun r => decide (r.multiplier ≤ m) := by
  rw [rungsBefore, List.take_length]

lemma le_high (e : ℚ) (prices : List ℚ) : e ≤ high e prices := by
  induction prices using List.reverseRecOn with
  | nil => exact le_rfl
  | append_singleton prices p ih =>
    rw [high_append]
    exact le_max_of_le_left ih

/-- What a trailing-stop sell tells of the state before it. -/
lemma trailHit_of_sell {s s' : PositionState ℚ} {t : Tick ℚ} {f : ℚ}
    (hstep : TickCase s t (.sell f .trailingStop) s') :
    ¬ s.isClosed ∧ s.nextRung t.price = none ∧ s.TrailHit t := by
  generalize ha : StrategyAction.sell f .trailingStop = a at hstep
  cases hstep with
  | trailingStop hc _ hr ht => exact ⟨hc, hr, ht⟩
  | takeProfit rung i _ _ _ => cases ha
  | stopLoss _ _ => cases ha
  | maxHold _ _ _ _ _ _ _ => cases ha
  | hold _ _ _ _ _ _ _ => cases ha
  | closed _ => cases ha

/-! ### Where the stop waits -/

variable {cfg : StrategyConfig ℚ}

lemma onDrawdown_of (hcfg : Accepted cfg)
    (h : 0 < cfg.trailingStopDrawdown ∨ SoldByActivation cfg) : OnDrawdown cfg := by
  intro e t0 w t f he _ hsell
  have htr := tracks hcfg e t0 w
  have hstep := onTick_spec (after e t0 cfg w) t
  rw [hsell] at hstep
  obtain ⟨hc, hr, harmed, htrig⟩ := trailHit_of_sell hstep
  rw [htr.armed_iff, htr.high_eq hc] at harmed
  rw [htr.high_eq hc, htr.cfg_eq] at htrig
  rw [List.map_append, List.map_singleton]
  set M := high e (w.map (·.price) ++ [t.price])
  have hM : 0 < M := he.trans_le (le_high e _)
  by_contra hlt
  push Not at hlt
  rcases h with hd | hsold
  · have hbelow : M * (1 - cfg.trailingStopDrawdown) < M := by nlinarith
    linarith
  · -- every rung reached at the activation is reached now, so it has fired
    have hpart : partOf (rungsBefore cfg cfg.takeProfitLadder.length cfg.trailingStopActivation) ≤
        sold (after e t0 cfg w) := by
      refine le_sold hcfg.bounds htr.cfg_eq fun k x _ hx hle => ?_
      have hreach : e * x.multiplier ≤ t.price :=
        (mul_le_mul_of_nonneg_left hle he.le).trans (harmed.trans hlt)
      refine (nextRung_none hr k x (by rw [htr.cfg_eq]; exact hx)).resolve_right ?_
      rw [htr.entry]
      exact not_not_intro hreach
    rw [rungsBefore_length] at hpart
    have hopen := (htr.rep.open_range hc).1
    rw [htr.rep.left hc] at hopen
    unfold SoldByActivation at hsold
    linarith

/-! ### A rise that the stop sells on -/

/-- The activation price of a position entered at 1, or the entry price if that is higher. -/
def tickAtActivation (cfg : StrategyConfig ℚ) : Tick ℚ := ⟨max 1 cfg.trailingStopActivation, 0⟩

/-- A position entered at 1 that has risen to that price at most. -/
structure Rising (cfg : StrategyConfig ℚ) (s : PositionState ℚ) : Prop where
  opened : Opened 1 0 cfg s
  rep : Rep s
  isOpen : ¬ s.isClosed
  fired : FiredBelow cfg.takeProfitLadder.length cfg.trailingStopActivation s
  peak : s.peakPrice ≤ (tickAtActivation cfg).price

lemma rising_open (cfg : StrategyConfig ℚ) : Rising cfg (openPosition 1 0 cfg) where
  opened := ⟨rfl, rfl, rfl⟩
  rep := rep_open 1 0 cfg
  isOpen := open_iff.mpr epsilon_lt_one
  fired := firedBelow_open _ _ 1 0 cfg
  peak := le_max_left _ _

/-- Where the activation is reached and nothing need be lost from the high, the stop is hit. -/
lemma trailHit_at (hd : cfg.trailingStopDrawdown ≤ 0) {s : PositionState ℚ} (h : Rising cfg s) :
    s.TrailHit (tickAtActivation cfg) := by
  have hpeak : s.peakAt (tickAtActivation cfg).price = (tickAtActivation cfg).price := by
    rw [peakAt_eq]
    exact max_eq_right h.peak
  have hpos : 0 < (tickAtActivation cfg).price := one_pos.trans_le (le_max_left _ _)
  refine ⟨.inr ?_, ?_⟩
  · rw [hpeak, h.opened.entry, h.opened.cfg_eq, one_mul]
    exact le_max_right _ _
  · rw [hpeak, h.opened.cfg_eq]
    nlinarith

/-- A tick there that sells a rung leaves the position open, and its high at that price. -/
lemma rising_step (hb : Bounds cfg) (hleft : ¬ SoldByActivation cfg) {s s' : PositionState ℚ}
    {a : StrategyAction ℚ} (h : Rising cfg s) (hstep : TickCase s (tickAtActivation cfg) a s')
    (ha : a.isTakeProfit = true) : Rising cfg s' := by
  have hopened := h.opened.step hstep
  have hrep : Rep s' := rep_step (h.opened.cfg_eq ▸ hb) h.rep hstep
  have hbelow : FiredBelow cfg.takeProfitLadder.length cfg.trailingStopActivation s' := by
    refine firedBelow_step h.rep.flags h.fired hstep fun rung k hr => ?_
    obtain ⟨hl, -, hreach, -⟩ := nextRung_some hr
    rw [h.opened.cfg_eq] at hl
    rw [h.opened.entry, one_mul] at hreach
    have hm := (hb.rungs rung (List.mem_of_getElem? hl)).1
    exact ⟨(List.getElem?_eq_some_iff.mp hl).1,
      (le_max_iff.mp hreach).resolve_left (not_le.mpr hm)⟩
  have hsold := sold_le hb hopened.cfg_eq hrep.flags hbelow
  rw [rungsBefore_length] at hsold
  unfold SoldByActivation at hleft
  have hopen : ¬ s'.isClosed := open_of_takeProfit h.rep hstep ha (by linarith)
  refine ⟨hopened, hrep, hopen, hbelow, ?_⟩
  rw [peak_step hstep h.isOpen, peakAt_eq]
  exact max_le h.peak le_rfl

/-- With no drawdown to wait for, a tick there that sells no rung is a trailing stop. -/
lemma trailingStop_of_rising (hb : Bounds cfg) (hd : cfg.trailingStopDrawdown ≤ 0)
    {s s' : PositionState ℚ} {a : StrategyAction ℚ} (h : Rising cfg s)
    (hstep : TickCase s (tickAtActivation cfg) a s') (ha : a.isTakeProfit = false) :
    a = .sell s.remaining .trailingStop := by
  have hsl : 1 * cfg.stopLossMultiplier < (tickAtActivation cfg).price := by
    have hone : 1 ≤ (tickAtActivation cfg).price := le_max_left _ _
    linarith [hb.slLt]
  have hhit := trailHit_at hd h
  cases hstep with
  | trailingStop _ _ _ _ => rfl
  | takeProfit rung i _ _ _ => cases ha
  | closed hc => exact absurd hc h.isOpen
  | stopLoss _ hs => exact absurd hs (not_stopHit h.opened hsl le_rfl)
  | maxHold _ _ _ _ ht _ _ => exact absurd hhit ht
  | hold _ _ _ _ ht _ _ => exact absurd hhit ht

/-- At a price that stays, the stop sells at the high. -/
lemma not_onDrawdown_of (hcfg : Accepted cfg) (hd : cfg.trailingStopDrawdown ≤ 0)
    (hleft : ¬ SoldByActivation cfg) : ¬ OnDrawdown cfg := by
  intro hdown
  set t := tickAtActivation cfg with ht
  obtain ⟨n, hrise, hnone⟩ := exists_no_rung 1 0 cfg t (rising_open cfg)
    fun n hrise hsell => rising_step hcfg.bounds hleft hrise (onTick_spec _ t) hsell
  have hsell := trailingStop_of_rising hcfg.bounds hd hrise (onTick_spec _ t) hnone
  have hpos : ∀ x ∈ List.replicate n t ++ [t], 0 < x.price := by
    intro x hx
    rw [← List.replicate_succ'] at hx
    rw [List.eq_of_mem_replicate hx]
    exact one_pos.trans_le (le_max_left _ _)
  have hunder := hdown 1 0 (List.replicate n t) t _ one_pos hpos hsell
  rw [List.map_append, List.map_singleton, ← (tracks hcfg 1 0 _).high_eq hrise.isOpen,
    peakAt_eq] at hunder
  exact absurd hunder (not_lt.mpr (max_le hrise.peak le_rfl))

/-- **When the trailing stop waits for a fall.** Of every accepted configuration: a
trailing-stop sell comes under the high of the run, in every run of positive prices, if and
only if the drawdown is positive or the rungs up to the activation sell the whole position. -/
theorem onDrawdown_iff (hcfg : Accepted cfg) :
    OnDrawdown cfg ↔ 0 < cfg.trailingStopDrawdown ∨ SoldByActivation cfg := by
  refine ⟨fun h => ?_, onDrawdown_of hcfg⟩
  by_contra hne
  push Not at hne
  exact not_onDrawdown_of hcfg hne.1 hne.2 h

/-- The trailing stop of the example, a third under a high of 6. -/
theorem onDrawdown_iff_example :
    (39 / 10 : ℚ) < high 1 ([⟨6, 1⟩, ⟨6, 2⟩, ⟨39 / 10, 3⟩].map Tick.price) :=
  (onDrawdown_iff accepted_example).mpr (.inl (by decide +kernel)) 1 0 [⟨6, 1⟩, ⟨6, 2⟩]
    ⟨39 / 10, 3⟩ (2 / 5) one_pos (by decide +kernel) (by decide +kernel)

/-- The example with a drawdown of nothing. -/
def noDrawdown : StrategyConfig ℚ :=
  { exampleConfig.strategy with trailingStopDrawdown := 0 }

/-- Validation accepts it, and the second of two ticks at the high sells everything. -/
theorem noDrawdown_sells_at_high :
    Accepted noDrawdown ∧
      ((after 1 0 noDrawdown [⟨2, 1⟩]).onTick ⟨3, 2⟩).1 = .sell (7 / 10) .trailingStop ∧
      high 1 ([⟨2, 1⟩, ⟨3, 2⟩].map Tick.price) = 3 ∧ ¬ OnDrawdown noDrawdown := by
  have hacc : Accepted noDrawdown :=
    ⟨{ exampleConfig with strategy := noDrawdown }, rfl, by decide +kernel⟩
  have hsell : ((after 1 0 noDrawdown [⟨2, 1⟩]).onTick ⟨3, 2⟩).1 =
      .sell (7 / 10) .trailingStop := by decide +kernel
  have hhigh : high 1 ([⟨2, 1⟩, ⟨3, 2⟩].map Tick.price) = 3 := by decide +kernel
  refine ⟨hacc, hsell, hhigh, fun h => ?_⟩
  have hunder := h 1 0 [⟨2, 1⟩] ⟨3, 2⟩ (7 / 10) one_pos (by decide +kernel) hsell
  exact absurd hunder (by decide +kernel)

end NovaSniper.TrailingStop
