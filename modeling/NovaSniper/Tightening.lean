import NovaSniper.Proceeds

/-!
What tightening an exit does.

A higher stop-loss, a smaller drawdown, an earlier activation or a shorter holding time can only
close a position sooner, and until then nothing changes at all: not the rungs that are sold, nor
when, nor what is left.
-/

namespace NovaSniper.Tightening

open NovaSniper.FloatOps NovaSniper.Config NovaSniper.Strategy NovaSniper.Position
open NovaSniper.Strategy.PositionState NovaSniper.Proceeds NovaSniper.Lib

/-- The exits of the second configuration are at least as tight, and its ladder is the same. -/
structure Tighter (cfg cfg' : StrategyConfig ℚ) : Prop where
  ladder : cfg'.takeProfitLadder = cfg.takeProfitLadder
  stopLoss : cfg.stopLossMultiplier ≤ cfg'.stopLossMultiplier
  drawdown : cfg'.trailingStopDrawdown ≤ cfg.trailingStopDrawdown
  activation : cfg'.trailingStopActivation ≤ cfg.trailingStopActivation
  maxHold : cfg'.maxHoldSeconds ≤ cfg.maxHoldSeconds

/-- Two positions of which the second has the tighter exits, and that agree apart from them. The
latch of the second may be set earlier. -/
structure Abreast (s s' : PositionState ℚ) : Prop where
  tighter : Tighter s.cfg s'.cfg
  entry : s'.entryPrice = s.entryPrice
  entryTs : s'.entryTsSecs = s.entryTsSecs
  entry_nonneg : 0 ≤ s.entryPrice
  peak : s'.peakPrice = s.peakPrice
  high : s.entryPrice ≤ s.peakPrice
  remaining : s'.remaining = s.remaining
  fired : s'.firedRungs = s.firedRungs
  latch : s.trailingArmed = true → s'.trailingArmed = true

/-! ### The tests -/

section Tests

variable {s s' : PositionState ℚ} (h : Abreast s s') {t : Tick ℚ}

include h

lemma Abreast.closed_iff : s'.isClosed ↔ s.isClosed := by
  unfold isClosed
  rw [h.remaining]

lemma Abreast.nextRung (p : ℚ) : s'.nextRung p = s.nextRung p := by
  unfold PositionState.nextRung
  rw [h.tighter.ladder, h.fired, h.entry]

lemma Abreast.peakAt (p : ℚ) : s'.peakAt p = s.peakAt p := by
  unfold PositionState.peakAt
  rw [h.peak]

lemma Abreast.high_at (p : ℚ) : s.entryPrice ≤ s.peakAt p := h.high.trans (peak_le_peakAt s p)

lemma Abreast.stopHit (hs : s.StopHit t) : s'.StopHit t := by
  unfold StopHit at hs ⊢
  rw [h.entry]
  exact hs.trans (mul_le_mul_of_nonneg_left h.tighter.stopLoss h.entry_nonneg)

lemma Abreast.armed (hs : s.Armed t) : s'.Armed t := by
  rcases hs with hlatch | hact
  · exact .inl (h.latch hlatch)
  · right
    rw [h.entry, h.peakAt]
    exact (mul_le_mul_of_nonneg_left h.tighter.activation h.entry_nonneg).trans hact

lemma Abreast.trailHit (hs : s.TrailHit t) : s'.TrailHit t := by
  obtain ⟨harmed, hprice⟩ := hs
  refine ⟨h.armed harmed, ?_⟩
  rw [h.peakAt]
  have hpeak : 0 ≤ s.peakAt t.price := h.entry_nonneg.trans (h.high_at t.price)
  have hshare : 1 - s.cfg.trailingStopDrawdown ≤ 1 - s'.cfg.trailingStopDrawdown :=
    sub_le_sub_left h.tighter.drawdown 1
  exact hprice.trans (mul_le_mul_of_nonneg_left hshare hpeak)

lemma Abreast.holdOver (hs : s.HoldOver t) : s'.HoldOver t := by
  unfold HoldOver at hs ⊢
  rw [h.entryTs]
  exact h.tighter.maxHold.trans hs

end Tests

/-! ### A tick -/

section Step

variable {s s' s₁ s₁' : PositionState ℚ} {t : Tick ℚ} {a a' : StrategyAction ℚ}

/-- After a tick that neither position closes on, they still agree. -/
lemma Abreast.hold (h : Abreast s s') {b b' : Bool} (hb : b = true ↔ s.Armed t)
    (hb' : b' = true ↔ s'.Armed t) :
    Abreast { s with peakPrice := s.peakAt t.price, trailingArmed := b }
      { s' with peakPrice := s'.peakAt t.price, trailingArmed := b' } where
  tighter := h.tighter
  entry := h.entry
  entryTs := h.entryTs
  entry_nonneg := h.entry_nonneg
  peak := h.peakAt t.price
  high := h.high_at t.price
  remaining := h.remaining
  fired := h.fired
  latch hlatch := hb'.mpr (h.armed (hb.mp hlatch))

/-- Nor does a rung that both sell part them. -/
lemma Abreast.sell (h : Abreast s s') (rung : TakeProfitRung ℚ) (i : ℕ) (p : ℚ) :
    Abreast
      { (s.sellFromRung rung).2 with
        peakPrice := s.peakAt p, firedRungs := s.firedRungs.set i true }
      { (s'.sellFromRung rung).2 with
        peakPrice := s'.peakAt p, firedRungs := s'.firedRungs.set i true } where
  tighter := h.tighter
  entry := h.entry
  entryTs := h.entryTs
  entry_nonneg := h.entry_nonneg
  peak := h.peakAt p
  high := h.high_at p
  remaining := by simp only [sellFromRung, h.remaining]
  fired := by rw [h.fired]
  latch := h.latch

/-- **One tick.** Either both positions do the same, or the tighter one is closed after it. -/
lemma abreast_step (h : Abreast s s') (hstep : TickCase s t a s₁)
    (hstep' : TickCase s' t a' s₁') : (a' = a ∧ Abreast s₁ s₁') ∨ s₁'.isClosed := by
  cases hstep' with
  | closed hc' => exact .inr hc'
  | stopLoss hc' hs' => exact .inr (closed_of_zero rfl)
  | trailingStop hc' hs' hr' ht' => exact .inr (closed_of_zero rfl)
  | maxHold b' hc' hs' hr' ht' hh' hb' => exact .inr (closed_of_zero rfl)
  | takeProfit rung i hc' hs' hr' =>
    left
    rw [h.nextRung] at hr'
    cases hstep with
    | closed hc => exact absurd (h.closed_iff.mpr hc) hc'
    | stopLoss hc hs => exact absurd (h.stopHit hs) hs'
    | takeProfit rung₀ i₀ hc hs hr =>
      rw [hr] at hr'
      obtain ⟨rfl, rfl⟩ := Prod.mk.inj (Option.some.inj hr')
      refine ⟨?_, h.sell rung₀ i₀ t.price⟩
      simp only [sellFromRung, h.remaining]
    | trailingStop hc hs hr ht => cases hr.symm.trans hr'
    | maxHold b hc hs hr ht hh hb => cases hr.symm.trans hr'
    | hold b hc hs hr ht hh hb => cases hr.symm.trans hr'
  | hold b' hc' hs' hr' ht' hh' hb' =>
    left
    rw [h.nextRung] at hr'
    cases hstep with
    | closed hc => exact absurd (h.closed_iff.mpr hc) hc'
    | stopLoss hc hs => exact absurd (h.stopHit hs) hs'
    | takeProfit rung i hc hs hr => cases hr.symm.trans hr'
    | trailingStop hc hs hr ht => exact absurd (h.trailHit ht) ht'
    | maxHold b hc hs hr ht hh hb => exact absurd (h.holdOver hh) hh'
    | hold b hc hs hr ht hh hb => exact ⟨rfl, h.hold hb hb'⟩

end Step

/-! ### A run -/

variable {cfg cfg' : StrategyConfig ℚ} {e : ℚ}

lemma abreast_open (ht : Tighter cfg cfg') (he : 0 ≤ e) (t0 : ℕ) :
    Abreast (openPosition e t0 cfg) (openPosition e t0 cfg') where
  tighter := ht
  entry := rfl
  entryTs := rfl
  entry_nonneg := he
  peak := rfl
  high := le_rfl
  remaining := rfl
  fired := by simp only [openPosition, ht.ladder]
  latch := id

/-- **Tightening an exit only closes a position sooner.** On the same ticks, at any prices and any
clock: a position that is closed is also closed with tighter exits; and as long as the one with the
tighter exits is open, both have done the same at every tick and have the same part left. -/
theorem tighter_closes_sooner (ht : Tighter cfg cfg') (he : 0 ≤ e) (t0 : ℕ)
    (w : List (Tick ℚ)) :
    ((after e t0 cfg w).isClosed → (after e t0 cfg' w).isClosed) ∧
      (¬ (after e t0 cfg' w).isClosed → actions e t0 cfg' w = actions e t0 cfg w ∧
        (after e t0 cfg' w).remaining = (after e t0 cfg w).remaining) := by
  have hstep : ∀ (s s' : PositionState ℚ) (t : Tick ℚ), Abreast s s' →
      ((s'.onTick t).1 = (s.onTick t).1 ∧ Abreast (s.onTick t).2 (s'.onTick t).2) ∨
        (s'.onTick t).2.isClosed :=
    fun s s' t h => abreast_step h (onTick_spec s t) (onTick_spec s' t)
  have hdone : ∀ (s' : PositionState ℚ) (t : Tick ℚ), s'.isClosed → (s'.onTick t).2.isClosed := by
    intro s' t hc
    rwa [onTick_of_closed hc]
  have hrun := Mealy.run_related_until (g := id) hdone hstep (abreast_open ht he t0) w
  rw [List.map_id] at hrun
  rcases hrun with ⟨hactions, h⟩ | hclosed
  · exact ⟨h.closed_iff.mpr, fun _ => ⟨hactions, h.remaining⟩⟩
  · exact ⟨fun _ => hclosed, fun hopen => absurd hclosed hopen⟩

/-- A higher stop-loss: the first rung is sold as before. -/
theorem tighter_closes_sooner_example :
    let cfg' := { exampleConfig.strategy with stopLossMultiplier := 3 / 4 }
    actions 1 0 cfg' [⟨21 / 10, 1⟩, ⟨9 / 5, 2⟩] =
      actions 1 0 exampleConfig.strategy [⟨21 / 10, 1⟩, ⟨9 / 5, 2⟩] := by
  intro cfg'
  have ht : Tighter exampleConfig.strategy cfg' :=
    ⟨rfl, by norm_num [exampleConfig, cfg'], le_rfl, le_rfl, le_rfl⟩
  exact ((tighter_closes_sooner ht zero_le_one 0 _).2 (by decide +kernel)).1

end NovaSniper.Tightening
