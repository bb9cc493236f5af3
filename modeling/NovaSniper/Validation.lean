import NovaSniper.Ladder

/-!
What validation is worth when a float may be NaN, as a configuration file may say.

Each test bails out if its value is out of range. A value that compares with nothing is out
of no range, and one such percentage in the ladder takes its sum out of reach as well.
-/

namespace NovaSniper.Validation

open NovaSniper.FloatOps NovaSniper.Config NovaSniper.Strategy NovaSniper.Ladder
open NovaSniper.Strategy.PositionState NovaSniper.Lib

/-! ### What an accepted configuration should promise -/

/-- At a price of nothing every open position is stopped out, and closed. -/
def StopsAtZero (cfg : StrategyConfig (Unordered ℚ)) : Prop :=
  ∀ e, 0 < e → ∀ t0 w, ¬ (after e t0 cfg w).isClosed → ∀ now,
    (∃ fraction, ((after e t0 cfg w).onTick ⟨0, now⟩).1 = .sell fraction .stopLoss) ∧
      ((after e t0 cfg w).onTick ⟨0, now⟩).2.isClosed

structure Sound (c : Config (Unordered ℚ)) : Prop where
  buySol : 0 < c.sizing.buySol
  slPos : 0 < c.strategy.stopLossMultiplier
  slLt : c.strategy.stopLossMultiplier < 1
  rungs : ∀ r ∈ c.strategy.takeProfitLadder, 1 < r.multiplier ∧ 0 < r.sellPct ∧ r.sellPct ≤ lit 100
  sum : fsum (c.strategy.takeProfitLadder.map (·.sellPct)) ≤ lit 100 + EPSILON
  stops : StopsAtZero c.strategy

/-- No float that validation tests is NaN. -/
structure Numbers (c : Config (Unordered ℚ)) : Prop where
  buySol : c.sizing.buySol ≠ .nan
  stopLoss : c.strategy.stopLossMultiplier ≠ .nan
  rungs : ∀ r ∈ c.strategy.takeProfitLadder, r.multiplier ≠ .nan ∧ r.sellPct ≠ .nan

/-! ### The stop-loss at a price of nothing -/

lemma zero_ne_nan : (0 : Unordered ℚ) ≠ .nan := nofun

lemma one_ne_nan : (1 : Unordered ℚ) ≠ .nan := nofun

lemma zero_le_mul {a b : Unordered ℚ} (ha : 0 < a) (hb : 0 < b) : 0 ≤ a * b := by
  obtain ⟨x, rfl⟩ := Unordered.exists_value.mp (Unordered.ne_nan_of_lt ha).2
  obtain ⟨y, rfl⟩ := Unordered.exists_value.mp (Unordered.ne_nan_of_lt hb).2
  have hx : 0 < x := ha
  have hy : 0 < y := hb
  show (0 : ℚ) ≤ x * y
  positivity

lemma stopsAtZero {cfg : StrategyConfig (Unordered ℚ)} (hsl : 0 < cfg.stopLossMultiplier) :
    StopsAtZero cfg := by
  intro e he t0 w hopen now
  have hopened := opened_after e t0 cfg w
  have hhit : (after e t0 cfg w).StopHit ⟨0, now⟩ := by
    unfold StopHit
    rw [hopened.cfg_eq, hopened.entry]
    exact zero_le_mul he hsl
  have hstep := onTick_spec (after e t0 cfg w) ⟨0, now⟩
  generalize ha : ((after e t0 cfg w).onTick ⟨0, now⟩).1 = a at hstep ⊢
  generalize hs : ((after e t0 cfg w).onTick ⟨0, now⟩).2 = s' at hstep ⊢
  cases hstep with
  | closed hc => exact absurd hc hopen
  | stopLoss hc hit =>
    refine ⟨⟨_, rfl⟩, ?_⟩
    show (0 : Unordered ℚ) ≤ EPSILON
    decide +kernel
  | takeProfit rung i hc hno hr => exact absurd hhit hno
  | trailingStop hc hno hr ht => exact absurd hhit hno
  | maxHold b hc hno hr ht hh hb => exact absurd hhit hno
  | hold b hc hno hr ht hh hb => exact absurd hhit hno

/-! ### When validation is sound -/

variable {c : Config (Unordered ℚ)}

lemma Sound.numbers (h : Sound c) : Numbers c where
  buySol := (Unordered.ne_nan_of_lt h.buySol).2
  stopLoss := (Unordered.ne_nan_of_lt h.slPos).2
  rungs r hr :=
    ⟨(Unordered.ne_nan_of_lt (h.rungs r hr).1).2, (Unordered.ne_nan_of_lt (h.rungs r hr).2.1).2⟩

/-- Between numbers, a test that finds nothing proves the bound it tests. -/
lemma Numbers.sound (h : Numbers c) (hrange : ¬ OutOfRange c) : Sound c := by
  have hlimit : (lit 100 + EPSILON : Unordered ℚ) ≠ .nan := nofun
  have hhundred : (lit 100 : Unordered ℚ) ≠ .nan := nofun
  have hsum : fsum (c.strategy.takeProfitLadder.map (·.sellPct)) ≠ .nan := by
    rw [fsum_ne_nan]
    intro x hx
    obtain ⟨r, hr, rfl⟩ := List.mem_map.mp hx
    exact (h.rungs r hr).2
  unfold OutOfRange at hrange
  push Not at hrange
  obtain ⟨-, hbuy, -, -, ⟨hslPos, hslLt⟩, hle, hrungs⟩ := hrange
  have hsl : 0 < c.strategy.stopLossMultiplier :=
    Unordered.lt_of_not_le h.stopLoss zero_ne_nan hslPos
  refine ⟨Unordered.lt_of_not_le h.buySol zero_ne_nan hbuy, hsl,
    Unordered.lt_of_not_le one_ne_nan h.stopLoss hslLt, fun r hr => ?_,
    Unordered.le_of_not_lt hlimit hsum hle, stopsAtZero hsl⟩
  obtain ⟨hmult, hpct⟩ := h.rungs r hr
  obtain ⟨h1, h2, h3⟩ := hrungs r hr
  exact ⟨Unordered.lt_of_not_le hmult one_ne_nan h1, Unordered.lt_of_not_le hpct zero_ne_nan h2,
    Unordered.le_of_not_lt hhundred hpct h3⟩

/-- **When validation is sound.** An accepted configuration has what its tests are about, and
stops out at a price of nothing, exactly when none of the floats tested is NaN, or a value is
out of its range all the same. -/
theorem sound_iff (c : Config (Unordered ℚ)) :
    (c.validate = .ok () → Sound c) ↔ Numbers c ∨ OutOfRange c := by
  rw [validate_eq_ok]
  refine ⟨?_, ?_⟩
  · intro h
    by_cases hrange : OutOfRange c
    · exact .inr hrange
    · exact .inl (h hrange).numbers
  · rintro (hnum | hout) hrange
    · exact hnum.sound hrange
    · exact absurd hout hrange

/-- No filter is on. The stop-loss is NaN, and the ladder sells more than there is, one of its
percentages being NaN; the other values are those of the example configuration. -/
def nanConfig : Config (Unordered ℚ) where
  runtime := exampleConfig.runtime
  rpc := exampleConfig.rpc
  jito :=
    { blockEngineUrl := exampleConfig.jito.blockEngineUrl, tipSol := lit (1 / 1000)
      tipAccounts := exampleConfig.jito.tipAccounts, maxBundleRetries := 3 }
  wallets := exampleConfig.wallets
  sizing :=
    { buySol := lit (1 / 20), maxSlippageBps := 1500, computeUnitPrice := 500000
      computeUnitLimit := 400000 }
  targets := exampleConfig.targets
  filters :=
    { minInitialLiquiditySol := 0, maxSupply := 0, requireMintAuthorityRenounced := false
      requireFreezeAuthorityNull := false, minLpLockedPct := 0, nameAllowRegex := []
      nameDenyRegex := [], symbolAllowRegex := [], requireSocials := false, devAllowlist := []
      devBlocklist := [] }
  strategy :=
    { takeProfitLadder := [⟨lit 2, lit 60⟩, ⟨lit 5, lit 60⟩, ⟨lit 10, .nan⟩]
      stopLossMultiplier := .nan, trailingStopDrawdown := lit (35 / 100)
      trailingStopActivation := lit 2, maxHoldSeconds := 3600 }

/-- It is accepted, and a position opened at 1 holds on at a price of nothing. -/
theorem nanConfig_accepted :
    nanConfig.validate = .ok () ∧ ¬ Sound nanConfig ∧
      ¬ 0 < nanConfig.strategy.stopLossMultiplier ∧
      ¬ fsum (nanConfig.strategy.takeProfitLadder.map (·.sellPct)) ≤ lit 100 + EPSILON ∧
      ¬ (after 1 0 nanConfig.strategy []).isClosed ∧
      ((after 1 0 nanConfig.strategy []).onTick ⟨0, 1⟩).1 = .hold := by
  have hsl : ¬ 0 < nanConfig.strategy.stopLossMultiplier := by decide +kernel
  refine ⟨by decide +kernel, fun h => hsl h.slPos, hsl, by decide +kernel, by decide +kernel,
    by decide +kernel⟩

end NovaSniper.Validation
