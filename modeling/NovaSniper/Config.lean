import NovaSniper.FloatOps

set_option linter.dupNamespace false

/-!
The configuration and its validation at startup.

Of each section the fields that some modelled function reads are kept. A duration and a
count are natural numbers; the retry count keeps its width, since a loop runs over it.
-/

namespace NovaSniper.Config

open NovaSniper.FloatOps

structure RuntimeConfig where
  maxConcurrentSnipes : ℕ
  deriving DecidableEq

structure RpcConfig where
  commitment : String
  deriving DecidableEq

structure JitoConfig (F : Type) where
  blockEngineUrl : String
  tipSol : F
  tipAccounts : List String
  maxBundleRetries : UInt32
  deriving DecidableEq

inductive RotationStrategy
  | roundRobin | random | firstAvailable
  deriving DecidableEq

structure WalletConfig where
  keypairPaths : List String
  rotation : RotationStrategy
  deriving DecidableEq

structure SizingConfig (F : Type) where
  buySol : F
  maxSlippageBps : ℕ
  computeUnitPrice : ℕ
  computeUnitLimit : ℕ
  deriving DecidableEq

structure PumpFunTarget where
  enabled : Bool
  programId : String
  createDiscriminator : String
  deriving DecidableEq

structure RaydiumTarget where
  enabled : Bool
  programId : String
  initializeDiscriminator : String
  deriving DecidableEq

structure TargetsConfig where
  pumpfun : PumpFunTarget
  raydiumLaunchlab : RaydiumTarget
  deriving DecidableEq

structure FilterConfig (F : Type) where
  minInitialLiquiditySol : F
  maxSupply : ℕ
  requireMintAuthorityRenounced : Bool
  requireFreezeAuthorityNull : Bool
  minLpLockedPct : F
  nameAllowRegex : List String
  nameDenyRegex : List String
  symbolAllowRegex : List String
  requireSocials : Bool
  devAllowlist : List String
  devBlocklist : List String
  deriving DecidableEq

structure TakeProfitRung (F : Type) where
  multiplier : F
  sellPct : F
  deriving DecidableEq

structure StrategyConfig (F : Type) where
  takeProfitLadder : List (TakeProfitRung F)
  stopLossMultiplier : F
  trailingStopDrawdown : F
  trailingStopActivation : F
  maxHoldSeconds : ℕ
  deriving DecidableEq

structure Config (F : Type) where
  runtime : RuntimeConfig
  rpc : RpcConfig
  jito : JitoConfig F
  wallets : WalletConfig
  sizing : SizingConfig F
  targets : TargetsConfig
  filters : FilterConfig F
  strategy : StrategyConfig F
  deriving DecidableEq

variable {F : Type} [F64 F]

/-- The loop over the ladder: the first rung out of range is reported. -/
def validateRungs : List (TakeProfitRung F) → Except (Msg F) Unit
  | [] => .ok ()
  | rung :: rungs =>
    if rung.multiplier ≤ 1 then
      .error (plain "take profit rung multiplier must be > 1.0")
    else if rung.sellPct ≤ 0 ∨ lit 100 < rung.sellPct then
      .error (plain "take profit sell_pct must be in (0, 100]")
    else validateRungs rungs

/-- `Config::validate`. -/
def Config.validate (c : Config F) : Except (Msg F) Unit :=
  if c.wallets.keypairPaths = [] then
    .error (plain "at least one wallet keypair path must be configured")
  else if c.sizing.buySol ≤ 0 then
    .error (plain "sizing.buy_sol must be positive")
  else if 10000 < c.sizing.maxSlippageBps then
    .error (plain "sizing.max_slippage_bps must be <= 10000 (100%)")
  else if c.jito.tipAccounts = [] then
    .error (plain "jito.tip_accounts must contain at least one tip account")
  else if c.strategy.stopLossMultiplier ≤ 0 ∨ 1 ≤ c.strategy.stopLossMultiplier then
    .error (plain "strategy.stop_loss_multiplier must be in (0, 1)")
  else
    let ladderSum := fsum (c.strategy.takeProfitLadder.map (·.sellPct))
    if lit 100 + EPSILON < ladderSum then
      .error [.text "strategy.take_profit_ladder sell_pct sums to ", .float ladderSum (some 2),
        .text " > 100"]
    else validateRungs c.strategy.takeProfitLadder

/-- The exit strategies that start up: those of a configuration that validates. -/
def Accepted (cfg : StrategyConfig F) : Prop :=
  ∃ c : Config F, c.strategy = cfg ∧ c.validate = .ok ()

/-- `config.example.toml`. -/
def exampleConfig : Config ℚ where
  runtime := { maxConcurrentSnipes := 4 }
  rpc := { commitment := "processed" }
  jito :=
    { blockEngineUrl := "https://mainnet.block-engine.jito.wtf"
      tipSol := 1 / 1000
      tipAccounts :=
        ["96gYZGLnJYVFmbjzopPSU6QiEV5fGqZNyN9nmNhvrZU5",
         "HFqU5x63VTqvQss8hp11i4wVV8bD44PvwucfZ2bU7gRe",
         "Cw8CFyM9FkoMi7K7Crf6HNQqf4uEMzpKw6QNghXLvLkY",
         "ADaUMid9yfUytqMBgopwjb2DTLSokTSzL1zt6iGPaS49",
         "DfXygSm4jCyNCybVYYK6DwvWqjKee8pbDmJGcLWNDXjh",
         "ADuUkR4vqLUMWXxW9gh6D6L8pivKeVBBjNhVhx1rQhQM",
         "DttWaMuVvTiduZRnguLF7jNxTgiMBZ1hyAumKUiL2KRL",
         "3AVi9Tg9Uo68tJfuvoKvqKNWKkC5wPdSSdeBnizKZ6jT"]
      maxBundleRetries := 3 }
  wallets := { keypairPaths := ["./wallets/wallet-1.json"], rotation := .roundRobin }
  sizing :=
    { buySol := 1 / 20, maxSlippageBps := 1500, computeUnitPrice := 500000
      computeUnitLimit := 400000 }
  targets :=
    { pumpfun :=
        { enabled := true, programId := "6EF8rrecthR5Dkzon8Nwu78hRvfCKubJ14M5uBEwF6P"
          createDiscriminator := "181ec828051c0777" }
      raydiumLaunchlab :=
        { enabled := true, programId := "LanMV9sAd7wArD4vJFi2qDdfnVhFxYSUg6eADduJ3uj"
          initializeDiscriminator := "afaf6d1f0d989bed" } }
  filters :=
    { minInitialLiquiditySol := 2, maxSupply := 1000000000
      requireMintAuthorityRenounced := true, requireFreezeAuthorityNull := true
      minLpLockedPct := 90, nameAllowRegex := [], nameDenyRegex := ["(?i)test", "(?i)scam"]
      symbolAllowRegex := [], requireSocials := false, devAllowlist := [], devBlocklist := [] }
  strategy :=
    { takeProfitLadder := [⟨2, 30⟩, ⟨5, 30⟩, ⟨10, 40⟩]
      stopLossMultiplier := 1 / 2, trailingStopDrawdown := 35 / 100
      trailingStopActivation := 2, maxHoldSeconds := 3600 }

lemma accepted_example : Accepted exampleConfig.strategy :=
  ⟨exampleConfig, rfl, by decide +kernel⟩

/-! ### What validation tests -/

lemma validateRungs_ok {rungs : List (TakeProfitRung F)} :
    validateRungs rungs = .ok () ↔
      ∀ r ∈ rungs, ¬ (r.multiplier ≤ 1 ∨ r.sellPct ≤ 0 ∨ lit 100 < r.sellPct) := by
  induction rungs with
  | nil => simp [validateRungs]
  | cons r rungs ih =>
    rw [validateRungs, List.forall_mem_cons, ← ih]
    split_ifs with h1 h2
    · simp [h1]
    · rcases h2 with h2 | h2
      · simp [h2]
      · simp [h2]
    · have hr : ¬ (r.multiplier ≤ 1 ∨ r.sellPct ≤ 0 ∨ lit 100 < r.sellPct) := not_or.mpr ⟨h1, h2⟩
      exact (and_iff_right hr).symm

/-- Some test of the validation finds its value out of range. -/
def OutOfRange (c : Config F) : Prop :=
  c.wallets.keypairPaths = [] ∨ c.sizing.buySol ≤ 0 ∨ 10000 < c.sizing.maxSlippageBps ∨
    c.jito.tipAccounts = [] ∨
    (c.strategy.stopLossMultiplier ≤ 0 ∨ 1 ≤ c.strategy.stopLossMultiplier) ∨
    lit 100 + EPSILON < fsum (c.strategy.takeProfitLadder.map (·.sellPct)) ∨
    ∃ r ∈ c.strategy.takeProfitLadder,
      r.multiplier ≤ 1 ∨ r.sellPct ≤ 0 ∨ lit 100 < r.sellPct

/-- **Validation succeeds when no test finds anything**: it tests for what is wrong. -/
theorem validate_eq_ok {c : Config F} : c.validate = .ok () ↔ ¬ OutOfRange c := by
  have hrungs : validateRungs c.strategy.takeProfitLadder = .ok () ↔
      ¬ ∃ r ∈ c.strategy.takeProfitLadder,
        r.multiplier ≤ 1 ∨ r.sellPct ≤ 0 ∨ lit 100 < r.sellPct := by
    rw [validateRungs_ok]
    push Not
    exact Iff.rfl
  unfold Config.validate OutOfRange
  dsimp only
  split_ifs with h1 h2 h3 h4 h5 h6
  · simp [h1]
  · simp [h2]
  · simp [h3]
  · simp [h4]
  · simp [h5]
  · simp [h6]
  · rw [hrungs]
    simp only [h1, h2, h3, h4, h5, h6, false_or]

/-! ### What validation promises in the exact reading -/

/-- The bounds on an accepted exit strategy. -/
structure Bounds (cfg : StrategyConfig ℚ) : Prop where
  slPos : 0 < cfg.stopLossMultiplier
  slLt : cfg.stopLossMultiplier < 1
  sum : (cfg.takeProfitLadder.map (·.sellPct)).sum ≤ 100 + EPSILON
  rungs : ∀ r ∈ cfg.takeProfitLadder, 1 < r.multiplier ∧ 0 < r.sellPct ∧ r.sellPct ≤ 100

theorem Accepted.bounds {cfg : StrategyConfig ℚ} (h : Accepted cfg) : Bounds cfg := by
  obtain ⟨c, rfl, hv⟩ := h
  have hrange := validate_eq_ok.mp hv
  unfold OutOfRange at hrange
  rw [fsum_rat, lit_rat] at hrange
  push Not at hrange
  obtain ⟨-, -, -, -, hsl, hsum, hrungs⟩ := hrange
  exact ⟨hsl.1, hsl.2, hsum, hrungs⟩

end NovaSniper.Config
