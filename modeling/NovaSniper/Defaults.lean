import NovaSniper.Readiness
import NovaSniper.Screening

/-!
The configuration file, and what a field left out of it means.

No default is a value that validation looks at. The two flags on the authorities of a mint are set
by default, and no facts are ever fetched that could satisfy them: with either of them left out,
the program starts, and never buys.
-/

namespace NovaSniper.Defaults

open NovaSniper.FloatOps NovaSniper.Config NovaSniper.Solana NovaSniper.Filters
open NovaSniper.MissingFacts NovaSniper.Startup NovaSniper.System NovaSniper.TaskRuns
open NovaSniper.Targets NovaSniper.Readiness NovaSniper.Screening
open NovaSniper.Lib.Transition NovaSniper.Lib.Fallible

/-! ### The file -/

def defaultTrue : Bool := true

def defaultMaxConcurrent : ℕ := 4

def defaultCommitment : String := "processed"

def defaultTipSol {F : Type} [F64 F] : F := lit (1 / 1000)

def defaultRetries : UInt32 := 3

/-- The `runtime` table. -/
structure RuntimeTable where
  maxConcurrentSnipes : Option ℕ

/-- The `rpc` table. -/
structure RpcTable where
  commitment : Option String

/-- The `jito` table. -/
structure JitoTable (F : Type) where
  blockEngineUrl : String
  tipSol : Option F
  tipAccounts : List String
  maxBundleRetries : Option UInt32

/-- The `wallets` table. -/
structure WalletTable where
  keypairPaths : List String
  rotation : Option RotationStrategy

/-- The `filters` table. -/
structure FilterTable (F : Type) where
  minInitialLiquiditySol : Option F
  maxSupply : Option ℕ
  requireMintAuthorityRenounced : Option Bool
  requireFreezeAuthorityNull : Option Bool
  minLpLockedPct : Option F
  nameAllowRegex : Option (List String)
  nameDenyRegex : Option (List String)
  symbolAllowRegex : Option (List String)
  requireSocials : Option Bool
  devAllowlist : Option (List String)
  devBlocklist : Option (List String)

/-- A file as it was parsed, before its defaults: what may be left out is optional. -/
structure ConfigTable (F : Type) where
  runtime : RuntimeTable
  rpc : RpcTable
  jito : JitoTable F
  wallets : WalletTable
  sizing : SizingConfig F
  targets : TargetsConfig
  filters : FilterTable F
  strategy : StrategyConfig F

/-- What reads a file, and parses it. -/
structure Toml (F : Type) where
  readToString : String → Except String String
  fromStr : String → Except String (ConfigTable F)

section Load

variable {F K : Type} [F64 F]

def FilterTable.config (t : FilterTable F) : FilterConfig F where
  minInitialLiquiditySol := t.minInitialLiquiditySol.getD 0
  maxSupply := t.maxSupply.getD 0
  requireMintAuthorityRenounced := t.requireMintAuthorityRenounced.getD defaultTrue
  requireFreezeAuthorityNull := t.requireFreezeAuthorityNull.getD defaultTrue
  minLpLockedPct := t.minLpLockedPct.getD 0
  nameAllowRegex := t.nameAllowRegex.getD []
  nameDenyRegex := t.nameDenyRegex.getD []
  symbolAllowRegex := t.symbolAllowRegex.getD []
  requireSocials := t.requireSocials.getD false
  devAllowlist := t.devAllowlist.getD []
  devBlocklist := t.devBlocklist.getD []

/-- The configuration, with the defaults in. -/
def ConfigTable.config (t : ConfigTable F) : Config F where
  runtime := { maxConcurrentSnipes := t.runtime.maxConcurrentSnipes.getD defaultMaxConcurrent }
  rpc := { commitment := t.rpc.commitment.getD defaultCommitment }
  jito :=
    { blockEngineUrl := t.jito.blockEngineUrl, tipSol := t.jito.tipSol.getD defaultTipSol
      tipAccounts := t.jito.tipAccounts
      maxBundleRetries := t.jito.maxBundleRetries.getD defaultRetries }
  wallets :=
    { keypairPaths := t.wallets.keypairPaths, rotation := t.wallets.rotation.getD .roundRobin }
  sizing := t.sizing
  targets := t.targets
  filters := t.filters.config
  strategy := t.strategy

/-- `Config::from_path`. -/
def fromPath (toml : Toml F) (path : String) : Except (Msg F) (Config F) :=
  match toml.readToString path with
  | .error _ => .error (plain s!"reading config file {path}")
  | .ok text =>
    match toml.fromStr text with
    | .error _ => .error (plain "parsing config TOML")
    | .ok table =>
      match table.config.validate with
      | .error e => .error e
      | .ok () => .ok table.config

/-- `main` up to its loop. `boot` begins with the validation of `from_path`, which passes again. -/
def bootFrom (toml : Toml F) (host : Host K) (path : String) (simulate : Bool) :
    Except Failure (Program F K) :=
  match fromPath toml path with
  | .error _ => .error (.error s!"loading config from {path}")
  | .ok cfg => boot host path simulate cfg

variable {toml : Toml F} {host : Host K} {path : String} {simulate : Bool} {p : Program F K}

lemma fromPath_eq_ok {cfg : Config F} : fromPath toml path = .ok cfg ↔
    ∃ text table, toml.readToString path = .ok text ∧ toml.fromStr text = .ok table ∧
      cfg.validate = .ok () ∧ table.config = cfg := by
  unfold fromPath
  cases hread : toml.readToString path with
  | error e => simp
  | ok text =>
    cases hparse : toml.fromStr text with
    | error e => simp [hparse]
    | ok table =>
      simp only [hparse, Except.ok.injEq, exists_eq_left', existsAndEq, true_and]
      refine ⟨?_, ?_⟩
      · intro h
        cases hvalid : table.config.validate with
        | error e => simp [hvalid] at h
        | ok u =>
          rw [hvalid] at h
          obtain rfl := Except.ok.inj h
          exact ⟨hvalid, rfl⟩
      · rintro ⟨hvalid, rfl⟩
        rw [hvalid]

/-- The program that starts from a file is built from what it parses to. -/
theorem bootFrom_eq_ok : bootFrom toml host path simulate = .ok p ↔
    ∃ text table, toml.readToString path = .ok text ∧ toml.fromStr text = .ok table ∧
      Built host simulate table.config p := by
  unfold bootFrom
  refine ⟨?_, ?_⟩
  · intro h
    cases hcfg : fromPath toml path with
    | error e => simp [hcfg] at h
    | ok cfg =>
      obtain ⟨text, table, hread, hparse, -, rfl⟩ := fromPath_eq_ok.mp hcfg
      rw [hcfg] at h
      exact ⟨text, table, hread, hparse, boot_eq_ok.mp h⟩
  · rintro ⟨text, table, hread, hparse, hbuilt⟩
    have hcfg : fromPath toml path = .ok table.config :=
      fromPath_eq_ok.mpr ⟨text, table, hread, hparse, hbuilt.valid, rfl⟩
    rw [hcfg]
    exact boot_eq_ok.mpr hbuilt

/-- The table with everything left out that may be. -/
def ConfigTable.bare (t : ConfigTable F) : ConfigTable F :=
  { t with
    runtime := ⟨none⟩
    rpc := ⟨none⟩
    jito := { t.jito with tipSol := none, maxBundleRetries := none }
    wallets := { t.wallets with rotation := none }
    filters := ⟨none, none, none, none, none, none, none, none, none, none, none⟩ }

/-- Every default is accepted: what is ready stays so with the defaults instead. -/
theorem ready_bare {t : ConfigTable F} (h : Ready host t.config) : Ready host t.bare.config where
  inRange := h.inRange
  keypairs := h.keypairs
  pumpfun := h.pumpfun
  raydium := h.raydium
  patterns := nofun
  devs := nofun
  node := h.node
  client := h.client
  permits := show defaultMaxConcurrent ≤ maxPermits by decide

/-- **What the program starts on.** It starts exactly from a file that can be read and parsed to a
configuration whose values are not out of range, whose texts, the tip accounts apart, can all be
read, and whose permits a semaphore can count, simulated or not. It then starts as well with every
default in place of what the file says. -/
theorem starts_iff (hhex : HexExact host.crates.codecs) :
    ((∃ p, bootFrom toml host path simulate = .ok p) ↔
        ∃ text table, toml.readToString path = .ok text ∧ toml.fromStr text = .ok table ∧
          Ready host table.config) ∧
      ∀ t : ConfigTable F, Ready host t.config → Ready host t.bare.config := by
  refine ⟨?_, fun _ => ready_bare⟩
  refine ⟨?_, ?_⟩
  · rintro ⟨p, hboot⟩
    obtain ⟨text, table, hread, hparse, hbuilt⟩ := bootFrom_eq_ok.mp hboot
    exact ⟨text, table, hread, hparse, (exists_built hhex).mp ⟨p, hbuilt⟩⟩
  · rintro ⟨text, table, hread, hparse, hready⟩
    obtain ⟨p, hbuilt⟩ := (exists_built hhex).mpr hready
    exact ⟨p, bootFrom_eq_ok.mpr ⟨text, table, hread, hparse, hbuilt⟩⟩

end Load

/-! ### Left to the defaults -/

section Runs

variable {F K : Type} [F64 F] {toml : Toml F} {host : Host K} {path : String} {simulate : Bool}
  {p : Program F K} {ls : List Label} {s : State F K}

/-- One of the flags on the authorities is not turned off in the file. -/
def Guarded (t : FilterTable F) : Prop :=
  t.requireMintAuthorityRenounced ≠ some false ∨ t.requireFreezeAuthorityNull ≠ some false

/-- Nothing is done outside. -/
def Silent (ls : List Label) : Prop := ∀ k a, .task k (.act a) ∉ ls

omit [F64 F] in
lemma getD_defaultTrue {flag : Option Bool} (h : flag ≠ some false) :
    flag.getD defaultTrue = true := by
  cases flag with
  | none => rfl
  | some b =>
    cases b with
    | false => exact absurd rfl h
    | true => rfl

/-- Such a file asks for facts. -/
lemma minimumChecked_of_guarded {t : FilterTable F} (h : Guarded t) : MinimumChecked t.config := by
  rcases h with hmint | hfreeze
  · exact .inr (.inl (getD_defaultTrue hmint))
  · exact .inr (.inr (.inl (getD_defaultTrue hfreeze)))

/-- **Silent by default.** Let the program have started from a file that does not turn off both
flags on the authorities. In every run, nothing is ever done outside, and every launch whose task
has ended was turned down. -/
theorem silent_by_default (hboot : bootFrom toml host path simulate = .ok p) {text : String}
    {table : ConfigTable F} (hread : toml.readToString path = .ok text)
    (hparse : toml.fromStr text = .ok table) (hguarded : Guarded table.filters)
    (h : (system host.crates p).Trace ls s) :
    Silent ls ∧ ∀ t ∈ s.tasks, ∀ outcome, t.phase = .gone (some outcome) → Rejected outcome := by
  obtain ⟨text', table', hread', hparse', hbuilt⟩ := bootFrom_eq_ok.mp hboot
  obtain rfl : text = text' := Except.ok.inj (hread.symm.trans hread')
  obtain rfl : table = table' := Except.ok.inj (hparse.symm.trans hparse')
  have hnot : ∀ launch, ¬ Admitted host table.config.filters launch := by
    rintro launch ⟨-, hminimum⟩
    exact hminimum (minimumChecked_of_guarded hguarded)
  refine ⟨?_, ?_⟩
  · intro k a ha
    obtain ⟨t, -, hadmitted⟩ := admitted_of_act hbuilt h ha
    exact hnot _ hadmitted
  · intro t ht outcome hphase
    exact (rejected_iff_of_gone hbuilt h ht hphase).mpr (hnot _)

end Runs

/-! ### A file with nothing that may be left out -/

open NovaSniper.BuyOnce NovaSniper.Detector NovaSniper.Wallet

def bareTable : ConfigTable ℚ where
  runtime := ⟨some 1⟩
  rpc := ⟨none⟩
  jito := ⟨exampleConfig.jito.blockEngineUrl, none, exampleConfig.jito.tipAccounts, none⟩
  wallets := ⟨exampleWallets.keypairPaths, some .firstAvailable⟩
  sizing := exampleConfig.sizing
  targets := exampleConfig.targets
  filters := ⟨none, none, none, none, none, none, none, none, none, none, none⟩
  strategy := exampleConfig.strategy

def bareToml : Toml ℚ where
  readToString _ := .ok ""
  fromStr _ := .ok bareTable

def bareProgram : Program ℚ (List UInt8) :=
  { exampleProgram with filters := ⟨bareTable.config.filters, [], [], [], [], []⟩ }

lemma built_bareProgram : Built exampleHost false bareTable.config bareProgram where
  valid := by decide +kernel
  rpc := rfl
  wallets := load_example
  detector := new_example
  filters := rfl
  node := rfl
  client := rfl
  executor := rfl
  countable := by decide
  permits := rfl

theorem starts_iff_example : ∃ p, bootFrom bareToml exampleHost "config.toml" true = .ok p :=
  (starts_iff hexExact_crates).1.mpr
    ⟨_, _, rfl, rfl, (exists_built hexExact_crates).mp ⟨_, built_bareProgram⟩⟩

/-- The launch is turned down, and its task ends. -/
def untilRejected : List Label :=
  untilBuy.take 6 ++ [.task 0 .moved, .task 0 .moved, .task 0 .ended]

lemma trace_untilRejected : (system exampleCrates bareProgram).Trace untilRejected
    (oneTask (.gone (some (.filteredOut (plain "mint authority not renounced")))) examplePool 1) :=
  (((trace_untilSpawned rfl rfl).snoc (.task rfl .prefilter)).snoc (.task rfl .evaluate)).snoc
    (.task rfl .dropPermit)

theorem silent_by_default_example : Silent untilRejected := by
  have hboot : bootFrom bareToml exampleHost "config.toml" false = .ok bareProgram :=
    bootFrom_eq_ok.mpr ⟨_, _, rfl, rfl, built_bareProgram⟩
  exact (silent_by_default hboot rfl rfl (.inl nofun) trace_untilRejected).1

end NovaSniper.Defaults
