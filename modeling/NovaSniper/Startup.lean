import NovaSniper.BuyOnce
import NovaSniper.Detector
import NovaSniper.Executor
import NovaSniper.Filters
import NovaSniper.Wallet

/-!
What `main` builds before its loop, in the order in which it builds it.

Of an error the outermost context is kept, which is what is shown of it first. Two of the parts
are not checked when they are built: where they cannot be, `main` panics.
-/

namespace NovaSniper.Startup

open NovaSniper.FloatOps NovaSniper.Config NovaSniper.Detector NovaSniper.Filters
open NovaSniper.Wallet NovaSniper.Executor NovaSniper.Lib.Fallible

/-- What construction calls outside the program: the key files, the crates, the pattern
compiler, and the clients of the node and of the block engine, which may fail to build. -/
structure Host (K : Type) where
  files : Files K
  crates : Crates K
  compile : String → Except String Regex
  rpcClient : Except String Unit
  httpClient : Except String Unit

/-- What the loop and its tasks share. -/
structure Program (F K : Type) where
  rpc : RpcConfig
  detector : Detector
  filters : FilterEngine F
  wallets : WalletPool K
  executor : Executor F
  permits : ℕ

/-! ### How it can fail -/

/-- An error that `main` returns, or a panic. -/
inductive Failure
  | error (context : String)
  | panicked (message : String)

/-- An error of a call, returned by `?`. -/
def returned {α : Type} (r : Except String α) : Except Failure α := r.mapError .error

/-- The most permits that a semaphore can count: a word of 64 bits without its last three. -/
def maxPermits : ℕ := (2 ^ 64 - 1) >>> 3

/-- `Semaphore::new`, which asserts that it can count the permits. -/
def semaphoreNew (permits : ℕ) : Except Failure ℕ :=
  if permits ≤ maxPermits then .ok permits
  else .error (.panicked
    s!"a semaphore may not have more than MAX_PERMITS permits ({maxPermits})")

/-- `RpcClient::new_with_commitment`, which expects its HTTP client to build. -/
def rpcClientNew (built : Except String Unit) : Except Failure Unit :=
  built.mapError fun e => .panicked s!"build rpc client: {e}"

lemma semaphoreNew_eq_ok {permits n : ℕ} :
    semaphoreNew permits = .ok n ↔ permits ≤ maxPermits ∧ permits = n := by
  unfold semaphoreNew
  split_ifs with hle <;> simp [hle]

section Boot

variable {F K : Type} [F64 F]

def modeOf (simulate : Bool) : ExecutionMode := if simulate then .dryRun else .live

/-- `Executor::new`. -/
def Executor.new (host : Host K) (jito : JitoConfig F) (sizing : SizingConfig F)
    (mode : ExecutionMode) : Except String (Executor F) := do
  withContext host.httpClient "build HTTP client"
  .ok { jito, sizing, mode }

/-- `main` up to its loop, once the configuration at `path` has been parsed to `cfg`. -/
def boot (host : Host K) (path : String) (simulate : Bool) (cfg : Config F) :
    Except Failure (Program F K) := do
  match cfg.validate with
  | .error _ => .error (.error s!"loading config from {path}")
  | .ok () =>
    let wallets ← returned
      (withContext (WalletPool.load host.files cfg.wallets) "loading wallets")
    rpcClientNew host.rpcClient
    let detector ← returned
      (withContext (Detector.new host.crates.codecs cfg.targets) "building detector")
    let filters ← returned (FilterEngine.new host.compile host.crates.codecs cfg.filters)
    let executor ← returned (Executor.new host cfg.jito cfg.sizing (modeOf simulate))
    let permits ← semaphoreNew (max cfg.runtime.maxConcurrentSnipes 1)
    .ok { rpc := cfg.rpc, detector, filters, wallets, executor, permits }

variable {host : Host K} {path : String} {simulate : Bool} {cfg : Config F} {p : Program F K}

/-- What the parts of a program that started are made from. -/
structure Built (host : Host K) (simulate : Bool) (cfg : Config F) (p : Program F K) : Prop where
  valid : cfg.validate = .ok ()
  rpc : p.rpc = cfg.rpc
  wallets : WalletPool.load host.files cfg.wallets = .ok p.wallets
  detector : Detector.new host.crates.codecs cfg.targets = .ok p.detector
  filters : FilterEngine.new host.compile host.crates.codecs cfg.filters = .ok p.filters
  node : host.rpcClient = .ok ()
  client : host.httpClient = .ok ()
  executor : p.executor = ⟨cfg.jito, cfg.sizing, modeOf simulate⟩
  countable : max cfg.runtime.maxConcurrentSnipes 1 ≤ maxPermits
  permits : p.permits = max cfg.runtime.maxConcurrentSnipes 1

/-- **The program starts exactly when each of its parts can be built.** -/
theorem boot_eq_ok : boot host path simulate cfg = .ok p ↔ Built host simulate cfg p := by
  unfold boot
  refine ⟨?_, ?_⟩
  · intro h
    cases hvalid : cfg.validate with
    | error e => simp [hvalid] at h
    | ok u =>
      simp only [hvalid] at h
      obtain ⟨wallets, hwallets, h⟩ := bind_eq_ok.mp h
      obtain ⟨_, hnode, h⟩ := bind_eq_ok.mp h
      obtain ⟨detector, hdetector, h⟩ := bind_eq_ok.mp h
      obtain ⟨filters, hfilters, h⟩ := bind_eq_ok.mp h
      obtain ⟨executor, hexecutor, h⟩ := bind_eq_ok.mp h
      obtain ⟨permits, hpermits, h⟩ := bind_eq_ok.mp h
      obtain ⟨_, hclient, hexecutor⟩ := bind_eq_ok.mp (mapError_eq_ok.mp hexecutor)
      obtain ⟨hle, rfl⟩ := semaphoreNew_eq_ok.mp hpermits
      obtain rfl := Except.ok.inj h
      obtain rfl := Except.ok.inj hexecutor
      exact ⟨hvalid, rfl, withContext_eq_ok.mp (mapError_eq_ok.mp hwallets),
        withContext_eq_ok.mp (mapError_eq_ok.mp hdetector), mapError_eq_ok.mp hfilters,
        mapError_eq_ok.mp hnode, withContext_eq_ok.mp hclient, rfl, hle, rfl⟩
  · intro h
    have hexecutor : Executor.new host cfg.jito cfg.sizing (modeOf simulate) = .ok p.executor := by
      unfold Executor.new
      rw [h.client, h.executor]
      rfl
    simp only [h.valid]
    refine bind_eq_ok.mpr ⟨p.wallets, mapError_eq_ok.mpr (withContext_eq_ok.mpr h.wallets), ?_⟩
    refine bind_eq_ok.mpr ⟨(), mapError_eq_ok.mpr h.node, ?_⟩
    refine bind_eq_ok.mpr ⟨p.detector, mapError_eq_ok.mpr (withContext_eq_ok.mpr h.detector), ?_⟩
    refine bind_eq_ok.mpr ⟨p.filters, mapError_eq_ok.mpr h.filters, ?_⟩
    refine bind_eq_ok.mpr ⟨p.executor, mapError_eq_ok.mpr hexecutor, ?_⟩
    refine bind_eq_ok.mpr ⟨p.permits, semaphoreNew_eq_ok.mpr ⟨h.countable, h.permits.symm⟩, ?_⟩
    rw [← h.rpc]

lemma Built.wallets_ne_nil (h : Built host simulate cfg p) : p.wallets.wallets ≠ [] := by
  have hpaths : cfg.wallets.keypairPaths ≠ [] := by
    intro hnil
    exact validate_eq_ok.mp h.valid (.inl hnil)
  obtain ⟨-, hlen, -, -⟩ := load_eq_ok h.wallets
  rw [← List.length_pos_iff, hlen]
  exact List.length_pos_iff.mpr hpaths

end Boot

/-! ### A program that starts -/

open NovaSniper.BuyOnce

/-- The example configuration with one wallet, one permit, and no filters. -/
def openConfig : Config ℚ :=
  { exampleConfig with
    runtime := { maxConcurrentSnipes := 1 }
    wallets := exampleWallets
    filters :=
      { minInitialLiquiditySol := 0, maxSupply := 0, requireMintAuthorityRenounced := false
        requireFreezeAuthorityNull := false, minLpLockedPct := 0, nameAllowRegex := []
        nameDenyRegex := [], symbolAllowRegex := [], requireSocials := false
        devAllowlist := [], devBlocklist := [] } }

def exampleHost : Host (List UInt8) where
  files := exampleFiles
  crates := exampleCrates
  compile s := .ok ⟨s, fun _ => false⟩
  rpcClient := .ok ()
  httpClient := .ok ()

def exampleProgram : Program ℚ (List UInt8) where
  rpc := openConfig.rpc
  detector := exampleDetector
  filters := ⟨openConfig.filters, [], [], [], [], []⟩
  wallets := examplePool
  executor := exampleExecutor
  permits := 1

lemma built_example : Built exampleHost false openConfig exampleProgram where
  valid := by decide +kernel
  rpc := rfl
  wallets := load_example
  detector := new_example
  filters := rfl
  node := rfl
  client := rfl
  executor := rfl
  countable := by decide
  permits := rfl

end NovaSniper.Startup
