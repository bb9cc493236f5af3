import NovaSniper.Detector
import NovaSniper.Lib.Fallible
import NovaSniper.Lib.Retry

set_option linter.dupNamespace false

/-!
The executor: one buy, by bundles and then directly, against an environment that decides what
every remote call returns, and, apart from that, whether a submission was taken.
-/

namespace NovaSniper.Executor

open NovaSniper.FloatOps NovaSniper.Config NovaSniper.Solana NovaSniper.Detector
open NovaSniper.Lib.Fallible NovaSniper.Lib.Retry NovaSniper.Lib.Retry.Logged

/-! ### Outcomes and transactions -/

inductive BuyOutcome (F : Type)
  | bundleSubmitted (bundleId signature : String)
  | directSubmitted (signature : String)
  | simulated (summary : Msg F)
  | dropped (reason : String)
  deriving DecidableEq

inductive ExecutionMode
  | live | dryRun
  deriving DecidableEq

structure Hash where
  bytes : List UInt8
  deriving DecidableEq

inductive Instruction
  | setComputeUnitLimit (units : ℕ)
  | setComputeUnitPrice (microLamports : ℕ)
  | transfer (source destination : Pubkey) (lamports : ℕ)
  deriving DecidableEq

/-- A transaction, signed by its payer. -/
structure Transaction where
  payer : Pubkey
  instructions : List Instruction
  recentBlockhash : Hash
  deriving DecidableEq

inductive Json
  | null
  | bool (b : Bool)
  | number (text : String)
  | string (s : String)
  | array (items : List Json)
  | object (members : List (String × Json))

/-- `Value::get` with a key. -/
def Json.get (v : Json) (key : String) : Option Json :=
  match v with
  | .object members => (members.find? (·.1 = key)).map (·.2)
  | _ => none

def Json.asStr : Json → Option String
  | .string s => some s
  | _ => none

/-- The crates that the executor calls; `K` is a keypair. -/
structure Crates (K : Type) where
  codecs : Codecs
  pubkey : K → Pubkey
  signature : K → Transaction → String
  serialize : Transaction → Except String (List UInt8)
  base64 : List UInt8 → String
  showJson : Json → String
  showStatus : ℕ → String

/-! ### The environment -/

/-- What one attempt meets: the tip account drawn, the blockhash, whether the block engine
takes the bundle, and what the client gets back, if anything: a status, and a body that may
not parse. -/
structure BundleWorld where
  tip : ℕ
  blockhash : Except String Hash
  accepted : Bool
  response : Except String (ℕ × Except String Json)

/-- What the direct path meets. -/
structure DirectWorld where
  blockhash : Except String Hash
  accepted : Bool
  response : Except String String

structure World where
  bundle : ℕ → BundleWorld
  direct : DirectWorld

/-- What the executor does; of a submission, also whether it was taken. -/
inductive Act
  | getLatestBlockhash
  | sign (tx : Transaction)
  | postBundle (url : String) (request : Json) (tx : Transaction) (accepted : Bool)
  | sleep (millis : ℕ)
  | sendTransaction (tx : Transaction) (accepted : Bool)

/-! ### The executor -/

structure Executor (F : Type) where
  jito : JitoConfig F
  sizing : SizingConfig F
  mode : ExecutionMode

section Executor

variable {F K : Type}

def solToLamports [F64 F] (sol : F) : ℕ := roundU64 (sol * lit 1000000000)

/-- The venue builders are stubs: they log a warning and add no instruction. -/
def buildPumpfunBuy (_event : LaunchEvent) (_payer : Pubkey) (_sizing : SizingConfig F) :
    Except String (List Instruction) := .ok []

def buildRaydiumBuy (_event : LaunchEvent) (_payer : Pubkey) (_sizing : SizingConfig F) :
    Except String (List Instruction) := .ok []

def Executor.buildBuyInstructions (ex : Executor F) (event : LaunchEvent)
    (payer tipAccount : Pubkey) (tipLamports : ℕ) : Except String (List Instruction) := do
  let swap ← match event.venue with
    | .pumpFun => buildPumpfunBuy event payer ex.sizing
    | .raydiumLaunchLab => buildRaydiumBuy event payer ex.sizing
  let tip := if 0 < tipLamports then [.transfer payer tipAccount tipLamports] else []
  .ok ([.setComputeUnitLimit ex.sizing.computeUnitLimit,
    .setComputeUnitPrice ex.sizing.computeUnitPrice] ++ swap ++ tip)

/-- `pick_tip_account`; the draw decides among the configured accounts. -/
def Executor.pickTipAccount (ext : Crates K) (ex : Executor F) (draw : ℕ) : Except String Pubkey :=
  match ex.jito.tipAccounts[draw % ex.jito.tipAccounts.length]? with
  | none => .error "no tip accounts configured"
  | some s => ext.codecs.parsePubkey s

/-- `trim_end_matches('/')`. -/
def trimEndSlashes (s : String) : String :=
  String.ofList (s.toList.reverse.dropWhile (· = '/')).reverse

def bundleRequest (b64 : String) : Json :=
  .object [("jsonrpc", .string "2.0"), ("id", .number "1"), ("method", .string "sendBundle"),
    ("params", .array [.array [.string b64]])]

/-- What the client makes of an answer to a bundle. -/
def readResponse (ext : Crates K) (response : Except String (ℕ × Except String Json)) :
    Except String String := do
  let (status, body) ← withContext response "POST bundle"
  let body ← withContext body "parse bundle response"
  if ¬ (200 ≤ status ∧ status < 300) then
    .error s!"bundle HTTP {ext.showStatus status}: {ext.showJson body}"
  else
    match body.get "error" with
    | some err => .error s!"bundle RPC error: {ext.showJson err}"
    | none => .ok (((body.get "result").bind Json.asStr).getD "<unknown>")

/-- `submit_bundle`. -/
def Executor.submitBundle [F64 F] (ext : Crates K) (ex : Executor F) (w : BundleWorld)
    (event : LaunchEvent) (wallet : K) : Logged Act (BuyOutcome F) := do
  let tipAccount ← lift (ex.pickTipAccount ext w.tip)
  let tipLamports := solToLamports ex.jito.tipSol
  tell .getLatestBlockhash
  let recentBlockhash ← lift (withContext w.blockhash "fetch recent blockhash")
  let ixs ← lift (ex.buildBuyInstructions event (ext.pubkey wallet) tipAccount tipLamports)
  let tx : Transaction := ⟨ext.pubkey wallet, ixs, recentBlockhash⟩
  tell (.sign tx)
  let serialized ← lift (withContext (ext.serialize tx) "serialize tx")
  let url := s!"{trimEndSlashes ex.jito.blockEngineUrl}/api/v1/bundles"
  tell (.postBundle url (bundleRequest (ext.base64 serialized)) tx w.accepted)
  let bundleId ← lift (readResponse ext w.response)
  pure (.bundleSubmitted bundleId (ext.signature wallet tx))

/-- `submit_direct`: no tip. -/
def Executor.submitDirect (ext : Crates K) (ex : Executor F) (w : DirectWorld)
    (event : LaunchEvent) (wallet : K) : Logged Act (BuyOutcome F) := do
  tell .getLatestBlockhash
  let recentBlockhash ← lift (withContext w.blockhash "fetch recent blockhash")
  let ixs ← lift (ex.buildBuyInstructions event (ext.pubkey wallet) .default 0)
  let tx : Transaction := ⟨ext.pubkey wallet, ixs, recentBlockhash⟩
  tell (.sign tx)
  tell (.sendTransaction tx w.accepted)
  let signature ← lift (withContext w.response "send direct transaction")
  pure (.directSubmitted signature)

/-- The sleep after a failed attempt, in a word of 64 bits. -/
def backoff (attempt : ℕ) : List Act := [.sleep (200 * (attempt + 1) % 2 ^ 64)]

/-- What follows the retries: the direct path, its failure reported and not raised. -/
def Executor.fallback (ext : Crates K) (ex : Executor F) (w : DirectWorld) (event : LaunchEvent)
    (wallet : K) (lastErr : Option String) : Logged Act (BuyOutcome F) :=
  let direct := ex.submitDirect ext w event wallet
  let jitoErr := lastErr.getD "unknown"
  match direct.result with
  | .ok outcome => ⟨direct.log, .ok outcome⟩
  | .error e => ⟨direct.log, .ok (.dropped
      s!"jito failed ({jitoErr}); direct fallback failed ({e})")⟩

def showVenue : Venue → String
  | .pumpFun => "PumpFun"
  | .raydiumLaunchLab => "RaydiumLaunchLab"

/-- `Executor::buy`. -/
def Executor.buy [F64 F] (ext : Crates K) (ex : Executor F) (w : World) (event : LaunchEvent)
    (wallet : K) : Logged Act (BuyOutcome F) :=
  match ex.mode with
  | .dryRun =>
    pure (.simulated [.text "[dry-run] would buy ", .float ex.sizing.buySol none,
      .text (s!" SOL of mint {ext.codecs.showPubkey event.mint} via {showVenue event.venue}" ++
        s!" (sig-src={event.signature}, slot={event.slot})")])
  | .live =>
    retry (fun attempt => ex.submitBundle ext (w.bundle attempt) event wallet) backoff
      (ex.fallback ext w.direct event wallet) 0 (ex.jito.maxBundleRetries.toNat + 1) none

/-! ### What is submitted -/

/-- A bundle, or the direct transaction. -/
def Act.submits : Act → Bool
  | .postBundle .. => true
  | .sendTransaction .. => true
  | _ => false

/-- The attempt gets as far as a submission: its tip account parses, it has a blockhash, and
its transaction serializes. -/
def Executor.Posts [F64 F] (ext : Crates K) (ex : Executor F) (w : BundleWorld)
    (event : LaunchEvent) (wallet : K) : Prop :=
  ∃ tip hash ixs bytes, ex.pickTipAccount ext w.tip = .ok tip ∧ w.blockhash = .ok hash ∧
    ex.buildBuyInstructions event (ext.pubkey wallet) tip (solToLamports ex.jito.tipSol) = .ok ixs ∧
    ext.serialize ⟨ext.pubkey wallet, ixs, hash⟩ = .ok bytes

/-- The client reads the answer as a success. -/
def Answered (ext : Crates K) (w : BundleWorld) : Prop :=
  ∃ id, readResponse ext w.response = .ok id

lemma buildBuyInstructions_ok (ex : Executor F) (event : LaunchEvent) (payer tip : Pubkey)
    (lamports : ℕ) : ∃ ixs, ex.buildBuyInstructions event payer tip lamports = .ok ixs := by
  unfold Executor.buildBuyInstructions
  cases event.venue with
  | pumpFun => exact ⟨_, rfl⟩
  | raydiumLaunchLab => exact ⟨_, rfl⟩

/-- **One attempt.** It posts one bundle, last of all it does, and fails unless it reads a
success; or it posts nothing, and fails. -/
theorem submitBundle_cases [F64 F] (ext : Crates K) (ex : Executor F) (w : BundleWorld)
    (event : LaunchEvent) (wallet : K) :
    (ex.Posts ext w event wallet ∧
        (∃ before url request tx, (∀ a ∈ before, a.submits = false) ∧
          (ex.submitBundle ext w event wallet).log =
            before ++ [.postBundle url request tx w.accepted]) ∧
        ((ex.submitBundle ext w event wallet).Failed ↔ ¬ Answered ext w)) ∨
      (¬ ex.Posts ext w event wallet ∧
        (∀ a ∈ (ex.submitBundle ext w event wallet).log, a.submits = false) ∧
        (ex.submitBundle ext w event wallet).Failed) := by
  unfold Executor.submitBundle Executor.Posts Answered Failed
  cases htip : ex.pickTipAccount ext w.tip with
  | error e => simp
  | ok tip =>
    obtain ⟨ixs, hixs⟩ := buildBuyInstructions_ok ex event (ext.pubkey wallet) tip
      (solToLamports ex.jito.tipSol)
    cases hhash : w.blockhash with
    | error e => simp [withContext, Act.submits]
    | ok hash =>
      cases hser : ext.serialize ⟨ext.pubkey wallet, ixs, hash⟩ with
      | error e => simp [withContext, Act.submits, hixs, hser]
      | ok bytes =>
        left
        refine ⟨⟨tip, hash, ixs, bytes, rfl, rfl, hixs, hser⟩, ?_, ?_⟩
        · refine ⟨[.getLatestBlockhash, .sign ⟨ext.pubkey wallet, ixs, hash⟩],
            s!"{trimEndSlashes ex.jito.blockEngineUrl}/api/v1/bundles",
            bundleRequest (ext.base64 bytes), ⟨ext.pubkey wallet, ixs, hash⟩, ?_, ?_⟩
          · simp [Act.submits]
          · cases hread : readResponse ext w.response with
            | error e => simp [withContext, hixs, hser]
            | ok id => simp [withContext, hixs, hser]
        · cases hread : readResponse ext w.response with
          | error e => simp [withContext, hixs, hser]
          | ok id => simp [withContext, hixs, hser]

/-- The direct path submits exactly when it has a blockhash, last of all it does. -/
theorem submitDirect_cases (ext : Crates K) (ex : Executor F) (w : DirectWorld)
    (event : LaunchEvent) (wallet : K) :
    ((∃ hash, w.blockhash = .ok hash) ∧
        ∃ before tx, (∀ a ∈ before, a.submits = false) ∧
          (ex.submitDirect ext w event wallet).log =
            before ++ [.sendTransaction tx w.accepted]) ∨
      ((¬ ∃ hash, w.blockhash = .ok hash) ∧
        ∀ a ∈ (ex.submitDirect ext w event wallet).log, a.submits = false) := by
  unfold Executor.submitDirect
  obtain ⟨ixs, hixs⟩ := buildBuyInstructions_ok ex event (ext.pubkey wallet) .default 0
  cases hhash : w.blockhash with
  | error e => simp [withContext, Act.submits]
  | ok hash =>
    left
    refine ⟨⟨hash, rfl⟩, [.getLatestBlockhash, .sign ⟨ext.pubkey wallet, ixs, hash⟩],
      ⟨ext.pubkey wallet, ixs, hash⟩, ?_, ?_⟩
    · simp [Act.submits]
    · cases hresponse : w.response with
      | error e => simp [withContext, hixs]
      | ok signature => simp [withContext, hixs]

lemma fallback_log (ext : Crates K) (ex : Executor F) (w : DirectWorld) (event : LaunchEvent)
    (wallet : K) (lastErr : Option String) :
    (ex.fallback ext w event wallet lastErr).log = (ex.submitDirect ext w event wallet).log := by
  unfold Executor.fallback
  cases hresult : (ex.submitDirect ext w event wallet).result with
  | error e => simp only [hresult]
  | ok outcome => simp only [hresult]

end Executor

end NovaSniper.Executor
