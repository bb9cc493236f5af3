import NovaSniper.BuyProtocol
import NovaSniper.Lib.Placed

/-!
What a buy signs and submits.

Every transaction is paid by the wallet of the buy. It is signed right after a blockhash was
fetched for it, and submitted, if at all, right after it was signed: no transaction goes out
twice on one signature, and none with a blockhash that was fetched for another. Which attempt an
act belongs to is read off the log, since every attempt that fails sleeps.
-/

namespace NovaSniper.Transactions

open NovaSniper.FloatOps NovaSniper.Config NovaSniper.Solana NovaSniper.Detector
open NovaSniper.Executor NovaSniper.BuyOnce NovaSniper.BuyProtocol NovaSniper.Wallet
open NovaSniper.Lib NovaSniper.Lib.Retry NovaSniper.Lib.Retry.Logged NovaSniper.Lib.Fallible

section Buy

variable {F K : Type} [F64 F] (ext : Crates K) (ex : Executor F) (w : World)
  (event : LaunchEvent) (wallet : K)

/-! ### The transactions -/

def computeBudget : List Instruction :=
  [.setComputeUnitLimit ex.sizing.computeUnitLimit, .setComputeUnitPrice ex.sizing.computeUnitPrice]

/-- The transfer of a tip, unless it is nothing. -/
def tipTo (account : Pubkey) : List Instruction :=
  if 0 < solToLamports ex.jito.tipSol then
    [.transfer (ext.pubkey wallet) account (solToLamports ex.jito.tipSol)]
  else []

/-- A transaction of bundle attempt `j`: it tips a configured account. -/
structure BundleTx (j : ℕ) (tx : Transaction) : Prop where
  payer : tx.payer = ext.pubkey wallet
  blockhash : (w.bundle j).blockhash = .ok tx.recentBlockhash
  instructions : ∃ text ∈ ex.jito.tipAccounts, ∃ account, ext.codecs.parsePubkey text = .ok account ∧
    tx.instructions = computeBudget ex ++ tipTo ext ex wallet account

/-- The transaction of the direct path: it tips nobody. -/
structure DirectTx (tx : Transaction) : Prop where
  payer : tx.payer = ext.pubkey wallet
  blockhash : w.direct.blockhash = .ok tx.recentBlockhash
  instructions : tx.instructions = computeBudget ex

/-! ### What comes before an act -/

def isSleep : Act → Bool
  | .sleep _ => true
  | _ => false

/-- The bundle attempts made before: each of them has failed, and slept. -/
def attempts (before : List Act) : ℕ := before.countP isSleep

/-- Nothing has been done yet, or an attempt has just slept. -/
def Begun (before : List Act) : Prop := before = [] ∨ ∃ millis, [.sleep millis] <:+ before

/-- What an act of a buy is about, and what comes right before it. The attempt it belongs to is the
one that comes after the attempts made before. -/
def Proper (before : List Act) : Act → Prop
  | .getLatestBlockhash => Begun before ∧ attempts before ≤ ex.jito.maxBundleRetries.toNat + 1
  | .sign tx => [.getLatestBlockhash] <:+ before ∧
      (attempts before ≤ ex.jito.maxBundleRetries.toNat ∧
          BundleTx ext ex w wallet (attempts before) tx ∨
        attempts before = ex.jito.maxBundleRetries.toNat + 1 ∧ DirectTx ext ex w wallet tx)
  | .postBundle url request tx accepted => [.getLatestBlockhash, .sign tx] <:+ before ∧
      url = s!"{trimEndSlashes ex.jito.blockEngineUrl}/api/v1/bundles" ∧
      (∃ bytes, ext.serialize tx = .ok bytes ∧ request = bundleRequest (ext.base64 bytes)) ∧
      attempts before ≤ ex.jito.maxBundleRetries.toNat ∧
      BundleTx ext ex w wallet (attempts before) tx ∧
      accepted = (w.bundle (attempts before)).accepted
  | .sendTransaction tx accepted => [.getLatestBlockhash, .sign tx] <:+ before ∧
      attempts before = ex.jito.maxBundleRetries.toNat + 1 ∧
      DirectTx ext ex w wallet tx ∧ accepted = w.direct.accepted
  -- all that the failed attempt did lies between the sleep before it and its own
  | .sleep millis => (∃ v, Begun v ∧
        before = v ++ (bundle ext ex w event wallet (attempts before)).log) ∧
      attempts before ≤ ex.jito.maxBundleRetries.toNat ∧ millis = 200 * (attempts before + 1) ∧
      (bundle ext ex w event wallet (attempts before)).Failed

lemma attempts_append (l l' : List Act) : attempts (l ++ l') = attempts l + attempts l' :=
  List.countP_append

lemma attempts_of_prefix {l l' : List Act} (h : l <+: l') (h' : attempts l' = 0) :
    attempts l = 0 := Nat.eq_zero_of_le_zero (h' ▸ h.sublist.countP_le)

lemma Begun.slept (l : List Act) (millis : ℕ) : Begun (l ++ [.sleep millis]) :=
  .inr ⟨millis, List.suffix_append l _⟩

omit [F64 F] in
lemma buildBuyInstructions_eq (payer tip : Pubkey) (lamports : ℕ) :
    ex.buildBuyInstructions event payer tip lamports = .ok (computeBudget ex ++
      if 0 < lamports then [.transfer payer tip lamports] else []) := by
  unfold Executor.buildBuyInstructions computeBudget
  cases event.venue with
  | pumpFun => rfl
  | raydiumLaunchLab => rfl

omit [F64 F] in
lemma mem_of_pickTipAccount {draw : ℕ} {account : Pubkey}
    (h : ex.pickTipAccount ext draw = .ok account) :
    ∃ text ∈ ex.jito.tipAccounts, ext.codecs.parsePubkey text = .ok account := by
  unfold Executor.pickTipAccount at h
  cases hget : ex.jito.tipAccounts[draw % ex.jito.tipAccounts.length]? with
  | none => simp [hget] at h
  | some text =>
    rw [hget] at h
    exact ⟨text, List.mem_of_getElem? hget, h⟩

/-! ### One attempt, and the direct path -/

/-- An attempt once it has a tip account and a blockhash. -/
lemma bundle_eq {j : ℕ} {account : Pubkey} {hash : Hash}
    (htip : ex.pickTipAccount ext (w.bundle j).tip = .ok account)
    (hhash : (w.bundle j).blockhash = .ok hash) :
    let tx : Transaction :=
      ⟨ext.pubkey wallet, computeBudget ex ++ tipTo ext ex wallet account, hash⟩
    bundle ext ex w event wallet j =
      match ext.serialize tx with
      | .error _ => ⟨[.getLatestBlockhash, .sign tx], .error "serialize tx"⟩
      | .ok bytes =>
        ⟨[.getLatestBlockhash, .sign tx,
            .postBundle s!"{trimEndSlashes ex.jito.blockEngineUrl}/api/v1/bundles"
              (bundleRequest (ext.base64 bytes)) tx (w.bundle j).accepted],
          (readResponse ext (w.bundle j).response).map
            (.bundleSubmitted · (ext.signature wallet tx))⟩ := by
  intro tx
  unfold bundle Executor.submitBundle
  have hixs : ex.buildBuyInstructions event (ext.pubkey wallet) account
      (solToLamports ex.jito.tipSol) = .ok (computeBudget ex ++ tipTo ext ex wallet account) :=
    buildBuyInstructions_eq ex event _ account _
  rw [htip, hhash]
  simp only [lift_ok_bind, tell_bind, withContext, hixs]
  change Logged.mk (_ :: _ :: Logged.log (lift (withContext (ext.serialize tx) _) >>= _))
    (Logged.result (lift (withContext (ext.serialize tx) _) >>= _)) = _
  cases ext.serialize tx with
  | error e => rfl
  | ok bytes =>
    cases readResponse ext (w.bundle j).response with
    | error e => rfl
    | ok id => rfl

omit [F64 F] in
/-- The direct path once it has a blockhash. -/
lemma direct_eq {hash : Hash} (hhash : w.direct.blockhash = .ok hash) :
    let tx : Transaction := ⟨ext.pubkey wallet, computeBudget ex, hash⟩
    direct ext ex w event wallet =
      ⟨[.getLatestBlockhash, .sign tx, .sendTransaction tx w.direct.accepted],
        (withContext w.direct.response "send direct transaction").map .directSubmitted⟩ := by
  intro tx
  unfold direct Executor.submitDirect
  rw [hhash]
  have hixs := buildBuyInstructions_eq ex event (ext.pubkey wallet) .default 0
  rw [if_neg (lt_irrefl 0), List.append_nil] at hixs
  simp only [lift_ok_bind, tell_bind, withContext, hixs]
  cases w.direct.response with
  | error e => rfl
  | ok signature => rfl

/-- An attempt gets no further than its blockhash, or has a transaction to sign and to post. -/
lemma log_bundle_cases (j : ℕ) :
    (bundle ext ex w event wallet j).log <+: [.getLatestBlockhash] ∨
      ∃ tx url request, BundleTx ext ex w wallet j tx ∧ (bundle ext ex w event wallet j).log <+:
        [.getLatestBlockhash, .sign tx, .postBundle url request tx (w.bundle j).accepted] := by
  cases htip : ex.pickTipAccount ext (w.bundle j).tip with
  | error e =>
    left
    unfold bundle Executor.submitBundle
    rw [htip]
    exact List.nil_prefix
  | ok account =>
    cases hhash : (w.bundle j).blockhash with
    | error e =>
      left
      unfold bundle Executor.submitBundle
      rw [htip, hhash]
      exact List.prefix_rfl
    | ok hash =>
      right
      obtain ⟨text, htext, hparse⟩ := mem_of_pickTipAccount ext ex htip
      have htx : BundleTx ext ex w wallet j
          ⟨ext.pubkey wallet, computeBudget ex ++ tipTo ext ex wallet account, hash⟩ :=
        ⟨rfl, hhash, text, htext, account, hparse, rfl⟩
      rw [bundle_eq ext ex w event wallet htip hhash]
      cases ext.serialize
          ⟨ext.pubkey wallet, computeBudget ex ++ tipTo ext ex wallet account, hash⟩ with
      | error e => exact ⟨_, "", .null, htx, List.prefix_append [_, _] [_]⟩
      | ok bytes => exact ⟨_, _, _, htx, List.prefix_rfl⟩

omit [F64 F] in
lemma log_direct_cases :
    (direct ext ex w event wallet).log <+: [.getLatestBlockhash] ∨
      ∃ tx, DirectTx ext ex w wallet tx ∧ (direct ext ex w event wallet).log <+:
        [.getLatestBlockhash, .sign tx, .sendTransaction tx w.direct.accepted] := by
  cases hhash : w.direct.blockhash with
  | error e =>
    left
    unfold direct Executor.submitDirect
    rw [hhash]
    exact List.prefix_rfl
  | ok hash =>
    right
    rw [direct_eq ext ex w event wallet hhash]
    exact ⟨⟨ext.pubkey wallet, computeBudget ex, hash⟩, ⟨rfl, hhash, rfl⟩, List.prefix_rfl⟩

/-- An attempt does not sleep before it has failed. -/
lemma attempts_bundle (j : ℕ) : attempts (bundle ext ex w event wallet j).log = 0 := by
  rcases log_bundle_cases ext ex w event wallet j with hshort | ⟨tx, url, request, -, hfull⟩
  · exact attempts_of_prefix hshort rfl
  · exact attempts_of_prefix hfull rfl

variable {ext ex w event wallet}

/-- A blockhash, a signature, and what is submitted on it. -/
lemma placed_signed {v submitted : List Act} {tx : Transaction} (hv : Begun v)
    (htx : attempts v ≤ ex.jito.maxBundleRetries.toNat ∧ BundleTx ext ex w wallet (attempts v) tx ∨
      attempts v = ex.jito.maxBundleRetries.toNat + 1 ∧ DirectTx ext ex w wallet tx)
    (h : Placed (fun u => Proper ext ex w event wallet (v ++ .getLatestBlockhash :: .sign tx :: u))
      submitted) :
    Placed (fun u => Proper ext ex w event wallet (v ++ u))
      (.getLatestBlockhash :: .sign tx :: submitted) := by
  have hle : attempts v ≤ ex.jito.maxBundleRetries.toNat + 1 := by
    rcases htx with ⟨hle, -⟩ | ⟨heq, -⟩ <;> omega
  refine Placed.cons_iff.mpr ⟨?_, Placed.cons_iff.mpr ⟨⟨List.suffix_append v _, ?_⟩, h⟩⟩
  · rw [List.append_nil]
    exact ⟨hv, hle⟩
  · rw [attempts_append]
    exact htx

/-- The next attempt. -/
lemma placed_bundle {v : List Act} {j : ℕ} (hv : Begun v) (hcount : attempts v = j)
    (hle : j ≤ ex.jito.maxBundleRetries.toNat) :
    Placed (fun u => Proper ext ex w event wallet (v ++ u))
      (bundle ext ex w event wallet j).log := by
  subst hcount
  cases htip : ex.pickTipAccount ext (w.bundle (attempts v)).tip with
  | error e =>
    unfold bundle Executor.submitBundle
    rw [htip]
    exact Placed.nil
  | ok account =>
    cases hhash : (w.bundle (attempts v)).blockhash with
    | error e =>
      unfold bundle Executor.submitBundle
      rw [htip, hhash]
      refine Placed.cons_iff.mpr ⟨?_, Placed.nil⟩
      rw [List.append_nil]
      exact ⟨hv, hle.trans (Nat.le_succ _)⟩
    | ok hash =>
      obtain ⟨text, hmem, hparse⟩ := mem_of_pickTipAccount ext ex htip
      have htx : BundleTx ext ex w wallet (attempts v)
          ⟨ext.pubkey wallet, computeBudget ex ++ tipTo ext ex wallet account, hash⟩ :=
        ⟨rfl, hhash, text, hmem, account, hparse, rfl⟩
      rw [bundle_eq ext ex w event wallet htip hhash]
      cases hser : ext.serialize
          ⟨ext.pubkey wallet, computeBudget ex ++ tipTo ext ex wallet account, hash⟩ with
      | error e => exact placed_signed hv (.inl ⟨hle, htx⟩) Placed.nil
      | ok bytes =>
        refine placed_signed hv (.inl ⟨hle, htx⟩) (Placed.cons_iff.mpr ⟨?_, Placed.nil⟩)
        refine ⟨List.suffix_append v _, rfl, ⟨bytes, hser, rfl⟩, ?_⟩
        rw [attempts_append]
        exact ⟨hle, htx, rfl⟩

lemma placed_direct {v : List Act} (hv : Begun v)
    (hall : attempts v = ex.jito.maxBundleRetries.toNat + 1) :
    Placed (fun u => Proper ext ex w event wallet (v ++ u)) (direct ext ex w event wallet).log := by
  cases hhash : w.direct.blockhash with
  | error e =>
    unfold direct Executor.submitDirect
    rw [hhash]
    refine Placed.cons_iff.mpr ⟨?_, Placed.nil⟩
    rw [List.append_nil]
    exact ⟨hv, hall.le⟩
  | ok hash =>
    have htx : DirectTx ext ex w wallet ⟨ext.pubkey wallet, computeBudget ex, hash⟩ :=
      ⟨rfl, hhash, rfl⟩
    rw [direct_eq ext ex w event wallet hhash]
    refine placed_signed hv (.inr ⟨hall, htx⟩) (Placed.cons_iff.mpr ⟨?_, Placed.nil⟩)
    refine ⟨List.suffix_append v _, ?_⟩
    rw [attempts_append]
    exact ⟨hall, htx, rfl⟩

/-! ### The whole buy -/

/-- All bundle attempts have failed. -/
def BundlesFailed (ext : Crates K) (ex : Executor F) (w : World) (event : LaunchEvent)
    (wallet : K) : Prop :=
  ∀ j ≤ ex.jito.maxBundleRetries.toNat, (bundle ext ex w event wallet j).Failed

lemma callLog_ok {j : ℕ} {outcome : BuyOutcome F}
    (h : (bundle ext ex w event wallet j).result = .ok outcome) :
    callLog ext ex w event wallet (.submitBundle j) = (bundle ext ex w event wallet j).log := by
  simp only [callLog, h]

lemma callLog_failed {j : ℕ} (hj : j ≤ ex.jito.maxBundleRetries.toNat)
    (h : (bundle ext ex w event wallet j).Failed) :
    callLog ext ex w event wallet (.submitBundle j) =
      (bundle ext ex w event wallet j).log ++ [.sleep (200 * (j + 1))] := by
  obtain ⟨e, he⟩ := h
  simp only [callLog, he, (backoff_eq ex.jito.maxBundleRetries hj).2]

/-- Where `k` attempts have failed, `k` attempts are counted. -/
lemma begun_bundles {k : ℕ} (hk : k ≤ ex.jito.maxBundleRetries.toNat + 1)
    (hfailed : ∀ j < k, (bundle ext ex w event wallet j).Failed) :
    Begun ((bundles k).flatMap (callLog ext ex w event wallet)) ∧
      attempts ((bundles k).flatMap (callLog ext ex w event wallet)) = k := by
  induction k with
  | zero => exact ⟨.inl rfl, rfl⟩
  | succ k ih =>
    obtain ⟨-, hcount⟩ := ih (by omega) fun j hj => hfailed j (by omega)
    have hlog := callLog_failed (Nat.le_of_lt_succ hk) (hfailed k (Nat.lt_succ_self k))
    rw [bundles_succ, List.flatMap_append, List.flatMap_singleton, hlog]
    refine ⟨?_, ?_⟩
    · rw [← List.append_assoc]
      exact Begun.slept _ _
    · rw [attempts_append, attempts_append, hcount, attempts_bundle, zero_add]
      rfl

/-- The acts of a call are in their places after those of the calls before it. -/
def CallPlaced (ext : Crates K) (ex : Executor F) (w : World) (event : LaunchEvent) (wallet : K)
    (before : List Call) (call : Call) : Prop :=
  Placed (fun u => Proper ext ex w event wallet
    (before.flatMap (callLog ext ex w event wallet) ++ u)) (callLog ext ex w event wallet call)

/-- A bundle attempt, with its sleep if it fails, after the attempts before it. -/
lemma placed_attempt {j : ℕ} (hj : j ≤ ex.jito.maxBundleRetries.toNat)
    (hfailed : ∀ i < j, (bundle ext ex w event wallet i).Failed) :
    CallPlaced ext ex w event wallet (bundles j) (.submitBundle j) := by
  obtain ⟨hbegun, hcount⟩ := begun_bundles (hj.trans (Nat.le_succ _)) hfailed
  have hplaced : Placed (fun u => Proper ext ex w event wallet
      ((bundles j).flatMap (callLog ext ex w event wallet) ++ u))
      (bundle ext ex w event wallet j).log := placed_bundle hbegun hcount hj
  unfold CallPlaced
  cases hresult : (bundle ext ex w event wallet j).result with
  | ok outcome =>
    rw [callLog_ok hresult]
    exact hplaced
  | error e =>
    have hfail : (bundle ext ex w event wallet j).Failed := ⟨e, hresult⟩
    rw [callLog_failed hj hfail]
    refine Placed.concat_iff.mpr ⟨hplaced, ?_⟩
    unfold Proper
    rw [attempts_append, hcount, attempts_bundle, add_zero]
    exact ⟨⟨_, hbegun, rfl⟩, hj, rfl, hfail⟩

lemma placed_bundles {k : ℕ} (hk : k ≤ ex.jito.maxBundleRetries.toNat + 1)
    (hfailed : ∀ j, j + 1 < k → (bundle ext ex w event wallet j).Failed) :
    Placed (CallPlaced ext ex w event wallet) (bundles k) := by
  induction k with
  | zero => exact Placed.nil
  | succ k ih =>
    rw [bundles_succ]
    refine Placed.concat_iff.mpr ⟨ih (by omega) fun j hj => hfailed j (by omega), ?_⟩
    exact placed_attempt (Nat.le_of_lt_succ hk) fun j hj => hfailed j (by omega)

/-- The direct path comes after all attempts. -/
lemma placed_fallback (hfailed : BundlesFailed ext ex w event wallet) :
    Placed (CallPlaced ext ex w event wallet)
      (bundles (ex.jito.maxBundleRetries.toNat + 1) ++ [.submitDirect]) := by
  obtain ⟨hbegun, hcount⟩ := begun_bundles le_rfl fun j hj => hfailed j (by omega)
  refine Placed.concat_iff.mpr ⟨placed_bundles le_rfl fun j hj => hfailed j (by omega), ?_⟩
  exact placed_direct hbegun hcount

lemma placed_course {calls : List Call} {outcome : BuyOutcome F}
    (h : Course ext ex w event wallet calls outcome) :
    Placed (Proper ext ex w event wallet) (calls.flatMap (callLog ext ex w event wallet)) := by
  refine Placed.flatMap_iff.mpr ?_
  cases h with
  | bundled k outcome hk hfailed hok =>
    exact placed_bundles (by omega) fun j hj => hfailed j (by omega)
  | direct outcome hfailed hok => exact placed_fallback hfailed
  | dropped bundleErr directErr hfailed hresult herr => exact placed_fallback hfailed

/-- Every act of a buy has its place. -/
lemma placed_buy (ext : Crates K) (ex : Executor F) (w : World) (event : LaunchEvent)
    (wallet : K) : Placed (Proper ext ex w event wallet) (ex.buy ext w event wallet).log := by
  cases hmode : ex.mode with
  | dryRun =>
    obtain ⟨summary, hbuy⟩ := dryRun_eq ext ex event hmode
    rw [hbuy w wallet]
    exact Placed.nil
  | live =>
    obtain ⟨calls, outcome, hcourse, -, hlog⟩ := live_course ext ex w event wallet hmode
    rw [hlog]
    exact placed_course hcourse

/-! ### The outcome -/

/-- A bundle attempt that succeeds has posted its bundle, and read a success. -/
lemma bundle_ok {j : ℕ} {outcome : BuyOutcome F}
    (h : (bundle ext ex w event wallet j).result = .ok outcome) :
    ∃ tx id url request, BundleTx ext ex w wallet j tx ∧
      readResponse ext (w.bundle j).response = .ok id ∧
      outcome = .bundleSubmitted id (ext.signature wallet tx) ∧
      (bundle ext ex w event wallet j).log =
        [.getLatestBlockhash, .sign tx, .postBundle url request tx (w.bundle j).accepted] := by
  cases htip : ex.pickTipAccount ext (w.bundle j).tip with
  | error e =>
    unfold bundle Executor.submitBundle at h
    rw [htip] at h
    cases h
  | ok account =>
    cases hhash : (w.bundle j).blockhash with
    | error e =>
      unfold bundle Executor.submitBundle at h
      rw [htip, hhash] at h
      cases h
    | ok hash =>
      obtain ⟨text, hmem, hparse⟩ := mem_of_pickTipAccount ext ex htip
      rw [bundle_eq ext ex w event wallet htip hhash] at h ⊢
      cases hser : ext.serialize
          ⟨ext.pubkey wallet, computeBudget ex ++ tipTo ext ex wallet account, hash⟩ with
      | error e =>
        rw [hser] at h
        cases h
      | ok bytes =>
        rw [hser] at h
        cases hread : readResponse ext (w.bundle j).response with
        | error e =>
          rw [hread] at h
          cases h
        | ok id =>
          rw [hread] at h
          obtain rfl := Except.ok.inj h
          exact ⟨_, id, _, _, ⟨rfl, hhash, text, hmem, account, hparse, rfl⟩, rfl, rfl, rfl⟩

omit [F64 F] in
/-- The direct path that succeeds has sent its transaction. -/
lemma direct_ok {outcome : BuyOutcome F}
    (h : (direct ext ex w event wallet).result = .ok outcome) :
    ∃ tx signature, DirectTx ext ex w wallet tx ∧ w.direct.response = .ok signature ∧
      outcome = .directSubmitted signature ∧
      (direct ext ex w event wallet).log =
        [.getLatestBlockhash, .sign tx, .sendTransaction tx w.direct.accepted] := by
  cases hhash : w.direct.blockhash with
  | error e =>
    unfold direct Executor.submitDirect at h
    rw [hhash] at h
    cases h
  | ok hash =>
    rw [direct_eq ext ex w event wallet hhash] at h ⊢
    cases hresponse : w.direct.response with
    | error e =>
      rw [hresponse] at h
      cases h
    | ok signature =>
      rw [hresponse] at h
      obtain rfl := Except.ok.inj h
      exact ⟨_, signature, ⟨rfl, hhash, rfl⟩, rfl, rfl, rfl⟩

/-- What an outcome says of the buy that returned it. -/
def Told (ext : Crates K) (ex : Executor F) (w : World) (event : LaunchEvent) (wallet : K)
    (log : List Act) : BuyOutcome F → Prop
  | .bundleSubmitted id signature => ∃ j ≤ ex.jito.maxBundleRetries.toNat,
      (∀ i < j, (bundle ext ex w event wallet i).Failed) ∧ ∃ tx url request before,
      log = before ++ [.postBundle url request tx (w.bundle j).accepted] ∧ attempts before = j ∧
      BundleTx ext ex w wallet j tx ∧ signature = ext.signature wallet tx ∧
      readResponse ext (w.bundle j).response = .ok id
  | .directSubmitted signature => BundlesFailed ext ex w event wallet ∧ ∃ tx before,
      log = before ++ [.sendTransaction tx w.direct.accepted] ∧ DirectTx ext ex w wallet tx ∧
      w.direct.response = .ok signature
  | .simulated _ => ex.mode = .dryRun ∧ log = []
  | .dropped _ => BundlesFailed ext ex w event wallet ∧ (direct ext ex w event wallet).Failed

lemma told_of_course {calls : List Call} {outcome : BuyOutcome F}
    (h : Course ext ex w event wallet calls outcome) :
    Told ext ex w event wallet (calls.flatMap (callLog ext ex w event wallet)) outcome := by
  cases h with
  | bundled k outcome hk hfailed hok =>
    obtain ⟨tx, id, url, request, htx, hread, rfl, hlog⟩ := bundle_ok hok
    obtain ⟨-, hcount⟩ := begun_bundles (hk.trans (Nat.le_succ _)) hfailed
    refine ⟨k, hk, hfailed, tx, url, request, (bundles k).flatMap (callLog ext ex w event wallet) ++
      [.getLatestBlockhash, .sign tx], ?_, ?_, htx, rfl, hread⟩
    · rw [bundles_succ, List.flatMap_append, List.flatMap_singleton, callLog_ok hok, hlog,
        List.append_assoc]
      rfl
    · rw [attempts_append, hcount]
      rfl
  | direct outcome hfailed hok =>
    obtain ⟨tx, signature, htx, hresponse, rfl, hlog⟩ := direct_ok hok
    refine ⟨hfailed, tx, (bundles (ex.jito.maxBundleRetries.toNat + 1)).flatMap
      (callLog ext ex w event wallet) ++ [.getLatestBlockhash, .sign tx], ?_, htx, hresponse⟩
    rw [List.flatMap_append, List.flatMap_singleton, callLog, hlog, List.append_assoc]
    rfl
  | dropped bundleErr directErr hfailed hlast herr => exact ⟨hfailed, directErr, herr⟩

/-- The outcome tells how the buy went. -/
lemma told_buy (ext : Crates K) (ex : Executor F) (w : World) (event : LaunchEvent)
    (wallet : K) : ∃ outcome, (ex.buy ext w event wallet).result = .ok outcome ∧
      Told ext ex w event wallet (ex.buy ext w event wallet).log outcome := by
  cases hmode : ex.mode with
  | dryRun =>
    obtain ⟨summary, hbuy⟩ := dryRun_eq ext ex event hmode
    rw [hbuy w wallet]
    exact ⟨_, rfl, hmode, rfl⟩
  | live =>
    obtain ⟨calls, outcome, hcourse, hresult, hlog⟩ := live_course ext ex w event wallet hmode
    rw [hlog]
    exact ⟨outcome, hresult, told_of_course hcourse⟩

/-- **What a buy signs, submits and tells.** Each transaction is paid by the wallet of the buy, and
made of the compute budget and, for a bundle whose tip is not nothing, a transfer of the tip to a
configured account; its blockhash is the one its own attempt fetched, and that is the attempt next
to those that have slept before. It is signed right after that blockhash was fetched, and submitted
right after it was signed, to the block engine in the encoding of its own bytes, or directly once
every attempt has slept. A sleep comes right after all that its attempt did, which failed. A bundle
is reported when it was the last thing done, its answer was the first to be read as a success, and
the signature is that of its transaction; a direct transaction when it was the last thing done and
the node answered with that signature, after every bundle had failed; a drop when every bundle and
the direct path have failed; a simulation in a dry run, which does nothing. -/
theorem buy_told (ext : Crates K) (ex : Executor F) (w : World) (event : LaunchEvent) (wallet : K) :
    Placed (Proper ext ex w event wallet) (ex.buy ext w event wallet).log ∧
      ∃ outcome, (ex.buy ext w event wallet).result = .ok outcome ∧
        Told ext ex w event wallet (ex.buy ext w event wallet).log outcome :=
  ⟨placed_buy ext ex w event wallet, told_buy ext ex w event wallet⟩

end Buy

end NovaSniper.Transactions
