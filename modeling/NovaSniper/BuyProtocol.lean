import NovaSniper.BuyOnce

/-!
The whole course of one call of `buy`.

In live mode the calls it makes are bundle attempts, each after one that failed, until one
succeeds or the retries are used up; then comes the direct path, once. The course is given
here as the possible sequences of calls with their outcomes, and `buy` is proved to take one
of them, its log being the logs of those calls and nothing else.
-/

namespace NovaSniper.BuyProtocol

open NovaSniper.FloatOps NovaSniper.Config NovaSniper.Detector NovaSniper.Executor
open NovaSniper.BuyOnce NovaSniper.Wallet NovaSniper.Lib.Retry NovaSniper.Lib.Retry.Logged

inductive Call
  | submitBundle (attempt : ℕ)
  | submitDirect
  deriving DecidableEq

section Course

variable {F K : Type} [F64 F] (ext : Crates K) (ex : Executor F) (w : World)
  (event : LaunchEvent) (wallet : K)

/-- The `j`-th bundle attempt. -/
def bundle (j : ℕ) : Logged Act (BuyOutcome F) := ex.submitBundle ext (w.bundle j) event wallet

def direct : Logged Act (BuyOutcome F) := ex.submitDirect ext w.direct event wallet

/-- What a call leaves in the log: a bundle attempt that failed is followed by its sleep. -/
def callLog : Call → List Act
  | .submitBundle j =>
    match (bundle ext ex w event wallet j).result with
    | .ok _ => (bundle ext ex w event wallet j).log
    | .error _ => (bundle ext ex w event wallet j).log ++ backoff j
  | .submitDirect => (direct ext ex w event wallet).log

/-- The first `k` bundle attempts. -/
def bundles (k : ℕ) : List Call := (List.range k).map .submitBundle

def droppedReason (bundleErr directErr : String) : String :=
  s!"jito failed ({bundleErr}); direct fallback failed ({directErr})"

/-- **The courses of a live buy**: its calls, and the outcome it returns. -/
inductive Course : List Call → BuyOutcome F → Prop
  | bundled (k : ℕ) (outcome : BuyOutcome F) (hk : k ≤ ex.jito.maxBundleRetries.toNat)
      (hfailed : ∀ j < k, (bundle ext ex w event wallet j).Failed)
      (hok : (bundle ext ex w event wallet k).result = .ok outcome) :
      Course (bundles (k + 1)) outcome
  | direct (outcome : BuyOutcome F)
      (hfailed : ∀ j ≤ ex.jito.maxBundleRetries.toNat, (bundle ext ex w event wallet j).Failed)
      (hok : (direct ext ex w event wallet).result = .ok outcome) :
      Course (bundles (ex.jito.maxBundleRetries.toNat + 1) ++ [.submitDirect]) outcome
  | dropped (bundleErr directErr : String)
      (hfailed : ∀ j ≤ ex.jito.maxBundleRetries.toNat, (bundle ext ex w event wallet j).Failed)
      (hlast : (bundle ext ex w event wallet ex.jito.maxBundleRetries.toNat).result =
        .error bundleErr)
      (herr : (direct ext ex w event wallet).result = .error directErr) :
      Course (bundles (ex.jito.maxBundleRetries.toNat + 1) ++ [.submitDirect])
        (.dropped (droppedReason bundleErr directErr))

variable {ext ex w event wallet}

lemma flatMap_bundles {k : ℕ} (hfailed : ∀ j < k, (bundle ext ex w event wallet j).Failed) :
    (bundles k).flatMap (callLog ext ex w event wallet) =
      (List.range' 0 k).flatMap (stage (bundle ext ex w event wallet) backoff) := by
  unfold bundles
  rw [List.flatMap_map, List.range_eq_range']
  refine List.flatMap_congr fun j hj => ?_
  have hlt : j < k := by
    rw [← List.range_eq_range'] at hj
    exact List.mem_range.mp hj
  obtain ⟨e, he⟩ := hfailed j hlt
  simp only [callLog, he, stage]

lemma bundles_succ (k : ℕ) : bundles (k + 1) = bundles k ++ [.submitBundle k] := by
  unfold bundles
  rw [List.range_succ, List.map_append, List.map_singleton]

variable (ext ex w event wallet)

omit [F64 F] in
/-- The direct path, as the loop falls back to it. -/
lemma fallback_eq (lastErr : Option String) :
    (ex.fallback ext w.direct event wallet lastErr).log = (direct ext ex w event wallet).log ∧
      (ex.fallback ext w.direct event wallet lastErr).result =
        match (direct ext ex w event wallet).result with
        | .ok outcome => .ok outcome
        | .error e => .ok (.dropped (droppedReason (lastErr.getD "unknown") e)) := by
  refine ⟨fallback_log ext ex w.direct event wallet lastErr, ?_⟩
  unfold Executor.fallback direct
  dsimp only
  cases (ex.submitDirect ext w.direct event wallet).result with
  | error e => rfl
  | ok outcome => rfl

/-- **A live buy takes one of the courses.** -/
theorem live_course (hlive : ex.mode = .live) : ∃ calls outcome,
    Course ext ex w event wallet calls outcome ∧
      (ex.buy ext w event wallet).result = .ok outcome ∧
      (ex.buy ext w event wallet).log = calls.flatMap (callLog ext ex w event wallet) := by
  have hbuy : ex.buy ext w event wallet = retry (bundle ext ex w event wallet) backoff
      (ex.fallback ext w.direct event wallet) 0 (ex.jito.maxBundleRetries.toNat + 1) none := by
    unfold Executor.buy
    rw [hlive]
    rfl
  rw [hbuy]
  rcases retry_cases (bundle ext ex w event wallet) backoff
    (ex.fallback ext w.direct event wallet) 0 (ex.jito.maxBundleRetries.toNat + 1) none with
    ⟨k, hk, hfailed, hok, heq⟩ | ⟨hfailed, last, -, hlast, heq⟩
  · -- attempt `k` is the first that succeeds
    simp only [zero_add] at hfailed hok heq
    obtain ⟨outcome, hout⟩ := not_failed.mp hok
    refine ⟨bundles (k + 1), outcome, .bundled k outcome (by omega) hfailed hout, ?_, ?_⟩
    · rw [heq]
      exact hout
    · have hone : callLog ext ex w event wallet (.submitBundle k) =
          (bundle ext ex w event wallet k).log := by
        simp only [callLog, hout]
      rw [heq, bundles_succ, List.flatMap_append, flatMap_bundles hfailed,
        List.flatMap_singleton, hone]
  · -- every attempt fails; the loop hands the last error over
    simp only [zero_add] at hfailed hlast heq
    have hall : ∀ j ≤ ex.jito.maxBundleRetries.toNat, (bundle ext ex w event wallet j).Failed :=
      fun j hj => hfailed j (by omega)
    obtain ⟨err, herr⟩ := hall _ le_rfl
    obtain ⟨hlog, hresult⟩ := fallback_eq ext ex w event wallet last
    have hflat : (bundles (ex.jito.maxBundleRetries.toNat + 1) ++ [Call.submitDirect]).flatMap
        (callLog ext ex w event wallet) =
        (List.range' 0 (ex.jito.maxBundleRetries.toNat + 1)).flatMap
            (stage (bundle ext ex w event wallet) backoff) ++
          (direct ext ex w event wallet).log := by
      rw [List.flatMap_append, flatMap_bundles hfailed, List.flatMap_singleton]
      rfl
    have herror : last = some err := hlast _ err rfl herr
    rw [heq, hlog, hresult, herror]
    cases hdirect : (direct ext ex w event wallet).result with
    | ok outcome => exact ⟨_, outcome, .direct outcome hall hdirect, rfl, hflat.symm⟩
    | error e => exact ⟨_, _, .dropped err e hall herr hdirect, rfl, hflat.symm⟩

/-- A dry run does nothing, whatever the environment and the wallet are. -/
lemma dryRun_eq (hdry : ex.mode = .dryRun) : ∃ summary, ∀ w' wallet',
    ex.buy ext w' event wallet' = ⟨[], .ok (.simulated summary)⟩ := by
  unfold Executor.buy
  rw [hdry]
  exact ⟨_, fun _ _ => rfl⟩

end Course

/-- No retry count makes the sleep overflow its word. -/
lemma backoff_eq (retries : UInt32) {j : ℕ} (hj : j ≤ retries.toNat) :
    200 * (j + 1) < 2 ^ 64 ∧ backoff j = [.sleep (200 * (j + 1))] := by
  have hword : retries.toNat < 2 ^ 32 := retries.toNat_lt
  have hlt : 200 * (j + 1) < 2 ^ 64 := by omega
  refine ⟨hlt, ?_⟩
  unfold backoff
  rw [Nat.mod_eq_of_lt hlt]

/-- **The retry protocol of `buy`.** A dry run is simulated, without a trace. A live buy takes
one of the courses, and its log is the logs of the calls of that course. It never fails, and
no sleep between its attempts overflows. -/
theorem buy_protocol {F K : Type} [F64 F] (ext : Crates K) (ex : Executor F) (w : World)
    (event : LaunchEvent) (wallet : K) :
    (ex.mode = .dryRun → ∃ summary, ∀ w' wallet',
        ex.buy ext w' event wallet' = ⟨[], .ok (.simulated summary)⟩) ∧
      (ex.mode = .live → ∃ calls outcome, Course ext ex w event wallet calls outcome ∧
        (ex.buy ext w event wallet).result = .ok outcome ∧
        (ex.buy ext w event wallet).log = calls.flatMap (callLog ext ex w event wallet)) ∧
      (∃ outcome, (ex.buy ext w event wallet).result = .ok outcome) ∧
      ∀ j ≤ ex.jito.maxBundleRetries.toNat,
        200 * (j + 1) < 2 ^ 64 ∧ backoff j = [.sleep (200 * (j + 1))] := by
  refine ⟨dryRun_eq ext ex event, live_course ext ex w event wallet, ?_, fun j => backoff_eq _⟩
  cases hmode : ex.mode with
  | dryRun =>
    obtain ⟨summary, hsim⟩ := dryRun_eq ext ex event hmode
    exact ⟨_, congrArg Logged.result (hsim w wallet)⟩
  | live =>
    obtain ⟨-, outcome, -, hresult, -⟩ := live_course ext ex w event wallet hmode
    exact ⟨outcome, hresult⟩

/-- Four bundles are turned down, and the direct transaction goes out. -/
theorem buy_protocol_example : ∃ calls outcome,
    Course exampleCrates exampleExecutor flaky exampleLaunch exampleKeypair calls outcome ∧
      (exampleExecutor.buy exampleCrates flaky exampleLaunch exampleKeypair).result =
        .ok outcome := by
  obtain ⟨calls, outcome, hcourse, hresult, -⟩ :=
    (buy_protocol exampleCrates exampleExecutor flaky exampleLaunch exampleKeypair).2.1 rfl
  exact ⟨calls, outcome, hcourse, hresult⟩

end NovaSniper.BuyProtocol
