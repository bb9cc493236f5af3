import NovaSniper.EndToEnd
import NovaSniper.TaskRuns
import NovaSniper.Transactions

/-!
What buys cost: how often they submit, how long they sleep, and what they transfer.

Of each call of a buy it is known what it does, so that a price for the acts gives a price for a
buy. Over a whole run that makes a budget: what all tasks have spent, and what those still at work
may yet spend, is bounded by the launches received.
-/

namespace NovaSniper.Budget

open NovaSniper.FloatOps NovaSniper.Detector NovaSniper.Executor NovaSniper.BuyOnce
open NovaSniper.BuyProtocol NovaSniper.Transactions NovaSniper.Wallet NovaSniper.Startup
open NovaSniper.System NovaSniper.EndToEnd NovaSniper.TaskRuns NovaSniper.Lib.Transition
open NovaSniper.Lib.Transition.LTS NovaSniper.Lib.Parties NovaSniper.Lib.Retry
open NovaSniper.Lib.Retry.Logged NovaSniper.Lib.Fallible

/-! ### One buy -/

/-- The submissions in a log. -/
def submissions (log : List Act) : ℕ := log.countP Act.submits

def millisOf : Act → ℕ
  | .sleep millis => millis
  | _ => 0

/-- The milliseconds slept in a log. -/
def slept (log : List Act) : ℕ := (log.map millisOf).sum

lemma submissions_append (l l' : List Act) :
    submissions (l ++ l') = submissions l + submissions l' := List.countP_append

lemma slept_append (l l' : List Act) : slept (l ++ l') = slept l + slept l' := by
  simp [slept]

section Buy

variable {F K : Type} [F64 F] (ext : Crates K) (ex : Executor F) (w : World)
  (event : LaunchEvent) (wallet : K)

lemma bounds_of_prefix {l l' : List Act} (h : l <+: l') (hsubmits : submissions l' ≤ 1)
    (hslept : slept l' = 0) : submissions l ≤ 1 ∧ slept l = 0 := by
  refine ⟨h.sublist.countP_le.trans hsubmits, Nat.eq_zero_of_le_zero ?_⟩
  rw [← hslept]
  exact (h.sublist.map millisOf).sum_le_sum fun _ _ => Nat.zero_le _

lemma bounds_bundle (j : ℕ) :
    submissions (bundle ext ex w event wallet j).log ≤ 1 ∧
    slept (bundle ext ex w event wallet j).log = 0 := by
  rcases log_bundle_cases ext ex w event wallet j with hshort | ⟨tx, url, request, -, hfull⟩
  · exact bounds_of_prefix hshort (Nat.zero_le _) rfl
  · exact bounds_of_prefix hfull le_rfl rfl

omit [F64 F] in
lemma bounds_direct :
    submissions (direct ext ex w event wallet).log ≤ 1 ∧
    slept (direct ext ex w event wallet).log = 0 := by
  rcases log_direct_cases ext ex w event wallet with hshort | ⟨tx, -, hfull⟩
  · exact bounds_of_prefix hshort (Nat.zero_le _) rfl
  · exact bounds_of_prefix hfull le_rfl rfl

/-- One attempt with the sleep after it, if it has failed. -/
lemma bounds_attempt {j : ℕ} (hj : j ≤ ex.jito.maxBundleRetries.toNat) :
    submissions (callLog ext ex w event wallet (.submitBundle j)) ≤ 1 ∧
      ((bundle ext ex w event wallet j).Failed →
        slept (callLog ext ex w event wallet (.submitBundle j)) = 200 * (j + 1)) ∧
      (¬ (bundle ext ex w event wallet j).Failed →
        slept (callLog ext ex w event wallet (.submitBundle j)) = 0) := by
  obtain ⟨hsubmits, hslept⟩ := bounds_bundle ext ex w event wallet j
  cases hresult : (bundle ext ex w event wallet j).result with
  | ok outcome =>
    rw [callLog_ok hresult]
    have hok : ¬ (bundle ext ex w event wallet j).Failed := not_failed.mpr ⟨outcome, hresult⟩
    exact ⟨hsubmits, fun h => absurd h hok, fun _ => hslept⟩
  | error e =>
    have hfail : (bundle ext ex w event wallet j).Failed := ⟨e, hresult⟩
    rw [callLog_failed hj hfail, submissions_append, slept_append, hslept, zero_add]
    exact ⟨hsubmits, fun _ => rfl, fun h => absurd hfail h⟩

/-- The first `k` attempts, where all of them have failed. -/
lemma bounds_bundles {k : ℕ} (hk : k ≤ ex.jito.maxBundleRetries.toNat + 1)
    (hfailed : ∀ j < k, (bundle ext ex w event wallet j).Failed) :
    submissions ((bundles k).flatMap (callLog ext ex w event wallet)) ≤ k ∧
      slept ((bundles k).flatMap (callLog ext ex w event wallet)) = 100 * k * (k + 1) := by
  induction k with
  | zero => exact ⟨le_rfl, rfl⟩
  | succ k ih =>
    obtain ⟨hsubmits, hslept⟩ := ih (by omega) fun j hj => hfailed j (by omega)
    obtain ⟨hone, hsleep, -⟩ := bounds_attempt ext ex w event wallet
      (Nat.le_of_lt_succ hk)
    rw [bundles_succ, List.flatMap_append, List.flatMap_singleton, submissions_append,
      slept_append, hslept, hsleep (hfailed k (Nat.lt_succ_self k))]
    refine ⟨by omega, ?_⟩
    ring

/-- **What a live buy costs.** Let `k` be the number of bundle attempts that failed. The buy sleeps
for `100 * k * (k + 1)` milliseconds in all, and submits at most one transaction for each attempt
it makes. -/
theorem live_cost (hlive : ex.mode = .live) : ∃ k ≤ ex.jito.maxBundleRetries.toNat + 1,
    (∀ j < k, (bundle ext ex w event wallet j).Failed) ∧
      (k ≤ ex.jito.maxBundleRetries.toNat → ¬ (bundle ext ex w event wallet k).Failed) ∧
      slept (ex.buy ext w event wallet).log = 100 * k * (k + 1) ∧
      submissions (ex.buy ext w event wallet).log ≤ k + 1 := by
  obtain ⟨calls, outcome, hcourse, -, hlog⟩ := live_course ext ex w event wallet hlive
  -- the direct path, after attempts that have all failed
  have hdirect : (∀ j ≤ ex.jito.maxBundleRetries.toNat, (bundle ext ex w event wallet j).Failed) →
      slept ((bundles (ex.jito.maxBundleRetries.toNat + 1) ++ [Call.submitDirect]).flatMap
          (callLog ext ex w event wallet)) = 100 * (ex.jito.maxBundleRetries.toNat + 1) *
            (ex.jito.maxBundleRetries.toNat + 1 + 1) ∧
        submissions ((bundles (ex.jito.maxBundleRetries.toNat + 1) ++ [Call.submitDirect]).flatMap
          (callLog ext ex w event wallet)) ≤ ex.jito.maxBundleRetries.toNat + 1 + 1 := by
    intro hfailed
    obtain ⟨hsubmits, hslept⟩ := bounds_bundles ext ex w event wallet le_rfl fun j hj =>
      hfailed j (by omega)
    obtain ⟨hone, hnone⟩ := bounds_direct ext ex w event wallet
    rw [List.flatMap_append, List.flatMap_singleton, callLog, slept_append, submissions_append,
      hslept, hnone]
    exact ⟨rfl, by omega⟩
  rw [hlog]
  cases hcourse with
  | bundled k outcome hk hfailed hok =>
    have hdone : ¬ (bundle ext ex w event wallet k).Failed := not_failed.mpr ⟨outcome, hok⟩
    obtain ⟨hsubmits, hslept⟩ := bounds_bundles ext ex w event wallet (by omega) hfailed
    obtain ⟨hone, -, hnone⟩ := bounds_attempt ext ex w event wallet hk
    refine ⟨k, by omega, hfailed, fun _ => hdone, ?_, ?_⟩
    · rw [bundles_succ, List.flatMap_append, List.flatMap_singleton, slept_append, hslept,
        hnone hdone, add_zero]
    · rw [bundles_succ, List.flatMap_append, List.flatMap_singleton, submissions_append]
      omega
  | direct outcome hfailed hok =>
    obtain ⟨hslept, hsubmits⟩ := hdirect hfailed
    exact ⟨_, le_rfl, fun j hj => hfailed j (by omega), fun h => by omega, hslept, hsubmits⟩
  | dropped bundleErr directErr hfailed hlast herr =>
    obtain ⟨hslept, hsubmits⟩ := hdirect hfailed
    exact ⟨_, le_rfl, fun j hj => hfailed j (by omega), fun h => by omega, hslept, hsubmits⟩

end Buy

lemma failed_flaky (j : ℕ) :
    (bundle exampleCrates exampleExecutor flaky exampleLaunch exampleKeypair j).Failed := by
  refine (failed_iff j).mpr fun h => ?_
  obtain ⟨id, hid⟩ := h.2
  cases hid

/-- Four bundles are turned down, with two seconds of sleep, before the direct transaction. -/
theorem live_cost_example :
    let log := (exampleExecutor.buy exampleCrates flaky exampleLaunch exampleKeypair).log
    slept log = 2000 ∧ submissions log ≤ 5 := by
  intro log
  obtain ⟨k, hk, -, hlast, hslept, hsubmits⟩ :=
    live_cost exampleCrates exampleExecutor flaky exampleLaunch exampleKeypair rfl
  have hfour : k = 4 := by
    refine le_antisymm hk (not_lt.mp fun hlt => ?_)
    exact hlast (Nat.le_of_lt_succ hlt) (failed_flaky k)
  subst hfour
  exact ⟨hslept, hsubmits⟩

/-! ### A price for each act -/

section Prices

variable {F K : Type} [F64 F] (ext : Crates K) (ex : Executor F) (w : World)
  (event : LaunchEvent) (wallet : K)

/-- What a log costs. -/
def cost (c : Act → ℕ) (log : List Act) : ℕ := (log.map c).sum

lemma cost_append (c : Act → ℕ) (l l' : List Act) : cost c (l ++ l') = cost c l + cost c l' := by
  simp [cost]

lemma cost_le_of_prefix (c : Act → ℕ) {l l' : List Act} (h : l <+: l') : cost c l ≤ cost c l' := by
  obtain ⟨rest, rfl⟩ := h
  rw [cost_append]
  omega

/-- A bundle attempt costs at most `b`, and the direct path at most `d`. -/
structure Priced (c : Act → ℕ) (b d : ℕ) : Prop where
  attempt : ∀ j tx url request accepted, BundleTx ext ex w wallet j tx →
    c .getLatestBlockhash + c (.sign tx) + c (.postBundle url request tx accepted) +
      cost c (backoff j) ≤ b
  short : ∀ j, c .getLatestBlockhash + cost c (backoff j) ≤ b
  direct : ∀ tx accepted, DirectTx ext ex w wallet tx →
    c .getLatestBlockhash + c (.sign tx) + c (.sendTransaction tx accepted) ≤ d
  shortDirect : c .getLatestBlockhash ≤ d

section Priced

variable {ext ex w wallet} {c : Act → ℕ} {b d : ℕ}

/-- An attempt, with the sleep after it if it has failed. -/
lemma Priced.bundle_le (h : Priced ext ex w wallet c b d) (j : ℕ) :
    cost c (callLog ext ex w event wallet (.submitBundle j)) ≤ b := by
  have hlog : cost c (callLog ext ex w event wallet (.submitBundle j)) ≤
      cost c (bundle ext ex w event wallet j).log + cost c (backoff j) := by
    rw [← cost_append]
    cases hresult : (bundle ext ex w event wallet j).result with
    | ok outcome =>
      simp only [callLog, hresult]
      exact cost_le_of_prefix c (List.prefix_append _ _)
    | error e =>
      simp only [callLog, hresult]
      exact le_rfl
  rcases log_bundle_cases ext ex w event wallet j with hshort | ⟨tx, url, request, htx, hfull⟩
  · have hle := cost_le_of_prefix c hshort
    have hprice := h.short j
    simp only [cost, List.map_singleton, List.sum_singleton] at hle hlog hprice ⊢
    omega
  · have hle := cost_le_of_prefix c hfull
    have hprice := h.attempt j tx url request (w.bundle j).accepted htx
    simp only [cost, List.map_cons, List.map_nil, List.sum_cons, List.sum_nil] at hle hlog hprice ⊢
    omega

lemma Priced.direct_le (h : Priced ext ex w wallet c b d) :
    cost c (callLog ext ex w event wallet .submitDirect) ≤ d := by
  rw [callLog]
  rcases log_direct_cases ext ex w event wallet with hshort | ⟨tx, htx, hfull⟩
  · have hle := cost_le_of_prefix c hshort
    have hprice := h.shortDirect
    simp only [cost, List.map_singleton, List.sum_singleton] at hle ⊢
    omega
  · have hle := cost_le_of_prefix c hfull
    have hprice := h.direct tx w.direct.accepted htx
    simp only [cost, List.map_cons, List.map_nil, List.sum_cons, List.sum_nil] at hle ⊢
    omega

lemma Priced.bundles_le (h : Priced ext ex w wallet c b d) (k : ℕ) :
    cost c ((bundles k).flatMap (callLog ext ex w event wallet)) ≤ k * b := by
  induction k with
  | zero => exact Nat.zero_le _
  | succ k ih =>
    have hone := h.bundle_le event k
    calc cost c ((bundles (k + 1)).flatMap (callLog ext ex w event wallet))
        = cost c ((bundles k).flatMap (callLog ext ex w event wallet)) +
            cost c (callLog ext ex w event wallet (.submitBundle k)) := by
          rw [bundles_succ, List.flatMap_append, List.flatMap_singleton, cost_append]
      _ ≤ k * b + b := Nat.add_le_add ih hone
      _ = (k + 1) * b := (Nat.succ_mul k b).symm

/-- **What a buy costs at most**: its attempts, and the direct path. -/
theorem Priced.buy_le (h : Priced ext ex w wallet c b d) : cost c (ex.buy ext w event wallet).log ≤
    (ex.jito.maxBundleRetries.toNat + 1) * b + d := by
  cases hmode : ex.mode with
  | dryRun =>
    obtain ⟨summary, hbuy⟩ := dryRun_eq ext ex event hmode
    rw [hbuy w wallet]
    exact Nat.zero_le _
  | live =>
    obtain ⟨calls, outcome, hcourse, -, hlog⟩ := live_course ext ex w event wallet hmode
    have hall : cost c ((bundles (ex.jito.maxBundleRetries.toNat + 1) ++
        [Call.submitDirect]).flatMap (callLog ext ex w event wallet)) ≤
          (ex.jito.maxBundleRetries.toNat + 1) * b + d := by
      rw [List.flatMap_append, List.flatMap_singleton, cost_append]
      exact Nat.add_le_add (h.bundles_le event _) (h.direct_le event)
    rw [hlog]
    cases hcourse with
    | bundled k outcome hk hfailed hok =>
      calc cost c ((bundles (k + 1)).flatMap (callLog ext ex w event wallet))
          ≤ (k + 1) * b := h.bundles_le event _
        _ ≤ (ex.jito.maxBundleRetries.toNat + 1) * b :=
          Nat.mul_le_mul_right b (Nat.succ_le_succ hk)
        _ ≤ (ex.jito.maxBundleRetries.toNat + 1) * b + d := Nat.le_add_right _ _
    | direct outcome hfailed hok => exact hall
    | dropped bundleErr directErr hfailed hlast herr => exact hall

end Priced

/-! ### Three prices -/

/-- A submission counts once. -/
def submitPrice (a : Act) : ℕ := if a.submits then 1 else 0

/-- What an instruction moves out of the wallet. -/
def Instruction.lamports : Instruction → ℕ
  | .transfer _ _ lamports => lamports
  | _ => 0

/-- What a submission moves out of the wallet, if it is taken. -/
def lamportsPrice : Act → ℕ
  | .postBundle _ _ tx _ => (tx.instructions.map Instruction.lamports).sum
  | .sendTransaction tx _ => (tx.instructions.map Instruction.lamports).sum
  | _ => 0

lemma priced_submit : Priced ext ex w wallet submitPrice 1 1 where
  attempt _ _ _ _ _ _ := le_rfl
  short _ := Nat.zero_le _
  direct _ _ _ := le_rfl
  shortDirect := Nat.zero_le _

/-- Every act counts once. -/
lemma priced_one : Priced ext ex w wallet (fun _ => 1) 4 3 where
  attempt _ _ _ _ _ _ := le_rfl
  short _ := Nat.le_of_ble_eq_true rfl
  direct _ _ _ := le_rfl
  shortDirect := Nat.le_of_ble_eq_true rfl

/-- Only the tip is moved. -/
lemma priced_lamports : Priced ext ex w wallet lamportsPrice (solToLamports ex.jito.tipSol) 0 where
  attempt j tx url request accepted htx := by
    obtain ⟨-, -, account, -, hixs⟩ := htx.instructions
    have htip : ((tipTo ext ex wallet account).map Instruction.lamports).sum ≤
        solToLamports ex.jito.tipSol := by
      unfold tipTo
      split_ifs with hpos
      · exact le_rfl
      · exact Nat.zero_le _
    simp only [lamportsPrice, hixs, cost, backoff, computeBudget, List.map_append, List.map_cons,
      List.map_nil, Instruction.lamports, List.sum_append, List.sum_cons, List.sum_nil]
    omega
  short j := Nat.zero_le _
  direct tx accepted htx := by
    simp [lamportsPrice, htx.instructions, computeBudget, Instruction.lamports]
  shortDirect := le_rfl

/-- A buy makes at most two more calls than the retries. -/
lemma length_buy_le :
    (ex.buy ext w event wallet).log.length ≤ 4 * (ex.jito.maxBundleRetries.toNat + 2) := by
  have hle := (priced_one ext ex w wallet).buy_le event
  simp only [cost, List.map_const', List.sum_replicate, smul_eq_mul, mul_one] at hle
  omega

end Prices

/-! ### A whole run -/

section Runs

variable {F K : Type}

/-- What a task in this phase may yet spend, when a buy may cost `n`. -/
def ahead (c : Act → ℕ) (n : ℕ) : System.Phase F → ℕ
  | .buying _ todo _ => cost c todo
  | .returning _ _ => 0
  | .done _ => 0
  | .gone _ => 0
  | _ => n

def actPrice (c : Act → ℕ) : TaskAct → ℕ
  | .act a => c a
  | _ => 0

/-- What all tasks have spent in a history. -/
def spent (c : Act → ℕ) (ls : List Label) : ℕ := (ls.map (costBy (actPrice c))).sum

variable [F64 F] {crates : Crates K} {p : Program F K} {c : Act → ℕ} {n : ℕ}

/-- A step of a task spends out of what was ahead. -/
lemma ahead_step (hbuy : ∀ w launch wallet, cost c (p.executor.buy crates w launch wallet).log ≤ n)
    {launch : LaunchEvent} {pool pool' : WalletPool K} {phase next : System.Phase F}
    {a : TaskAct} (h : TaskStep crates p launch pool phase a pool' next) :
    actPrice c a + ahead c n next ≤ ahead c n phase := by
  cases h with
  | prefilter =>
    unfold System.Phase.afterPrefilter
    cases p.filters.prefilter launch <;> simp [actPrice, ahead]
  | evaluate =>
    unfold System.Phase.afterFacts
    cases p.filters.evaluate launch ((fetchLaunchFacts launch).getD .default) <;>
      simp [actPrice, ahead]
  | begin w hk =>
    simp only [actPrice, ahead, zero_add]
    exact hbuy w launch _
  | act => simp [actPrice, ahead, cost]
  | finish => simp [actPrice, ahead]
  | _ => simp [actPrice, ahead]

/-- What was granted was granted once for each task. -/
lemma grants_eq {ls : List Label} {s : State F K} (h : (system crates p).Trace ls s) (n : ℕ) :
    (ls.map (grantBy n)).sum = n * s.tasks.length := by
  have hlen : s.tasks.length = (ls.flatMap spawnedBy).length := by
    rw [← tasks_of_trace h, List.length_map]
  rw [hlen]
  clear h hlen
  induction ls with
  | nil => rfl
  | cons l ls ih =>
    rw [List.map_cons, List.sum_cons, List.flatMap_cons, List.length_append, ih, Nat.mul_add]
    cases l <;> simp [grantBy, spawnedBy]

lemma tasks_le_decoded {ls : List Label} {s : State F K} (h : (system crates p).Trace ls s) :
    s.tasks.length ≤ (ls.flatMap (decodedBy crates p)).length := by
  have hle := (launches_delivered h).length_le
  rwa [List.length_map] at hle

/-- **A budget for each launch.** When a buy may cost `n`, a run spends at most `n` for each launch
of the updates received. -/
theorem spent_le (hbuy : ∀ w launch wallet, cost c (p.executor.buy crates w launch wallet).log ≤ n)
    {ls : List Label} {s : State F K} (h : (system crates p).Trace ls s) :
    spent c ls ≤ n * (ls.flatMap (decodedBy crates p)).length := by
  have hpaid := h.paid (pays_tasks (c := actPrice c) le_rfl fun _ _ _ _ _ _ => ahead_step hbuy)
  rw [grants_eq h] at hpaid
  calc spent c ls ≤ ahead c n (.spawned : System.Phase F) * s.tasks.length :=
        le_of_add_le_left hpaid
    _ ≤ n * (ls.flatMap (decodedBy crates p)).length :=
        Nat.mul_le_mul_left _ (tasks_le_decoded h)

/-- What task `k` has spent in a history. -/
def spentBy (c : Act → ℕ) (k : ℕ) (ls : List Label) : ℕ := ((actsBy k ls).map (actPrice c)).sum

/-- **A budget for each task.** When a buy may cost `n`, no task spends more. -/
theorem spentBy_le (hbuy : ∀ w launch wallet, cost c (p.executor.buy crates w launch wallet).log ≤ n)
    {ls : List Label} {s : State F K} (h : (system crates p).Trace ls s) (k : ℕ) :
    spentBy c k ls ≤ n := by
  have hkept := task_rule
    (P := fun _ acts phase => (acts.map (actPrice c)).sum + ahead c n phase ≤ n)
    (fun _ => (zero_add n).le) (fun launch acts pool phase a pool' next _ hle hstep => ?_) h
  · cases ht : s.tasks[k]? with
    | none =>
      unfold spentBy
      rw [hkept.absent k (List.getElem?_eq_none_iff.mp ht)]
      exact Nat.zero_le n
    | some t => exact le_of_add_le_left (hkept.task k t ht)
  · have hpaid := ahead_step hbuy hstep
    simp only [List.map_append, List.sum_append, List.map_singleton, List.sum_singleton]
    omega

/-- **What a run can cost.** However the tasks take turns and whatever the outside answers: no task
submits more than two transactions above the retries, and what they move out of its wallet, if all
are taken, is at most one tip for each bundle attempt. All tasks together stay within that for each
launch of the updates received. -/
theorem run_costs {ls : List Label} {s : State F K} (h : (system crates p).Trace ls s) :
    (∀ k, spentBy submitPrice k ls ≤ p.executor.jito.maxBundleRetries.toNat + 2 ∧
        spentBy lamportsPrice k ls ≤ (p.executor.jito.maxBundleRetries.toNat + 1) *
          solToLamports p.executor.jito.tipSol) ∧
      spent submitPrice ls ≤ (p.executor.jito.maxBundleRetries.toNat + 2) *
        (ls.flatMap (decodedBy crates p)).length ∧
      spent lamportsPrice ls ≤ (p.executor.jito.maxBundleRetries.toNat + 1) *
        solToLamports p.executor.jito.tipSol * (ls.flatMap (decodedBy crates p)).length := by
  have hsubmit : ∀ w launch wallet, cost submitPrice (p.executor.buy crates w launch wallet).log ≤
      p.executor.jito.maxBundleRetries.toNat + 2 := by
    intro w launch wallet
    have hle := (priced_submit crates p.executor w wallet).buy_le launch
    omega
  have hlamports : ∀ w launch wallet,
      cost lamportsPrice (p.executor.buy crates w launch wallet).log ≤
        (p.executor.jito.maxBundleRetries.toNat + 1) * solToLamports p.executor.jito.tipSol :=
    fun w launch wallet => (priced_lamports crates p.executor w wallet).buy_le launch
  exact ⟨fun k => ⟨spentBy_le hsubmit h k, spentBy_le hlamports h k⟩, spent_le hsubmit h,
    spent_le hlamports h⟩

end Runs

/-- The create of the example is bought with one bundle and its tip. -/
theorem run_costs_example : spentBy submitPrice 0 untilGone = 1 ∧
    spentBy lamportsPrice 0 untilGone = 1000000 ∧ spentBy submitPrice 0 untilGone ≤ 5 ∧
    spent submitPrice untilGone ≤
      5 * (untilGone.flatMap (decodedBy exampleCrates exampleProgram)).length :=
  ⟨by decide +kernel, by decide +kernel, ((run_costs trace_untilGone).1 0).1,
    (run_costs trace_untilGone).2.1⟩

end NovaSniper.Budget
