import NovaSniper.Budget
import NovaSniper.Custody
import NovaSniper.InFlight

/-!
Left to itself, the program brings every launch it has received to its end.

No task ever waits for another: whatever the others do, a task that has not ended has a step of
its own, and it ends after a bounded number of them. So a permit that the loop waits for comes
back, and once no more updates arrive, the launches on their way become tasks and the tasks end,
in whatever order the scheduler runs them.
-/

namespace NovaSniper.Completion

open NovaSniper.FloatOps NovaSniper.Config NovaSniper.Detector NovaSniper.Filters
open NovaSniper.Wallet NovaSniper.Executor NovaSniper.ListenerTask NovaSniper.Main
open NovaSniper.Startup NovaSniper.System NovaSniper.SystemRefines NovaSniper.Concurrency
open NovaSniper.EndToEnd NovaSniper.TaskRuns NovaSniper.Budget NovaSniper.Custody
open NovaSniper.BuyOnce NovaSniper.InFlight NovaSniper.Lib.Transition
open NovaSniper.Lib.Transition.LTS NovaSniper.Lib.Parties

variable {F K : Type}

/-! ### The steps of a task -/

/-- How many steps a task in this phase has yet to take at most, with `n` retries. -/
def rank (n : ℕ) : System.Phase F → ℕ
  | .spawned => 4 * (n + 2) + 8
  | .enriching => 4 * (n + 2) + 7
  | .acquiring => 4 * (n + 2) + 6
  | .marking _ => 4 * (n + 2) + 5
  | .holding _ => 4 * (n + 2) + 4
  | .buying _ todo _ => todo.length + 3
  | .returning _ _ => 2
  | .done _ => 1
  | .gone _ => 0

section Task

variable [F64 F] {crates : Crates K} {p : Program F K} {ls : List Label} {s : State F K}

/-- A step of a task is one step less. -/
lemma rank_step {launch : LaunchEvent} {pool pool' : WalletPool K} {phase next : System.Phase F}
    {a : TaskAct} (h : TaskStep crates p launch pool phase a pool' next) :
    1 + rank p.executor.jito.maxBundleRetries.toNat next ≤
      rank p.executor.jito.maxBundleRetries.toNat phase := by
  cases h with
  | prefilter =>
    unfold System.Phase.afterPrefilter
    cases p.filters.prefilter launch with
    | reject reason =>
      simp only [rank]
      omega
    | accept =>
      simp only [rank]
      omega
  | evaluate =>
    unfold System.Phase.afterFacts
    cases p.filters.evaluate launch ((fetchLaunchFacts launch).getD .default) with
    | reject reason =>
      simp only [rank]
      omega
    | accept =>
      simp only [rank]
      omega
  | @begin i wallet w hk =>
    have hle := length_buy_le crates p.executor w launch wallet
    simp only [rank]
    omega
  | act =>
    simp only [rank, List.length_cons]
    omega
  | finish => simp [rank]
  | _ =>
    simp only [rank]
    omega

lemma steps_of_trace (h : (system crates p).Trace ls s) {k : ℕ} {t : System.Task F}
    (ht : s.tasks[k]? = some t) : (actsBy k ls).length ≤
      4 * (p.executor.jito.maxBundleRetries.toNat + 2) + 8 := by
  have hkept := task_rule
    (P := fun _ acts phase => acts.length + rank p.executor.jito.maxBundleRetries.toNat phase ≤
      rank p.executor.jito.maxBundleRetries.toNat (.spawned : System.Phase F)) ?_ ?_ h
  · have hle := hkept.task k t ht
    exact le_of_add_le_left hle
  · intro launch
    simp
  · intro launch acts pool phase a pool' next _ hle hstep
    have hone := rank_step hstep
    rw [List.length_append, List.length_singleton]
    omega

end Task

section Progress

variable [F64 F] {host : Host K} {simulate : Bool} {cfg : Config F} {p : Program F K}
  {ls : List Label} {s : State F K}

lemma wallets_ne_nil (hbuilt : Built host simulate cfg p) (h : (system host.crates p).Trace ls s) :
    s.pool.wallets ≠ [] := by
  rw [(stands_of_trace h).wallets]
  exact hbuilt.wallets_ne_nil

/-- Without a panic, a task that is gone has an outcome. -/
lemma outcome_of_gone (hbuilt : Built host simulate cfg p)
    (h : (system host.crates p).Trace ls s) {k : ℕ} {t : System.Task F}
    (ht : s.tasks[k]? = some t) : t.phase ≠ .gone none := by
  have hkept := task_rule
    (P := fun _ _ phase => phase ≠ .gone none) ?_ ?_ h
  · exact hkept.task k t ht
  · intro launch
    exact nofun
  · intro launch acts pool phase a pool' next hpool _ hstep
    cases hstep with
    | prefilter =>
      unfold System.Phase.afterPrefilter
      cases p.filters.prefilter launch <;> exact nofun
    | evaluate =>
      unfold System.Phase.afterFacts
      cases p.filters.evaluate launch ((fetchLaunchFacts launch).getD .default) <;> exact nofun
    | roundRobinNone hs hn =>
      rw [hpool] at hn
      exact absurd hn hbuilt.wallets_ne_nil
    | _ => exact nofun

lemma not_panicked (hbuilt : Built host simulate cfg p) (h : (system host.crates p).Trace ls s)
    (k : ℕ) : .task k (.pool .panicked) ∉ ls := by
  intro hmem
  have hlabels := h.labels (P := fun s => s.pool.wallets ≠ [])
    (Q := fun l => ∀ k, l ≠ .task k (.pool .panicked)) (fun ls s => wallets_ne_nil hbuilt) ?_
  · exact hlabels _ hmem k rfl
  · rintro s l t hs hstep k rfl
    cases hstep with
    | task ht hmove =>
      cases hmove with
      | roundRobinNone hrot hn => exact hs hn

/-- The keypair of a guard is there. -/
lemma keypair_of_walletOf (hbuilt : Built host simulate cfg p)
    (h : (system host.crates p).Trace ls s) {t : System.Task F} (ht : t ∈ s.tasks) {i : ℕ}
    (hi : walletOf t = some i) : ∃ wallet, s.pool.keypair i = some wallet := by
  have hlive : i ∈ (poolState (absState s)).live := by
    rw [live_eq, Multiset.mem_filterMap]
    exact ⟨t, ht, hi⟩
  have hlt : i < s.pool.wallets.length :=
    (inRange_of_trace (pool_of_trace hbuilt h)).live i hlive
  exact ⟨s.pool.wallets[i], List.getElem?_eq_getElem hlt⟩

/-- A task is gone, or has a step of its own. -/
lemma enabled_of_trace (hbuilt : Built host simulate cfg p)
    (h : (system host.crates p).Trace ls s) {k : ℕ} {t : System.Task F}
    (ht : s.tasks[k]? = some t) : (∃ outcome, t.phase = .gone (some outcome)) ∨
      ∃ a u, SystemStep host.crates p s (.task k a) u := by
  have hne := wallets_ne_nil hbuilt h
  have hgone := outcome_of_gone hbuilt h ht
  have hkey : ∀ i, walletOf t = some i → ∃ wallet, s.pool.keypair i = some wallet := fun i =>
    keypair_of_walletOf hbuilt h (List.mem_of_getElem? ht)
  obtain ⟨launch, phase⟩ := t
  cases phase with
  | spawned => exact .inr ⟨_, _, .task ht .prefilter⟩
  | enriching => exact .inr ⟨_, _, .task ht .evaluate⟩
  | acquiring =>
    right
    cases hrot : s.pool.strategy with
    | roundRobin => exact ⟨_, _, .task ht (.roundRobin hrot hne)⟩
    | random => exact ⟨_, _, .task ht (.random hrot (List.length_pos_iff.mpr hne))⟩
    | firstAvailable =>
      cases hfirst : s.pool.firstAvailable with
      | none => exact ⟨_, _, .task ht (.firstNone hrot hfirst)⟩
      | some next => exact ⟨_, _, .task ht (.first hrot hfirst)⟩
  | marking i => exact .inr ⟨_, _, .task ht .mark⟩
  | holding i =>
    obtain ⟨wallet, hwallet⟩ := hkey i rfl
    exact .inr ⟨_, _, .task ht (.begin silent hwallet)⟩
  | buying i todo result =>
    cases todo with
    | nil => exact .inr ⟨_, _, .task ht .finish⟩
    | cons a todo => exact .inr ⟨_, _, .task ht .act⟩
  | returning i result => exact .inr ⟨_, _, .task ht .dropGuard⟩
  | done outcome => exact .inr ⟨_, _, .task ht .dropPermit⟩
  | gone outcome =>
    cases outcome with
    | none => exact absurd rfl hgone
    | some outcome => exact .inl ⟨outcome, rfl⟩

/-- **No task blocks, panics or runs on.** In every state that a program that started can reach, a
task has ended with an outcome, or it has a step of its own, whatever the other tasks hold; it has
taken at most `4 * (n + 2) + 8` steps, `n` being the retries; and no task has panicked. -/
theorem tasks_progress (hbuilt : Built host simulate cfg p)
    (h : (system host.crates p).Trace ls s) {k : ℕ} {t : System.Task F}
    (ht : s.tasks[k]? = some t) :
    ((∃ outcome, t.phase = .gone (some outcome)) ∨
        ∃ a u, SystemStep host.crates p s (.task k a) u) ∧
      (actsBy k ls).length ≤ 4 * (cfg.jito.maxBundleRetries.toNat + 2) + 8 ∧
      .task k (.pool .panicked) ∉ ls := by
  have hsteps := steps_of_trace h ht
  rw [hbuilt.executor] at hsteps
  exact ⟨enabled_of_trace hbuilt h ht, hsteps, not_panicked hbuilt h k⟩

end Progress

theorem tasks_progress_example :
    (actsBy 0 untilBuy).length ≤ 4 * (3 + 2) + 8 ∧ .task 0 (.pool .panicked) ∉ untilBuy :=
  (tasks_progress (k := 0) built_example trace_untilBuy rfl).2

/-! ### Without new input -/

/-- All steps but the shutdown and those of the listener at the network or the clock. A remote
call of a buy is answered, if only by its timeout. -/
def Internal : Label → Prop
  | .listener (.sent (.launch _)) => True
  | .listener _ => False
  | .left => False
  | _ => True

/-- What the loop has yet to do for the launch it has taken, where a task takes `r` steps. -/
def loopWork (r : ℕ) : Loop → ℕ
  | .waiting _ => r + 2
  | .permitted _ => r + 1
  | _ => 0

/-- A bound on the internal steps ahead: those of the tasks, and those of the launches and
notices that are not with a task yet. -/
def work (n : ℕ) (s : State F K) : ℕ :=
  aheadOf (rank n) s + loopWork (4 * (n + 2) + 8) s.loop +
    (4 * (n + 2) + 11) * s.queue.length + (4 * (n + 2) + 12) * (pendingOf s.listener).length

section Work

variable [F64 F] {crates : Crates K} {p : Program F K} {s t : State F K} {l : Label}

lemma work_lt (h : SystemStep crates p s l t) (hl : Internal l) :
    work p.executor.jito.maxBundleRetries.toNat t <
      work p.executor.jito.maxBundleRetries.toNat s := by
  generalize hn : p.executor.jito.maxBundleRetries.toNat = n
  cases h with
  | @listener a next hstep hp =>
    generalize hbefore : s.listener = before at hstep
    cases hstep with
    | send =>
      simp only [work, aheadOf, hbefore, pendingOf, ListenerAct.sends, List.length_append,
        List.length_cons, List.length_nil, Nat.mul_add]
      omega
    | _ => exact absurd hl id
  | @take e rest hloop hq =>
    simp only [work, aheadOf, hloop, hq, List.length_cons, Nat.mul_add]
    cases e with
    | launch ev =>
      simp only [afterTake, loopWork]
      omega
    | reconnecting attempt reason =>
      simp only [afterTake, loopWork]
      omega
  | leave hloop => exact absurd hl id
  | permit hloop hp =>
    simp only [work, aheadOf, hloop, loopWork]
    omega
  | spawn hloop =>
    simp only [work, aheadOf, hloop, loopWork, List.map_append, List.sum_append,
      List.map_singleton, List.sum_singleton, rank]
    omega
  | @task k launch phase next a pool ht hmove =>
    have hsum := sum_set ht ⟨launch, next⟩ fun t => rank n t.phase
    have hle := rank_step hmove
    simp only [hn] at hle
    simp only [work, aheadOf] at hsum ⊢
    omega

lemma receiving_step (h : SystemStep crates p s l t) (hl : Internal l) (hs : Receiving s) :
    Receiving t := by
  unfold Receiving at hs ⊢
  cases h with
  | listener hstep hp => exact hs
  | @take e rest hloop hq => cases e <;> exact nofun
  | leave hloop => exact absurd hl id
  | permit hloop hp => exact nofun
  | spawn hloop => exact nofun
  | task ht hmove => exact hs

omit [F64 F] in
lemma decodedBy_internal (hl : Internal l) : decodedBy crates p l = [] := by
  cases l with
  | listener a =>
    cases a with
    | received r => exact absurd hl id
    | _ => rfl
  | _ => rfl

end Work

/-! ### The end -/

/-- Every launch of a history has a task that has ended, and all permits and wallets are free. -/
structure Finished (crates : Crates K) (p : Program F K) (ls : List Label) (s : State F K) :
    Prop where
  tasks : s.tasks.map (·.launch) = ls.flatMap (decodedBy crates p)
  ended : ∀ t ∈ s.tasks, ∃ outcome, t.phase = .gone (some outcome)
  permits : s.permits = p.permits
  wallets : ∀ i : ℕ, s.pool.busy[i]? ≠ some true

section Finish

variable [F64 F] {host : Host K} {simulate : Bool} {cfg : Config F} {p : Program F K}
  {ls : List Label} {s : State F K}

omit [F64 F] in
/-- Tasks that have ended are not known to the main loop any more. -/
lemma tasks_eq_zero (hended : ∀ t ∈ s.tasks, ∃ outcome, t.phase = .gone (some outcome)) :
    (absState s).tasks = 0 := by
  refine Multiset.eq_zero_of_forall_notMem fun task htask => ?_
  have hmem : task ∈ (s.tasks : Multiset (System.Task F)).filterMap absTask := htask
  obtain ⟨t, ht, habs⟩ := (Multiset.mem_filterMap _ _).mp hmem
  obtain ⟨outcome, hphase⟩ := hended t ht
  simp [absTask, hphase, absPhase] at habs

lemma permits_of_ended (hbuilt : Built host simulate cfg p)
    (h : (system host.crates p).Trace ls s)
    (hended : ∀ t ∈ s.tasks, ∃ outcome, t.phase = .gone (some outcome)) :
    s.permits + held s.loop = p.permits := by
  have hpermits := permits_of_trace (main_of_trace hbuilt h)
  rw [tasks_eq_zero hended, Multiset.card_zero, add_zero] at hpermits
  rw [hbuilt.permits]
  exact hpermits

/-- A flag that is set has a guard, so that none is set when there is no guard. -/
lemma wallets_of_ended (hbuilt : Built host simulate cfg p)
    (h : (system host.crates p).Trace ls s)
    (hended : ∀ t ∈ s.tasks, ∃ outcome, t.phase = .gone (some outcome)) (i : ℕ) :
    s.pool.busy[i]? ≠ some true := by
  intro hbusy
  have htracked := tracked_of_trace (pool_of_trace hbuilt h)
  have hlive := htracked.held i ((htracked.busy i).mp hbusy)
  rw [live_eq, Multiset.mem_filterMap] at hlive
  obtain ⟨t, ht, hwallet⟩ := hlive
  obtain ⟨outcome, hphase⟩ := hended t ht
  simp [walletOf, hphase] at hwallet

/-- Without an internal step to take, all tasks have ended. -/
lemma ended_of_stuck (hbuilt : Built host simulate cfg p)
    (h : (system host.crates p).Trace ls s)
    (hstuck : ¬ ∃ l t, Internal l ∧ SystemStep host.crates p s l t) :
    ∀ t ∈ s.tasks, ∃ outcome, t.phase = .gone (some outcome) := by
  intro t ht
  obtain ⟨k, hk⟩ := List.mem_iff_getElem?.mp ht
  refine (enabled_of_trace hbuilt h hk).resolve_right ?_
  rintro ⟨a, u, hstep⟩
  exact hstuck ⟨.task k a, u, trivial, hstep⟩

/-- Nor does the loop wait for a permit then: one is free, since no task has any. -/
lemma selecting_of_stuck (hbuilt : Built host simulate cfg p)
    (h : (system host.crates p).Trace ls s) (hs : Receiving s)
    (hstuck : ¬ ∃ l t, Internal l ∧ SystemStep host.crates p s l t) : s.loop = .selecting := by
  cases hl : s.loop with
  | selecting => rfl
  | waiting launch =>
    have hpos : 0 < s.permits := by
      have hpermits := permits_of_ended hbuilt h (ended_of_stuck hbuilt h hstuck)
      have hone := le_max_right cfg.runtime.maxConcurrentSnipes 1
      rw [hl, hbuilt.permits] at hpermits
      simp only [held] at hpermits
      omega
    obtain ⟨n, hn⟩ := Nat.exists_eq_succ_of_ne_zero hpos.ne'
    exact absurd ⟨.permit, _, trivial, .permit hl hn⟩ hstuck
  | permitted launch => exact absurd ⟨.spawned launch, _, trivial, .spawn hl⟩ hstuck
  | left => exact absurd hl hs

lemma queue_eq_nil_of_stuck (hloop : s.loop = .selecting)
    (hstuck : ¬ ∃ l t, Internal l ∧ SystemStep host.crates p s l t) : s.queue = [] := by
  cases hq : s.queue with
  | nil => rfl
  | cons e rest => exact absurd ⟨.took e, _, trivial, .take hloop hq⟩ hstuck

/-- With room in the channel, the listener has nothing left to send. -/
lemma pending_eq_nil_of_stuck (hs : Receiving s) (hqueue : s.queue = [])
    (hstuck : ¬ ∃ l t, Internal l ∧ SystemStep host.crates p s l t) :
    pendingOf s.listener = [] := by
  rcases hlistener : s.listener with ⟨n, phase⟩
  cases phase with
  | streaming rest pending =>
    cases pending with
    | nil => rfl
    | cons ev evs =>
      have hsend : ListenerStep host.crates.codecs p.rpc p.detector s.listener
          (.sent (.launch ev)) ⟨n, .streaming rest evs⟩ := by
        rw [hlistener]
        exact .send
      have hroom : Allows s (.sent (.launch ev)) := by
        refine ⟨?_, hs⟩
        rw [hqueue]
        exact Nat.succ_pos _
      exact absurd ⟨.listener (.sent (.launch ev)), _, trivial, .listener hsend hroom⟩ hstuck
  | _ => rfl

/-- Without an internal step to take, everything has come to its end. -/
lemma finished_of_stuck (hbuilt : Built host simulate cfg p)
    (h : (system host.crates p).Trace ls s) (hs : Receiving s)
    (hstuck : ¬ ∃ l t, Internal l ∧ SystemStep host.crates p s l t) :
    Finished host.crates p ls s := by
  have hended := ended_of_stuck hbuilt h hstuck
  have hloop := selecting_of_stuck hbuilt h hs hstuck
  have hqueue := queue_eq_nil_of_stuck hloop hstuck
  have hpending := pending_eq_nil_of_stuck hs hqueue hstuck
  refine ⟨?_, hended, ?_, wallets_of_ended hbuilt h hended⟩
  · have hall := launches_split h hs
    unfold onTheWay at hall
    rw [hloop, hqueue, hpending] at hall
    simpa [inLoop] using hall.symm
  · have hpermits := permits_of_ended hbuilt h hended
    rw [hloop] at hpermits
    simpa [held] using hpermits

/-- **Left to itself, the program finishes.** Take any state that a program that started can reach
while it receives, and let the scheduler run internal steps, without new input, in any order.
There are no more than `work` of them. And as long as there is a launch received without a task
that has ended, or a permit or a wallet that is not free, there is a further one: so the run comes
to an end, and there every launch has been brought to its outcome and nothing is held. -/
theorem completes (hbuilt : Built host simulate cfg p) (h : (system host.crates p).Trace ls s)
    (hs : s.loop ≠ .left) {ls' : List Label} {t : State F K}
    (h' : ((system host.crates p).resume s).Trace ls' t) (hls' : ∀ l ∈ ls', Internal l) :
    ls'.length ≤ work p.executor.jito.maxBundleRetries.toNat s ∧
      ((∃ l u, Internal l ∧ SystemStep host.crates p t l u) ∨ Finished host.crates p ls t) := by
  refine ⟨?_, ?_⟩
  · have hdrop : ∀ u l v, SystemStep host.crates p u l v → Internal l →
        work p.executor.jito.maxBundleRetries.toNat v <
          work p.executor.jito.maxBundleRetries.toNat u := fun _ _ _ hstep hl => work_lt hstep hl
    have hle := h'.length_le hdrop hls'
    omega
  · have ht : Receiving t :=
      h'.within (fun _ _ _ hs hstep hl => receiving_step hstep hl hs) hls' hs
    -- nothing is received on the way
    have hdecoded : (ls ++ ls').flatMap (decodedBy host.crates p) =
        ls.flatMap (decodedBy host.crates p) := by
      have hnone : ls'.flatMap (decodedBy host.crates p) = [] :=
        List.flatMap_eq_nil_iff.mpr fun l hl => decodedBy_internal (hls' l hl)
      rw [List.flatMap_append, hnone, List.append_nil]
    by_cases hstuck : ∃ l u, Internal l ∧ SystemStep host.crates p t l u
    · exact .inl hstuck
    · right
      obtain ⟨htasks, hended, hpermits, hwallets⟩ :=
        finished_of_stuck hbuilt (h.resume h') ht hstuck
      rw [hdecoded] at htasks
      exact ⟨htasks, hended, hpermits, hwallets⟩

end Finish

/-! ### One launch, finished -/

/-- The launch of the example is in the channel. -/
def sentState : State ℚ (List UInt8) :=
  { initial exampleProgram with
    listener := ⟨0, .streaming [] []⟩
    queue := [.launch createLaunch] }

/-- What is left to do for it. -/
def untilFinished : List Label :=
  untilBuy.drop 3 ++ (smoothBuy.log.map fun a => Label.task 0 (.act a)) ++
    [Label.task 0 .moved, .task 0 (.pool (.dropped 0)), .task 0 .ended]

lemma run_untilFinished : ((system exampleCrates exampleProgram).resume sentState).Trace
    untilFinished (oneTask (.gone (some (.finished 0 smoothBuy.result))) examplePool 1) := by
  have h₀ : ((system exampleCrates exampleProgram).resume sentState).Trace [] sentState := .start rfl
  have h₃ : ((system exampleCrates exampleProgram).resume sentState).Trace
      ((untilBuy.drop 3).take 3) (oneTask .spawned examplePool 0) :=
    ((h₀.snoc (SystemStep.take rfl rfl)).snoc (SystemStep.permit rfl rfl)).snoc
      (SystemStep.spawn rfl)
  have h₅ : ((system exampleCrates exampleProgram).resume sentState).Trace
      ((untilBuy.drop 3).take 5) (oneTask .acquiring examplePool 0) :=
    (h₃.snoc (SystemStep.task rfl .prefilter)).snoc (SystemStep.task rfl .evaluate)
  have h₇ : ((system exampleCrates exampleProgram).resume sentState).Trace
      (untilBuy.drop 3) (oneTask (.buying 0 smoothBuy.log smoothBuy.result)
        { examplePool with busy := [true] } 0) :=
    (h₅.snoc (SystemStep.task rfl (.first rfl rfl))).snoc (SystemStep.task rfl (.begin smooth rfl))
  exact (h₇.resume (run_acts (k := 0) rfl)).resume run_ends

/-- There is nothing more to do. -/
lemma stuck_untilFinished : ¬ ∃ l u, Internal l ∧ SystemStep exampleCrates exampleProgram
    (oneTask (.gone (some (.finished 0 smoothBuy.result))) examplePool 1) l u := by
  rintro ⟨l, u, hl, hstep⟩
  cases hstep with
  | listener hlisten hp =>
    cases hlisten with
    | endStream => exact hl
  | take hloop hq => cases hq
  | leave hloop => exact hl
  | permit hloop hn => cases hloop
  | spawn hloop => cases hloop
  | @task k launch phase next a pool ht hmove =>
    cases k with
    | zero =>
      obtain ⟨rfl, rfl⟩ := System.Task.mk.inj (Option.some.inj ht)
      cases hmove
    | succ k => cases ht

/-- The steps that are left for the launch in the channel bring it to its outcome. -/
theorem completes_example : untilFinished.length ≤ work 3 sentState ∧
    Finished exampleCrates exampleProgram untilSent
      (oneTask (.gone (some (.finished 0 smoothBuy.result))) examplePool 1) := by
  have hinternal : ∀ l ∈ untilFinished, Internal l := by
    simp only [untilFinished, untilBuy, untilSent, List.drop_succ_cons, List.drop_zero,
      List.cons_append, List.nil_append, List.forall_mem_cons, List.forall_mem_append,
      List.forall_mem_map]
    simp [Internal]
  obtain ⟨hlength, hfinished⟩ := completes built_example (trace_untilSent rfl) nofun
    run_untilFinished hinternal
  exact ⟨hlength, hfinished.resolve_left stuck_untilFinished⟩

end NovaSniper.Completion
