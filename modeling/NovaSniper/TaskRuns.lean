import NovaSniper.EndToEnd
import NovaSniper.Lib.Potential

/-!
What one task does, whatever the others do.

The steps of all tasks interleave, and they share the pool. Still each task does what
`handle_launch` does when it is run alone, with the wallet it was handed and the answers that
its calls met.
-/

namespace NovaSniper.TaskRuns

open NovaSniper.FloatOps NovaSniper.Detector NovaSniper.Filters NovaSniper.Wallet
open NovaSniper.Executor NovaSniper.Main NovaSniper.Startup NovaSniper.System
open NovaSniper.Lib.Transition NovaSniper.Lib.Parties NovaSniper.Lib.Retry

variable {F K : Type}

/-! ### The history of a task -/

/-- What a step is to task `k`. -/
def actOf (k : ℕ) : Label → Option TaskAct
  | .task j a => if j = k then some a else none
  | _ => none

/-- The steps of task `k` in a history. -/
def actsBy (k : ℕ) (ls : List Label) : List TaskAct := ls.filterMap (actOf k)

/-- What a task has done outside the program. -/
def remote : TaskAct → Option Act
  | .act a => some a
  | _ => none

lemma actsBy_snoc (k : ℕ) (ls : List Label) (l : Label) :
    actsBy k (ls ++ [l]) = actsBy k ls ++ (actOf k l).toList := by
  unfold actsBy
  rw [List.filterMap_append]
  cases hl : actOf k l with
  | none => simp [hl]
  | some a => simp [hl]

section Rule

variable [F64 F] {crates : Crates K} {p : Program F K}

/-- A task leaves the wallets and the strategy as they are. -/
lemma TaskStep.settings {launch : LaunchEvent} {pool pool' : WalletPool K}
    {phase next : System.Phase F} {a : TaskAct}
    (h : TaskStep crates p launch pool phase a pool' next) :
    pool'.wallets = pool.wallets ∧ pool'.strategy = pool.strategy := by
  cases h with
  | mark =>
    rw [markBusy_eq]
    exact ⟨rfl, rfl⟩
  | first hs hi =>
    obtain ⟨-, -, rfl⟩ := firstAvailable_eq_some hi
    exact ⟨rfl, rfl⟩
  | dropGuard =>
    rw [release_eq]
    exact ⟨rfl, rfl⟩
  | _ => exact ⟨rfl, rfl⟩

/-- What the task rule keeps: the invariant of each task, no steps of tasks that are not there,
and the wallets of the start. -/
structure Kept (p : Program F K) (P : LaunchEvent → List TaskAct → System.Phase F → Prop)
    (ls : List Label) (s : State F K) : Prop where
  task : ∀ k t, s.tasks[k]? = some t → P t.launch (actsBy k ls) t.phase
  absent : ∀ k, s.tasks.length ≤ k → actsBy k ls = []
  wallets : s.pool.wallets = p.wallets.wallets

variable {P : LaunchEvent → List TaskAct → System.Phase F → Prop} {ls : List Label}
  {s t : State F K}

omit [F64 F] in
lemma kept_quiet (hs : Kept p P ls s) {l : Label} (hl : ∀ k, actOf k l = none)
    (htasks : t.tasks = s.tasks) (hpool : t.pool = s.pool) : Kept p P (ls ++ [l]) t := by
  have hacts : ∀ k, actsBy k (ls ++ [l]) = actsBy k ls := by
    intro k
    rw [actsBy_snoc, hl k, Option.toList_none, List.append_nil]
  refine ⟨?_, ?_, ?_⟩
  · intro k u hu
    rw [hacts k]
    rw [htasks] at hu
    exact hs.task k u hu
  · intro k hk
    rw [hacts k]
    rw [htasks] at hk
    exact hs.absent k hk
  · rw [hpool]
    exact hs.wallets

lemma kept_step (hnew : ∀ launch, P launch [] .spawned)
    (hstep : ∀ launch acts pool phase a pool' next, pool.wallets = p.wallets.wallets →
      P launch acts phase → TaskStep crates p launch pool phase a pool' next →
      P launch (acts ++ [a]) next)
    (hs : Kept p P ls s) {l : Label} (h : SystemStep crates p s l t) :
    Kept p P (ls ++ [l]) t := by
  cases h with
  | listener hl hp => exact kept_quiet hs (fun _ => rfl) rfl rfl
  | take hl hq => exact kept_quiet hs (fun _ => rfl) rfl rfl
  | leave hl => exact kept_quiet hs (fun _ => rfl) rfl rfl
  | permit hl hn => exact kept_quiet hs (fun _ => rfl) rfl rfl
  | @spawn launch hl =>
    have hacts : ∀ k, actsBy k (ls ++ [.spawned launch]) = actsBy k ls := by
      intro k
      rw [actsBy_snoc]
      exact List.append_nil _
    refine ⟨?_, ?_, hs.wallets⟩
    · refine forall_snoc ?_ ?_
      · intro k u hu
        rw [hacts k]
        exact hs.task k u hu
      · rw [hacts, hs.absent _ le_rfl]
        exact hnew launch
    · intro k hk
      rw [List.length_append] at hk
      rw [hacts k]
      exact hs.absent k (by omega)
  | @task k launch phase next a pool ht hmove =>
    have hown : actsBy k (ls ++ [.task k a]) = actsBy k ls ++ [a] := by
      rw [actsBy_snoc]
      simp [actOf]
    have hother : ∀ j, j ≠ k → actsBy j (ls ++ [.task k a]) = actsBy j ls := by
      intro j hj
      rw [actsBy_snoc]
      simp [actOf, Ne.symm hj]
    refine ⟨?_, ?_, ?_⟩
    · refine forall_set ?_ ?_
      · intro j u hj hu
        rw [hother j hj]
        exact hs.task j u hu
      · rw [hown]
        exact hstep launch _ _ _ _ _ _ hs.wallets (hs.task k _ ht) hmove
    · intro j hj
      rw [List.length_set] at hj
      have hlt : k < s.tasks.length := (List.getElem?_eq_some_iff.mp ht).1
      rw [hother j (by omega)]
      exact hs.absent j hj
    · rw [(TaskStep.settings hmove).1]
      exact hs.wallets

/-- **The task rule.** What holds of a task that was just spawned, and survives its own steps
over the wallets of the start, holds of every task after every history. -/
theorem task_rule (hnew : ∀ launch, P launch [] .spawned)
    (hstep : ∀ launch acts pool phase a pool' next, pool.wallets = p.wallets.wallets →
      P launch acts phase → TaskStep crates p launch pool phase a pool' next →
      P launch (acts ++ [a]) next)
    (h : (system crates p).Trace ls s) : Kept p P ls s := by
  refine h.hist (P := Kept p P) ?_ ?_
  · rintro s rfl
    exact ⟨fun k t ht => by simp [initial] at ht, fun _ _ => rfl, rfl⟩
  · intro ls s l t hs hstep'
    exact kept_step hnew hstep hs hstep'

/-! ### What the tasks have ahead of them -/

/-- What a step of a task costs. -/
def costBy (c : TaskAct → ℕ) : Label → ℕ
  | .task _ a => c a
  | _ => 0

/-- A task is granted `n` when it is spawned. -/
def grantBy (n : ℕ) : Label → ℕ
  | .spawned _ => n
  | _ => 0

/-- The sum over the tasks of what their phases have ahead. -/
def aheadOf (f : System.Phase F → ℕ) (s : State F K) : ℕ := (s.tasks.map fun t => f t.phase).sum

/-- Tasks that pay for their steps pay together. -/
theorem pays_tasks {f : System.Phase F → ℕ} {c : TaskAct → ℕ} {n : ℕ} (hspawn : f .spawned ≤ n)
    (hstep : ∀ launch pool phase a pool' next,
      TaskStep crates p launch pool phase a pool' next → c a + f next ≤ f phase) :
    LTS.Pays (system crates p) (costBy c) (grantBy n) (aheadOf f) where
  init s := by
    rintro rfl
    rfl
  step s l t h := by
    cases h with
    | spawn hl =>
      simp only [costBy, grantBy, aheadOf, List.map_append, List.sum_append, List.map_singleton,
        List.sum_singleton]
      omega
    | @task k launch phase next a pool ht hmove =>
      have hsum := sum_set ht ⟨launch, next⟩ fun t => f t.phase
      have hle := hstep _ _ _ _ _ _ hmove
      simp only [costBy, grantBy, aheadOf] at hsum ⊢
      omega
    | _ => simp [costBy, grantBy, aheadOf]

end Rule

/-! ### `handle_launch` run alone -/

section Alone

variable [F64 F] (crates : Crates K) (p : Program F K)

/-- `handle_launch` run alone, handed this wallet, in this world. -/
def alone (w : World) (wallet : Option ℕ) (launch : LaunchEvent) :
    Main.Outcome F (Option (Logged Act (BuyOutcome F))) :=
  handleLaunch p.filters launch (fetchLaunchFacts launch) wallet fun launch i =>
    (p.wallets.keypair i).map (p.executor.buy crates w launch ·)

/-- What it has done outside, and how it has ended; nothing where there is no such wallet. -/
def account : Main.Outcome F (Option (Logged Act (BuyOutcome F))) →
    Option (List Act × Main.Outcome F (BuyResult F))
  | .prefilteredOut reason => some ([], .prefilteredOut reason)
  | .filteredOut reason => some ([], .filteredOut reason)
  | .noWallet => some ([], .noWallet)
  | .finished i buy => buy.map fun b => (b.log, .finished i b.result)

/-- The filters let the launch pass. -/
def Passed (launch : LaunchEvent) : Prop :=
  p.filters.prefilter launch = .accept ∧
    p.filters.evaluate launch ((fetchLaunchFacts launch).getD .default) = .accept

/-- The buy of a task, of which `done` is behind it and `todo` lies ahead. -/
structure Buys (launch : LaunchEvent) (i : ℕ) (done todo : List Act) (result : BuyResult F) :
    Prop where
  passed : Passed p launch
  buy : ∃ w wallet, p.wallets.keypair i = some wallet ∧
    p.executor.buy crates w launch wallet = ⟨done ++ todo, result⟩

/-- Where a task stands in `handle_launch` run alone. -/
def Stands (launch : LaunchEvent) (acts : List TaskAct) : System.Phase F → Prop
  | .spawned => acts.filterMap remote = []
  | .enriching => acts.filterMap remote = [] ∧ p.filters.prefilter launch = .accept
  | .acquiring => acts.filterMap remote = [] ∧ Passed p launch
  | .marking _ => acts.filterMap remote = [] ∧ Passed p launch
  | .holding _ => acts.filterMap remote = [] ∧ Passed p launch
  | .buying i todo result => Buys crates p launch i (acts.filterMap remote) todo result
  | .returning i result => Buys crates p launch i (acts.filterMap remote) [] result
  | .done outcome => ∃ w wallet, account (alone crates p w wallet launch) =
      some (acts.filterMap remote, outcome)
  | .gone (some outcome) => ∃ w wallet, account (alone crates p w wallet launch) =
      some (acts.filterMap remote, outcome)
  | .gone none => acts.filterMap remote = [] ∧ Passed p launch

variable {crates p}

lemma alone_prefiltered {launch : LaunchEvent} {reason : Msg F}
    (h : p.filters.prefilter launch = .reject reason) (w : World) (wallet : Option ℕ) :
    account (alone crates p w wallet launch) = some ([], .prefilteredOut reason) := by
  unfold alone handleLaunch
  rw [h]
  rfl

lemma alone_filtered {launch : LaunchEvent} {reason : Msg F}
    (hpre : p.filters.prefilter launch = .accept)
    (h : p.filters.evaluate launch ((fetchLaunchFacts launch).getD .default) = .reject reason)
    (w : World) (wallet : Option ℕ) :
    account (alone crates p w wallet launch) = some ([], .filteredOut reason) := by
  unfold alone handleLaunch
  rw [hpre]
  simp only [h]
  rfl

lemma alone_noWallet {launch : LaunchEvent} (h : Passed p launch) (w : World) :
    account (alone crates p w none launch) = some ([], .noWallet) := by
  unfold alone handleLaunch
  rw [h.1]
  simp only [h.2]
  rfl

variable (crates) in
lemma alone_bought {launch : LaunchEvent} {i : ℕ} {wallet : K} (h : Passed p launch)
    (hk : p.wallets.keypair i = some wallet) (w : World) :
    account (alone crates p w (some i) launch) =
      some ((p.executor.buy crates w launch wallet).log,
        .finished i (p.executor.buy crates w launch wallet).result) := by
  unfold alone handleLaunch
  rw [h.1]
  simp only [h.2, hk]
  rfl

lemma alone_of_buys {launch : LaunchEvent} {i : ℕ} {done todo : List Act} {result : BuyResult F}
    (h : Buys crates p launch i done todo result) :
    ∃ w wallet, account (alone crates p w wallet launch) =
      some (done ++ todo, .finished i result) := by
  obtain ⟨w, wallet, hk, hbuy⟩ := h.buy
  have halone := alone_bought crates h.passed hk w
  rw [hbuy] at halone
  exact ⟨w, some i, halone⟩

/-- A world where nothing answers. -/
def silent : World where
  bundle _ := ⟨0, .error "no answer", false, .error "no answer"⟩
  direct := ⟨.error "no answer", false, .error "no answer"⟩

lemma filterMap_remote_snoc (acts : List TaskAct) (a : TaskAct) :
    (acts ++ [a]).filterMap remote = acts.filterMap remote ++ (remote a).toList := by
  rw [List.filterMap_append]
  cases ha : remote a with
  | none => simp [ha]
  | some b => simp [ha]

lemma stands_afterPrefilter {launch : LaunchEvent} {acts : List TaskAct}
    (h : acts.filterMap remote = []) :
    Stands crates p launch acts (.afterPrefilter p.filters launch) := by
  unfold System.Phase.afterPrefilter
  cases hpre : p.filters.prefilter launch with
  | reject reason =>
    refine ⟨silent, none, ?_⟩
    rw [h]
    exact alone_prefiltered hpre silent none
  | accept => exact ⟨h, hpre⟩

lemma stands_afterFacts {launch : LaunchEvent} {acts : List TaskAct}
    (h : acts.filterMap remote = []) (hpre : p.filters.prefilter launch = .accept) :
    Stands crates p launch acts (.afterFacts p.filters launch) := by
  unfold System.Phase.afterFacts
  cases heval : p.filters.evaluate launch ((fetchLaunchFacts launch).getD .default) with
  | reject reason =>
    refine ⟨silent, none, ?_⟩
    rw [h]
    exact alone_filtered hpre heval silent none
  | accept => exact ⟨h, hpre, heval⟩

lemma stands_step {launch : LaunchEvent} {acts : List TaskAct} {pool pool' : WalletPool K}
    {phase next : System.Phase F} {a : TaskAct} (hpool : pool.wallets = p.wallets.wallets)
    (hs : Stands crates p launch acts phase)
    (hstep : TaskStep crates p launch pool phase a pool' next) :
    Stands crates p launch (acts ++ [a]) next := by
  -- only the acts of a buy are seen outside
  have hquiet : remote a = none → (acts ++ [a]).filterMap remote = acts.filterMap remote := by
    intro ha
    rw [filterMap_remote_snoc, ha, Option.toList_none, List.append_nil]
  cases hstep with
  | prefilter => exact stands_afterPrefilter (by rw [hquiet rfl]; exact hs)
  | evaluate => exact stands_afterFacts (by rw [hquiet rfl]; exact hs.1) hs.2
  | roundRobin hrot hn => exact ⟨by rw [hquiet rfl]; exact hs.1, hs.2⟩
  | roundRobinNone hrot hn => exact ⟨by rw [hquiet rfl]; exact hs.1, hs.2⟩
  | random hrot hi => exact ⟨by rw [hquiet rfl]; exact hs.1, hs.2⟩
  | randomNone hrot hn =>
    refine ⟨silent, none, ?_⟩
    rw [hquiet rfl, hs.1]
    exact alone_noWallet hs.2 silent
  | mark => exact ⟨by rw [hquiet rfl]; exact hs.1, hs.2⟩
  | first hrot hi => exact ⟨by rw [hquiet rfl]; exact hs.1, hs.2⟩
  | firstNone hrot hi =>
    refine ⟨silent, none, ?_⟩
    rw [hquiet rfl, hs.1]
    exact alone_noWallet hs.2 silent
  | @begin i wallet w hk =>
    have hkey : p.wallets.keypair i = some wallet := by
      rw [← hk]
      unfold WalletPool.keypair
      rw [hpool]
    refine ⟨hs.2, w, wallet, hkey, ?_⟩
    rw [hquiet rfl, hs.1, List.nil_append]
  | @act i a todo result =>
    obtain ⟨w, wallet, hkey, hbuy⟩ := hs.buy
    refine ⟨hs.passed, w, wallet, hkey, ?_⟩
    rw [hbuy, filterMap_remote_snoc]
    simp [remote]
  | finish =>
    simp only [Stands] at hs ⊢
    rw [hquiet rfl]
    exact hs
  | dropGuard =>
    obtain ⟨w, wallet, hall⟩ := alone_of_buys hs
    refine ⟨w, wallet, ?_⟩
    rw [hquiet rfl, hall, List.append_nil]
  | dropPermit =>
    simp only [Stands] at hs ⊢
    rw [hquiet rfl]
    exact hs

variable {ls : List Label} {s : State F K}

lemma stands_of_trace (h : (system crates p).Trace ls s) : Kept p (Stands crates p) ls s :=
  task_rule (fun _ => rfl) (fun _ _ _ _ _ _ _ => stands_step) h

variable (crates p) in
/-- Without a wallet nothing is done outside. -/
lemma alone_none (launch : LaunchEvent) :
    ∃ outcome, account (alone crates p silent none launch) = some ([], outcome) := by
  cases hpre : p.filters.prefilter launch with
  | reject reason => exact ⟨_, alone_prefiltered hpre silent none⟩
  | accept =>
    cases heval : p.filters.evaluate launch ((fetchLaunchFacts launch).getD .default) with
    | reject reason => exact ⟨_, alone_filtered hpre heval silent none⟩
    | accept => exact ⟨_, alone_noWallet ⟨hpre, heval⟩ silent⟩

/-- What a task has done is the beginning of what it can do alone. -/
lemma exists_account {launch : LaunchEvent} {acts : List TaskAct} {phase : System.Phase F}
    (h : Stands crates p launch acts phase) : ∃ w wallet rest outcome,
      account (alone crates p w wallet launch) = some (acts.filterMap remote ++ rest, outcome) := by
  have hnone : acts.filterMap remote = [] → ∃ w wallet rest outcome,
      account (alone crates p w wallet launch) =
        some (acts.filterMap remote ++ rest, outcome) := by
    intro hacts
    obtain ⟨outcome, hout⟩ := alone_none crates p launch
    refine ⟨silent, none, [], outcome, ?_⟩
    rw [hacts]
    exact hout
  cases phase with
  | spawned => exact hnone h
  | enriching => exact hnone h.1
  | acquiring => exact hnone h.1
  | marking i => exact hnone h.1
  | holding i => exact hnone h.1
  | buying i todo result =>
    obtain ⟨w, wallet, hall⟩ := alone_of_buys h
    exact ⟨w, wallet, todo, _, hall⟩
  | returning i result =>
    obtain ⟨w, wallet, hall⟩ := alone_of_buys h
    exact ⟨w, wallet, [], _, hall⟩
  | done outcome =>
    obtain ⟨w, wallet, hall⟩ := h
    exact ⟨w, wallet, [], outcome, by rw [hall, List.append_nil]⟩
  | gone outcome =>
    cases outcome with
    | none => exact hnone h.1
    | some outcome =>
      obtain ⟨w, wallet, hall⟩ := h
      exact ⟨w, wallet, [], outcome, by rw [hall, List.append_nil]⟩

/-- **Each task does what `handle_launch` does alone.** Whatever the interleaving, what a task
has done outside the program is the beginning of what `handle_launch` run alone does for its
launch, with some wallet in some world; and when it has ended, that is all that `handle_launch`
does there, and it has ended the same way. -/
theorem tasks_as_alone (h : (system crates p).Trace ls s) {k : ℕ} {t : System.Task F}
    (ht : s.tasks[k]? = some t) :
    (∃ w wallet rest outcome, account (alone crates p w wallet t.launch) =
        some ((actsBy k ls).filterMap remote ++ rest, outcome)) ∧
      ∀ outcome, t.phase = .gone (some outcome) → ∃ w wallet,
        account (alone crates p w wallet t.launch) =
          some ((actsBy k ls).filterMap remote, outcome) := by
  have hs := (stands_of_trace h).task k t ht
  refine ⟨exists_account hs, ?_⟩
  intro outcome hphase
  rw [hphase] at hs
  exact hs

/-- A task can go through all that lies ahead in its buy. -/
lemma run_acts {k i : ℕ} {launch : LaunchEvent} {todo : List Act} {result : BuyResult F}
    (ht : s.tasks[k]? = some ⟨launch, .buying i todo result⟩) :
    ((system crates p).resume s).Trace (todo.map fun a => .task k (.act a))
      { s with tasks := s.tasks.set k ⟨launch, .buying i [] result⟩ } := by
  induction todo generalizing s with
  | nil =>
    rw [set_self ht]
    exact .start rfl
  | cons a todo ih =>
    have hlt : k < s.tasks.length := (List.getElem?_eq_some_iff.mp ht).1
    have hstep : (system crates p).step s (.task k (.act a)) _ := SystemStep.task ht .act
    have hnext := LTS.Trace.cons hstep (ih (List.getElem?_set_self hlt))
    simpa [TaskAct.frees] using hnext

end Alone

/-! ### One launch, bought -/

open NovaSniper.Config NovaSniper.Solana NovaSniper.ListenerTask NovaSniper.Accounts
open NovaSniper.Delivery NovaSniper.BuyOnce NovaSniper.EndToEnd

def smoothBuy : Logged Act (BuyOutcome ℚ) :=
  exampleExecutor.buy exampleCrates smooth createLaunch exampleKeypair

/-- The listener has nothing more to do, and one task is in this phase. -/
def oneTask (phase : System.Phase ℚ) (pool : WalletPool (List UInt8)) (permits : ℕ) :
    State ℚ (List UInt8) where
  listener := ⟨0, .streaming [] []⟩
  queue := []
  loop := .selecting
  permits := permits
  tasks := [⟨createLaunch, phase⟩]
  pool := pool

/-- From the connection to the start of the buy. -/
def untilBuy : List Label :=
  untilSent ++
    [.took (.launch createLaunch), .permit, .spawned createLaunch, .task 0 .moved, .task 0 .moved,
      .task 0 (.pool (.acquired (some 0))), .task 0 (.began 0)]

/-- Any program with this detector and one permit spawns the task. -/
lemma trace_untilSpawned {q : Program ℚ (List UInt8)} (hd : q.detector = exampleDetector)
    (hone : q.permits = 1) :
    (system exampleCrates q).Trace (untilBuy.take 6) (oneTask .spawned q.wallets 0) := by
  have h₃ := trace_untilSent hd
  obtain ⟨rpc, detector, filters, wallets, executor, permits⟩ := q
  obtain rfl := hone
  exact ((h₃.snoc (.take rfl rfl)).snoc (.permit rfl rfl)).snoc (.spawn rfl)

/-- With any pool, up to the acquisition of a wallet. -/
lemma trace_untilAcquiring (pool : WalletPool (List UInt8)) :
    (system exampleCrates { exampleProgram with wallets := pool }).Trace (untilBuy.take 8)
      (oneTask .acquiring pool 0) := by
  have h₆ : (system exampleCrates { exampleProgram with wallets := pool }).Trace
      (untilBuy.take 6) (oneTask .spawned pool 0) := trace_untilSpawned rfl rfl
  exact (h₆.snoc (.task rfl .prefilter)).snoc (.task rfl .evaluate)

lemma trace_untilBuy : (system exampleCrates exampleProgram).Trace untilBuy
    (oneTask (.buying 0 smoothBuy.log smoothBuy.result)
      { examplePool with busy := [true] } 0) := by
  have h : (system exampleCrates exampleProgram).Trace (untilBuy.take 8)
      (oneTask .acquiring examplePool 0) := trace_untilAcquiring examplePool
  exact (h.snoc (.task rfl (.first rfl rfl))).snoc (.task rfl (.begin smooth rfl))

/-- From the start of the buy to its end. -/
def untilGone : List Label :=
  untilBuy ++ (smoothBuy.log.map fun a => Label.task 0 (.act a)) ++
    [Label.task 0 .moved, .task 0 (.pool (.dropped 0)), .task 0 .ended]

/-- From the end of the buy to the end of its task. -/
lemma run_ends : ((system exampleCrates exampleProgram).resume
      (oneTask (.buying 0 [] smoothBuy.result) { examplePool with busy := [true] } 0)).Trace
    [.task 0 .moved, .task 0 (.pool (.dropped 0)), .task 0 .ended]
    (oneTask (.gone (some (.finished 0 smoothBuy.result))) examplePool 1) := by
  have h₀ : ((system exampleCrates exampleProgram).resume
      (oneTask (.buying 0 [] smoothBuy.result) { examplePool with busy := [true] } 0)).Trace []
      (oneTask (.buying 0 [] smoothBuy.result) { examplePool with busy := [true] } 0) := .start rfl
  exact ((h₀.snoc (SystemStep.task (k := 0) rfl .finish)).snoc
    (SystemStep.task (k := 0) rfl .dropGuard)).snoc (SystemStep.task (k := 0) rfl .dropPermit)

lemma trace_untilGone : (system exampleCrates exampleProgram).Trace untilGone
    (oneTask (.gone (some (.finished 0 smoothBuy.result))) examplePool 1) :=
  (trace_untilBuy.resume (run_acts (k := 0) rfl)).resume run_ends

/-! ### Two launches, bought side by side -/

open NovaSniper.RoundRobin

def secondBuy : Logged Act (BuyOutcome ℚ) :=
  exampleExecutor.buy exampleCrates smooth secondLaunch exampleKeypair

/-- The second task is the first to acquire a wallet. -/
def untilPairBuy : List Label :=
  untilPair ++
    [.task 1 (.pool (.acquired (some 0))), .task 0 (.pool (.acquired (some 1))),
      .task 1 (.began 0), .task 0 (.began 1)]

lemma trace_untilPairBuy :
    (system exampleCrates (pairProgram .firstAvailable)).Trace untilPairBuy
      (twoTasks (.buying 1 smoothBuy.log smoothBuy.result)
        (.buying 0 secondBuy.log secondBuy.result)
        { twoPool with strategy := .firstAvailable, busy := [true, true] } 0) :=
  (((((trace_untilPair .firstAvailable).snoc (.task (k := 1) rfl (.first rfl rfl))).snoc
    (.task (k := 0) rfl (.first rfl rfl))).snoc (.task (k := 1) rfl (.begin smooth rfl))).snoc
    (.task (k := 0) rfl (.begin smooth rfl)))

/-- The acts of the first task lie between the first act of the second task and its others. -/
def untilPairGone : List Label :=
  untilPairBuy ++ [Label.task 1 (.act .getLatestBlockhash)] ++
    (smoothBuy.log.map fun a => Label.task 0 (.act a)) ++
    (secondBuy.log.tail.map fun a => Label.task 1 (.act a)) ++
    [Label.task 1 .moved, .task 0 .moved, .task 0 (.pool (.dropped 1)), .task 1 (.pool (.dropped 0)),
      .task 0 .ended, .task 1 .ended]

/-- The two buys are over, and the tasks still have their guards. -/
def pairBought : State ℚ (List UInt8) :=
  twoTasks (.buying 1 [] smoothBuy.result) (.buying 0 [] secondBuy.result)
    { twoPool with strategy := .firstAvailable, busy := [true, true] } 0

/-- From there to the ends of the tasks. -/
lemma run_pair_ends : ((system exampleCrates (pairProgram .firstAvailable)).resume pairBought).Trace
    [.task 1 .moved, .task 0 .moved, .task 0 (.pool (.dropped 1)), .task 1 (.pool (.dropped 0)),
      .task 0 .ended, .task 1 .ended]
    (twoTasks (.gone (some (.finished 1 smoothBuy.result)))
      (.gone (some (.finished 0 secondBuy.result)))
      { twoPool with strategy := .firstAvailable } 2) := by
  have h₀ : ((system exampleCrates (pairProgram .firstAvailable)).resume pairBought).Trace []
      pairBought := .start rfl
  have h₂ := (h₀.snoc (SystemStep.task (k := 1) rfl .finish)).snoc
    (SystemStep.task (k := 0) rfl .finish)
  have h₄ := (h₂.snoc (SystemStep.task (k := 0) rfl .dropGuard)).snoc
    (SystemStep.task (k := 1) rfl .dropGuard)
  exact (h₄.snoc (SystemStep.task (k := 0) rfl .dropPermit)).snoc
    (SystemStep.task (k := 1) rfl .dropPermit)

lemma trace_untilPairGone :
    (system exampleCrates (pairProgram .firstAvailable)).Trace untilPairGone
      (twoTasks (.gone (some (.finished 1 smoothBuy.result)))
        (.gone (some (.finished 0 secondBuy.result)))
        { twoPool with strategy := .firstAvailable } 2) := by
  have hfirst : secondBuy.log = .getLatestBlockhash :: secondBuy.log.tail := rfl
  have h := trace_untilPairBuy
  rw [hfirst] at h
  have h₁ := (h.snoc (.task (k := 1) rfl .act)).resume (run_acts (k := 0) rfl)
  exact (h₁.resume (run_acts (k := 1) rfl)).resume run_pair_ends

/-- Each of the two has done what it does alone. -/
theorem tasks_as_alone_example :
    (∃ w wallet, account (alone exampleCrates (pairProgram .firstAvailable) w wallet createLaunch) =
      some ((actsBy 0 untilPairGone).filterMap remote, .finished 1 smoothBuy.result)) ∧
    ∃ w wallet, account (alone exampleCrates (pairProgram .firstAvailable) w wallet secondLaunch) =
      some ((actsBy 1 untilPairGone).filterMap remote, .finished 0 secondBuy.result) :=
  ⟨(tasks_as_alone (k := 0) trace_untilPairGone rfl).2 _ rfl,
    (tasks_as_alone (k := 1) trace_untilPairGone rfl).2 _ rfl⟩

end NovaSniper.TaskRuns
