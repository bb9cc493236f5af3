import NovaSniper.Main
import NovaSniper.FirstAvailable

/-!
How many tasks run at once, and whether they find a wallet.

A task owns a permit for as long as it exists, and its guard for a part of that time. So
permits bound the tasks, tasks bound the guards, and a task about to acquire a wallet leaves
one free if there are as many wallets as permits.
-/

namespace NovaSniper.Concurrency

open NovaSniper.FloatOps NovaSniper.Config NovaSniper.Detector NovaSniper.Filters
open NovaSniper.Wallet NovaSniper.FirstAvailable NovaSniper.Main NovaSniper.Lib.Transition

variable {F R K : Type}

/-! ### The pool inside the program -/

/-- The wallet that a task has chosen and not yet marked. -/
def chosen (t : Task F R) : Option ℕ :=
  match t.phase with
  | .marking i => some i
  | _ => none

/-- The wallet whose guard a task holds. -/
def guard (t : Task F R) : Option ℕ :=
  match t.phase with
  | .buying i => some i
  | .returning i _ => some i
  | _ => none

/-- The pool with the guards of all tasks. -/
def poolState (s : MainState F R K) : PoolState K where
  pool := s.pool
  marking := s.tasks.filterMap chosen
  live := s.tasks.filterMap guard

/-- The wallet of one task, in front of those of the others. -/
def consWallet (i : Option ℕ) (rest : Multiset ℕ) : Multiset ℕ :=
  match i with
  | none => rest
  | some i => i ::ₘ rest

lemma filterMap_cons_eq (f : Task F R → Option ℕ) (t : Task F R) (rest : Multiset (Task F R)) :
    (t ::ₘ rest).filterMap f = consWallet (f t) (rest.filterMap f) := by
  cases ht : f t with
  | none => exact Multiset.filterMap_cons_none t rest ht
  | some i => exact Multiset.filterMap_cons_some f t rest ht

lemma card_filterMap_le (f : Task F R → Option ℕ) (ts : Multiset (Task F R)) :
    (ts.filterMap f).card ≤ ts.card :=
  Quot.inductionOn ts fun l => List.length_filterMap_le f l

lemma poolState_cons {s : MainState F R K} {t : Task F R} {rest : Multiset (Task F R)}
    (ht : s.tasks = t ::ₘ rest) : poolState s =
      { pool := s.pool, marking := consWallet (chosen t) (rest.filterMap chosen)
        live := consWallet (guard t) (rest.filterMap guard) } := by
  unfold poolState
  rw [ht, filterMap_cons_eq, filterMap_cons_eq]

/-- A task that changes its phase and keeps its wallets does not touch the pool. -/
lemma poolState_move {s : MainState F R K} {launch : LaunchEvent} {p q : Phase F R}
    {rest : Multiset (Task F R)} (ht : s.tasks = ⟨launch, p⟩ ::ₘ rest)
    (hc : chosen ⟨launch, q⟩ = chosen ⟨launch, p⟩) (hg : guard ⟨launch, q⟩ = guard ⟨launch, p⟩) :
    poolState { s with tasks := ⟨launch, q⟩ ::ₘ rest } = poolState s := by
  rw [poolState_cons ht, poolState_cons rfl, hc, hg]

/-- A task that the lack of a wallet has ended. -/
def Skipped (t : Task F R) : Prop := t.phase = .done .noWallet

/-- A task without wallets that has not been skipped. -/
structure Idle (t : Task F R) : Prop where
  chosen : chosen t = none
  guard : guard t = none
  unskipped : ¬ Skipped t

lemma idle_afterPrefilter (filters : FilterEngine F) (launch : LaunchEvent) :
    Idle (⟨launch, .afterPrefilter filters launch⟩ : Task F R) := by
  unfold Phase.afterPrefilter
  cases filters.prefilter launch with
  | reject reason => exact ⟨rfl, rfl, nofun⟩
  | accept => exact ⟨rfl, rfl, nofun⟩

lemma idle_afterFacts [F64 F] (filters : FilterEngine F) (launch : LaunchEvent)
    (facts : Option (LaunchFacts F)) :
    Idle (⟨launch, .afterFacts filters launch facts⟩ : Task F R) := by
  unfold Phase.afterFacts
  cases filters.evaluate launch (facts.getD .default) with
  | reject reason => exact ⟨rfl, rfl, nofun⟩
  | accept => exact ⟨rfl, rfl, nofun⟩

section Steps

variable [F64 F] {filters : FilterEngine F}

/-- What a step of the program with this label is to the pool with the guards of all tasks: a
step of its own, or nothing. -/
def Drives (s : MainState F R K) (e : Option PoolEvent) (t : MainState F R K) : Prop :=
  match e with
  | none => poolState t = poolState s
  | some e => PoolStep (poolState s) e (poolState t)

/-- **The program drives the pool.** -/
theorem drives_step {s t : MainState F R K} {e : Option PoolEvent}
    (h : MainStep filters s e t) : Drives s e t := by
  unfold Drives
  cases h with
  | reconnecting hl => rfl
  | receive launch hl => rfl
  | leave hl => rfl
  | permit hl hp => rfl
  | spawn hl =>
    rw [poolState_cons rfl]
    rfl
  | @prefilter launch rest ht =>
    have hidle := idle_afterPrefilter (R := R) filters launch
    exact poolState_move ht hidle.chosen hidle.guard
  | @evaluate launch rest facts ht =>
    have hidle := idle_afterFacts (R := R) filters launch facts
    exact poolState_move ht hidle.chosen hidle.guard
  | roundRobin ht hs hn =>
    rw [poolState_cons ht, poolState_cons rfl]
    exact .roundRobin hs hn
  | roundRobinNone ht hs hn =>
    rw [poolState_cons ht]
    exact .roundRobinNone hs hn
  | random ht hs hi =>
    rw [poolState_cons ht, poolState_cons rfl]
    exact .random hs hi
  | randomNone ht hs hn =>
    rw [poolState_cons ht, poolState_cons rfl]
    exact .randomNone hs hn
  | @mark launch rest i ht =>
    rw [poolState_cons ht, poolState_cons rfl]
    have hstep := PoolStep.mark (s := ⟨s.pool, i ::ₘ rest.filterMap chosen, rest.filterMap guard⟩)
      (Multiset.mem_cons_self i _)
    rw [Multiset.erase_cons_head] at hstep
    exact hstep
  | first ht hs hi =>
    rw [poolState_cons ht, poolState_cons rfl]
    exact .first hs hi
  | firstNone ht hs hi =>
    rw [poolState_cons ht, poolState_cons rfl]
    exact .firstNone hs hi
  | buy result ht => exact poolState_move ht rfl rfl
  | @dropGuard launch rest i result ht =>
    rw [poolState_cons ht, poolState_cons rfl]
    have hstep := PoolStep.drop (s := ⟨s.pool, rest.filterMap chosen, i ::ₘ rest.filterMap guard⟩)
      (Multiset.mem_cons_self i _)
    rw [Multiset.erase_cons_head] at hstep
    exact hstep
  | dropPermit ht => exact (poolState_cons ht).symm

/-! ### Permits -/

/-- The permit that the loop itself holds. -/
def held : Loop → ℕ
  | .permitted _ => 1
  | _ => 0

/-- Permits are free, with the loop, or with a task. -/
lemma permits_step {s t : MainState F R K} {e : Option PoolEvent} (h : MainStep filters s e t) :
    t.permits + held t.loop + t.tasks.card = s.permits + held s.loop + s.tasks.card := by
  cases h with
  | reconnecting hl => rfl
  | receive launch hl => simp only [hl, held]
  | leave hl => simp only [hl, held]
  | permit hl hp =>
    simp only [hl, hp, held, add_zero]
  | spawn hl =>
    simp only [hl, held, Multiset.card_cons]
    omega
  | prefilter ht => simp only [ht, Multiset.card_cons]
  | evaluate facts ht => simp only [ht, Multiset.card_cons]
  | roundRobin ht hs hn => simp only [ht, Multiset.card_cons]
  | roundRobinNone ht hs hn =>
    simp only [ht, Multiset.card_cons]
    omega
  | random ht hs hi => simp only [ht, Multiset.card_cons]
  | randomNone ht hs hn => simp only [ht, Multiset.card_cons]
  | mark ht => simp only [ht, Multiset.card_cons]
  | first ht hs hi => simp only [ht, Multiset.card_cons]
  | firstNone ht hs hi => simp only [ht, Multiset.card_cons]
  | buy result ht => simp only [ht, Multiset.card_cons]
  | dropGuard ht => simp only [ht, Multiset.card_cons]
  | dropPermit ht =>
    simp only [ht, Multiset.card_cons]
    omega

/-- A task is skipped only by an acquisition that fails. -/
lemma unskipped_step {s t : MainState F R K} {e : Option PoolEvent} (h : MainStep filters s e t)
    (he : e ≠ some (.acquired none)) (hs : ∀ task ∈ s.tasks, ¬ Skipped task) :
    ∀ task ∈ t.tasks, ¬ Skipped task := by
  have hmove : ∀ {launch : LaunchEvent} {p q : Phase F R} {rest : Multiset (Task F R)},
      s.tasks = ⟨launch, p⟩ ::ₘ rest → ¬ Skipped (⟨launch, q⟩ : Task F R) →
      ∀ task ∈ (⟨launch, q⟩ ::ₘ rest : Multiset (Task F R)), ¬ Skipped task := by
    intro launch p q rest ht hq
    rw [ht, Multiset.forall_mem_cons] at hs
    exact Multiset.forall_mem_cons.mpr ⟨hq, hs.2⟩
  cases h with
  | reconnecting hl => exact hs
  | receive launch hl => exact hs
  | leave hl => exact hs
  | permit hl hp => exact hs
  | spawn hl => exact Multiset.forall_mem_cons.mpr ⟨nofun, hs⟩
  | @prefilter launch rest ht => exact hmove ht (idle_afterPrefilter filters launch).unskipped
  | @evaluate launch rest facts ht =>
    exact hmove ht (idle_afterFacts filters launch facts).unskipped
  | roundRobin ht hr hn => exact hmove ht nofun
  | roundRobinNone ht hr hn =>
    rw [ht, Multiset.forall_mem_cons] at hs
    exact hs.2
  | random ht hr hi => exact hmove ht nofun
  | randomNone ht hr hn => exact absurd rfl he
  | mark ht => exact hmove ht nofun
  | first ht hr hi => exact hmove ht nofun
  | firstNone ht hr hi => exact absurd rfl he
  | buy result ht => exact hmove ht nofun
  | dropGuard ht => exact hmove ht nofun
  | dropPermit ht =>
    rw [ht, Multiset.forall_mem_cons] at hs
    exact hs.2

end Steps

/-! ### Whole runs -/

section Runs

variable [F64 F] {ext : Files K} {cfg : Config F} {filters : FilterEngine F}
  {es : List (Option PoolEvent)} {s : MainState F R K}

lemma simulates : LTS.Simulates (program (R := R) ext cfg filters) (pools ext cfg.wallets)
    poolState id where
  init s := by
    rintro ⟨-, -, htasks, hload⟩
    refine ⟨hload, ?_, ?_⟩
    · simp [poolState, htasks]
    · simp [poolState, htasks]
  stutter s e t hstep he := by
    obtain rfl : e = none := he
    exact drives_step hstep
  step s e t e' hstep he := by
    obtain rfl : e = some e' := he
    exact drives_step hstep

lemma permits_of_trace (h : (program ext cfg filters).Trace es s) :
    s.permits + held s.loop + s.tasks.card = max cfg.runtime.maxConcurrentSnipes 1 := by
  refine h.inv (P := fun s => s.permits + held s.loop + s.tasks.card =
    max cfg.runtime.maxConcurrentSnipes 1) ?_ ?_
  · rintro s ⟨hloop, hpermits, htasks, -⟩
    rw [hloop, hpermits, htasks]
    rfl
  · intro s e t hs hstep
    rw [permits_step hstep]
    exact hs

/-- With as many wallets as permits, a task that is about to acquire one finds one. -/
lemma available_of_trace (h : (program ext cfg filters).Trace es s)
    (hrot : cfg.wallets.rotation = .firstAvailable)
    (hmany : max cfg.runtime.maxConcurrentSnipes 1 ≤ cfg.wallets.keypairPaths.length)
    {task : Task F R} (htask : task ∈ s.tasks) (hphase : task.phase = .acquiring) :
    s.pool.firstAvailable ≠ none := by
  have hpool := h.map simulates
  have hexcl := exclusive_of_trace hrot hpool
  have hwallets := (settings_of_trace hpool).1
  have hpermits := permits_of_trace h
  obtain ⟨rest, ht⟩ := Multiset.exists_cons_of_mem htask
  -- the task itself has no guard yet
  have hguard : guard task = none := by
    unfold guard
    rw [hphase]
  have hlive : (poolState s).live.card ≤ rest.card := by
    rw [poolState_cons ht, hguard]
    exact card_filterMap_le guard rest
  rw [ht, Multiset.card_cons] at hpermits
  intro hnone
  have hfull := hexcl.none_iff.mp hnone
  rw [hwallets] at hfull
  omega

lemma acquired_of_trace (h : (program ext cfg filters).Trace es s)
    (hrot : cfg.wallets.rotation = .firstAvailable)
    (hmany : max cfg.runtime.maxConcurrentSnipes 1 ≤ cfg.wallets.keypairPaths.length) :
    some (.acquired none) ∉ es := by
  have hlabels := h.labels (P := fun s => s.pool.strategy = .firstAvailable ∧
      ∀ task ∈ s.tasks, task.phase = .acquiring → s.pool.firstAvailable ≠ none)
    (Q := fun e => e ≠ some (.acquired none)) ?_ ?_
  · exact fun hmem => hlabels _ hmem rfl
  · intro es s h
    exact ⟨(exclusive_of_trace hrot (h.map simulates)).strategy,
      fun task => available_of_trace h hrot hmany⟩
  · rintro s e t ⟨hstrategy, havail⟩ hstep rfl
    cases hstep with
    | randomNone ht hs hn => exact absurd (hstrategy.symm.trans hs) (by decide)
    | @firstNone launch rest ht hs hi =>
      refine havail ⟨launch, .acquiring⟩ ?_ rfl hi
      rw [ht]
      exact Multiset.mem_cons_self _ _

lemma unskipped_of_trace (h : (program ext cfg filters).Trace es s)
    (hes : some (.acquired none) ∉ es) : ∀ task ∈ s.tasks, ¬ Skipped task := by
  induction h with
  | start hinit =>
    obtain ⟨-, -, htasks, -⟩ := hinit
    rw [htasks]
    exact fun task ht => absurd ht (Multiset.notMem_zero task)
  | snoc h hstep ih =>
    rw [List.mem_append, not_or, List.mem_singleton] at hes
    exact unskipped_step hstep (fun he => hes.2 he.symm) (ih hes.1)

/-- **The bound on concurrent snipes, and enough wallets for them.** However launches arrive
and tasks take turns, there are never more tasks, nor live guards, than permits; and with
first-available rotation over at least as many wallets, no task fails to acquire one and no
launch is skipped. -/
theorem snipes_bounded (h : (program ext cfg filters).Trace es s) :
    s.tasks.card ≤ max 1 cfg.runtime.maxConcurrentSnipes ∧
      (poolState s).live.card ≤ max 1 cfg.runtime.maxConcurrentSnipes ∧
      (cfg.wallets.rotation = .firstAvailable →
        max 1 cfg.runtime.maxConcurrentSnipes ≤ cfg.wallets.keypairPaths.length →
        some (.acquired none) ∉ es ∧
          (∀ task ∈ s.tasks, task.phase = .acquiring →
            ∀ choice, (s.pool.acquire choice).isSome) ∧
          ∀ task ∈ s.tasks, ¬ Skipped task) := by
  have hpermits := permits_of_trace h
  have hlive := card_filterMap_le guard s.tasks
  rw [max_comm]
  refine ⟨by omega, ?_, ?_⟩
  · calc (poolState s).live.card ≤ s.tasks.card := hlive
      _ ≤ max cfg.runtime.maxConcurrentSnipes 1 := by omega
  · intro hrot hmany
    have hacq := acquired_of_trace h hrot hmany
    refine ⟨hacq, ?_, unskipped_of_trace h hacq⟩
    intro task htask hphase choice
    have hstrategy := (exclusive_of_trace hrot (h.map simulates)).strategy
    unfold WalletPool.acquire
    have hsome := available_of_trace h hrot hmany htask hphase
    rw [show s.pool.strategy = .firstAvailable from hstrategy]
    exact Option.isSome_iff_ne_none.mpr hsome

end Runs

/-! ### One snipe -/

/-- The example configuration with one permit and first-available rotation. -/
def oneSnipe : Config ℚ :=
  { exampleConfig with runtime := { maxConcurrentSnipes := 1 }, wallets := exampleWallets }

/-- An engine that asks for socials and nothing else. -/
def socialEngine : FilterEngine ℚ where
  cfg :=
    { exampleConfig.filters with
      minInitialLiquiditySol := 0, maxSupply := 0, requireMintAuthorityRenounced := false
      requireFreezeAuthorityNull := false, minLpLockedPct := 0, nameDenyRegex := []
      requireSocials := true }
  nameAllow := []
  nameDeny := []
  symbolAllow := []
  allowlist := []
  blocklist := []

/-- The launch has its permit, and is in this phase. -/
def inPhase (phase : Phase ℚ Unit) (pool : WalletPool (List UInt8)) :
    MainState ℚ Unit (List UInt8) where
  loop := .selecting
  permits := 0
  tasks := ⟨exampleLaunch, phase⟩ ::ₘ 0
  pool := pool

lemma trace_buying : (program exampleFiles oneSnipe socialEngine).Trace
    [none, none, none, none, none, some (.acquired (some 0))]
    (inPhase (.buying 0) { examplePool with busy := [true] }) := by
  have hpre : Phase.afterPrefilter socialEngine exampleLaunch = (.enriching : Phase ℚ Unit) := rfl
  have heval : Phase.afterFacts socialEngine exampleLaunch
      (some { LaunchFacts.default with hasSocials := true }) = (.acquiring : Phase ℚ Unit) := by
    have haccept : socialEngine.evaluate exampleLaunch
        { LaunchFacts.default with hasSocials := true } = .accept := by decide +kernel
    unfold Phase.afterFacts
    rw [Option.getD_some, haccept]
  have h₀ : (program exampleFiles oneSnipe socialEngine).Trace []
      (⟨.selecting, 1, 0, examplePool⟩ : MainState ℚ Unit (List UInt8)) :=
    .start ⟨rfl, rfl, rfl, load_example⟩
  have h₃ : (program exampleFiles oneSnipe socialEngine).Trace [none, none, none]
      (inPhase .spawned examplePool) :=
    ((h₀.snoc (.receive exampleLaunch rfl)).snoc (.permit rfl rfl)).snoc (.spawn rfl)
  have h₄ : (program exampleFiles oneSnipe socialEngine).Trace [none, none, none, none]
      (inPhase .enriching examplePool) := by
    rw [← hpre]
    exact h₃.snoc (.prefilter rfl)
  have h₅ : (program exampleFiles oneSnipe socialEngine).Trace [none, none, none, none, none]
      (inPhase .acquiring examplePool) := by
    rw [← heval]
    exact h₄.snoc (.evaluate _ rfl)
  exact h₅.snoc (.first rfl rfl rfl)

theorem snipes_bounded_example :
    (inPhase (.buying 0) { examplePool with busy := [true] }).tasks.card ≤ 1 ∧
      some (.acquired none) ∉
        [none, none, none, none, none, some (PoolEvent.acquired (some 0))] := by
  obtain ⟨htasks, -, hwallets⟩ := snipes_bounded trace_buying
  exact ⟨htasks, (hwallets rfl (by decide)).1⟩

end NovaSniper.Concurrency
