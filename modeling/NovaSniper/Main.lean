import NovaSniper.Filters
import NovaSniper.Wallet

/-!
The main loop and the tasks it spawns.

The loop takes a launch, waits for a permit and spawns a task that owns it. A task goes
through `handle_launch` phase by phase, in any order with the others; its wallet guard is
dropped before its permit.
-/

namespace NovaSniper.Main

open NovaSniper.FloatOps NovaSniper.Config NovaSniper.Detector NovaSniper.Filters
open NovaSniper.Wallet NovaSniper.Lib.Transition

/-- How `handle_launch` ends; `R` is what `Executor::buy` returns. -/
inductive Outcome (F R : Type)
  | prefilteredOut (reason : Msg F)
  | filteredOut (reason : Msg F)
  | noWallet
  | finished (wallet : ℕ) (result : R)

section HandleLaunch

variable {F R : Type} [F64 F]

/-- `handle_launch`, given the facts it fetched, the wallet it was handed, and `buy`. -/
def handleLaunch (filters : FilterEngine F) (launch : LaunchEvent)
    (facts : Option (LaunchFacts F)) (wallet : Option ℕ) (buy : LaunchEvent → ℕ → R) :
    Outcome F R :=
  match filters.prefilter launch with
  | .reject reason => .prefilteredOut reason
  | .accept =>
    match filters.evaluate launch (facts.getD .default) with
    | .reject reason => .filteredOut reason
    | .accept =>
      match wallet with
      | none => .noWallet
      | some i => .finished i (buy launch i)

/-! ### Phase by phase -/

/-- Where a task stands. The guard of wallet `i` is alive in `buying` and `returning`, and
the permit until the task is gone. -/
inductive Phase (F R : Type)
  | spawned
  | enriching
  | acquiring
  | marking (i : ℕ)
  | buying (i : ℕ)
  | returning (i : ℕ) (result : R)
  | done (outcome : Outcome F R)

def Phase.afterPrefilter (filters : FilterEngine F) (launch : LaunchEvent) : Phase F R :=
  match filters.prefilter launch with
  | .reject reason => .done (.prefilteredOut reason)
  | .accept => .enriching

def Phase.afterFacts (filters : FilterEngine F) (launch : LaunchEvent)
    (facts : Option (LaunchFacts F)) : Phase F R :=
  match filters.evaluate launch (facts.getD .default) with
  | .reject reason => .done (.filteredOut reason)
  | .accept => .acquiring

end HandleLaunch

/-! ### The loop and its tasks -/

structure Task (F R : Type) where
  launch : LaunchEvent
  phase : Phase F R

/-- Where the loop stands: at `select`, with a launch that waits for a permit, with a launch
and its permit, or left. -/
inductive Loop
  | selecting
  | waiting (launch : LaunchEvent)
  | permitted (launch : LaunchEvent)
  | left

structure MainState (F R K : Type) where
  loop : Loop
  permits : ℕ
  tasks : Multiset (Task F R)
  pool : WalletPool K

section Steps

variable {F R K : Type} [F64 F]

/-- One step of the loop or of some task, with what it does to the pool. -/
inductive MainStep (filters : FilterEngine F) :
    MainState F R K → Option PoolEvent → MainState F R K → Prop
  | reconnecting {s : MainState F R K} (hl : s.loop = .selecting) : MainStep filters s none s
  | receive {s : MainState F R K} (launch : LaunchEvent) (hl : s.loop = .selecting) :
      MainStep filters s none { s with loop := .waiting launch }
  -- a shutdown signal, or the end of the stream
  | leave {s : MainState F R K} (hl : s.loop = .selecting) :
      MainStep filters s none { s with loop := .left }
  | permit {s : MainState F R K} {launch : LaunchEvent} {n : ℕ} (hl : s.loop = .waiting launch)
      (hp : s.permits = n + 1) :
      MainStep filters s none { s with loop := .permitted launch, permits := n }
  | spawn {s : MainState F R K} {launch : LaunchEvent} (hl : s.loop = .permitted launch) :
      MainStep filters s none
        { s with loop := .selecting, tasks := ⟨launch, .spawned⟩ ::ₘ s.tasks }
  | prefilter {s : MainState F R K} {launch : LaunchEvent} {rest : Multiset (Task F R)}
      (ht : s.tasks = ⟨launch, .spawned⟩ ::ₘ rest) :
      MainStep filters s none
        { s with tasks := ⟨launch, .afterPrefilter filters launch⟩ ::ₘ rest }
  | evaluate {s : MainState F R K} {launch : LaunchEvent} {rest : Multiset (Task F R)}
      (facts : Option (LaunchFacts F)) (ht : s.tasks = ⟨launch, .enriching⟩ ::ₘ rest) :
      MainStep filters s none
        { s with tasks := ⟨launch, .afterFacts filters launch facts⟩ ::ₘ rest }
  | roundRobin {s : MainState F R K} {launch : LaunchEvent} {rest : Multiset (Task F R)}
      (ht : s.tasks = ⟨launch, .acquiring⟩ ::ₘ rest) (hs : s.pool.strategy = .roundRobin)
      (hn : s.pool.wallets ≠ []) :
      MainStep filters s (some (.chose s.pool.fetchAdd.1))
        { s with
          tasks := ⟨launch, .marking s.pool.fetchAdd.1⟩ ::ₘ rest
          pool := s.pool.fetchAdd.2 }
  -- unwinding drops the permit
  | roundRobinNone {s : MainState F R K} {launch : LaunchEvent} {rest : Multiset (Task F R)}
      (ht : s.tasks = ⟨launch, .acquiring⟩ ::ₘ rest) (hs : s.pool.strategy = .roundRobin)
      (hn : s.pool.wallets = []) :
      MainStep filters s (some .panicked)
        { s with tasks := rest, permits := s.permits + 1, pool := s.pool.fetchAdd.2 }
  | random {s : MainState F R K} {launch : LaunchEvent} {rest : Multiset (Task F R)} {i : ℕ}
      (ht : s.tasks = ⟨launch, .acquiring⟩ ::ₘ rest) (hs : s.pool.strategy = .random)
      (hi : i < s.pool.wallets.length) :
      MainStep filters s (some (.chose i)) { s with tasks := ⟨launch, .marking i⟩ ::ₘ rest }
  | randomNone {s : MainState F R K} {launch : LaunchEvent} {rest : Multiset (Task F R)}
      (ht : s.tasks = ⟨launch, .acquiring⟩ ::ₘ rest) (hs : s.pool.strategy = .random)
      (hn : s.pool.wallets = []) :
      MainStep filters s (some (.acquired none))
        { s with tasks := ⟨launch, .done .noWallet⟩ ::ₘ rest }
  | mark {s : MainState F R K} {launch : LaunchEvent} {rest : Multiset (Task F R)} {i : ℕ}
      (ht : s.tasks = ⟨launch, .marking i⟩ ::ₘ rest) :
      MainStep filters s (some (.acquired (some i)))
        { s with tasks := ⟨launch, .buying i⟩ ::ₘ rest, pool := s.pool.markBusy i }
  | first {s : MainState F R K} {launch : LaunchEvent} {rest : Multiset (Task F R)} {i : ℕ}
      {pool : WalletPool K} (ht : s.tasks = ⟨launch, .acquiring⟩ ::ₘ rest)
      (hs : s.pool.strategy = .firstAvailable) (hi : s.pool.firstAvailable = some (i, pool)) :
      MainStep filters s (some (.acquired (some i)))
        { s with tasks := ⟨launch, .buying i⟩ ::ₘ rest, pool }
  | firstNone {s : MainState F R K} {launch : LaunchEvent} {rest : Multiset (Task F R)}
      (ht : s.tasks = ⟨launch, .acquiring⟩ ::ₘ rest) (hs : s.pool.strategy = .firstAvailable)
      (hi : s.pool.firstAvailable = none) :
      MainStep filters s (some (.acquired none))
        { s with tasks := ⟨launch, .done .noWallet⟩ ::ₘ rest }
  | buy {s : MainState F R K} {launch : LaunchEvent} {rest : Multiset (Task F R)} {i : ℕ}
      (result : R) (ht : s.tasks = ⟨launch, .buying i⟩ ::ₘ rest) :
      MainStep filters s none { s with tasks := ⟨launch, .returning i result⟩ ::ₘ rest }
  | dropGuard {s : MainState F R K} {launch : LaunchEvent} {rest : Multiset (Task F R)} {i : ℕ}
      {result : R} (ht : s.tasks = ⟨launch, .returning i result⟩ ::ₘ rest) :
      MainStep filters s (some (.dropped i))
        { s with
          tasks := ⟨launch, .done (.finished i result)⟩ ::ₘ rest
          pool := s.pool.release i }
  | dropPermit {s : MainState F R K} {launch : LaunchEvent} {rest : Multiset (Task F R)}
      {outcome : Outcome F R} (ht : s.tasks = ⟨launch, .done outcome⟩ ::ₘ rest) :
      MainStep filters s none { s with tasks := rest, permits := s.permits + 1 }

/-- The program from its start: no launch yet, and all permits free. -/
def program (ext : Files K) (cfg : Config F) (filters : FilterEngine F) :
    LTS (MainState F R K) (Option PoolEvent) where
  init s := s.loop = .selecting ∧ s.permits = max cfg.runtime.maxConcurrentSnipes 1 ∧
    s.tasks = 0 ∧ WalletPool.load ext cfg.wallets = .ok s.pool
  step := MainStep filters

/-! ### How a task ends -/

/-- With these facts, the launch gets past the filters. -/
def Passes (filters : FilterEngine F) (launch : LaunchEvent) (facts : Option (LaunchFacts F)) :
    Prop :=
  filters.prefilter launch = .accept ∧ filters.evaluate launch (facts.getD .default) = .accept

/-- What `handle_launch` has found out where a task stands. -/
def Follows (filters : FilterEngine F) (launch : LaunchEvent) : Phase F R → Prop
  | .spawned => True
  | .enriching => filters.prefilter launch = .accept
  | .done outcome => ∃ facts wallet buy, outcome = handleLaunch filters launch facts wallet buy
  | _ => ∃ facts, Passes filters launch facts

variable {filters : FilterEngine F} {launch : LaunchEvent}

lemma follows_afterPrefilter [Nonempty R] :
    Follows filters launch (.afterPrefilter filters launch : Phase F R) := by
  unfold Phase.afterPrefilter
  cases hpre : filters.prefilter launch with
  | accept => exact hpre
  | reject reason =>
    obtain ⟨result⟩ := ‹Nonempty R›
    refine ⟨none, none, fun _ _ => result, ?_⟩
    simp only [handleLaunch, hpre]

lemma follows_afterFacts [Nonempty R] (hpre : filters.prefilter launch = .accept)
    (facts : Option (LaunchFacts F)) :
    Follows filters launch (.afterFacts filters launch facts : Phase F R) := by
  unfold Phase.afterFacts
  cases heval : filters.evaluate launch (facts.getD .default) with
  | accept => exact ⟨facts, hpre, heval⟩
  | reject reason =>
    obtain ⟨result⟩ := ‹Nonempty R›
    refine ⟨facts, none, fun _ _ => result, ?_⟩
    simp only [handleLaunch, hpre, heval]

lemma follows_noWallet [Nonempty R] (h : ∃ facts, Passes filters launch facts) :
    Follows filters launch (.done .noWallet : Phase F R) := by
  obtain ⟨facts, hpre, heval⟩ := h
  obtain ⟨result⟩ := ‹Nonempty R›
  refine ⟨facts, none, fun _ _ => result, ?_⟩
  simp only [handleLaunch, hpre, heval]

lemma follows_finished (h : ∃ facts, Passes filters launch facts) (i : ℕ) (result : R) :
    Follows filters launch (.done (.finished i result) : Phase F R) := by
  obtain ⟨facts, hpre, heval⟩ := h
  refine ⟨facts, some i, fun _ _ => result, ?_⟩
  simp only [handleLaunch, hpre, heval]

/-- A step takes its task along `handle_launch`, and leaves the others. -/
lemma follows_step [Nonempty R] {s t : MainState F R K} {e : Option PoolEvent}
    (hs : ∀ task ∈ s.tasks, Follows filters task.launch task.phase) (h : MainStep filters s e t) :
    ∀ task ∈ t.tasks, Follows filters task.launch task.phase := by
  have hmove : ∀ {launch : LaunchEvent} {p q : Phase F R} {rest : Multiset (Task F R)},
      s.tasks = ⟨launch, p⟩ ::ₘ rest → (Follows filters launch p → Follows filters launch q) →
      ∀ task ∈ (⟨launch, q⟩ ::ₘ rest : Multiset (Task F R)),
        Follows filters task.launch task.phase := by
    intro launch p q rest ht hpq
    rw [ht, Multiset.forall_mem_cons] at hs
    exact Multiset.forall_mem_cons.mpr ⟨hpq hs.1, hs.2⟩
  cases h with
  | reconnecting hl => exact hs
  | receive launch hl => exact hs
  | leave hl => exact hs
  | permit hl hp => exact hs
  | spawn hl => exact Multiset.forall_mem_cons.mpr ⟨trivial, hs⟩
  | prefilter ht => exact hmove ht fun _ => follows_afterPrefilter
  | evaluate facts ht => exact hmove ht fun hpre => follows_afterFacts hpre facts
  | roundRobin ht hr hn => exact hmove ht id
  | roundRobinNone ht hr hn =>
    rw [ht, Multiset.forall_mem_cons] at hs
    exact hs.2
  | random ht hr hi => exact hmove ht id
  | randomNone ht hr hn => exact hmove ht follows_noWallet
  | mark ht => exact hmove ht id
  | first ht hr hi => exact hmove ht id
  | firstNone ht hr hi => exact hmove ht follows_noWallet
  | buy result ht => exact hmove ht id
  | @dropGuard launch rest i result ht => exact hmove ht fun h => follows_finished h i result
  | dropPermit ht =>
    rw [ht, Multiset.forall_mem_cons] at hs
    exact hs.2

/-- **A task ends as `handle_launch` does**, for some facts, some wallet and some result of the
buy. -/
theorem done_eq_handleLaunch [Nonempty R] {ext : Files K} {cfg : Config F}
    {es : List (Option PoolEvent)} {s : MainState F R K}
    (h : (program ext cfg filters).Trace es s) {outcome : Outcome F R}
    (ht : ⟨launch, .done outcome⟩ ∈ s.tasks) :
    ∃ facts wallet buy, outcome = handleLaunch filters launch facts wallet buy := by
  have hall : ∀ task ∈ s.tasks, Follows filters task.launch task.phase := by
    refine h.inv (P := fun s => ∀ task ∈ s.tasks, Follows filters task.launch task.phase) ?_ ?_
    · rintro s ⟨-, -, htasks, -⟩
      rw [htasks]
      exact fun task htask => absurd htask (Multiset.notMem_zero task)
    · exact fun s e t hs hstep => follows_step hs hstep
  exact hall _ ht

end Steps

end NovaSniper.Main
