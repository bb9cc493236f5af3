import NovaSniper.Concurrency
import NovaSniper.Lib.Parties
import NovaSniper.System

/-!
The running program refines the main loop, and through it the wallet pool.

The listener and the acts of a buy are hidden, a buy becomes one step, and the tasks lose their
places and become a multiset. What is known of the pool and of the permits in every run of the
smaller programs is then known of this one.
-/

namespace NovaSniper.SystemRefines

open NovaSniper.FloatOps NovaSniper.Config NovaSniper.Detector NovaSniper.Filters
open NovaSniper.Wallet NovaSniper.Executor NovaSniper.Main NovaSniper.Startup
open NovaSniper.System NovaSniper.Concurrency NovaSniper.Lib.Transition NovaSniper.Lib.Parties

variable {F K : Type}

/-! ### The abstraction -/

/-- The phase that the main loop knows of a task, if it still knows the task. -/
def absPhase : System.Phase F → Option (Main.Phase F (BuyResult F))
  | .spawned => some .spawned
  | .enriching => some .enriching
  | .acquiring => some .acquiring
  | .marking i => some (.marking i)
  | .holding i => some (.buying i)
  | .buying i _ _ => some (.buying i)
  | .returning i result => some (.returning i result)
  | .done outcome => some (.done outcome)
  | .gone _ => none

def absTask (t : System.Task F) : Option (Main.Task F (BuyResult F)) :=
  (absPhase t.phase).map (⟨t.launch, ·⟩)

def absState (s : State F K) : MainState F (BuyResult F) K where
  loop := s.loop
  permits := s.permits
  tasks := (s.tasks : Multiset (System.Task F)).filterMap absTask
  pool := s.pool

def absLabel : Label → Option (Option PoolEvent)
  | .listener _ => none
  | .task _ (.began _) => none
  | .task _ (.act _) => none
  | .task _ (.pool e) => some (some e)
  | _ => some none

/-! ### The steps of a task -/

section Task

variable {s : State F K} {k : ℕ} {launch : LaunchEvent} {phase next : System.Phase F}

/-- The other tasks, as the main loop sees them. -/
def others (s : State F K) (k : ℕ) : Multiset (Main.Task F (BuyResult F)) :=
  ((s.tasks.eraseIdx k : List (System.Task F)) : Multiset (System.Task F)).filterMap absTask

/-- A task, if the main loop knows it, and the other tasks. -/
def consTask (launch : LaunchEvent) (phase : Option (Main.Phase F (BuyResult F)))
    (rest : Multiset (Main.Task F (BuyResult F))) : Multiset (Main.Task F (BuyResult F)) :=
  match phase with
  | none => rest
  | some phase => ⟨launch, phase⟩ ::ₘ rest

lemma filterMap_absTask (launch : LaunchEvent) (phase : System.Phase F)
    (rest : Multiset (System.Task F)) : Multiset.filterMap absTask (⟨launch, phase⟩ ::ₘ rest) =
      consTask launch (absPhase phase) (rest.filterMap absTask) := by
  cases habs : absPhase phase with
  | none =>
    refine Multiset.filterMap_cons_none _ _ ?_
    simp only [absTask, habs, Option.map_none]
  | some q =>
    refine Multiset.filterMap_cons_some _ _ _ ?_
    simp only [absTask, habs, Option.map_some]

lemma absTasks_eq (ht : s.tasks[k]? = some ⟨launch, phase⟩) :
    (absState s).tasks = consTask launch (absPhase phase) (others s k) := by
  unfold absState
  rw [coe_eq_cons ht, filterMap_absTask]
  rfl

lemma absState_set (ht : s.tasks[k]? = some ⟨launch, phase⟩) (permits : ℕ)
    (pool : WalletPool K) :
    absState { s with permits, tasks := s.tasks.set k ⟨launch, next⟩, pool } =
      { absState s with
        permits, tasks := consTask launch (absPhase next) (others s k), pool } := by
  unfold absState
  rw [coe_set ht, filterMap_absTask]
  rfl

end Task

section Steps

variable [F64 F] {crates : Crates K} {p : Program F K} {s t : State F K}

omit [F64 F] in
lemma absPhase_afterPrefilter (filters : FilterEngine F) (launch : LaunchEvent) :
    absPhase (.afterPrefilter filters launch) = some (.afterPrefilter filters launch) := by
  unfold System.Phase.afterPrefilter Main.Phase.afterPrefilter
  cases filters.prefilter launch with
  | reject reason => rfl
  | accept => rfl

lemma absPhase_afterFacts (filters : FilterEngine F) (launch : LaunchEvent) :
    absPhase (.afterFacts filters launch) =
      some (.afterFacts filters launch (fetchLaunchFacts launch)) := by
  unfold System.Phase.afterFacts Main.Phase.afterFacts
  cases filters.evaluate launch ((fetchLaunchFacts launch).getD .default) with
  | reject reason => rfl
  | accept => rfl

/-- A step of a task is hidden, or it is a step of the main loop. -/
lemma taskStep_abs {k : ℕ} {launch : LaunchEvent} {phase next : System.Phase F} {a : TaskAct}
    {pool : WalletPool K} (ht : s.tasks[k]? = some ⟨launch, phase⟩)
    (hstep : TaskStep crates p launch s.pool phase a pool next) :
    let t := { s with
      permits := s.permits + a.frees, tasks := s.tasks.set k ⟨launch, next⟩, pool := pool }
    (absLabel (.task k a) = none → absState t = absState s) ∧
      ∀ e, absLabel (.task k a) = some e → MainStep p.filters (absState s) e (absState t) := by
  intro t
  have hold : ∀ q, absPhase phase = some q →
      (absState s).tasks = ⟨launch, q⟩ ::ₘ others s k := by
    intro q hq
    rw [absTasks_eq ht, hq]
    rfl
  have hnew : absState t = _ := absState_set ht (s.permits + a.frees) pool
  rw [hnew]
  cases hstep with
  | prefilter =>
    refine ⟨nofun, ?_⟩
    rintro e ⟨⟩
    rw [absPhase_afterPrefilter]
    exact MainStep.prefilter (s := absState s) (hold _ rfl)
  | evaluate =>
    refine ⟨nofun, ?_⟩
    rintro e ⟨⟩
    rw [absPhase_afterFacts]
    exact MainStep.evaluate (s := absState s) (fetchLaunchFacts launch) (hold _ rfl)
  | roundRobin hs hn =>
    refine ⟨nofun, ?_⟩
    rintro e ⟨⟩
    exact MainStep.roundRobin (s := absState s) (hold _ rfl) hs hn
  | roundRobinNone hs hn =>
    refine ⟨nofun, ?_⟩
    rintro e ⟨⟩
    exact MainStep.roundRobinNone (s := absState s) (hold _ rfl) hs hn
  | random hs hi =>
    refine ⟨nofun, ?_⟩
    rintro e ⟨⟩
    exact MainStep.random (s := absState s) (hold _ rfl) hs hi
  | randomNone hs hn =>
    refine ⟨nofun, ?_⟩
    rintro e ⟨⟩
    exact MainStep.randomNone (s := absState s) (hold _ rfl) hs hn
  | mark =>
    refine ⟨nofun, ?_⟩
    rintro e ⟨⟩
    exact MainStep.mark (s := absState s) (hold _ rfl)
  | first hs hi =>
    refine ⟨nofun, ?_⟩
    rintro e ⟨⟩
    exact MainStep.first (s := absState s) (hold _ rfl) hs hi
  | firstNone hs hi =>
    refine ⟨nofun, ?_⟩
    rintro e ⟨⟩
    exact MainStep.firstNone (s := absState s) (hold _ rfl) hs hi
  | begin w hk =>
    refine ⟨fun _ => ?_, nofun⟩
    simp only [absPhase, consTask, TaskAct.frees, add_zero]
    rw [← hold _ rfl]
    rfl
  | act =>
    refine ⟨fun _ => ?_, nofun⟩
    simp only [absPhase, consTask, TaskAct.frees, add_zero]
    rw [← hold _ rfl]
    rfl
  | finish =>
    refine ⟨nofun, ?_⟩
    rintro e ⟨⟩
    exact MainStep.buy (s := absState s) _ (hold _ rfl)
  | dropGuard =>
    refine ⟨nofun, ?_⟩
    rintro e ⟨⟩
    exact MainStep.dropGuard (s := absState s) (hold _ rfl)
  | dropPermit =>
    refine ⟨nofun, ?_⟩
    rintro e ⟨⟩
    exact MainStep.dropPermit (s := absState s) (hold _ rfl)

/-- A step of the program is hidden, or it is a step of the main loop. -/
lemma systemStep_abs {l : Label} (hstep : SystemStep crates p s l t) :
    (absLabel l = none → absState t = absState s) ∧
      ∀ e, absLabel l = some e → MainStep p.filters (absState s) e (absState t) := by
  cases hstep with
  | listener hstep hp => exact ⟨fun _ => rfl, nofun⟩
  | @take e rest hl hq =>
    refine ⟨nofun, ?_⟩
    rintro e' ⟨⟩
    cases e with
    | launch ev => exact .receive ev hl
    | reconnecting attempt reason =>
      have heq : absState { s with queue := rest, loop := .selecting } = absState s := by
        rw [← hl]
        rfl
      rw [show afterTake (.reconnecting attempt reason) = .selecting from rfl, heq]
      exact .reconnecting hl
  | leave hl =>
    refine ⟨nofun, ?_⟩
    rintro e ⟨⟩
    exact .leave hl
  | permit hl hn =>
    refine ⟨nofun, ?_⟩
    rintro e ⟨⟩
    exact .permit hl hn
  | @spawn launch hl =>
    refine ⟨nofun, ?_⟩
    rintro e ⟨⟩
    have hadd : (absState { s with
        loop := .selecting, tasks := s.tasks ++ [⟨launch, .spawned⟩] }).tasks =
        ⟨launch, .spawned⟩ ::ₘ (absState s).tasks := by
      have hcoe : ((s.tasks ++ [⟨launch, .spawned⟩] : List (System.Task F)) :
          Multiset (System.Task F)) = ⟨launch, .spawned⟩ ::ₘ (s.tasks : Multiset _) := by
        rw [← Multiset.coe_add, add_comm]
        rfl
      unfold absState
      rw [hcoe, filterMap_absTask]
      rfl
    have hspawn : MainStep p.filters (absState s) none
        { absState s with
          loop := .selecting, tasks := ⟨launch, .spawned⟩ ::ₘ (absState s).tasks } := .spawn hl
    rw [← hadd] at hspawn
    exact hspawn
  | task ht hstep => exact taskStep_abs ht hstep

end Steps

/-! ### Whole runs -/

section Runs

variable [F64 F] {host : Host K} {path : String} {simulate : Bool} {cfg : Config F}
  {p : Program F K} {ls : List Label} {s : State F K}

/-- **The running program refines the main loop.** -/
theorem simulates_program (hbuilt : Built host simulate cfg p) :
    LTS.Simulates (system host.crates p)
      (Main.program (R := BuyResult F) host.files cfg p.filters) absState absLabel where
  init s := by
    rintro rfl
    exact ⟨rfl, hbuilt.permits, rfl, hbuilt.wallets⟩
  stutter s l t hstep := (systemStep_abs hstep).1
  step s l t e hstep := (systemStep_abs hstep).2 e

/-- A run of the program, as the main loop sees it. -/
lemma main_of_trace (hbuilt : Built host simulate cfg p) (h : (system host.crates p).Trace ls s) :
    (Main.program host.files cfg p.filters).Trace (ls.filterMap absLabel) (absState s) :=
  h.map (simulates_program hbuilt)

/-- A run of the program, as the pool sees it. -/
lemma pool_of_trace (hbuilt : Built host simulate cfg p) (h : (system host.crates p).Trace ls s) :
    (pools host.files cfg.wallets).Trace ((ls.filterMap absLabel).filterMap id)
      (poolState (absState s)) :=
  (main_of_trace hbuilt h).map simulates

end Runs

end NovaSniper.SystemRefines
