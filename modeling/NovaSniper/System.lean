import NovaSniper.ListenerTask
import NovaSniper.Main
import NovaSniper.Startup

/-!
The running program: the listener task, the channel between it and the main loop, the loop,
and the tasks that the loop spawns.

A step is one of theirs, in any order. A task goes through its buy act by act, so that the acts
of all tasks interleave. Once the loop has left, the runtime drops the tasks at some point:
there a run ends.
-/

namespace NovaSniper.System

open NovaSniper.FloatOps NovaSniper.Config NovaSniper.Detector NovaSniper.Filters
open NovaSniper.Wallet NovaSniper.Executor NovaSniper.ListenerTask NovaSniper.Main
open NovaSniper.Startup NovaSniper.Lib.Transition

/-! ### The listener task -/

/-- Where `run_once` and the loop around it stand. `rest` is what the stream has yet to bring,
and `pending` are the launches of the last update that are yet to be sent. -/
inductive ListenerPhase
  | connecting
  | streaming (rest : List Received) (pending : List LaunchEvent)
  | reporting (reason : String)
  | sleeping

structure Listening where
  attempt : UInt32
  phase : ListenerPhase

inductive ListenerAct
  | connected (attempt : UInt32) (session : Session)
  | received (r : Received)
  | ended
  | sent (e : ListenerEvent)
  -- the receiver is gone
  | unsent (e : ListenerEvent)
  | woke (millis : ℕ)

def ListenerAct.sends : ListenerAct → List ListenerEvent
  | .sent e => [e]
  | _ => []

section Listener

variable (ext : Solana.Codecs) (cfg : RpcConfig) (detector : Detector)

def ListenerPhase.afterConnect (session : Session) : ListenerPhase :=
  match establish ext cfg detector session with
  | .error reason => .reporting reason
  | .ok () => .streaming session.stream []

def ListenerPhase.afterReceived (r : Received) (rest : List Received) : ListenerPhase :=
  match r.msg with
  | .error reason => .reporting reason
  | .ok update => .streaming rest (launchesOf ext detector update r.clock)

/-- One step of the loop of `Listener::start`. The count goes up when `run_once` has returned and
its error, if any, is reported. -/
inductive ListenerStep : Listening → ListenerAct → Listening → Prop
  | connect {n : UInt32} (session : Session) :
      ListenerStep ⟨n, .connecting⟩ (.connected n session)
        ⟨n, .afterConnect ext cfg detector session⟩
  | receive {n : UInt32} {r : Received} {rest : List Received} :
      ListenerStep ⟨n, .streaming (r :: rest) []⟩ (.received r)
        ⟨n, .afterReceived ext detector r rest⟩
  | endStream {n : UInt32} :
      ListenerStep ⟨n, .streaming [] []⟩ .ended ⟨n + 1, .sleeping⟩
  | send {n : UInt32} {rest : List Received} {ev : LaunchEvent} {evs : List LaunchEvent} :
      ListenerStep ⟨n, .streaming rest (ev :: evs)⟩ (.sent (.launch ev))
        ⟨n, .streaming rest evs⟩
  -- `run_once` returns as if the stream had ended
  | sendFails {n : UInt32} {rest : List Received} {ev : LaunchEvent} {evs : List LaunchEvent} :
      ListenerStep ⟨n, .streaming rest (ev :: evs)⟩ (.unsent (.launch ev)) ⟨n + 1, .sleeping⟩
  | report {n : UInt32} {reason : String} :
      ListenerStep ⟨n, .reporting reason⟩ (.sent (.reconnecting n reason)) ⟨n + 1, .sleeping⟩
  | reportFails {n : UInt32} {reason : String} :
      ListenerStep ⟨n, .reporting reason⟩ (.unsent (.reconnecting n reason)) ⟨n + 1, .sleeping⟩
  | wake {n : UInt32} :
      ListenerStep ⟨n, .sleeping⟩ (.woke (backoffFor n)) ⟨n, .connecting⟩

end Listener

/-! ### The tasks -/

/-- What `Executor::buy` returns. -/
abbrev BuyResult (F : Type) := Except String (BuyOutcome F)

/-- Where `handle_launch` stands. A guard is alive from `holding` to `returning`; a task that is
`gone` has given back its permit, after a panic without an outcome. -/
inductive Phase (F : Type)
  | spawned
  | enriching
  | acquiring
  | marking (i : ℕ)
  | holding (i : ℕ)
  | buying (i : ℕ) (todo : List Act) (result : BuyResult F)
  | returning (i : ℕ) (result : BuyResult F)
  | done (outcome : Main.Outcome F (BuyResult F))
  | gone (outcome : Option (Main.Outcome F (BuyResult F)))

structure Task (F : Type) where
  launch : LaunchEvent
  phase : Phase F

inductive TaskAct
  | moved
  | pool (e : PoolEvent)
  | began (i : ℕ)
  | act (a : Act)
  | ended

/-- The permits that an act of a task gives back. -/
def TaskAct.frees : TaskAct → ℕ
  | .pool .panicked => 1
  | .ended => 1
  | _ => 0

section Tasks

variable {F K : Type} [F64 F]

/-- A stub: there are no facts yet. -/
def fetchLaunchFacts (_launch : LaunchEvent) : Option (LaunchFacts F) := none

def Phase.afterPrefilter (filters : FilterEngine F) (launch : LaunchEvent) : Phase F :=
  match filters.prefilter launch with
  | .reject reason => .done (.prefilteredOut reason)
  | .accept => .enriching

def Phase.afterFacts (filters : FilterEngine F) (launch : LaunchEvent) : Phase F :=
  match filters.evaluate launch ((fetchLaunchFacts launch).getD .default) with
  | .reject reason => .done (.filteredOut reason)
  | .accept => .acquiring

/-- One step of `handle_launch`, with the pool before and after it. -/
inductive TaskStep (crates : Crates K) (p : Program F K) (launch : LaunchEvent) :
    WalletPool K → Phase F → TaskAct → WalletPool K → Phase F → Prop
  | prefilter {pool : WalletPool K} :
      TaskStep crates p launch pool .spawned .moved pool (.afterPrefilter p.filters launch)
  | evaluate {pool : WalletPool K} :
      TaskStep crates p launch pool .enriching .moved pool (.afterFacts p.filters launch)
  | roundRobin {pool : WalletPool K} (hs : pool.strategy = .roundRobin)
      (hn : pool.wallets ≠ []) :
      TaskStep crates p launch pool .acquiring (.pool (.chose pool.fetchAdd.1)) pool.fetchAdd.2
        (.marking pool.fetchAdd.1)
  | roundRobinNone {pool : WalletPool K} (hs : pool.strategy = .roundRobin)
      (hn : pool.wallets = []) :
      TaskStep crates p launch pool .acquiring (.pool .panicked) pool.fetchAdd.2 (.gone none)
  | random {pool : WalletPool K} {i : ℕ} (hs : pool.strategy = .random)
      (hi : i < pool.wallets.length) :
      TaskStep crates p launch pool .acquiring (.pool (.chose i)) pool (.marking i)
  | randomNone {pool : WalletPool K} (hs : pool.strategy = .random) (hn : pool.wallets = []) :
      TaskStep crates p launch pool .acquiring (.pool (.acquired none)) pool (.done .noWallet)
  | mark {pool : WalletPool K} {i : ℕ} :
      TaskStep crates p launch pool (.marking i) (.pool (.acquired (some i))) (pool.markBusy i)
        (.holding i)
  | first {pool pool' : WalletPool K} {i : ℕ} (hs : pool.strategy = .firstAvailable)
      (hi : pool.firstAvailable = some (i, pool')) :
      TaskStep crates p launch pool .acquiring (.pool (.acquired (some i))) pool' (.holding i)
  | firstNone {pool : WalletPool K} (hs : pool.strategy = .firstAvailable)
      (hi : pool.firstAvailable = none) :
      TaskStep crates p launch pool .acquiring (.pool (.acquired none)) pool (.done .noWallet)
  -- `w` is what the calls of this buy will meet
  | begin {pool : WalletPool K} {i : ℕ} {wallet : K} (w : World)
      (hk : pool.keypair i = some wallet) :
      TaskStep crates p launch pool (.holding i) (.began i) pool
        (.buying i (p.executor.buy crates w launch wallet).log
          (p.executor.buy crates w launch wallet).result)
  | act {pool : WalletPool K} {i : ℕ} {a : Act} {todo : List Act} {result : BuyResult F} :
      TaskStep crates p launch pool (.buying i (a :: todo) result) (.act a) pool
        (.buying i todo result)
  | finish {pool : WalletPool K} {i : ℕ} {result : BuyResult F} :
      TaskStep crates p launch pool (.buying i [] result) .moved pool (.returning i result)
  | dropGuard {pool : WalletPool K} {i : ℕ} {result : BuyResult F} :
      TaskStep crates p launch pool (.returning i result) (.pool (.dropped i)) (pool.release i)
        (.done (.finished i result))
  | dropPermit {pool : WalletPool K} {outcome : Main.Outcome F (BuyResult F)} :
      TaskStep crates p launch pool (.done outcome) .ended pool (.gone (some outcome))

end Tasks

/-! ### All of it -/

/-- The program at work. The queue is the channel's, and a task keeps its place in the list. -/
structure State (F K : Type) where
  listener : Listening
  queue : List ListenerEvent
  loop : Loop
  permits : ℕ
  tasks : List (Task F)
  pool : WalletPool K

inductive Label
  | listener (a : ListenerAct)
  | took (e : ListenerEvent)
  | left
  | permit
  | spawned (launch : LaunchEvent)
  | task (k : ℕ) (a : TaskAct)

/-- The capacity of the channel. -/
def capacity : ℕ := 1024

def afterTake : ListenerEvent → Loop
  | .launch ev => .waiting ev
  | .reconnecting _ _ => .selecting

section System

variable {F K : Type}

/-- A send waits for room, and fails once the receiver is gone. -/
def Allows (s : State F K) : ListenerAct → Prop
  | .sent _ => s.queue.length < capacity ∧ s.loop ≠ .left
  | .unsent _ => s.loop = .left
  | _ => True

variable [F64 F] (crates : Crates K) (p : Program F K)

inductive SystemStep : State F K → Label → State F K → Prop
  | listener {s : State F K} {a : ListenerAct} {next : Listening}
      (hstep : ListenerStep crates.codecs p.rpc p.detector s.listener a next)
      (hp : Allows s a) :
      SystemStep s (.listener a) { s with listener := next, queue := s.queue ++ a.sends }
  | take {s : State F K} {e : ListenerEvent} {rest : List ListenerEvent}
      (hl : s.loop = .selecting) (hq : s.queue = e :: rest) :
      SystemStep s (.took e) { s with queue := rest, loop := afterTake e }
  -- a shutdown signal; the receiver is dropped with what is in the channel
  | leave {s : State F K} (hl : s.loop = .selecting) :
      SystemStep s .left { s with queue := [], loop := .left }
  | permit {s : State F K} {launch : LaunchEvent} {n : ℕ} (hl : s.loop = .waiting launch)
      (hn : s.permits = n + 1) :
      SystemStep s .permit { s with loop := .permitted launch, permits := n }
  | spawn {s : State F K} {launch : LaunchEvent} (hl : s.loop = .permitted launch) :
      SystemStep s (.spawned launch)
        { s with loop := .selecting, tasks := s.tasks ++ [⟨launch, .spawned⟩] }
  | task {s : State F K} {k : ℕ} {launch : LaunchEvent} {phase next : Phase F} {a : TaskAct}
      {pool : WalletPool K} (ht : s.tasks[k]? = some ⟨launch, phase⟩)
      (hstep : TaskStep crates p launch s.pool phase a pool next) :
      SystemStep s (.task k a)
        { s with
          permits := s.permits + a.frees
          tasks := s.tasks.set k ⟨launch, next⟩
          pool := pool }

/-- The program at the start of its loop. -/
def initial : State F K where
  listener := ⟨0, .connecting⟩
  queue := []
  loop := .selecting
  permits := p.permits
  tasks := []
  pool := p.wallets

def system : LTS (State F K) Label where
  init s := s = initial p
  step := SystemStep crates p

end System

end NovaSniper.System
