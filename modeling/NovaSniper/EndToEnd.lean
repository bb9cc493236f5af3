import NovaSniper.Delivery
import NovaSniper.Lib.Parties
import NovaSniper.Lib.Pipeline
import NovaSniper.RoundRobin
import NovaSniper.System

/-!
From the stream to the tasks.

A launch goes through four hands: the listener that decoded it, the channel, the loop, and the
task that is spawned for it. They are queues in a row, so that the tasks are the launches of
the updates received, in order, up to those that are still on their way.
-/

namespace NovaSniper.EndToEnd

open NovaSniper.FloatOps NovaSniper.Detector NovaSniper.Executor NovaSniper.ListenerTask
open NovaSniper.Delivery NovaSniper.Main NovaSniper.Startup NovaSniper.System
open NovaSniper.Lib.Transition NovaSniper.Lib.Transition.LTS NovaSniper.Lib.Parties

variable {F K : Type}

/-! ### What goes in and what comes out -/

section Labels

variable (crates : Crates K) (p : Program F K)

/-- The launches of an update that is received. -/
def decodedBy : Label → List LaunchEvent
  | .listener (.received r) =>
    match r.msg with
    | .ok update => updateEvents crates.codecs p.detector update r.clock
    | .error _ => []
  | _ => []

end Labels

def sentBy : Label → List ListenerEvent
  | .listener a => a.sends
  | _ => []

def tookBy : Label → List ListenerEvent
  | .took e => [e]
  | _ => []

def spawnedBy : Label → List LaunchEvent
  | .spawned launch => [launch]
  | _ => []

def launchOf : ListenerEvent → Option LaunchEvent
  | .launch ev => some ev
  | .reconnecting _ _ => none

/-! ### What is on its way -/

def pendingOf (l : Listening) : List LaunchEvent :=
  match l.phase with
  | .streaming _ pending => pending
  | _ => []

/-- The launch that the loop has taken and not yet given to a task. -/
def inLoop : Loop → List LaunchEvent
  | .waiting launch => [launch]
  | .permitted launch => [launch]
  | _ => []

/-- The launches between the stream and the tasks, the oldest first. -/
def onTheWay (s : State F K) : List LaunchEvent :=
  inLoop s.loop ++ (s.queue.filterMap launchOf ++ pendingOf s.listener)

/-- The receiver of the channel is there. -/
def Receiving (s : State F K) : Prop := s.loop ≠ .left

section Queues

variable [F64 F] {crates : Crates K} {p : Program F K}

lemma receiving_back {s t : State F K} {l : Label} (h : SystemStep crates p s l t)
    (ht : Receiving t) : Receiving s := by
  unfold Receiving at ht ⊢
  cases h with
  | listener hstep hp => exact ht
  | take hl hq => simp [hl]
  | leave hl => simp at ht
  | permit hl hn => simp [hl]
  | spawn hl => simp [hl]
  | task hphase hstep => exact ht

lemma sentBy_dead {s t : State F K} {l : Label} (h : SystemStep crates p s l t)
    (ht : ¬ Receiving t) : sentBy l = [] := by
  cases h with
  | @listener a next hl hp =>
    cases a with
    | sent e => exact absurd hp.2 ht
    | _ => rfl
  | _ => rfl

/-- The last update of the listener. -/
lemma conserves_listener : Conserves (system crates p) Receiving (decodedBy crates p)
    (fun l => (sentBy l).filterMap launchOf) fun s => pendingOf s.listener where
  init s := by
    rintro rfl
    rfl
  back s l t := receiving_back
  step s l t hstep ht := by
    cases hstep with
    | @listener a next hl hp =>
      generalize s.listener = before at hl
      cases hl with
      | connect session =>
        simp only [decodedBy, sentBy, ListenerAct.sends, pendingOf, ListenerPhase.afterConnect]
        cases establish crates.codecs p.rpc p.detector session with
        | error reason => rfl
        | ok u => rfl
      | @receive n r rest =>
        simp only [decodedBy, sentBy, ListenerAct.sends, pendingOf, ListenerPhase.afterReceived]
        cases r.msg with
        | error reason => rfl
        | ok update => simp [launchesOf_eq]
      | endStream => rfl
      | send => simp [decodedBy, sentBy, ListenerAct.sends, pendingOf, launchOf]
      | sendFails => exact absurd hp ht
      | report => simp [decodedBy, sentBy, ListenerAct.sends, pendingOf, launchOf]
      | reportFails => simp [decodedBy, sentBy, ListenerAct.sends, pendingOf]
      | wake => rfl
    | take hl hq => simp [decodedBy, sentBy]
    | leave hl => simp [decodedBy, sentBy]
    | permit hl hn => simp [decodedBy, sentBy]
    | spawn hl => simp [decodedBy, sentBy]
    | task hphase hstep => simp [decodedBy, sentBy]
  dead s l t hstep ht := by rw [sentBy_dead hstep ht, List.filterMap_nil]

/-- The channel. -/
lemma conserves_queue : Conserves (system crates p) Receiving sentBy tookBy State.queue where
  init s := by
    rintro rfl
    rfl
  back s l t := receiving_back
  step s l t hstep ht := by
    cases hstep with
    | listener hl hp => simp [sentBy, tookBy]
    | take hl hq => simp [sentBy, tookBy, hq]
    | leave hl => exact absurd rfl ht
    | permit hl hn => simp [sentBy, tookBy]
    | spawn hl => simp [sentBy, tookBy]
    | task hphase hstep => simp [sentBy, tookBy]
  dead s l t hstep ht := by
    cases hstep with
    | @take e rest hl hq =>
      have hreceiving : Receiving { s with queue := rest, loop := afterTake e } := by
        unfold Receiving
        cases e <;> simp [afterTake]
      exact absurd hreceiving ht
    | _ => rfl

/-- The loop. -/
lemma conserves_loop : Conserves (system crates p) Receiving
    (fun l => (tookBy l).filterMap launchOf) spawnedBy fun s => inLoop s.loop where
  init s := by
    rintro rfl
    rfl
  back s l t := receiving_back
  step s l t hstep ht := by
    cases hstep with
    | listener hl hp => simp [tookBy, spawnedBy]
    | @take e rest hl hq => cases e <;> simp [tookBy, spawnedBy, inLoop, hl, launchOf, afterTake]
    | leave hl => exact absurd rfl ht
    | permit hl hn => simp [tookBy, spawnedBy, inLoop, hl]
    | spawn hl => simp [tookBy, spawnedBy, inLoop, hl]
    | task hphase hstep => simp [tookBy, spawnedBy]
  dead s l t hstep ht := by
    cases hstep with
    | spawn hl => exact absurd (by simp [Receiving]) ht
    | _ => rfl

/-- **The three queues in a row.** -/
lemma conserves_launches : Conserves (system crates p) Receiving (decodedBy crates p) spawnedBy
    onTheWay :=
  (conserves_listener.comp (conserves_queue.filterMap launchOf)).comp conserves_loop

/-- The tasks are those that were spawned. -/
lemma tasks_of_trace {ls : List Label} {s : State F K} (h : (system crates p).Trace ls s) :
    s.tasks.map (·.launch) = ls.flatMap spawnedBy := by
  refine h.hist (P := fun ls s => s.tasks.map (·.launch) = ls.flatMap spawnedBy) ?_ ?_
  · rintro s rfl
    rfl
  · intro ls s l t hs hstep
    rw [flatMap_snoc, ← hs]
    cases hstep with
    | spawn hl => simp [spawnedBy]
    | @task k launch phase next a pool hphase hstep =>
      have hlaunch : (s.tasks.map (·.launch))[k]? = some launch := by
        rw [List.getElem?_map, hphase, Option.map_some]
      simp only [spawnedBy, List.append_nil, List.map_set]
      exact set_self hlaunch
    | _ => simp [spawnedBy]

/-- While the program receives, what was decoded is with the tasks or on its way. -/
lemma launches_split {ls : List Label} {s : State F K} (h : (system crates p).Trace ls s)
    (hs : Receiving s) :
    ls.flatMap (decodedBy crates p) = s.tasks.map (·.launch) ++ onTheWay s := by
  rw [tasks_of_trace h]
  exact h.conserves conserves_launches hs

/-- The tasks are for the first launches decoded. -/
lemma launches_delivered {ls : List Label} {s : State F K} (h : (system crates p).Trace ls s) :
    s.tasks.map (·.launch) <+: ls.flatMap (decodedBy crates p) := by
  rw [tasks_of_trace h]
  exact h.delivered conserves_launches

lemma queue_le_capacity {ls : List Label} {s : State F K} (h : (system crates p).Trace ls s) :
    s.queue.length ≤ capacity := by
  refine h.inv (P := fun s => s.queue.length ≤ capacity) ?_ ?_
  · rintro s rfl
    exact Nat.zero_le _
  · intro s l t hs hstep
    cases hstep with
    | @listener a next hl hp =>
      cases a with
      | sent e =>
        simp only [ListenerAct.sends, List.length_append, List.length_singleton]
        exact hp.1
      | _ => simpa [ListenerAct.sends] using hs
    | take hl hq =>
      rw [hq, List.length_cons] at hs
      exact Nat.le_of_succ_le hs
    | leave hl => exact Nat.zero_le _
    | _ => exact hs

/-- **Every launch gets its task, in order.** However the listener, the loop and the tasks take
turns: the tasks are, in the order in which they were spawned, the first launches of the updates
received. While the program receives, what is not yet a task is with the loop, in the channel,
or with the listener, in that order; and the channel never holds more than its capacity. -/
theorem launches_in_order {ls : List Label} {s : State F K}
    (h : (system crates p).Trace ls s) :
    s.tasks.map (·.launch) <+: ls.flatMap (decodedBy crates p) ∧
      (s.loop ≠ .left →
        ls.flatMap (decodedBy crates p) = s.tasks.map (·.launch) ++
          (inLoop s.loop ++ (s.queue.filterMap launchOf ++ pendingOf s.listener))) ∧
      s.queue.length ≤ capacity :=
  ⟨launches_delivered h, launches_split h, queue_le_capacity h⟩

end Queues

/-! ### One launch -/

open NovaSniper.Config NovaSniper.Solana NovaSniper.Accounts NovaSniper.BuyOnce NovaSniper.Wallet

/-- A create on Pump.fun, and nothing after it. -/
def createUpdate : Received where
  msg := .ok ⟨some (.transaction ⟨some (routedLaunch (createWith [1, 2, 3, 4, 5, 6, 7, 8])), 1⟩)⟩
  clock _ := 0

def createSession : Session := { wrappedSession with stream := [createUpdate] }

def createLaunch : LaunchEvent where
  venue := .pumpFun
  signature := "2"
  slot := 1
  mint := .default
  creator := (Pubkey.tryFrom (List.replicate 32 7)).getD .default
  pool := Pubkey.tryFrom (List.replicate 32 2)
  name := none
  symbol := none
  uri := none
  observedAtMs := 0

/-- From the connection until the launch is in the channel. -/
def untilSent : List Label :=
  [.listener (.connected 0 createSession), .listener (.received createUpdate),
    .listener (.sent (.launch createLaunch))]

lemma afterReceived_eq {ext : Codecs} {detector : Detector} {update : SubscribeUpdate}
    {clock : ℕ → ℤ} {evs : List LaunchEvent}
    (h : launchesOf ext detector update clock = evs) (rest : List Received) :
    ListenerPhase.afterReceived ext detector ⟨.ok update, clock⟩ rest = .streaming rest evs := by
  simp only [ListenerPhase.afterReceived, h]

lemma received_create (rest : List Received) :
    ListenerPhase.afterReceived crates exampleDetector createUpdate rest =
      .streaming rest [createLaunch] := afterReceived_eq (by decide +kernel) rest

/-- Any program with the detector of the example comes this far. -/
lemma trace_untilSent {q : Program ℚ (List UInt8)} (hd : q.detector = exampleDetector) :
    (system exampleCrates q).Trace untilSent
      { initial q with listener := ⟨0, .streaming [] []⟩, queue := [.launch createLaunch] } := by
  obtain ⟨rpc, detector, filters, wallets, executor, permits⟩ := q
  obtain rfl := hd
  let q : Program ℚ (List UInt8) := ⟨rpc, exampleDetector, filters, wallets, executor, permits⟩
  let listening (phase : ListenerPhase) : State ℚ (List UInt8) :=
    { initial q with listener := ⟨0, phase⟩ }
  have h₀ : (system exampleCrates q).Trace [] (listening .connecting) := .start rfl
  have h₁ : (system exampleCrates q).Trace (untilSent.take 1)
      (listening (.streaming [createUpdate] [])) :=
    h₀.snoc (.listener (.connect createSession) trivial)
  have h₂ : (system exampleCrates q).Trace (untilSent.take 2)
      (listening (.streaming [] [createLaunch])) := by
    rw [← received_create]
    exact h₁.snoc (.listener .receive trivial)
  exact h₂.snoc (.listener .send ⟨Nat.succ_pos _, nofun⟩)

/-! ### Two launches -/

open NovaSniper.RoundRobin

/-- The same create once more, a slot later. -/
def secondUpdate : Received where
  msg := .ok ⟨some (.transaction ⟨some (routedLaunch (createWith [1, 2, 3, 4, 5, 6, 7, 8])), 2⟩)⟩
  clock _ := 0

def pairSession : Session := { wrappedSession with stream := [createUpdate, secondUpdate] }

def secondLaunch : LaunchEvent := { createLaunch with slot := 2 }

lemma received_second (rest : List Received) :
    ListenerPhase.afterReceived crates exampleDetector secondUpdate rest =
      .streaming rest [secondLaunch] := afterReceived_eq (by decide +kernel) rest

/-- Two permits, and two wallets. -/
def pairConfig (rotation : RotationStrategy) : Config ℚ :=
  { openConfig with
    runtime := { maxConcurrentSnipes := 2 }
    wallets := { twoWallets with rotation } }

def pairProgram (rotation : RotationStrategy) : Program ℚ (List UInt8) :=
  { exampleProgram with wallets := { twoPool with strategy := rotation }, permits := 2 }

lemma built_pair (rotation : RotationStrategy) :
    Built exampleHost false (pairConfig rotation) (pairProgram rotation) :=
  { built_example with
    valid := by cases rotation <;> decide +kernel
    wallets := load_two rotation
    countable := show max 2 1 ≤ maxPermits by decide
    permits := rfl }

/-- The second launch comes while the first task is at its filters; then the tasks take turns until
both are about to acquire a wallet. -/
def untilPair : List Label :=
  [.listener (.connected 0 pairSession), .listener (.received createUpdate),
    .listener (.sent (.launch createLaunch)), .took (.launch createLaunch), .permit,
    .spawned createLaunch, .listener (.received secondUpdate), .task 0 .moved,
    .listener (.sent (.launch secondLaunch)), .took (.launch secondLaunch), .permit,
    .spawned secondLaunch, .task 1 .moved, .task 0 .moved, .task 1 .moved]

/-- The listener has nothing more to do, and the two tasks are in these phases. -/
def twoTasks (first second : System.Phase ℚ) (pool : WalletPool (List UInt8)) (permits : ℕ) :
    State ℚ (List UInt8) where
  listener := ⟨0, .streaming [] []⟩
  queue := []
  loop := .selecting
  permits := permits
  tasks := [⟨createLaunch, first⟩, ⟨secondLaunch, second⟩]
  pool := pool

lemma trace_untilPair (rotation : RotationStrategy) :
    (system exampleCrates (pairProgram rotation)).Trace untilPair
      (twoTasks .acquiring .acquiring { twoPool with strategy := rotation } 0) := by
  let q := pairProgram rotation
  let receiving (phase : ListenerPhase) : State ℚ (List UInt8) :=
    { initial q with listener := ⟨0, phase⟩ }
  let spawned (phase : ListenerPhase) : State ℚ (List UInt8) :=
    { initial q with listener := ⟨0, phase⟩, permits := 1, tasks := [⟨createLaunch, .spawned⟩] }
  have h₀ : (system exampleCrates q).Trace [] (receiving .connecting) := .start rfl
  have h₁ : (system exampleCrates q).Trace (untilPair.take 1)
      (receiving (.streaming [createUpdate, secondUpdate] [])) :=
    h₀.snoc (.listener (.connect pairSession) trivial)
  have h₂ : (system exampleCrates q).Trace (untilPair.take 2)
      (receiving (.streaming [secondUpdate] [createLaunch])) := by
    rw [← received_create]
    exact h₁.snoc (.listener .receive trivial)
  have h₆ : (system exampleCrates q).Trace (untilPair.take 6)
      (spawned (.streaming [secondUpdate] [])) :=
    (((h₂.snoc (.listener .send ⟨Nat.succ_pos _, nofun⟩)).snoc (.take rfl rfl)).snoc
      (.permit rfl rfl)).snoc (.spawn rfl)
  have h₇ : (system exampleCrates q).Trace (untilPair.take 7)
      (spawned (.streaming [] [secondLaunch])) := by
    rw [← received_second]
    exact h₆.snoc (.listener .receive trivial)
  have h₁₂ : (system exampleCrates q).Trace (untilPair.take 12)
      (twoTasks .enriching .spawned { twoPool with strategy := rotation } 0) :=
    ((((h₇.snoc (.task rfl .prefilter)).snoc (.listener .send ⟨Nat.succ_pos _, nofun⟩)).snoc
      (.take rfl rfl)).snoc (.permit rfl rfl)).snoc (.spawn rfl)
  exact ((h₁₂.snoc (.task (k := 1) rfl .prefilter)).snoc (.task (k := 0) rfl .evaluate)).snoc
    (.task (k := 1) rfl .evaluate)

/-- Both launches have their tasks. -/
theorem launches_in_order_example :
    untilPair.flatMap (decodedBy exampleCrates (pairProgram .firstAvailable)) =
      [createLaunch, secondLaunch] :=
  (launches_in_order (trace_untilPair .firstAvailable)).2.1 nofun

end NovaSniper.EndToEnd
