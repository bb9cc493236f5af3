import NovaSniper.Listener
import NovaSniper.Lib.Channel
import NovaSniper.Lib.Mealy

/-!
The listener task: one gRPC session after another, with a wait after each.

What the outside answers during one call of `run_once` is a session. The task has no exit: a
run of it is the list of the sessions it has gone through, however long.
-/

namespace NovaSniper.ListenerTask

open NovaSniper.Config NovaSniper.Solana NovaSniper.Detector NovaSniper.Listener
open NovaSniper.Lib NovaSniper.Lib.Fallible

inductive ListenerEvent
  | launch (event : LaunchEvent)
  | reconnecting (attempt : UInt32) (reason : String)
  deriving DecidableEq

/-- `SubscribeUpdateTransaction`. -/
structure TransactionUpdate where
  transaction : Option TransactionInfo
  slot : ℕ
  deriving DecidableEq

inductive UpdateOneof
  | transaction (txUpdate : TransactionUpdate)
  | ping
  | other
  deriving DecidableEq

structure SubscribeUpdate where
  updateOneof : Option UpdateOneof
  deriving DecidableEq

/-- An item of the stream, an update or an error, and the clock while it is handled. -/
structure Received where
  msg : Except String SubscribeUpdate
  clock : ℕ → ℤ

/-- The outside of one call of `run_once`: what each step to the subscription returns, and
the stream from then on. The stream ends where the list does. -/
structure Session where
  buildFromShared : Except String Unit
  xToken : Except String Unit
  tlsConfig : Except String Unit
  connect : Except String Unit
  subscribe : Except String Unit
  send : SubscribeRequest → Except String Unit
  stream : List Received

/-- What `run_once` returns, and the channel after it. -/
abbrev Outcome := Except String Unit × Channel ListenerEvent

section Task

variable (ext : Codecs) (cfg : RpcConfig) (detector : Detector)

/-! ### One session -/

/-- The steps of `run_once` up to the subscription. -/
def establish (s : Session) : Except String Unit := do
  s.buildFromShared
  s.xToken
  s.tlsConfig
  withContext s.connect "connect geyser gRPC"
  withContext s.subscribe "open subscription"
  withContext (s.send (subscribeRequest ext cfg detector)) "send subscribe request"

/-- The launches of an update. -/
def launchesOf (update : SubscribeUpdate) (clock : ℕ → ℤ) : List LaunchEvent :=
  match update.updateOneof with
  | some (.transaction txUpdate) =>
    match txUpdate.transaction with
    | some info => (extractLaunches ext detector clock info txUpdate.slot).getD []
    | none => []
  -- a ping is answered, and what becomes of the answer is ignored
  | _ => []

/-- The `while` loop of `run_once`. A launch that cannot be sent ends it as if the stream had
ended. -/
def receive (tx : Channel ListenerEvent) : List Received → Outcome
  | [] => (.ok (), tx)
  | r :: rest =>
    match r.msg with
    | .error e => (.error e, tx)
    | .ok update =>
      match tx.sendAll ((launchesOf ext detector update r.clock).map .launch) with
      | (true, tx) => receive tx rest
      | (false, tx) => (.ok (), tx)

def runOnce (s : Session) (tx : Channel ListenerEvent) : Outcome :=
  match establish ext cfg detector s with
  | .error e => (.error e, tx)
  | .ok () => receive ext detector tx s.stream

/-! ### The loop -/

/-- In milliseconds. The shift is by 6 at most, so nothing is lost from 64 bits. -/
def backoffFor (attempt : UInt32) : ℕ := 250 <<< (min attempt 6).toNat

structure Task where
  attempt : UInt32
  tx : Channel ListenerEvent

/-- One turn of the loop of `Listener::start`, with the wait after it. An error is reported
to the receiver, and the outcome of that is ignored. The count of attempts wraps, as it does
in a release build. -/
def turn (task : Task) (s : Session) : ℕ × Task :=
  let (result, tx) := runOnce ext cfg detector s task.tx
  let tx := match result with
    | .ok () => tx
    | .error reason => (tx.send (.reconnecting task.attempt reason)).2
  let attempt := task.attempt + 1
  (backoffFor attempt, { attempt, tx })

/-- The task as it is spawned, with a receiver that stays for so many sends. -/
def start (lives : Option ℕ) : Task where
  attempt := 0
  tx := Channel.new lives

/-- The task after the sessions of a run. -/
def after (lives : Option ℕ) (w : List Session) : Task :=
  Mealy.final (turn ext cfg detector) (start lives) w

/-- The waits of a run, one after each session. -/
def waits (lives : Option ℕ) (w : List Session) : List ℕ :=
  Mealy.outputs (turn ext cfg detector) (start lives) w

/-! ### What a session sends -/

/-- The launches of a stream, up to its error if it has one. -/
def streamed : List Received → List LaunchEvent
  | [] => []
  | r :: rest =>
    match r.msg with
    | .error _ => []
    | .ok update => launchesOf ext detector update r.clock ++ streamed rest

/-- How a stream ends when all its launches can be sent. -/
def streamEnd : List Received → Except String Unit
  | [] => .ok ()
  | r :: rest =>
    match r.msg with
    | .error e => .error e
    | .ok _ => streamEnd rest

/-- The launches of a session. -/
def launches (s : Session) : List LaunchEvent :=
  match establish ext cfg detector s with
  | .error _ => []
  | .ok () => streamed ext detector s.stream

/-- How a session ends when all its launches can be sent. -/
def sessionEnd (s : Session) : Except String Unit :=
  match establish ext cfg detector s with
  | .error e => .error e
  | .ok () => streamEnd s.stream

/-- What the receiver is told of how a session ended. -/
def notice (attempt : UInt32) : Except String Unit → List ListenerEvent
  | .ok () => []
  | .error reason => [.reconnecting attempt reason]

/-- What one turn has to tell the receiver. -/
def events (attempt : UInt32) (s : Session) : List ListenerEvent :=
  (launches ext cfg detector s).map .launch ++ notice attempt (sessionEnd ext cfg detector s)

/-- The number of sends that one turn calls for. -/
def calls (s : Session) : ℕ := (events ext cfg detector 0 s).length

variable {ext cfg detector}

lemma length_events (attempt : UInt32) (s : Session) :
    (events ext cfg detector attempt s).length = calls ext cfg detector s := by
  unfold calls events
  cases sessionEnd ext cfg detector s <;> simp [notice]

lemma receive_of_takes {tx : Channel ListenerEvent} {stream : List Received}
    (h : tx.Takes (streamed ext detector stream).length) :
    receive ext detector tx stream =
      (streamEnd stream, tx.push ((streamed ext detector stream).map .launch)) := by
  induction stream generalizing tx with
  | nil => simp [receive, streamEnd, streamed]
  | cons r rest ih =>
    cases hmsg : r.msg with
    | error e => simp [receive, streamEnd, streamed, hmsg]
    | ok update =>
      simp only [streamed, hmsg, List.length_append] at h
      have hnow : tx.Takes
          ((launchesOf ext detector update r.clock).map ListenerEvent.launch).length := by
        rw [List.length_map]
        exact h.mono (Nat.le_add_right _ _)
      have hrest := (Channel.takes_push hnow (streamed ext detector rest).length).mpr
        (by rwa [List.length_map])
      simp only [receive, streamEnd, streamed, hmsg, Channel.sendAll_of_takes hnow, ih hrest,
        Channel.push_push, List.map_append]

lemma receive_of_not_takes {tx : Channel ListenerEvent} {stream : List Received}
    (h : ¬ tx.Takes (streamed ext detector stream).length) :
    (receive ext detector tx stream).1 = .ok () ∧
      (receive ext detector tx stream).2.failed = tx.failed + 1 := by
  induction stream generalizing tx with
  | nil => exact absurd (fun k _ => Nat.zero_le k) h
  | cons r rest ih =>
    cases hmsg : r.msg with
    | error e =>
      simp only [streamed, hmsg] at h
      exact absurd (fun k _ => Nat.zero_le k) h
    | ok update =>
      simp only [streamed, hmsg, List.length_append] at h
      set evs := (launchesOf ext detector update r.clock).map ListenerEvent.launch with hevs
      have hlen : (launchesOf ext detector update r.clock).length = evs.length := by
        rw [hevs, List.length_map]
      rw [hlen] at h
      by_cases hnow : tx.Takes evs.length
      · rw [← Channel.takes_push hnow] at h
        simp only [receive, hmsg, ← hevs, Channel.sendAll_of_takes hnow]
        exact ih h
      · obtain ⟨hfalse, hfailed⟩ := Channel.sendAll_of_not_takes hnow
        simp only [receive, hmsg, ← hevs]
        generalize tx.sendAll evs = sent at hfalse hfailed
        obtain ⟨b, tx'⟩ := sent
        obtain rfl : b = false := hfalse
        exact ⟨rfl, hfailed⟩

lemma runOnce_of_takes {tx : Channel ListenerEvent} {s : Session}
    (h : tx.Takes (launches ext cfg detector s).length) :
    runOnce ext cfg detector s tx =
      (sessionEnd ext cfg detector s, tx.push ((launches ext cfg detector s).map .launch)) := by
  unfold runOnce sessionEnd
  cases hest : establish ext cfg detector s with
  | error e => simp [launches, hest]
  | ok _ =>
    simp only [launches, hest] at h ⊢
    exact receive_of_takes h

lemma runOnce_of_not_takes {tx : Channel ListenerEvent} {s : Session}
    (h : ¬ tx.Takes (launches ext cfg detector s).length) :
    (runOnce ext cfg detector s tx).1 = .ok () ∧
      (runOnce ext cfg detector s tx).2.failed = tx.failed + 1 := by
  unfold runOnce
  cases hest : establish ext cfg detector s with
  | error e =>
    simp only [launches, hest] at h
    exact absurd (fun k _ => Nat.zero_le k) h
  | ok _ =>
    simp only [launches, hest] at h
    exact receive_of_not_takes h

/-- **A turn with a receiver that stays for it** sends all it has to tell. -/
theorem turn_of_takes {task : Task} {s : Session}
    (h : task.tx.Takes (calls ext cfg detector s)) :
    (turn ext cfg detector task s).2.tx =
      task.tx.push (events ext cfg detector task.attempt s) := by
  have hlaunches : task.tx.Takes (launches ext cfg detector s).length := by
    refine h.mono ?_
    simp [calls, events]
  unfold turn
  rw [runOnce_of_takes hlaunches]
  cases hend : sessionEnd ext cfg detector s with
  | ok _ => simp [events, hend, notice]
  | error reason =>
    have hone : (task.tx.push ((launches ext cfg detector s).map .launch)).Takes 1 := by
      rw [Channel.takes_push (by rwa [List.length_map])]
      simpa [calls, events, hend, notice] using h
    simp only [Channel.send_of_takes hone, Channel.push_push, events, hend, notice]

/-- **A turn with a receiver that goes before its end** fails to send once. -/
theorem turn_of_not_takes {task : Task} {s : Session}
    (h : ¬ task.tx.Takes (calls ext cfg detector s)) :
    (turn ext cfg detector task s).2.tx.failed = task.tx.failed + 1 := by
  by_cases hlaunches : task.tx.Takes (launches ext cfg detector s).length
  · -- the launches went out, so it is the notice that fails
    unfold turn
    rw [runOnce_of_takes hlaunches]
    cases hend : sessionEnd ext cfg detector s with
    | ok _ => exact absurd (by simpa [calls, events, hend, notice] using hlaunches) h
    | error reason =>
      have hone : ¬ (task.tx.push ((launches ext cfg detector s).map .launch)).Takes 1 := by
        rw [Channel.takes_push (by rwa [List.length_map])]
        simpa [calls, events, hend, notice] using h
      simp only [Channel.send_of_not_takes hone, Channel.push_failed]
  · obtain ⟨hok, hfailed⟩ := runOnce_of_not_takes hlaunches
    unfold turn
    generalize runOnce ext cfg detector s task.tx = out at hok hfailed
    obtain ⟨result, tx⟩ := out
    obtain rfl : result = .ok () := hok
    exact hfailed

end Task

end NovaSniper.ListenerTask
