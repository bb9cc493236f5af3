import NovaSniper.Accounts
import NovaSniper.ListenerTask

/-!
What a session delivers.

The session is three loops inside each other, with places to leave each of them early. What
comes out at the channel is a plain concatenation: for every update before the stream ends or
fails, and every instruction of its transaction, the event of that instruction, if it has one.
-/

namespace NovaSniper.Delivery

open NovaSniper.Config NovaSniper.Solana NovaSniper.Detector NovaSniper.Listener
open NovaSniper.ListenerTask NovaSniper.Accounts NovaSniper.Lib

/-! ### The concatenation -/

/-- All instructions of a transaction, whatever else of it is missing: the outer ones, then the
inner ones, group by group. -/
def allInstructions (info : TransactionInfo) : List Instruction :=
  (info.transaction.bind (·.message)).toList.flatMap (·.instructions) ++
    (info.statusMeta.toList.flatMap (·.innerInstructions)).flatMap (·.instructions)

/-- The transaction of an update, and its slot. -/
def transactionOf (update : SubscribeUpdate) : Option (TransactionInfo × ℕ) :=
  match update.updateOneof with
  | some (.transaction txUpdate) => txUpdate.transaction.map (·, txUpdate.slot)
  | _ => none

/-- The updates before the end of a stream, or before its error, each with the clock while it
is handled. -/
def updates : List Received → List (SubscribeUpdate × (ℕ → ℤ))
  | [] => []
  | r :: rest =>
    match r.msg with
    | .ok update => (update, r.clock) :: updates rest
    | .error _ => []

section Delivery

variable (ext : Codecs) (cfg : RpcConfig) (detector : Detector)

/-- The updates that a session receives: without a subscription there are none. -/
def receivedUpdates (s : Session) : List (SubscribeUpdate × (ℕ → ℤ)) :=
  match establish ext cfg detector s with
  | .ok () => updates s.stream
  | .error _ => []

/-- The events of a transaction: one for each instruction that decodes. -/
def decoded (clock : ℕ → ℤ) (info : TransactionInfo) (slot : ℕ) : List LaunchEvent :=
  (allInstructions info).zipIdx.filterMap fun p => eventAt ext detector clock info slot p.1 p.2

/-- The events of an update. -/
def updateEvents (update : SubscribeUpdate) (clock : ℕ → ℤ) : List LaunchEvent :=
  (transactionOf update).toList.flatMap fun t => decoded ext detector clock t.1 t.2

/-- The events of a session. -/
def sessionEvents (s : Session) : List LaunchEvent :=
  (receivedUpdates ext cfg detector s).flatMap fun u => updateEvents ext detector u.1 u.2

variable {ext cfg detector}

/-! ### The loops compute it -/

lemma eventAt_without_message {clock : ℕ → ℤ} {info : TransactionInfo} {slot : ℕ}
    {ix : Instruction} {k : ℕ} (h : info.transaction.bind (·.message) = none) :
    eventAt ext detector clock info slot ix k = none := by
  have hkeys : walkKeys info = [] := by
    unfold walkKeys
    rw [h]
    rfl
  unfold eventAt instructionLaunch
  rw [hkeys]
  rfl

/-- A transaction without a message has no keys, so that none of its inner instructions
decodes. -/
lemma decoded_eq (clock : ℕ → ℤ) (info : TransactionInfo) (slot : ℕ) :
    decoded ext detector clock info slot = (instructions info).zipIdx.filterMap
      fun p => eventAt ext detector clock info slot p.1 p.2 := by
  unfold decoded allInstructions instructions
  cases hmsg : info.transaction.bind (·.message) with
  | none =>
    rw [List.filterMap_eq_nil_iff.mpr fun p _ => eventAt_without_message hmsg]
    rfl
  | some message =>
    rw [Option.toList_some, List.flatMap_singleton]

/-- The walk of a transaction. -/
lemma extractLaunches_getD (clock : ℕ → ℤ) (info : TransactionInfo) (slot : ℕ) :
    (extractLaunches ext detector clock info slot).getD [] =
      decoded ext detector clock info slot := by
  rw [decoded_eq, extractLaunches_eq]
  simp only
  split_ifs with h
  · exact (List.isEmpty_iff.mp h).symm
  · rfl

/-- The handling of an update. -/
lemma launchesOf_eq (update : SubscribeUpdate) (clock : ℕ → ℤ) :
    launchesOf ext detector update clock = updateEvents ext detector update clock := by
  unfold launchesOf updateEvents transactionOf
  cases update.updateOneof with
  | none => rfl
  | some oneof =>
    cases oneof with
    | ping => rfl
    | other => rfl
    | transaction txUpdate =>
      obtain ⟨transaction, slot⟩ := txUpdate
      cases transaction with
      | none => rfl
      | some info =>
        simp only [Option.map_some, Option.toList_some, List.flatMap_singleton]
        exact extractLaunches_getD clock info slot

/-- The loop over the stream. -/
lemma streamed_eq (stream : List Received) : streamed ext detector stream =
    (updates stream).flatMap fun u => updateEvents ext detector u.1 u.2 := by
  induction stream with
  | nil => rfl
  | cons r rest ih =>
    cases hmsg : r.msg with
    | error e => simp [streamed, updates, hmsg]
    | ok update => simp [streamed, updates, hmsg, ih, launchesOf_eq]

lemma launches_eq (s : Session) :
    launches ext cfg detector s = sessionEvents ext cfg detector s := by
  unfold launches sessionEvents receivedUpdates
  cases establish ext cfg detector s with
  | error e => rfl
  | ok _ => exact streamed_eq s.stream

/-- An event carries the signature and the slot it was decoded with. -/
lemma signature_of_launchOf {m : ProgramMatcher} {nowMs : ℤ} {data : List UInt8}
    {accounts : List Pubkey} {signature : String} {slot : ℕ} {ev : LaunchEvent}
    (h : launchOf m nowMs data accounts signature slot = some ev) :
    ev.signature = signature ∧ ev.slot = slot := by
  rcases launchOf_cases h with ⟨-, hev⟩ | ⟨-, hev⟩
  · obtain ⟨mint, creator, -, -, rfl⟩ := decodePumpfun_eq_some.mp hev
    exact ⟨rfl, rfl⟩
  · obtain ⟨mint, creator, -, -, rfl⟩ := decodeRaydium_eq_some.mp hev
    exact ⟨rfl, rfl⟩

lemma signature_of_decoded {clock : ℕ → ℤ} {info : TransactionInfo} {slot : ℕ}
    {ev : LaunchEvent} (h : ev ∈ decoded ext detector clock info slot) :
    ev.signature = ext.bs58Encode info.signature ∧ ev.slot = slot := by
  obtain ⟨p, -, hev⟩ := List.mem_filterMap.mp h
  obtain ⟨_, _, -, -, hlaunch⟩ := eventAt_eq_some hev
  exact signature_of_launchOf hlaunch

/-- **No loss and no duplication.** A session whose receiver stays for its events sends exactly
those: for each update before the stream ends or fails, in order, one event for each instruction
that decodes, in order. Each event carries the signature and the slot of its transaction. -/
theorem runOnce_sent (s : Session) (tx : Channel ListenerEvent)
    (halive : tx.Takes (sessionEvents ext cfg detector s).length) :
    (runOnce ext cfg detector s tx).2.sent =
        tx.sent ++ (sessionEvents ext cfg detector s).map .launch ∧
      ∀ u ∈ receivedUpdates ext cfg detector s, ∀ info slot,
        transactionOf u.1 = some (info, slot) →
          ∀ ev ∈ decoded ext detector u.2 info slot,
            ev.signature = ext.bs58Encode info.signature ∧ ev.slot = slot := by
  refine ⟨?_, fun u _ info slot _ ev hev => signature_of_decoded hev⟩
  rw [← launches_eq] at halive ⊢
  rw [runOnce_of_takes halive, Channel.push_sent]

end Delivery

/-! ### A create between instructions that are none -/

/-- The instruction before the create is too short, and the one after has no program. -/
def wrapped : TransactionInfo :=
  { routedLaunch { createWith [] with data := [0x18] } with
    statusMeta := some
      { err := none, loadedWritableAddresses := [], loadedReadonlyAddresses := []
        innerInstructions :=
          [⟨[createWith [1, 2, 3, 4, 5, 6, 7, 8], { createWith [] with programIdIndex := 9 }]⟩] } }

/-- A ping, an update without a transaction, that transaction, and an error. -/
def wrappedSession : Session where
  buildFromShared := .ok ()
  xToken := .ok ()
  tlsConfig := .ok ()
  connect := .ok ()
  subscribe := .ok ()
  send _ := .ok ()
  stream :=
    [⟨.ok ⟨some .ping⟩, fun _ => 0⟩, ⟨.ok ⟨some (.transaction ⟨none, 1⟩)⟩, fun _ => 0⟩,
      ⟨.ok ⟨some (.transaction ⟨some wrapped, 1⟩)⟩, fun _ => 0⟩,
      ⟨.error "transport error", fun _ => 0⟩]

theorem runOnce_sent_example :
    (runOnce crates exampleConfig.rpc exampleDetector wrappedSession (.new none)).2.sent =
        (sessionEvents crates exampleConfig.rpc exampleDetector wrappedSession).map .launch ∧
      (sessionEvents crates exampleConfig.rpc exampleDetector wrappedSession).length = 1 := by
  refine ⟨?_, by decide +kernel⟩
  exact (runOnce_sent wrappedSession (.new none) fun k hk => nomatch hk).1

end NovaSniper.Delivery
