import NovaSniper.EndToEnd

/-!
The listener in the running program refines the listener task on its own.

On its own the task goes through a list of sessions, with a channel that takes all it sends. In
the running program it sends one event at a time, waits for room in the channel, and meets the
loop at work on the other side. Its sends are the same, up to those it has yet to make, and so
are its waits.
-/

namespace NovaSniper.ListenerRefines

open NovaSniper.FloatOps NovaSniper.Detector NovaSniper.Executor NovaSniper.ListenerTask
open NovaSniper.Startup NovaSniper.System NovaSniper.EndToEnd NovaSniper.Lib
open NovaSniper.Lib.Transition NovaSniper.Lib.Transition.LTS

variable {F K : Type}

/-! ### Sessions -/

/-- The session that begins with a step, if one does. -/
def sessionBy : Label → List Session
  | .listener (.connected _ session) => [session]
  | _ => []

def wokeBy : Label → List ℕ
  | .listener (.woke millis) => [millis]
  | _ => []

section Listener

variable (crates : Crates K) (p : Program F K)

/-- All that the session that begins with a step has to tell. -/
def toldBy : Label → List ListenerEvent
  | .listener (.connected attempt session) =>
    events crates.codecs p.rpc p.detector attempt session
  | _ => []

/-- What the session at hand has yet to tell. -/
def untold (l : Listening) : List ListenerEvent :=
  match l.phase with
  | .streaming rest pending =>
    (pending ++ streamed crates.codecs p.detector rest).map .launch ++
      notice l.attempt (streamEnd rest)
  | .reporting reason => [.reconnecting l.attempt reason]
  | _ => []

/-- The wait that the session at hand will end with. -/
def waitDue (l : Listening) : List ℕ :=
  match l.phase with
  | .connecting => []
  | .sleeping => [backoffFor l.attempt]
  | _ => [backoffFor (l.attempt + 1)]

/-- The count at the end of the session at hand. -/
def countAfter (l : Listening) : UInt32 :=
  match l.phase with
  | .connecting => l.attempt
  | .sleeping => l.attempt
  | _ => l.attempt + 1

/-! ### One session after another -/

lemma after_snoc (w : List Session) (session : Session) :
    after crates.codecs p.rpc p.detector none (w ++ [session]) =
      (turn crates.codecs p.rpc p.detector
        (after crates.codecs p.rpc p.detector none w) session).2 := by
  unfold after
  rw [Mealy.final_append]
  rfl

lemma waits_snoc (w : List Session) (session : Session) :
    waits crates.codecs p.rpc p.detector none (w ++ [session]) =
      waits crates.codecs p.rpc p.detector none w ++
        [backoffFor ((after crates.codecs p.rpc p.detector none w).attempt + 1)] := by
  unfold waits
  rw [Mealy.outputs_append]
  rfl

/-- A receiver that stays for good. -/
lemma lives_after (w : List Session) :
    (after crates.codecs p.rpc p.detector none w).tx.lives = none := by
  induction w using List.reverseRecOn with
  | nil => rfl
  | append_singleton w session ih =>
    rw [after_snoc, turn_of_takes (fun k hk => by rw [ih] at hk; cases hk), Channel.push, ih,
      Option.map_none]

lemma sent_snoc (w : List Session) (session : Session) :
    (after crates.codecs p.rpc p.detector none (w ++ [session])).tx.sent =
      (after crates.codecs p.rpc p.detector none w).tx.sent ++
        events crates.codecs p.rpc p.detector
          (after crates.codecs p.rpc p.detector none w).attempt session := by
  have hlives := lives_after crates p w
  rw [after_snoc, turn_of_takes (fun k hk => by rw [hlives] at hk; cases hk), Channel.push_sent]

end Listener

section Runs

variable {crates : Crates K} {p : Program F K} {ls : List Label} {s : State F K}

/-! ### The sends -/

lemma untold_connect (n : UInt32) (session : Session) :
    untold crates p ⟨n, .afterConnect crates.codecs p.rpc p.detector session⟩ =
      events crates.codecs p.rpc p.detector n session := by
  unfold untold events launches sessionEnd ListenerPhase.afterConnect
  cases establish crates.codecs p.rpc p.detector session with
  | error reason => rfl
  | ok u => rfl

lemma untold_receive (n : UInt32) (r : Received) (rest : List Received) :
    untold crates p ⟨n, .afterReceived crates.codecs p.detector r rest⟩ =
      untold crates p ⟨n, .streaming (r :: rest) []⟩ := by
  unfold untold ListenerPhase.afterReceived
  cases hmsg : r.msg with
  | error reason => simp [streamed, streamEnd, hmsg, notice]
  | ok update => simp [streamed, streamEnd, hmsg]

/-! ### The task on its own -/

/-- The task on its own, after the sessions begun so far. -/
structure Follows (crates : Crates K) (p : Program F K) (ls : List Label) (s : State F K) :
    Prop where
  count : (after crates.codecs p.rpc p.detector none (ls.flatMap sessionBy)).attempt =
    countAfter s.listener
  told : (after crates.codecs p.rpc p.detector none (ls.flatMap sessionBy)).tx.sent =
    ls.flatMap (toldBy crates p)
  waits : waits crates.codecs p.rpc p.detector none (ls.flatMap sessionBy) =
    ls.flatMap wokeBy ++ waitDue s.listener

lemma follows_start : Follows crates p [] (initial p) := ⟨rfl, rfl, rfl⟩

/-- Within a session the task on its own does not move. -/
lemma follows_within (hs : Follows crates p ls s) {t : State F K} {l : Label}
    (hsession : sessionBy l = []) (htold : toldBy crates p l = [])
    (hcount : countAfter t.listener = countAfter s.listener)
    (hwaits : wokeBy l ++ waitDue t.listener = waitDue s.listener) :
    Follows crates p (ls ++ [l]) t := by
  refine ⟨?_, ?_, ?_⟩
  · rw [flatMap_snoc, hsession, List.append_nil, hcount, hs.count]
  · rw [flatMap_snoc, flatMap_snoc, hsession, htold, List.append_nil, List.append_nil, hs.told]
  · rw [flatMap_snoc, flatMap_snoc, hsession, List.append_nil, hs.waits, List.append_assoc, hwaits]

variable (crates p) in
lemma countAfter_connect (n : UInt32) (session : Session) :
    countAfter ⟨n, .afterConnect crates.codecs p.rpc p.detector session⟩ = n + 1 ∧
      waitDue ⟨n, .afterConnect crates.codecs p.rpc p.detector session⟩ =
        [backoffFor (n + 1)] := by
  unfold countAfter waitDue ListenerPhase.afterConnect
  cases establish crates.codecs p.rpc p.detector session with
  | error reason => exact ⟨rfl, rfl⟩
  | ok u => exact ⟨rfl, rfl⟩

/-- A new session is one more turn of the task. -/
lemma follows_connect (hs : Follows crates p ls s) {n : UInt32}
    (hl : s.listener = ⟨n, .connecting⟩) (session : Session) {t : State F K}
    (ht : t.listener = ⟨n, .afterConnect crates.codecs p.rpc p.detector session⟩) :
    Follows crates p (ls ++ [.listener (.connected n session)]) t := by
  obtain ⟨hcount, hdue⟩ := countAfter_connect crates p n session
  have hn : (after crates.codecs p.rpc p.detector none (ls.flatMap sessionBy)).attempt = n := by
    rw [hs.count, hl]
    rfl
  have hwaits := hs.waits
  rw [hl] at hwaits
  refine ⟨?_, ?_, ?_⟩
  · rw [flatMap_snoc, sessionBy, after_snoc, ht, hcount, ← hn]
    rfl
  · rw [flatMap_snoc, flatMap_snoc, sessionBy, sent_snoc, hs.told, hn]
    rfl
  · rw [flatMap_snoc, flatMap_snoc, sessionBy, waits_snoc, hwaits, hn, ht, hdue]
    simp [waitDue, wokeBy]

/-! ### Whole runs -/

variable [F64 F]

/-- A session tells all it has to tell. -/
lemma conserves_events : Conserves (system crates p) Receiving (toldBy crates p) sentBy
    fun s => untold crates p s.listener where
  init s := by
    rintro rfl
    rfl
  back s l t := receiving_back
  step s l t hstep ht := by
    cases hstep with
    | @listener a next hl hp =>
      generalize s.listener = before at hl
      cases hl with
      | connect session =>
        rw [untold_connect]
        rfl
      | receive =>
        rw [untold_receive]
        simp [toldBy, sentBy, ListenerAct.sends]
      | endStream => rfl
      | send => simp [toldBy, sentBy, ListenerAct.sends, untold]
      | sendFails => exact absurd hp ht
      | report => rfl
      | reportFails => exact absurd hp ht
      | wake => rfl
    | take hl hq => simp [toldBy, sentBy]
    | leave hl => simp [toldBy, sentBy]
    | permit hl hn => simp [toldBy, sentBy]
    | spawn hl => simp [toldBy, sentBy]
    | task hphase hstep => simp [toldBy, sentBy]
  dead s l t := sentBy_dead

lemma follows_step (hs : Follows crates p ls s) {t : State F K} {l : Label}
    (hstep : SystemStep crates p s l t) : Follows crates p (ls ++ [l]) t := by
  cases hstep with
  | @listener a next hl hp =>
    generalize hbefore : s.listener = before at hl
    cases hl with
    | connect session => exact follows_connect hs hbefore session rfl
    | @receive n r rest =>
      refine follows_within hs rfl rfl ?_ ?_
      · rw [hbefore]
        simp only [countAfter, ListenerPhase.afterReceived]
        cases r.msg <;> rfl
      · rw [hbefore]
        simp only [wokeBy, waitDue, ListenerPhase.afterReceived]
        cases r.msg <;> rfl
    | endStream => exact follows_within hs rfl rfl (by rw [hbefore]; rfl) (by rw [hbefore]; rfl)
    | send => exact follows_within hs rfl rfl (by rw [hbefore]; rfl) (by rw [hbefore]; rfl)
    | sendFails => exact follows_within hs rfl rfl (by rw [hbefore]; rfl) (by rw [hbefore]; rfl)
    | report => exact follows_within hs rfl rfl (by rw [hbefore]; rfl) (by rw [hbefore]; rfl)
    | reportFails => exact follows_within hs rfl rfl (by rw [hbefore]; rfl) (by rw [hbefore]; rfl)
    | wake => exact follows_within hs rfl rfl (by rw [hbefore]; rfl) (by rw [hbefore]; rfl)
  | take hl hq => exact follows_within hs rfl rfl rfl rfl
  | leave hl => exact follows_within hs rfl rfl rfl rfl
  | permit hl hn => exact follows_within hs rfl rfl rfl rfl
  | spawn hl => exact follows_within hs rfl rfl rfl rfl
  | task hphase hstep => exact follows_within hs rfl rfl rfl rfl

lemma follows_of_trace (h : (system crates p).Trace ls s) : Follows crates p ls s := by
  refine h.hist ?_ ?_
  · rintro s rfl
    exact follows_start
  · intro ls s l t hs hstep
    exact follows_step hs hstep

/-- **The listener sends what the task on its own sends.** Let the task on its own go through the
sessions that the listener has begun, with a receiver that stays. At all times the listener has
sent a first part of what the task has sent; while the program receives, the rest of that is what
the session at hand has yet to tell. The waits of the two are the same as well, whether the
program receives or not. -/
theorem listener_refines (h : (system crates p).Trace ls s) :
    let w := ls.flatMap sessionBy
    let task := after crates.codecs p.rpc p.detector none w
    ls.flatMap sentBy <+: task.tx.sent ∧
      (s.loop ≠ .left → task.tx.sent = ls.flatMap sentBy ++ untold crates p s.listener) ∧
      waits crates.codecs p.rpc p.detector none w =
        ls.flatMap wokeBy ++ waitDue s.listener := by
  intro w task
  have hs := follows_of_trace h
  rw [show task.tx.sent = ls.flatMap (toldBy crates p) from hs.told]
  exact ⟨h.delivered conserves_events, h.conserves conserves_events, hs.waits⟩

end Runs

open NovaSniper.BuyOnce NovaSniper.Wallet

/-- The session of the example has told all it has to tell. -/
theorem listener_refines_example :
    (after exampleCrates.codecs exampleProgram.rpc exampleProgram.detector none
      (untilSent.flatMap sessionBy)).tx.sent = [.launch createLaunch] :=
  (listener_refines (trace_untilSent rfl)).2.1 nofun

end NovaSniper.ListenerRefines
