import NovaSniper.ListenerTask

/-!
Whether the task ends with its receiver.

Of its three ways to notice that the receiver is gone, one ends the session as if the stream
had ended, one is ignored, and the end of a stream notices nothing. None of them leaves the
loop, so the task is right only until a send fails.
-/

namespace NovaSniper.Receiver

open NovaSniper.Config NovaSniper.Solana NovaSniper.Detector NovaSniper.ListenerTask
open NovaSniper.Lib

section Receiver

variable {ext : Codecs} {cfg : RpcConfig} {detector : Detector}

variable (ext cfg detector) in
/-- No session of the run begins after a send has failed. -/
def EndsWithReceiver (lives : Option ℕ) (w : List Session) : Prop :=
  ∀ u s v, w = u ++ s :: v → (after ext cfg detector lives u).tx.failed = 0

lemma failed_step (task : Task) (s : Session) :
    task.tx.failed ≤ (turn ext cfg detector task s).2.tx.failed := by
  by_cases h : task.tx.Takes (calls ext cfg detector s)
  · rw [turn_of_takes h, Channel.push_failed]
  · rw [turn_of_not_takes h]
    exact Nat.le_succ _

variable (ext cfg detector) in
/-- The failures of a run are never forgotten. -/
lemma failed_mono (task : Task) (w : List Session) :
    task.tx.failed ≤ (Mealy.final (turn ext cfg detector) task w).tx.failed :=
  Mealy.state_inv (P := fun later : Task => task.tx.failed ≤ later.tx.failed)
    (fun later s h => h.trans (failed_step later s)) le_rfl w

/-- **Nothing fails as long as the receiver stays** for all that the sessions have to tell. -/
lemma failed_eq_zero_iff {task : Task} (h0 : task.tx.failed = 0) (w : List Session) :
    (Mealy.final (turn ext cfg detector) task w).tx.failed = 0 ↔
      task.tx.Takes ((w.map (calls ext cfg detector)).sum) := by
  induction w generalizing task with
  | nil => exact ⟨fun _ k _ => Nat.zero_le k, fun _ => h0⟩
  | cons s w ih =>
    rw [Mealy.final_cons, List.map_cons, List.sum_cons]
    by_cases h : task.tx.Takes (calls ext cfg detector s)
    · have htx := turn_of_takes h
      have hzero : (turn ext cfg detector task s).2.tx.failed = 0 := by
        rw [htx, Channel.push_failed, h0]
      rw [← length_events task.attempt s] at h ⊢
      rw [ih hzero, htx, Channel.takes_push h]
    · have hfailed := turn_of_not_takes h
      have hlater := failed_mono ext cfg detector (turn ext cfg detector task s).2 w
      refine ⟨fun hz => ?_, fun hall => absurd (hall.mono (Nat.le_add_right _ _)) h⟩
      omega

variable (ext cfg detector) in
/-- **When the task ends with its receiver.** No session of a run begins after a send has failed
if and only if the receiver stays for every send that the sessions before the last call for. -/
theorem endsWithReceiver_iff (lives : Option ℕ) (w : List Session) :
    EndsWithReceiver ext cfg detector lives w ↔
      ∀ n, lives = some n → (w.dropLast.map (calls ext cfg detector)).sum ≤ n := by
  have htakes : (∀ n, lives = some n → (w.dropLast.map (calls ext cfg detector)).sum ≤ n) ↔
      (start lives).tx.Takes ((w.dropLast.map (calls ext cfg detector)).sum) := Iff.rfl
  rw [htakes, ← failed_eq_zero_iff rfl]
  refine ⟨fun h => ?_, fun h u s v huv => ?_⟩
  · rcases List.eq_nil_or_concat w with rfl | ⟨u, s, rfl⟩
    · rfl
    · rw [List.concat_eq_append, List.dropLast_concat]
      exact h u s [] List.concat_eq_append
  · -- the state before `s` is earlier than the last session
    have hsplit : w.dropLast = u ++ (s :: v).dropLast := by
      rw [huv, List.dropLast_append_of_ne_nil (List.cons_ne_nil s v)]
    rw [hsplit, Mealy.final_append] at h
    have hle := failed_mono ext cfg detector (after ext cfg detector lives u) (s :: v).dropLast
    exact Nat.le_zero.mp (hle.trans h.le)

/-! ### A receiver that is dropped at once -/

/-- The server cannot be reached. -/
def unreachable : Session where
  buildFromShared := .ok ()
  xToken := .ok ()
  tlsConfig := .ok ()
  connect := .error "transport error"
  subscribe := .ok ()
  send _ := .ok ()
  stream := []

/-- The notice of the first failed connection cannot be sent, and the task connects again. -/
theorem reconnects_after_drop :
    ¬ EndsWithReceiver crates exampleConfig.rpc exampleDetector (some 0)
      [unreachable, unreachable] := by
  intro h
  have hfailed := h [unreachable] unreachable [] rfl
  revert hfailed
  decide +kernel

end Receiver

end NovaSniper.Receiver
