import Mathlib.Data.List.DropRight
import NovaSniper.ListenerTask

/-!
What the waits between sessions count.

The task counts its sessions and never starts over, so a wait tells how long the task has
run. It is the length of the current streak of failures only in a run that has had no
success, or a single session.
-/

namespace NovaSniper.Backoff

open NovaSniper.Config NovaSniper.Solana NovaSniper.Detector NovaSniper.ListenerTask
open NovaSniper.Lib

/-- `backoff_for` of a count of any size, in milliseconds. -/
def delayFor (k : ℕ) : ℕ := 250 * 2 ^ min k 6

lemma backoffFor_eq (attempt : UInt32) : backoffFor attempt = delayFor attempt.toNat := by
  have hcap : (min attempt 6).toNat = min attempt.toNat 6 := by
    have hmin : min attempt 6 = if attempt ≤ 6 then attempt else 6 := rfl
    have hsix : (6 : UInt32).toNat = 6 := rfl
    rw [hmin]
    split_ifs with h
    · rw [UInt32.le_iff_toNat_le, hsix] at h
      rw [min_eq_left h]
    · rw [UInt32.le_iff_toNat_le, hsix] at h
      rw [hsix]
      omega
  rw [backoffFor, delayFor, hcap, Nat.shiftLeft_eq]

lemma delayFor_mono : Monotone delayFor := by
  intro j k hjk
  unfold delayFor
  gcongr
  norm_num

lemma delayFor_le (k : ℕ) : delayFor k ≤ 16000 := by
  have h : delayFor k ≤ 250 * 2 ^ 6 :=
    Nat.mul_le_mul_left 250 (Nat.pow_le_pow_right (by norm_num) (min_le_right k 6))
  exact h

/-- The delays tell small counts apart. -/
lemma delayFor_eq_iff {k : ℕ} (hk : k < 6) {n : ℕ} : delayFor n = delayFor k ↔ n = k := by
  refine ⟨fun h => ?_, fun h => h ▸ rfl⟩
  have hpow : (2 : ℕ) ^ min n 6 = 2 ^ min k 6 := Nat.eq_of_mul_eq_mul_left (by norm_num) h
  have hmin := Nat.pow_right_injective le_rfl hpow
  omega

section Waits

variable (ext : Codecs) (cfg : RpcConfig) (detector : Detector)

/-! ### The waits of a run -/

/-- The session had its subscription, however it ended. -/
def established (s : Session) : Bool := (establish ext cfg detector s).isOk

/-- The number of failures to establish a subscription since the last success. -/
def streak (past : List Session) : ℕ :=
  (past.rtakeWhile fun s => !established ext cfg detector s).length

/-- The wait that counts consecutive failures, after a session and those before it. -/
def dueWait (past : List Session) (s : Session) : ℕ :=
  if established ext cfg detector s = true then delayFor 1
  else delayFor (streak ext cfg detector past + 1)

/-- The waits of a run count consecutive failures, do not fall while failures go on, and are
never over 16 seconds. -/
structure CountsFailures (lives : Option ℕ) (w : List Session) : Prop where
  due : ∀ n s, w[n]? = some s →
    (waits ext cfg detector lives w)[n]? = some (dueWait ext cfg detector (w.take n) s)
  rising : ∀ n s s' d d', w[n]? = some s → w[n + 1]? = some s' →
    established ext cfg detector s = false → established ext cfg detector s' = false →
    (waits ext cfg detector lives w)[n]? = some d →
    (waits ext cfg detector lives w)[n + 1]? = some d' → d ≤ d'
  capped : ∀ d ∈ waits ext cfg detector lives w, d ≤ 16000

lemma turn_wait (task : Task) (s : Session) :
    (turn ext cfg detector task s).1 = backoffFor (task.attempt + 1) ∧
      (turn ext cfg detector task s).2.attempt = task.attempt + 1 := ⟨rfl, rfl⟩

/-- **A wait counts sessions**, up to the size of the counter. -/
lemma outputs_turn (task : Task) (w : List Session) {n : ℕ} (hn : n < w.length) :
    (Mealy.outputs (turn ext cfg detector) task w)[n]? =
      some (delayFor ((task.attempt.toNat + n + 1) % 2 ^ 32)) := by
  induction w generalizing task n with
  | nil => exact absurd hn (Nat.not_lt_zero n)
  | cons s w ih =>
    obtain ⟨hwait, hattempt⟩ := turn_wait ext cfg detector task s
    have hadd : (task.attempt + 1).toNat = (task.attempt.toNat + 1) % 2 ^ 32 :=
      UInt32.toNat_add ..
    cases n with
    | zero =>
      rw [Mealy.outputs_cons, hwait, backoffFor_eq, hadd]
      rfl
    | succ n =>
      rw [Mealy.outputs_cons, List.getElem?_cons_succ, ih _ (Nat.lt_of_succ_lt_succ hn), hattempt,
        hadd]
      congr 2
      omega

variable {ext cfg detector}

lemma waits_getElem {lives : Option ℕ} {w : List Session} {n : ℕ} (hn : n < w.length) :
    (waits ext cfg detector lives w)[n]? = some (delayFor ((n + 1) % 2 ^ 32)) := by
  have h := outputs_turn ext cfg detector (start lives) w hn
  rwa [show (start lives).attempt.toNat = 0 from rfl, Nat.zero_add] at h

lemma length_waits (lives : Option ℕ) (w : List Session) :
    (waits ext cfg detector lives w).length = w.length :=
  Mealy.length_outputs _ _ w

/-! ### Runs without a success -/

lemma streak_of_failures {past : List Session}
    (h : ∀ s ∈ past, established ext cfg detector s = false) :
    streak ext cfg detector past = past.length := by
  have hall : ∀ s ∈ past, (!established ext cfg detector s) = true := by
    intro s hs
    rw [h s hs]
    rfl
  rw [streak, List.rtakeWhile_eq_self_iff.mpr hall]

lemma dueWait_first (s : Session) : dueWait ext cfg detector [] s = delayFor 1 := by
  unfold dueWait
  split_ifs <;> rfl

/-- What is due after a session that follows a success. -/
lemma dueWait_after_success {s : Session} (h : established ext cfg detector s = true)
    (s' : Session) : dueWait ext cfg detector [s] s' = delayFor 1 := by
  unfold dueWait streak
  split_ifs
  · rfl
  · have hnone : [s].rtakeWhile (fun s => !established ext cfg detector s) = [] :=
      List.rtakeWhile_concat_neg _ [] s (by simp [h])
    rw [hnone]
    rfl

/-- In a run of two sessions or more that counts failures, all have failed. -/
lemma failures_of_due {lives : Option ℕ} {w : List Session} (hlen : 2 ≤ w.length)
    (hdue : ∀ n s, w[n]? = some s →
      (waits ext cfg detector lives w)[n]? = some (dueWait ext cfg detector (w.take n) s))
    {n : ℕ} (hn : n ≤ w.length) :
    (∀ s ∈ w.take n, established ext cfg detector s = false) ∧ n < 2 ^ 32 := by
  induction n with
  | zero => exact ⟨by simp, by norm_num⟩
  | succ n ih =>
    obtain ⟨hfail, hsmall⟩ := ih (Nat.le_of_succ_le hn)
    have hget : w[n]? = some w[n] := List.getElem?_eq_getElem hn
    have hwait := hdue n w[n] hget
    rw [waits_getElem hn, Option.some.injEq] at hwait
    by_cases hest : established ext cfg detector w[n] = true
    · -- then this is the first session, and the one after it waits too long
      exfalso
      rw [dueWait, if_pos hest, delayFor_eq_iff (by norm_num)] at hwait
      obtain rfl : n = 0 := by omega
      have hnext := hdue 1 w[1] (List.getElem?_eq_getElem hlen)
      have hfirst : w.take 1 = [w[0]] := by
        rw [List.take_one, List.head?_eq_getElem?, hget]
        rfl
      rw [waits_getElem hlen, hfirst, dueWait_after_success hest, Option.some.injEq,
        delayFor_eq_iff (by norm_num)] at hnext
      omega
    · rw [Bool.not_eq_true] at hest
      have htake : (w.take n).length = n := List.length_take_of_le (Nat.le_of_succ_le hn)
      rw [dueWait, if_neg (by simp [hest]), streak_of_failures hfail, htake] at hwait
      refine ⟨fun s hs => ?_, ?_⟩
      · rw [List.take_add_one, hget] at hs
        rcases List.mem_append.mp hs with hs | hs
        · exact hfail s hs
        · obtain rfl : s = w[n] := by simpa using hs
          exact hest
      · -- at the end of the counter the wait falls back
        by_contra hbig
        have hend : n + 1 = 2 ^ 32 := by omega
        rw [hend, Nat.mod_self] at hwait
        cases hwait

lemma countsFailures_of_failures (lives : Option ℕ) {w : List Session}
    (h : w.length ≤ 1 ∨
      (∀ s ∈ w, established ext cfg detector s = false) ∧ w.length < 2 ^ 32) :
    CountsFailures ext cfg detector lives w where
  due n s hs := by
    have hn : n < w.length := (List.getElem?_eq_some_iff.mp hs).1
    rw [waits_getElem hn, Option.some.injEq]
    rcases h with hlen | ⟨hfail, hlen⟩
    · obtain rfl : n = 0 := by omega
      rw [List.take_zero, dueWait_first]
      rfl
    · have hpast : ∀ s ∈ w.take n, established ext cfg detector s = false :=
        fun s hs => hfail s (List.mem_of_mem_take hs)
      have htake : (w.take n).length = n := List.length_take_of_le hn.le
      have hcurrent : established ext cfg detector s = false := hfail s (List.mem_of_getElem? hs)
      rw [dueWait, if_neg (by simp [hcurrent]), streak_of_failures hpast, htake,
        Nat.mod_eq_of_lt (by omega)]
  rising n s s' d d' hs hs' _ _ hd hd' := by
    have hn : n + 1 < w.length := (List.getElem?_eq_some_iff.mp hs').1
    rw [waits_getElem (by omega), Option.some.injEq] at hd
    rw [waits_getElem hn, Option.some.injEq] at hd'
    rw [← hd, ← hd']
    rcases h with hlen | ⟨-, hlen⟩
    · omega
    · rw [Nat.mod_eq_of_lt (by omega), Nat.mod_eq_of_lt (by omega)]
      exact delayFor_mono (by omega)
  capped d hd := by
    obtain ⟨n, hn⟩ := List.mem_iff_getElem?.mp hd
    have hlt : n < w.length := by
      have := (List.getElem?_eq_some_iff.mp hn).1
      rwa [length_waits] at this
    rw [waits_getElem hlt, Option.some.injEq] at hn
    rw [← hn]
    exact delayFor_le _

end Waits

/-- **When the waits count failures.** They do in exactly the runs of at most one session, and
in those where no session was established, until the counter is full. -/
theorem countsFailures_iff (ext : Codecs) (cfg : RpcConfig) (detector : Detector)
    (lives : Option ℕ) (w : List Session) :
    CountsFailures ext cfg detector lives w ↔
      w.length ≤ 1 ∨
        (∀ s ∈ w, established ext cfg detector s = false) ∧ w.length < 2 ^ 32 := by
  refine ⟨fun h => ?_, countsFailures_of_failures lives⟩
  rcases Nat.lt_or_ge w.length 2 with hlen | hlen
  · exact .inl (Nat.le_of_lt_succ hlen)
  · have hall := failures_of_due hlen h.due le_rfl
    rw [List.take_length] at hall
    exact .inr hall

/-! ### A healthy stream that ends twice -/

/-- The server accepts the subscription and ends the stream. -/
def endedCleanly : Session where
  buildFromShared := .ok ()
  xToken := .ok ()
  tlsConfig := .ok ()
  connect := .ok ()
  subscribe := .ok ()
  send _ := .ok ()
  stream := []

/-- The second wait is twice what is due after an established session. -/
theorem waits_after_two_successes :
    waits crates exampleConfig.rpc exampleDetector none [endedCleanly, endedCleanly] =
        [500, 1000] ∧
      dueWait crates exampleConfig.rpc exampleDetector [endedCleanly] endedCleanly = 500 ∧
      ¬ CountsFailures crates exampleConfig.rpc exampleDetector none
        [endedCleanly, endedCleanly] := by
  have hwaits : waits crates exampleConfig.rpc exampleDetector none
      [endedCleanly, endedCleanly] = [500, 1000] := by decide +kernel
  have hdue : dueWait crates exampleConfig.rpc exampleDetector [endedCleanly] endedCleanly =
      500 := by decide +kernel
  refine ⟨hwaits, hdue, fun h => ?_⟩
  have hsecond := h.due 1 endedCleanly rfl
  rw [hwaits, show [endedCleanly, endedCleanly].take 1 = [endedCleanly] from rfl, hdue] at hsecond
  cases hsecond

end NovaSniper.Backoff
