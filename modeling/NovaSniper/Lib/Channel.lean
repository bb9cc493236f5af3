import Mathlib.Tactic

/-!
The sending side of a channel whose receiver may go away.

How long the receiver stays is given as a number of sends: so many complete, and every later
one finds the receiver gone.
-/

namespace NovaSniper.Lib

structure Channel (α : Type*) where
  sent : List α
  /-- The sends that found the receiver gone. -/
  failed : ℕ
  /-- The sends that still complete, or nothing where the receiver stays for good. -/
  lives : Option ℕ
  deriving DecidableEq

namespace Channel

variable {α : Type*}

def new (lives : Option ℕ) : Channel α := ⟨[], 0, lives⟩

/-- One send, and whether it completed. -/
def send (c : Channel α) (a : α) : Bool × Channel α :=
  match c.lives with
  | none => (true, { c with sent := c.sent ++ [a] })
  | some 0 => (false, { c with failed := c.failed + 1 })
  | some (n + 1) => (true, { c with sent := c.sent ++ [a], lives := some n })

/-- Sends in order up to the first that fails, and whether all completed. -/
def sendAll (c : Channel α) : List α → Bool × Channel α
  | [] => (true, c)
  | a :: l =>
    match c.send a with
    | (true, c) => c.sendAll l
    | (false, c) => (false, c)

/-- The receiver stays for `n` more sends. -/
def Takes (c : Channel α) (n : ℕ) : Prop := ∀ k ∈ c.lives, n ≤ k

instance (c : Channel α) (n : ℕ) : Decidable (c.Takes n) :=
  match h : c.lives with
  | none => isTrue (by simp [Takes, h])
  | some k => decidable_of_iff (n ≤ k) (by simp [Takes, h])

/-- The channel after sends that all complete. -/
def push (c : Channel α) (l : List α) : Channel α :=
  { c with sent := c.sent ++ l, lives := c.lives.map fun k => k - l.length }

@[simp] lemma push_failed (c : Channel α) (l : List α) : (c.push l).failed = c.failed := rfl
@[simp] lemma push_sent (c : Channel α) (l : List α) : (c.push l).sent = c.sent ++ l := rfl

@[simp] lemma push_nil (c : Channel α) : c.push [] = c := by
  obtain ⟨sent, failed, lives⟩ := c
  cases lives <;> simp [push]

lemma push_push (c : Channel α) (l l' : List α) : (c.push l).push l' = c.push (l ++ l') := by
  obtain ⟨sent, failed, lives⟩ := c
  cases lives <;> simp [push, Nat.sub_sub]

lemma Takes.mono {c : Channel α} {n m : ℕ} (h : c.Takes n) (hmn : m ≤ n) : c.Takes m :=
  fun k hk => hmn.trans (h k hk)

/-- After sends that completed, what the receiver takes is what was left. -/
lemma takes_push {c : Channel α} {l : List α} (h : c.Takes l.length) (n : ℕ) :
    (c.push l).Takes n ↔ c.Takes (l.length + n) := by
  obtain ⟨sent, failed, lives⟩ := c
  cases lives with
  | none => simp [Takes, push]
  | some k =>
    have hk : l.length ≤ k := h k rfl
    simp only [Takes, push, Option.map_some, Option.mem_some_iff, forall_eq']
    omega

lemma send_of_takes {c : Channel α} (h : c.Takes 1) (a : α) : c.send a = (true, c.push [a]) := by
  obtain ⟨sent, failed, lives⟩ := c
  rcases lives with _ | _ | k
  · rfl
  · exact absurd (h 0 rfl) (by omega)
  · rfl

lemma send_of_not_takes {c : Channel α} (h : ¬ c.Takes 1) (a : α) :
    c.send a = (false, { c with failed := c.failed + 1 }) := by
  obtain ⟨sent, failed, lives⟩ := c
  rcases lives with _ | _ | k
  · simp [Takes] at h
  · rfl
  · simp [Takes] at h

/-- **All sends complete** where the receiver stays for them. -/
theorem sendAll_of_takes {c : Channel α} {l : List α} (h : c.Takes l.length) :
    c.sendAll l = (true, c.push l) := by
  induction l generalizing c with
  | nil => simp [sendAll]
  | cons a l ih =>
    have h1 : c.Takes 1 := h.mono (by simp)
    have hrest : (c.push [a]).Takes l.length := by
      rw [takes_push h1]
      exact h.mono (by simp [add_comm])
    rw [sendAll, send_of_takes h1]
    simp only [ih hrest, push_push, List.singleton_append]

/-- **One send fails** where the receiver goes before they are done. -/
theorem sendAll_of_not_takes {c : Channel α} {l : List α} (h : ¬ c.Takes l.length) :
    (c.sendAll l).1 = false ∧ (c.sendAll l).2.failed = c.failed + 1 := by
  induction l generalizing c with
  | nil => exact absurd (fun k _ => Nat.zero_le k) h
  | cons a l ih =>
    by_cases h1 : c.Takes 1
    · have hrest : ¬ (c.push [a]).Takes l.length := by
        rw [takes_push h1]
        exact fun hk => h (hk.mono (by simp [add_comm]))
      rw [sendAll, send_of_takes h1]
      exact ih hrest
    · rw [sendAll, send_of_not_takes h1]
      exact ⟨rfl, rfl⟩

end Channel

end NovaSniper.Lib
