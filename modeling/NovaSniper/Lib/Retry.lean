import Mathlib.Tactic

/-!
Computations that may fail and that leave a log, and the loop that retries one.

The log of what was done survives a failure. A retry loop makes attempts until one succeeds,
and hands over to a fallback when none is left; its log is the logs of the attempts it made,
one after the other.
-/

namespace NovaSniper.Lib.Retry

/-- What was done, and how it ended. -/
structure Logged (ε α : Type) where
  log : List ε
  result : Except String α

namespace Logged

variable {ε α β : Type}

protected def pure (a : α) : Logged ε α := ⟨[], .ok a⟩

protected def bind (x : Logged ε α) (f : α → Logged ε β) : Logged ε β :=
  match x.result with
  | .error e => ⟨x.log, .error e⟩
  | .ok a => ⟨x.log ++ (f a).log, (f a).result⟩

instance : Monad (Logged ε) where
  pure := Logged.pure
  bind := Logged.bind

/-- One thing done. -/
def tell (e : ε) : Logged ε Unit := ⟨[e], .ok ()⟩

/-- A computation that leaves no trace. -/
def lift (r : Except String α) : Logged ε α := ⟨[], r⟩

@[simp] lemma pure_eq (a : α) : (pure a : Logged ε α) = ⟨[], .ok a⟩ := rfl

@[simp] lemma tell_bind (e : ε) (f : Unit → Logged ε β) :
    (tell e >>= f) = ⟨e :: (f ()).log, (f ()).result⟩ := rfl

@[simp] lemma lift_ok_bind (a : α) (f : α → Logged ε β) : (lift (.ok a) >>= f) = f a := rfl

@[simp] lemma lift_error_bind (e : String) (f : α → Logged ε β) :
    (lift (.error e) >>= f) = ⟨[], .error e⟩ := rfl

/-- A computation that failed, as far as the caller can see. -/
def Failed (x : Logged ε α) : Prop := ∃ e, x.result = .error e

lemma not_failed {x : Logged ε α} : ¬ x.Failed ↔ ∃ a, x.result = .ok a := by
  unfold Failed
  cases x.result with
  | error e => simp
  | ok a => simp

/-! ### Retrying -/

/-- Attempts `i`, `i + 1`, ... until one succeeds, with a pause after each that fails; after
`n` of them, the fallback, which is told the last error. -/
def retry (attempt : ℕ → Logged ε α) (pause : ℕ → List ε) (fallback : Option String → Logged ε α) :
    ℕ → ℕ → Option String → Logged ε α
  | _, 0, last => fallback last
  | i, n + 1, _ =>
    match (attempt i).result with
    | .ok a => ⟨(attempt i).log, .ok a⟩
    | .error e =>
      let rest := retry attempt pause fallback (i + 1) n (some e)
      ⟨(attempt i).log ++ pause i ++ rest.log, rest.result⟩

/-- What an attempt that failed leaves behind. -/
def stage (attempt : ℕ → Logged ε α) (pause : ℕ → List ε) (i : ℕ) : List ε :=
  (attempt i).log ++ pause i

/-- **A retry loop succeeds at the first attempt that does, or falls back after the last.** -/
theorem retry_cases (attempt : ℕ → Logged ε α) (pause : ℕ → List ε)
    (fallback : Option String → Logged ε α) (i n : ℕ) (last : Option String) :
    (∃ k < n, (∀ j < k, (attempt (i + j)).Failed) ∧ ¬ (attempt (i + k)).Failed ∧
        retry attempt pause fallback i n last =
          ⟨(List.range' i k).flatMap (stage attempt pause) ++ (attempt (i + k)).log,
            (attempt (i + k)).result⟩) ∨
      ((∀ j < n, (attempt (i + j)).Failed) ∧ ∃ last',
        (n = 0 → last' = last) ∧
        (∀ m e, n = m + 1 → (attempt (i + m)).result = .error e → last' = some e) ∧
        retry attempt pause fallback i n last =
          ⟨(List.range' i n).flatMap (stage attempt pause) ++ (fallback last').log,
            (fallback last').result⟩) := by
  induction n generalizing i last with
  | zero =>
    refine .inr ⟨nofun, last, fun _ => rfl, nofun, ?_⟩
    simp [retry]
  | succ n ih =>
    cases hi : (attempt i).result with
    | ok a =>
      refine .inl ⟨0, Nat.succ_pos n, nofun, not_failed.mpr ⟨a, hi⟩, ?_⟩
      simp [retry, hi]
    | error e =>
      have hshift : ∀ j, i + 1 + j = i + (j + 1) := fun j => by omega
      have hfirst : (attempt (i + 0)).Failed := ⟨e, hi⟩
      have hretry : retry attempt pause fallback i (n + 1) last =
          ⟨stage attempt pause i ++ (retry attempt pause fallback (i + 1) n (some e)).log,
            (retry attempt pause fallback (i + 1) n (some e)).result⟩ := by
        simp only [retry, hi, stage]
      have hall : ∀ k, (∀ j < k, (attempt (i + 1 + j)).Failed) →
          ∀ j < k + 1, (attempt (i + j)).Failed := by
        intro k hk j hj
        cases j with
        | zero => exact hfirst
        | succ j =>
          rw [← hshift j]
          exact hk j (by omega)
      rw [hretry]
      rcases ih (i + 1) (some e) with ⟨k, hk, hfail, hok, heq⟩ | ⟨hfail, last', hzero, hlast, heq⟩
      · refine .inl ⟨k + 1, by omega, hall k hfail, by rw [← hshift k]; exact hok, ?_⟩
        rw [heq, List.range'_succ, List.flatMap_cons, List.append_assoc, hshift k]
      · refine .inr ⟨hall n hfail, last', nofun, ?_, ?_⟩
        · intro m e' hm he'
          obtain rfl : n = m := by omega
          cases n with
          | zero =>
            rw [hzero rfl]
            rw [Nat.add_zero, hi] at he'
            exact congrArg some (Except.error.inj he')
          | succ m =>
            rw [← hshift m] at he'
            exact hlast m e' rfl he'
        · rw [heq, List.range'_succ, List.flatMap_cons, List.append_assoc]

end Logged

end NovaSniper.Lib.Retry
