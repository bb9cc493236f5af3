import Mathlib.Tactic

/-!
Computations that may fail: when a sequence of them, or a traversal, succeeds.
-/

namespace NovaSniper.Lib.Fallible

/-- An error of a call, under the context the caller puts in front of it. -/
def withContext {α : Type} (r : Except String α) (context : String) : Except String α :=
  match r with
  | .ok a => .ok a
  | .error _ => .error context

variable {ε α β : Type}

lemma bind_eq_ok {x : Except ε α} {f : α → Except ε β} {b : β} :
    (x >>= f) = .ok b ↔ ∃ a, x = .ok a ∧ f a = .ok b := by
  cases x with
  | error e => simp [bind, Except.bind]
  | ok a => simp [bind, Except.bind]

lemma withContext_eq_ok {r : Except String α} {context : String} {a : α} :
    withContext r context = .ok a ↔ r = .ok a := by
  unfold withContext
  cases r with
  | error e => simp
  | ok b => simp

lemma mapError_eq_ok {ε' : Type} {r : Except ε α} {f : ε → ε'} {a : α} :
    r.mapError f = .ok a ↔ r = .ok a := by
  cases r with
  | error e => simp [Except.mapError]
  | ok b => simp [Except.mapError]

/-- **A traversal succeeds pointwise.** -/
theorem mapM_eq_ok {f : α → Except ε β} {xs : List α} {ys : List β} :
    xs.mapM f = .ok ys ↔ List.Forall₂ (fun x y => f x = .ok y) xs ys := by
  induction xs generalizing ys with
  | nil =>
    rw [List.mapM_nil, List.forall₂_nil_left_iff]
    simp [pure, Except.pure, eq_comm]
  | cons x xs ih =>
    rw [List.mapM_cons, bind_eq_ok, List.forall₂_cons_left_iff]
    refine ⟨?_, ?_⟩
    · rintro ⟨y, hy, hrest⟩
      obtain ⟨ys', hys', hout⟩ := bind_eq_ok.mp hrest
      obtain rfl : y :: ys' = ys := by simpa [pure, Except.pure] using hout
      exact ⟨y, ys', hy, ih.mp hys', rfl⟩
    · rintro ⟨y, ys', hy, hys', rfl⟩
      exact ⟨y, hy, bind_eq_ok.mpr ⟨ys', ih.mpr hys', rfl⟩⟩

/-- A traversal can succeed when the function does at every entry. -/
lemma exists_mapM {f : α → Except ε β} {xs : List α} :
    (∃ ys, xs.mapM f = .ok ys) ↔ ∀ x ∈ xs, ∃ y, f x = .ok y := by
  simp only [mapM_eq_ok]
  induction xs with
  | nil => simp
  | cons x xs ih =>
    rw [List.forall_mem_cons, ← ih]
    refine ⟨?_, ?_⟩
    · rintro ⟨_, _ | ⟨hxy, hrest⟩⟩
      exact ⟨⟨_, hxy⟩, _, hrest⟩
    · rintro ⟨⟨y, hxy⟩, ys, hrest⟩
      exact ⟨y :: ys, .cons hxy hrest⟩

lemma length_of_mapM {f : α → Except ε β} {xs : List α} {ys : List β}
    (h : xs.mapM f = .ok ys) : ys.length = xs.length :=
  (List.Forall₂.length_eq (mapM_eq_ok.mp h)).symm

/-- What a traversal gives at an index comes from the entry there. -/
lemma getElem?_of_mapM {f : α → Except ε β} {xs : List α} {ys : List β}
    (h : xs.mapM f = .ok ys) {i : ℕ} {y : β} (hy : ys[i]? = some y) :
    ∃ x, xs[i]? = some x ∧ f x = .ok y := by
  induction mapM_eq_ok.mp h generalizing i with
  | nil => simp at hy
  | @cons x y' xs ys hxy hrest ih =>
    cases i with
    | zero =>
      obtain rfl := Option.some.inj hy
      exact ⟨x, rfl, hxy⟩
    | succ i => exact ih (mapM_eq_ok.mpr hrest) hy

/-- What a traversal gives is what the function gives at the entries. -/
lemma mem_of_mapM {f : α → Except ε β} {xs : List α} {ys : List β} (h : xs.mapM f = .ok ys)
    {y : β} : y ∈ ys ↔ ∃ x ∈ xs, f x = .ok y := by
  induction mapM_eq_ok.mp h with
  | nil => simp
  | @cons x y' xs ys hxy hrest ih =>
    have hhead : f x = .ok y ↔ y = y' := by
      rw [hxy, Except.ok.injEq, eq_comm]
    rw [List.mem_cons, ih (mapM_eq_ok.mpr hrest), List.exists_mem_cons_iff, hhead]

/-- More entries give more. -/
lemma subset_of_mapM {f : α → Except ε β} {xs xs' : List α} {ys ys' : List β}
    (h : xs.mapM f = .ok ys) (h' : xs'.mapM f = .ok ys') (hsub : xs ⊆ xs') : ys ⊆ ys' := by
  intro y hy
  obtain ⟨x, hx, hxy⟩ := (mem_of_mapM h).mp hy
  exact (mem_of_mapM h').mpr ⟨x, hsub hx, hxy⟩

end NovaSniper.Lib.Fallible
