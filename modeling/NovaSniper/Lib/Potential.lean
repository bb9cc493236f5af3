import NovaSniper.Lib.Transition

/-!
Potentials of a transition system.

What steps cost is paid out of a potential of the state, which some labels grant. Where every
step of a kind takes something from the potential, it bounds how many of them can follow one
another.
-/

namespace NovaSniper.Lib.Transition.LTS

universe u v

variable {S : Type u} {L : Type v} {M : LTS S L} {cost grant : L → ℕ} {ahead : S → ℕ}
  {Q : L → Prop} {ls : List L} {s t : S}

/-! ### Granted and spent -/

/-- What a step costs and leaves ahead was ahead before it, or is granted by it. -/
structure Pays (M : LTS S L) (cost grant : L → ℕ) (ahead : S → ℕ) : Prop where
  init : ∀ s, M.init s → ahead s = 0
  step : ∀ s l t, M.step s l t → cost l + ahead t ≤ ahead s + grant l

/-- **What is spent, and what is ahead, was granted.** -/
theorem Trace.paid (hp : Pays M cost grant ahead) (h : M.Trace ls s) :
    (ls.map cost).sum + ahead s ≤ (ls.map grant).sum := by
  induction h with
  | start h => simp [hp.init _ h]
  | @snoc ls s t l _ hstep ih =>
    have hle := hp.step s l t hstep
    simp only [List.map_append, List.sum_append, List.map_singleton, List.sum_singleton]
    omega

/-! ### From a state on -/

/-- The system once it is in state `s`. -/
def resume (M : LTS S L) (s : S) : LTS S L where
  init t := t = s
  step := M.step

lemma Trace.resume (h : M.Trace ls s) {ls' : List L} (h' : (M.resume s).Trace ls' t) :
    M.Trace (ls ++ ls') t := by
  induction h' with
  | start h' =>
    obtain rfl := h'
    rw [List.append_nil]
    exact h
  | snoc _ hstep ih =>
    rw [← List.append_assoc]
    exact ih.snoc hstep

lemma Trace.cons {l : L} (hstep : M.step s l t) {u : S} (h : (M.resume t).Trace ls u) :
    (M.resume s).Trace (l :: ls) u := by
  have hone : (M.resume s).Trace [l] t := (Trace.start rfl).snoc hstep
  exact hone.resume h

/-- What the steps of a kind keep holds after any number of them. -/
theorem Trace.within {P : S → Prop} (hstep : ∀ s l t, P s → M.step s l t → Q l → P t)
    (h : (M.resume s).Trace ls t) (hls : ∀ l ∈ ls, Q l) (hs : P s) : P t := by
  induction h with
  | start h =>
    obtain rfl := h
    exact hs
  | @snoc ls t u l _ hstep' ih =>
    have hl : Q l := hls l (by simp)
    exact hstep t l u (ih fun l' hl' => hls l' (by simp [hl'])) hstep' hl

/-- **Steps that each take something from the potential are few.** -/
theorem Trace.length_le (hstep : ∀ s l t, M.step s l t → Q l → ahead t < ahead s)
    (h : (M.resume s).Trace ls t) (hls : ∀ l ∈ ls, Q l) : ls.length + ahead t ≤ ahead s := by
  induction h with
  | start h =>
    obtain rfl := h
    simp
  | @snoc ls t u l _ hstep' ih =>
    have hlt := hstep t l u hstep' (hls l (by simp))
    have hle := ih fun l' hl' => hls l' (by simp [hl'])
    rw [List.length_append, List.length_singleton]
    omega

end NovaSniper.Lib.Transition.LTS
