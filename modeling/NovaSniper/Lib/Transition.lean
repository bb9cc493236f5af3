import Mathlib.Tactic

/-!
Labelled transition systems: their histories, invariants, and simulations.

A history is the list of labels that led from an initial state to the current one.
-/

namespace NovaSniper.Lib.Transition

universe u v w x

structure LTS (S : Type u) (L : Type v) where
  init : S → Prop
  step : S → L → S → Prop

namespace LTS

variable {S : Type u} {L : Type v} {T : Type w} {K : Type x} {M : LTS S L} {N : LTS T K}

/-- `M.Trace ls s`: from some initial state, the labels `ls` can lead to `s`. -/
inductive Trace (M : LTS S L) : List L → S → Prop
  | start {s : S} (h : M.init s) : Trace M [] s
  | snoc {ls : List L} {s t : S} {l : L} (h : Trace M ls s) (hstep : M.step s l t) :
      Trace M (ls ++ [l]) t

lemma Trace.of_snoc {ls : List L} {t : S} {l : L} (h : M.Trace (ls ++ [l]) t) :
    ∃ s, M.Trace ls s ∧ M.step s l t := by
  generalize hls : ls ++ [l] = ls' at h
  cases h with
  | start _ => simp at hls
  | snoc h hstep =>
    obtain ⟨rfl, hl⟩ := List.append_inj' hls rfl
    obtain rfl := List.singleton_injective hl
    exact ⟨_, h, hstep⟩

/-- **The history rule.** What holds of the empty history at the start, and survives a step
whose label is added to the history, holds of every history. -/
theorem Trace.hist {P : List L → S → Prop} (hinit : ∀ s, M.init s → P [] s)
    (hstep : ∀ ls s l t, P ls s → M.step s l t → P (ls ++ [l]) t) {ls : List L} {s : S}
    (h : M.Trace ls s) : P ls s := by
  induction h with
  | start h => exact hinit _ h
  | snoc _ hs ih => exact hstep _ _ _ _ ih hs

/-- **The invariant rule.** What holds at the start and survives a step holds always. -/
theorem Trace.inv {P : S → Prop} (hinit : ∀ s, M.init s → P s)
    (hstep : ∀ s l t, P s → M.step s l t → P t) {ls : List L} {s : S} (h : M.Trace ls s) :
    P s :=
  h.hist (P := fun _ s => P s) hinit fun _ => hstep

/-- The labels of a history, from what a step says of its label where the invariant holds. -/
theorem Trace.labels {P : S → Prop} {Q : L → Prop} (hinv : ∀ ls s, M.Trace ls s → P s)
    (hstep : ∀ s l t, P s → M.step s l t → Q l) {ls : List L} {s : S} (h : M.Trace ls s) :
    ∀ l ∈ ls, Q l := by
  induction h with
  | start _ => simp
  | @snoc ls s t l htr hs ih =>
    intro l' hl
    rcases List.mem_append.mp hl with hl | hl
    · exact ih l' hl
    · rw [List.mem_singleton.mp hl]
      exact hstep s l t (hinv ls s htr) hs

/-- `f` and `g` carry the steps of `M` to steps of `N`, or to no step at all. -/
structure Simulates (M : LTS S L) (N : LTS T K) (f : S → T) (g : L → Option K) : Prop where
  init : ∀ s, M.init s → N.init (f s)
  stutter : ∀ s l t, M.step s l t → g l = none → f t = f s
  step : ∀ s l t k, M.step s l t → g l = some k → N.step (f s) k (f t)

/-- **The simulation rule.** The image of a history is a history of the image. -/
theorem Trace.map {f : S → T} {g : L → Option K} (hsim : Simulates M N f g) {ls : List L}
    {s : S} (h : M.Trace ls s) : N.Trace (ls.filterMap g) (f s) := by
  induction h with
  | start h => exact .start (hsim.init _ h)
  | @snoc ls s t l _ hs ih =>
    rw [List.filterMap_append]
    cases hg : g l with
    | none =>
      have hnil : [l].filterMap g = [] := by simp [hg]
      rw [hnil, List.append_nil, hsim.stutter s l t hs hg]
      exact ih
    | some k =>
      have hone : [l].filterMap g = [k] := by simp [hg]
      rw [hone]
      exact ih.snoc (hsim.step s l t k hs hg)

/-- The steps of `N` lift to runs of `M`: what `M` does on the way is hidden. -/
structure Lifts (M : LTS S L) (N : LTS T K) (f : S → T) (g : L → Option K) : Prop where
  init : ∀ t, N.init t → ∃ s, M.init s ∧ f s = t
  step : ∀ ls s k t, M.Trace ls s → N.step (f s) k t →
    ∃ ls' s', M.Trace (ls ++ ls') s' ∧ ls'.filterMap g = [k] ∧ f s' = t

/-- **Equivalence up to hidden steps.** What is seen of the histories of `M` is exactly the
histories of `N`. -/
theorem trace_iff {f : S → T} {g : L → Option K} (hsim : Simulates M N f g)
    (hlift : Lifts M N f g) {ks : List K} {t : T} :
    N.Trace ks t ↔ ∃ ls s, M.Trace ls s ∧ ls.filterMap g = ks ∧ f s = t := by
  refine ⟨?_, ?_⟩
  · intro h
    induction h with
    | start h =>
      obtain ⟨s, hs, hfs⟩ := hlift.init _ h
      exact ⟨[], s, .start hs, rfl, hfs⟩
    | snoc _ hstep ih =>
      obtain ⟨ls, s, hs, rfl, rfl⟩ := ih
      obtain ⟨ls', s', hs', hseen, hfs'⟩ := hlift.step ls s _ _ hs hstep
      exact ⟨ls ++ ls', s', hs', by rw [List.filterMap_append, hseen], hfs'⟩
  · rintro ⟨ls, s, h, rfl, rfl⟩
    exact h.map hsim

end LTS

end NovaSniper.Lib.Transition
