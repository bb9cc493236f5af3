import NovaSniper.Lib.Transition

/-!
Queues inside a transition system.

A part of the state holds a list: what a step puts in comes after it, and what a step takes out
comes from its front. While the part lives, what went in is what came out and what is still
inside; once it is dead nothing comes out. Queues in a row make one queue.
-/

namespace NovaSniper.Lib.Transition.LTS

universe u v w x

variable {S : Type u} {L : Type v} {α : Type w} {β : Type x} {M : LTS S L}

/-- `content` is a queue that lives in the states of `live`, with what a label puts in and what
it takes out. -/
structure Conserves (M : LTS S L) (live : S → Prop) (inp out : L → List α)
    (content : S → List α) : Prop where
  init : ∀ s, M.init s → content s = []
  back : ∀ s l t, M.step s l t → live t → live s
  step : ∀ s l t, M.step s l t → live t → content s ++ inp l = out l ++ content t
  dead : ∀ s l t, M.step s l t → ¬ live t → out l = []

variable {live : S → Prop} {inp mid out : L → List α} {content first second : S → List α}
  {ls : List L} {s : S}

lemma flatMap_snoc (f : L → List α) (ls : List L) (l : L) :
    (ls ++ [l]).flatMap f = ls.flatMap f ++ f l := by
  rw [List.flatMap_append, List.flatMap_singleton]

/-- **Nothing is lost, made up, doubled or overtaken** while the queue lives. -/
theorem Trace.conserves (hq : Conserves M live inp out content) (h : M.Trace ls s)
    (hs : live s) : ls.flatMap inp = ls.flatMap out ++ content s := by
  induction h with
  | start h => simp [hq.init _ h]
  | @snoc ls s t l _ hstep ih =>
    have hlive := hq.back s l t hstep hs
    calc (ls ++ [l]).flatMap inp = ls.flatMap out ++ (content s ++ inp l) := by
          rw [flatMap_snoc, ih hlive, List.append_assoc]
      _ = (ls ++ [l]).flatMap out ++ content t := by
          rw [hq.step s l t hstep hs, flatMap_snoc, List.append_assoc]

/-- What comes out is at all times a first part of what went in. -/
theorem Trace.delivered (hq : Conserves M live inp out content) (h : M.Trace ls s) :
    ls.flatMap out <+: ls.flatMap inp := by
  induction h with
  | start h => exact List.prefix_rfl
  | @snoc ls s t l h hstep ih =>
    by_cases ht : live t
    · rw [Trace.conserves hq (h.snoc hstep) ht]
      exact List.prefix_append _ _
    · rw [flatMap_snoc, flatMap_snoc, hq.dead s l t hstep ht, List.append_nil]
      exact ih.trans (List.prefix_append _ _)

/-- **Two queues in a row.** What leaves the first enters the second in the same step. -/
theorem Conserves.comp (h₁ : Conserves M live inp mid first)
    (h₂ : Conserves M live mid out second) :
    Conserves M live inp out fun s => second s ++ first s where
  init s hs := by rw [h₁.init s hs, h₂.init s hs, List.append_nil]
  back := h₁.back
  step s l t hstep ht := by
    calc second s ++ first s ++ inp l = second s ++ (mid l ++ first t) := by
          rw [List.append_assoc, h₁.step s l t hstep ht]
      _ = out l ++ (second t ++ first t) := by
          rw [← List.append_assoc, h₂.step s l t hstep ht, List.append_assoc]
  dead := h₂.dead

/-- A queue of which only some entries are looked at. -/
theorem Conserves.filterMap (f : α → Option β) (h : Conserves M live inp out content) :
    Conserves M live (fun l => (inp l).filterMap f) (fun l => (out l).filterMap f)
      fun s => (content s).filterMap f where
  init s hs := by rw [h.init s hs, List.filterMap_nil]
  back := h.back
  step s l t hstep ht := by
    rw [← List.filterMap_append, ← List.filterMap_append, h.step s l t hstep ht]
  dead s l t hstep ht := by rw [h.dead s l t hstep ht, List.filterMap_nil]

end NovaSniper.Lib.Transition.LTS
