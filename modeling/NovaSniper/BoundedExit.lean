import NovaSniper.Ladder

/-!
How many sells a position takes, and how long a take-profit can put off the hard exit.

Every tick after the maximal hold time sells everything unless a rung fires on it; and a rung
fires once. The argument counts set flags only, so it holds for every reading of `f64` in which
nothing is not more than the tolerance, for any configuration, prices and clock.
-/

namespace NovaSniper.BoundedExit

open NovaSniper.FloatOps NovaSniper.Config NovaSniper.Strategy NovaSniper.Ladder
open NovaSniper.Strategy.PositionState NovaSniper.Lib

/-! ### The sells of a run -/

def isSell {F : Type} : StrategyAction F → Bool
  | .sell _ _ => true
  | _ => false

def sells {F : Type} (as : List (StrategyAction F)) : List (StrategyAction F) := as.filter isSell

/-- The tick comes when the position has been held for as long as it may. -/
def isOver {F : Type} (cfg : StrategyConfig F) (t0 : ℕ) (t : Tick F) : Bool :=
  decide (cfg.maxHoldSeconds ≤ t.nowSecs - t0)

variable {F : Type}

lemma sells_append (as : List (StrategyAction F)) (a : StrategyAction F) :
    sells (as ++ [a]) = if isSell a then sells as ++ [a] else sells as := by
  unfold sells
  rw [List.filter_append]
  cases ha : isSell a <;> simp [ha]

lemma countP_isTakeProfit (as : List (StrategyAction F)) :
    (sells as).countP (·.isTakeProfit) = as.countP (·.isTakeProfit) := by
  unfold sells
  rw [List.countP_filter]
  refine List.countP_congr fun a _ => ?_
  cases a with
  | sell f r => simp [isSell]
  | hold => simp [StrategyAction.isTakeProfit]
  | closed => simp [StrategyAction.isTakeProfit]

/-! ### What a run keeps -/

variable [F64 F]

/-- What is known of a run from its ticks, its actions and the state it ends in. -/
structure Counted (cfg : StrategyConfig F) (t0 : ℕ) (w : List (Tick F))
    (as : List (StrategyAction F)) (s : PositionState F) : Prop where
  cfg_eq : s.cfg = cfg
  entryTs : s.entryTsSecs = t0
  flags : Flagged s
  fired : as.countP (·.isTakeProfit) = s.firedRungs.count true
  rungs : ¬ s.isClosed → ∀ a ∈ sells as, a.isTakeProfit = true
  last : ∀ a ∈ (sells as).dropLast, a.isTakeProfit = true
  late : ¬ s.isClosed → w.countP (isOver cfg t0) ≤ s.firedRungs.count true

lemma counted_open (e : F) (t0 : ℕ) (cfg : StrategyConfig F) :
    Counted cfg t0 [] [] (openPosition e t0 cfg) where
  cfg_eq := rfl
  entryTs := rfl
  flags := flagged_open e t0 cfg
  fired := by simp [openPosition, List.count_replicate]
  rungs := by simp [sells]
  last := by simp [sells]
  late := by simp

section Step

variable {cfg : StrategyConfig F} {t0 : ℕ} {w : List (Tick F)} {as : List (StrategyAction F)}
  {s s' : PositionState F} {t : Tick F} {a : StrategyAction F}

/-- A tick of an open position sells a rung, sells everything, or comes before the hold time
is over. -/
lemma tick_cases (h0 : (0 : F) ≤ EPSILON) (hstep : TickCase s t a s') (hc : ¬ s.isClosed) :
    a.isTakeProfit = true ∨ (isSell a = true ∧ s'.isClosed) ∨
      (isSell a = false ∧ ¬ s.HoldOver t) := by
  cases hstep with
  | closed hc' => exact absurd hc' hc
  | stopLoss _ hs => exact .inr (.inl ⟨rfl, h0⟩)
  | takeProfit rung i _ hs hr => exact .inl rfl
  | trailingStop _ hs hr ht => exact .inr (.inl ⟨rfl, h0⟩)
  | maxHold b _ hs hr ht hh hb => exact .inr (.inl ⟨rfl, h0⟩)
  | hold b _ hs hr ht hh hb => exact .inr (.inr ⟨rfl, hh⟩)

omit [F64 F] in
lemma isSell_of_takeProfit (h : a.isTakeProfit = true) : isSell a = true := by
  cases a with
  | sell f r => rfl
  | hold => cases h
  | closed => cases h

lemma counted_step (h0 : (0 : F) ≤ EPSILON) (h : Counted cfg t0 w as s)
    (hstep : TickCase s t a s') : Counted cfg t0 (w ++ [t]) (as ++ [a]) s' := by
  obtain ⟨hcfg, -, hts⟩ := frame_step hstep
  have hcount := count_step h.flags hstep
  have hfired : (as ++ [a]).countP (·.isTakeProfit) = s'.firedRungs.count true := by
    rw [hcount, List.countP_append, h.fired, List.countP_singleton]
  have hover : (w ++ [t]).countP (isOver cfg t0) =
      w.countP (isOver cfg t0) + if isOver cfg t0 t then 1 else 0 := by
    rw [List.countP_append, List.countP_singleton]
  by_cases hc : s.isClosed
  · -- nothing more is sold
    cases hstep with
    | closed _ =>
      have hsells : sells (as ++ [.closed]) = sells as := by simp [sells_append, isSell]
      refine ⟨h.cfg_eq, h.entryTs, h.flags, hfired, fun ho => absurd hc ho, ?_,
        fun ho => absurd hc ho⟩
      rw [hsells]
      exact h.last
    | stopLoss hc' _ => exact absurd hc hc'
    | takeProfit _ _ hc' _ _ => exact absurd hc hc'
    | trailingStop hc' _ _ _ => exact absurd hc hc'
    | maxHold _ hc' _ _ _ _ _ => exact absurd hc hc'
    | hold _ hc' _ _ _ _ _ => exact absurd hc hc'
  · have hrungs := h.rungs hc
    have hdrop : ∀ b ∈ (sells (as ++ [a])).dropLast, b.isTakeProfit = true := by
      intro b hb
      rw [sells_append] at hb
      split_ifs at hb with ha
      · rw [List.dropLast_concat] at hb
        exact hrungs b hb
      · exact hrungs b (List.mem_of_mem_dropLast hb)
    refine ⟨hcfg.trans h.cfg_eq, hts.trans h.entryTs, flagged_step h.flags hstep, hfired, ?_,
      hdrop, ?_⟩
    · intro ho b hb
      rw [sells_append] at hb
      rcases tick_cases h0 hstep hc with htp | ⟨-, hclosed⟩ | ⟨hno, -⟩
      · rw [if_pos (isSell_of_takeProfit htp)] at hb
        rcases List.mem_append.mp hb with hb | hb
        · exact hrungs b hb
        · rw [List.mem_singleton.mp hb]
          exact htp
      · exact absurd hclosed ho
      · rw [hno] at hb
        exact hrungs b hb
    · intro ho
      have hle := h.late hc
      rw [hover, hcount]
      rcases tick_cases h0 hstep hc with htp | ⟨-, hclosed⟩ | ⟨-, hearly⟩
      · rw [htp, if_pos rfl]
        split_ifs <;> omega
      · exact absurd hclosed ho
      · have hnot : isOver cfg t0 t = false := by
          unfold HoldOver at hearly
          rw [h.cfg_eq, h.entryTs] at hearly
          simpa [isOver] using hearly
        rw [hnot, if_neg Bool.false_ne_true]
        omega

end Step

lemma counted (h0 : (0 : F) ≤ EPSILON) (cfg : StrategyConfig F) (e : F) (t0 : ℕ)
    (w : List (Tick F)) : Counted cfg t0 w (actions e t0 cfg w) (after e t0 cfg w) :=
  Mealy.history_inv (H := Counted cfg t0)
    (fun _ _ s t h => counted_step h0 h (onTick_spec s t)) (counted_open e t0 cfg) w

omit [F64 F] in
/-- Only the last sell may be of another kind than take-profit. -/
lemma length_sells_le {as : List (StrategyAction F)}
    (h : ∀ a ∈ (sells as).dropLast, a.isTakeProfit = true) :
    (sells as).length ≤ as.countP (·.isTakeProfit) + 1 ∧
      (sells as).countP (fun a => !a.isTakeProfit) ≤ 1 := by
  have hdrop : (sells as).dropLast.countP (·.isTakeProfit) = (sells as).dropLast.length :=
    List.countP_eq_length.mpr h
  have hsub : (sells as).dropLast.countP (·.isTakeProfit) ≤ (sells as).countP (·.isTakeProfit) :=
    (List.dropLast_sublist _).countP_le
  have hsum : (sells as).length =
      (sells as).countP (·.isTakeProfit) + (sells as).countP (fun a => !a.isTakeProfit) := by
    have := List.length_eq_countP_add_countP (fun a => a.isTakeProfit) (l := sells as)
    simpa using this
  rw [List.length_dropLast] at hdrop
  rw [countP_isTakeProfit] at hsub hsum
  omega

/-- **Bounded exit.** A run on a ladder of `n` rungs sells at most `n + 1` times; of these at
most one is not a take-profit, and it is the last. Once `n + 1` ticks have come with the hold
time over, the position is closed, and stays as it is. -/
theorem bounded_exit (h0 : (0 : F) ≤ EPSILON) (cfg : StrategyConfig F) (e : F) (t0 : ℕ)
    (w : List (Tick F)) :
    let n := cfg.takeProfitLadder.length
    let as := actions e t0 cfg w
    (sells as).length ≤ n + 1 ∧
      (sells as).countP (fun a => !a.isTakeProfit) ≤ 1 ∧
      (∀ a ∈ (sells as).dropLast, a.isTakeProfit = true) ∧
      (n + 1 ≤ w.countP (isOver cfg t0) →
        (after e t0 cfg w).isClosed ∧ ∀ v,
          actions e t0 cfg (w ++ v) = as ++ List.replicate v.length .closed ∧
          after e t0 cfg (w ++ v) = after e t0 cfg w) := by
  intro n as
  have h : Counted cfg t0 w as (after e t0 cfg w) := counted h0 cfg e t0 w
  have hle : (after e t0 cfg w).firedRungs.count true ≤ n := by
    have := count_le h.flags
    rwa [h.cfg_eq] at this
  obtain ⟨hlen, hone⟩ := length_sells_le h.last
  rw [h.fired] at hlen
  refine ⟨by omega, hone, h.last, fun hmany => ?_⟩
  have hclosed : (after e t0 cfg w).isClosed := by
    by_contra ho
    have := h.late ho
    omega
  refine ⟨hclosed, fun v => ?_⟩
  have hfixed : ∀ t, (after e t0 cfg w).onTick t = (.closed, after e t0 cfg w) := fun t => by
    unfold onTick
    rw [if_pos hclosed]
  obtain ⟨hout, hfinal⟩ := Mealy.run_fixed hfixed v
  refine ⟨?_, ?_⟩
  · unfold actions
    rw [Mealy.outputs_append]
    exact congrArg _ hout
  · unfold after
    rw [Mealy.final_append]
    exact hfinal

/-- Two rungs of the example ladder put the hard exit off for two ticks. -/
theorem bounded_exit_example :
    actions 1 0 exampleConfig.strategy
        [⟨2, 3600⟩, ⟨5, 3600⟩, ⟨1, 3601⟩, ⟨1, 10⟩] =
      [.sell (3 / 10) .takeProfit, .sell (3 / 7) .takeProfit, .sell (4 / 10) .trailingStop,
        .closed] ∧
    (sells (actions 1 0 exampleConfig.strategy
      [⟨2, 3600⟩, ⟨5, 3600⟩, ⟨1, 3601⟩, ⟨1, 10⟩])).length ≤ 4 :=
  ⟨by decide +kernel,
    (bounded_exit (by decide +kernel) exampleConfig.strategy 1 0
      [⟨2, 3600⟩, ⟨5, 3600⟩, ⟨1, 3601⟩, ⟨1, 10⟩]).1⟩

end NovaSniper.BoundedExit
