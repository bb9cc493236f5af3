import NovaSniper.Ladder

/-!
The representation invariant of the exit machine, in the exact reading.

While a position is open, what remains of it is the whole less what the fired rungs asked
for. The clamp and the snap to zero only ever act on the tick that closes the position.
-/

namespace NovaSniper.Position

open NovaSniper.FloatOps NovaSniper.Config NovaSniper.Strategy NovaSniper.Ladder
open NovaSniper.Strategy.PositionState NovaSniper.Lib NovaSniper.Lib.Marked

/-! ### The invariant -/

/-- The part of the original position that the fired rungs asked for. -/
def sold (s : PositionState ℚ) : ℚ :=
  ((marked s.cfg.takeProfitLadder s.firedRungs).map fun r => r.sellPct / 100).sum

/-- The part of the position that some rungs sell together. -/
def partOf (rungs : List (TakeProfitRung ℚ)) : ℚ := (rungs.map fun r => r.sellPct / 100).sum

lemma sold_eq_partOf (s : PositionState ℚ) :
    sold s = partOf (marked s.cfg.takeProfitLadder s.firedRungs) := rfl

lemma partOf_le {rungs rungs' : List (TakeProfitRung ℚ)} (h : rungs.Sublist rungs')
    (hpos : ∀ r ∈ rungs', 0 < r.sellPct) : partOf rungs ≤ partOf rungs' := by
  refine (h.map _).sum_le_sum fun x hx => ?_
  obtain ⟨r, hr, rfl⟩ := List.mem_map.mp hx
  have := hpos r hr
  positivity

structure Rep (s : PositionState ℚ) : Prop where
  flags : s.firedRungs.length = s.cfg.takeProfitLadder.length
  range : s.remaining = 0 ∨ EPSILON < s.remaining ∧ s.remaining ≤ 1
  left : ¬ s.isClosed → s.remaining = 1 - sold s

lemma closed_of_zero {s : PositionState ℚ} (h : s.remaining = 0) : s.isClosed := by
  unfold isClosed
  rw [h]
  exact epsilon_pos.le

lemma open_iff {s : PositionState ℚ} : ¬ s.isClosed ↔ EPSILON < s.remaining := not_le

lemma Rep.open_range {s : PositionState ℚ} (h : Rep s) (hc : ¬ s.isClosed) :
    EPSILON < s.remaining ∧ s.remaining ≤ 1 :=
  h.range.resolve_left fun h0 => hc (closed_of_zero h0)

lemma Rep.closed_zero {s : PositionState ℚ} (h : Rep s) (hc : s.isClosed) : s.remaining = 0 :=
  h.range.resolve_right fun hr => open_iff.mpr hr.1 hc

lemma rep_open (e : ℚ) (t0 : ℕ) (cfg : StrategyConfig ℚ) : Rep (openPosition e t0 cfg) where
  flags := by simp [openPosition]
  range := .inr ⟨epsilon_lt_one, le_refl _⟩
  left _ := by simp [openPosition, sold, marked_replicate]

lemma Rep.flag {s : PositionState ℚ} (h : Rep s) {p : ℚ} {rung : TakeProfitRung ℚ} {i : ℕ}
    (hr : s.nextRung p = some (rung, i)) : s.firedRungs[i]? = some false :=
  flag_of_nextRung h.flags hr

/-- What is left after a rung: nothing, or the exact difference. -/
lemma remaining_sellFromRung (s : PositionState ℚ) (rung : TakeProfitRung ℚ) :
    ((s.sellFromRung rung).2.remaining = 0 ∧ s.remaining - rung.sellPct / 100 ≤ EPSILON) ∨
      (EPSILON < s.remaining - rung.sellPct / 100 ∧
        (s.sellFromRung rung).2.remaining = s.remaining - rung.sellPct / 100) := by
  have hpos := epsilon_pos
  simp only [sellFromRung, fmax_rat, lit_rat]
  split_ifs with h
  · exact .inl ⟨rfl, le_trans (le_max_left _ _) h⟩
  · rcases lt_max_iff.mp (not_le.mp h) with h' | h'
    · exact .inr ⟨h', max_eq_left (by linarith)⟩
    · exact absurd h' (not_lt.mpr hpos.le)

/-! ### What a tick preserves -/

variable {s s' : PositionState ℚ} {t : Tick ℚ} {a : StrategyAction ℚ}

lemma rep_step (hb : Bounds s.cfg) (h : Rep s) (hstep : TickCase s t a s') : Rep s' := by
  have hfull : ∀ {s₁ : PositionState ℚ}, s₁.firedRungs = s.firedRungs → s₁.cfg = s.cfg →
      s₁.remaining = 0 → Rep s₁ := by
    intro s₁ hf hcfg h0
    exact ⟨by rw [hf, hcfg, h.flags], .inl h0, fun ho => absurd (closed_of_zero h0) ho⟩
  cases hstep with
  | closed hc => exact h
  | stopLoss hc hs => exact hfull rfl rfl rfl
  | trailingStop hc hs hr ht => exact hfull rfl rfl rfl
  | maxHold b hc hs hr ht hh hb => exact hfull rfl rfl rfl
  | hold b hc hs hr ht hh hb => exact ⟨h.flags, h.range, h.left⟩
  | takeProfit rung i hc hs hr =>
    have hl := (nextRung_some hr).1
    have hpct := (hb.rungs rung (List.mem_of_getElem? hl)).2.1
    have hle := (h.open_range hc).2
    have hsum := sum_marked_set (fun r => r.sellPct / 100) hl (h.flag hr)
    rcases remaining_sellFromRung s rung with ⟨h0, -⟩ | ⟨hgt, heq⟩
    · exact ⟨by simpa [sellFromRung] using h.flags, .inl h0,
        fun ho => absurd (closed_of_zero h0) ho⟩
    · refine ⟨by simpa [sellFromRung] using h.flags, .inr ?_, fun _ => ?_⟩
      · simp only [heq]
        exact ⟨hgt, by linarith⟩
      · have hsold : sold { (s.sellFromRung rung).2 with
            peakPrice := s.peakAt t.price, firedRungs := s.firedRungs.set i true } =
            rung.sellPct / 100 + sold s := hsum
        rw [hsold]
        show (s.sellFromRung rung).2.remaining = _
        rw [heq, h.left hc]
        ring

/-- A rung leaves the position open as long as the fired rungs do not sell all of it. -/
lemma open_of_takeProfit (h : Rep s) (hstep : TickCase s t a s') (ha : a.isTakeProfit = true)
    (hleft : EPSILON < 1 - sold s') : ¬ s'.isClosed := by
  cases hstep with
  | takeProfit rung i hc hs hr =>
    have hl := (nextRung_some hr).1
    have hsum : sold { (s.sellFromRung rung).2 with
        peakPrice := s.peakAt t.price, firedRungs := s.firedRungs.set i true } =
        rung.sellPct / 100 + sold s :=
      sum_marked_set (fun r : TakeProfitRung ℚ => r.sellPct / 100) hl (h.flag hr)
    rw [hsum] at hleft
    have hrem := h.left hc
    rcases remaining_sellFromRung s rung with ⟨-, hle⟩ | ⟨hgt, heq⟩
    · exfalso
      linarith
    · rw [open_iff]
      show EPSILON < (s.sellFromRung rung).2.remaining
      rw [heq]
      exact hgt
  | closed _ => cases ha
  | stopLoss _ _ => cases ha
  | trailingStop _ _ _ _ => cases ha
  | maxHold _ _ _ _ _ _ _ => cases ha
  | hold _ _ _ _ _ _ _ => cases ha

/-- **Every sell is of a proper part.** -/
lemma fraction_step (hb : Bounds s.cfg) (h : Rep s) {f : ℚ} {r : SellReason}
    (hstep : TickCase s t (.sell f r) s') : 0 < f ∧ f ≤ 1 := by
  have hpos := epsilon_pos
  generalize ha : StrategyAction.sell f r = a at hstep
  cases hstep with
  | closed hc => cases ha
  | hold b hc hs hr ht hh hb => cases ha
  | stopLoss hc hs =>
    cases ha
    exact ⟨by linarith [(h.open_range hc).1], (h.open_range hc).2⟩
  | trailingStop hc hs hr ht =>
    cases ha
    exact ⟨by linarith [(h.open_range hc).1], (h.open_range hc).2⟩
  | maxHold b hc hs hr ht hh hb =>
    cases ha
    exact ⟨by linarith [(h.open_range hc).1], (h.open_range hc).2⟩
  | takeProfit rung i hc hs hr =>
    simp only [sellFromRung, fmin_rat, lit_rat, StrategyAction.sell.injEq] at ha
    have hpct := (hb.rungs rung (List.mem_of_getElem? (nextRung_some hr).1)).2.1
    have hrem : 0 < s.remaining := by linarith [(h.open_range hc).1]
    rw [ha.1]
    exact ⟨lt_min (div_pos (by linarith) hrem) one_pos, min_le_right _ _⟩

/-- What is known of a run from its actions and the state it ends in. -/
structure Ran (cfg : StrategyConfig ℚ) (as : List (StrategyAction ℚ)) (s : PositionState ℚ) :
    Prop where
  cfg_eq : s.cfg = cfg
  rep : Rep s
  count : as.countP (·.isTakeProfit) = s.firedRungs.count true
  fraction : ∀ f r, .sell f r ∈ as → 0 < f ∧ f ≤ 1

theorem ran {cfg : StrategyConfig ℚ} (hcfg : Accepted cfg) (e : ℚ) (t0 : ℕ)
    (w : List (Tick ℚ)) : Ran cfg (actions e t0 cfg w) (after e t0 cfg w) := by
  have h0 : Ran cfg [] (openPosition e t0 cfg) :=
    ⟨rfl, rep_open e t0 cfg, by simp [openPosition, List.count_replicate], by simp⟩
  refine Mealy.history_inv (H := fun _ as s => Ran cfg as s) ?_ h0 w
  intro _ as s t h
  have hstep := onTick_spec s t
  have hb : Bounds s.cfg := h.cfg_eq ▸ hcfg.bounds
  refine ⟨(frame_step hstep).1.trans h.cfg_eq, rep_step hb h.rep hstep, ?_, fun f r hmem => ?_⟩
  · rw [count_step h.rep.flags hstep, List.countP_append, h.count]
    simp [List.countP_cons]
  · rcases List.mem_append.mp hmem with hmem | hmem
    · exact h.fraction f r hmem
    · rw [← List.mem_singleton.mp hmem] at hstep
      exact fraction_step hb h.rep hstep

/-- The percentages of the fired rungs, added up. -/
def firedPct (s : PositionState ℚ) : ℚ :=
  ((marked s.cfg.takeProfitLadder s.firedRungs).map (·.sellPct)).sum

lemma sold_eq (s : PositionState ℚ) : sold s = firedPct s / 100 := by
  simp only [sold, firedPct, div_eq_mul_inv]
  exact List.sum_map_mul_right ..

/-- **The representation invariant.** At every reachable state there is one flag for each
rung; what remains is nothing or more than the tolerance, and while the position is open it
is the whole less the fired rungs; each fired rung has sold once; every sell is of a proper
part; a rung never divides by nothing; and a ladder sold out has closed the position. -/
theorem position_invariant {cfg : StrategyConfig ℚ} (hcfg : Accepted cfg) (e : ℚ) (t0 : ℕ)
    (w : List (Tick ℚ)) :
    let s := after e t0 cfg w
    let as := actions e t0 cfg w
    s.firedRungs.length = cfg.takeProfitLadder.length ∧
    (s.remaining = 0 ∨ EPSILON < s.remaining ∧ s.remaining ≤ 1) ∧
    (¬ s.isClosed → s.remaining = 1 - sold s) ∧
    as.countP (·.isTakeProfit) = s.firedRungs.count true ∧
    (∀ f r, .sell f r ∈ as → 0 < f ∧ f ≤ 1) ∧
    (∀ t f, (s.onTick t).1 = .sell f .takeProfit → s.remaining ≠ 0) ∧
    (100 ≤ firedPct s → s.isClosed) := by
  intro s as
  have h : Ran cfg as s := ran hcfg e t0 w
  refine ⟨h.cfg_eq ▸ h.rep.flags, h.rep.range, h.rep.left, h.count, h.fraction, ?_, ?_⟩
  · intro t f ht h0
    have hc : s.isClosed := closed_of_zero h0
    simp [onTick, hc] at ht
  · intro hpct
    by_contra hc
    have hleft := h.rep.left hc
    have hgt := (h.rep.open_range hc).1
    rw [sold_eq] at hleft
    linarith [epsilon_pos]

theorem position_invariant_example :
    (after 1 0 exampleConfig.strategy [⟨21 / 10, 1⟩]).remaining = 7 / 10 ∧
    (after 1 0 exampleConfig.strategy [⟨21 / 10, 1⟩]).remaining =
      1 - sold (after 1 0 exampleConfig.strategy [⟨21 / 10, 1⟩]) :=
  ⟨by decide +kernel,
    (position_invariant accepted_example 1 0 [⟨21 / 10, 1⟩]).2.2.1 (by decide +kernel)⟩

end NovaSniper.Position
