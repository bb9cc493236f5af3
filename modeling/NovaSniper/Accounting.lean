import NovaSniper.Position

/-!
What a caller holds who sells, at each sell, the requested fraction of its holding.

A rung converts its share of the original position into a fraction of what is left. The
three full exits hand out `remaining`, which is a fraction of the original position: a
caller who sold a rung before keeps a part of the holding on the exit. The condition under
which the holding and `remaining` agree along a run is exact.
-/

namespace NovaSniper.Accounting

open NovaSniper.FloatOps NovaSniper.Config NovaSniper.Strategy NovaSniper.Ladder
open NovaSniper.Position NovaSniper.Strategy.PositionState NovaSniper.Lib

/-- The holding after an action. -/
def sellPart (h : ℚ) : StrategyAction ℚ → ℚ
  | .sell fraction _ => h - fraction * h
  | _ => h

/-- The holding of a caller who starts with one. -/
def holding (as : List (StrategyAction ℚ)) : ℚ := as.foldl sellPart 1

lemma holding_append (as : List (StrategyAction ℚ)) (a : StrategyAction ℚ) :
    holding (as ++ [a]) = sellPart (holding as) a := by
  simp [holding]

/-- The holding agrees with `remaining` up to the tolerance, and a closed position is sold. -/
def Accounted (as : List (StrategyAction ℚ)) (s : PositionState ℚ) : Prop :=
  |holding as - s.remaining| ≤ EPSILON ∧ (s.isClosed → |holding as| ≤ EPSILON)

/-- The tick takes one of the branches that sell everything: stop-loss, or no rung reached
and trailing stop or max-hold. -/
def FullExit (s : PositionState ℚ) (t : Tick ℚ) : Prop :=
  ¬ s.isClosed ∧ (s.StopHit t ∨ s.nextRung t.price = none ∧ (s.TrailHit t ∨ s.HoldOver t))

/-- A tick that sells everything comes while next to nothing was sold, or next to nothing
is left. -/
def CleanExit (s : PositionState ℚ) (t : Tick ℚ) : Prop :=
  FullExit s t → s.remaining * (1 - s.remaining) ≤ EPSILON

/-- While the position is open the holding is exact; afterwards it is within the tolerance. -/
structure Exact (cfg : StrategyConfig ℚ) (as : List (StrategyAction ℚ)) (s : PositionState ℚ) :
    Prop where
  cfg_eq : s.cfg = cfg
  rep : Rep s
  open_eq : ¬ s.isClosed → holding as = s.remaining
  closed_le : s.isClosed → |holding as| ≤ EPSILON

lemma Exact.accounted {cfg : StrategyConfig ℚ} {as : List (StrategyAction ℚ)}
    {s : PositionState ℚ} (h : Exact cfg as s) : Accounted as s := by
  refine ⟨?_, h.closed_le⟩
  by_cases hc : s.isClosed
  · simpa [h.rep.closed_zero hc] using h.closed_le hc
  · simpa [h.open_eq hc] using epsilon_pos.le

variable {cfg : StrategyConfig ℚ} {as : List (StrategyAction ℚ)} {s s' : PositionState ℚ}
  {t : Tick ℚ} {a : StrategyAction ℚ}

/-- A full exit of an open position leaves `r (1 - r)` of `r`. -/
lemma holding_fullExit (h : Exact cfg as s) (hc : ¬ s.isClosed) (r : SellReason) :
    holding (as ++ [.sell s.remaining r]) = s.remaining * (1 - s.remaining) := by
  rw [holding_append, h.open_eq hc, sellPart]
  ring

lemma fullExit_nonneg (h : Exact cfg as s) (hc : ¬ s.isClosed) :
    0 ≤ s.remaining * (1 - s.remaining) := by
  obtain ⟨hgt, hle⟩ := h.rep.open_range hc
  exact mul_nonneg (by linarith [epsilon_pos]) (by linarith)

/-- A rung leaves what it did not sell. -/
lemma holding_rung (h : Exact cfg as s) (hc : ¬ s.isClosed) (rung : TakeProfitRung ℚ) :
    holding (as ++ [(s.sellFromRung rung).1]) = max (s.remaining - rung.sellPct / 100) 0 := by
  have hpos : 0 < s.remaining := by linarith [(h.rep.open_range hc).1, epsilon_pos]
  rw [holding_append, h.open_eq hc]
  simp only [sellFromRung, sellPart, fmin_rat, lit_rat]
  rcases le_total (rung.sellPct / 100) s.remaining with hle | hle
  · rw [min_eq_left ((div_le_one hpos).mpr hle), max_eq_left (by linarith)]
    field_simp
  · rw [min_eq_right ((one_le_div hpos).mpr hle), max_eq_right (by linarith)]
    ring

lemma exact_of_fullExit (h : Exact cfg as s) (hc : ¬ s.isClosed) (hcfg : s'.cfg = cfg)
    (hrep : Rep s') (h0 : s'.remaining = 0) (r : SellReason)
    (hle : s.remaining * (1 - s.remaining) ≤ EPSILON) :
    Exact cfg (as ++ [.sell s.remaining r]) s' := by
  refine ⟨hcfg, hrep, fun ho => absurd (closed_of_zero h0) ho, fun _ => ?_⟩
  rw [holding_fullExit h hc, abs_of_nonneg (fullExit_nonneg h hc)]
  exact hle

/-- A clean tick keeps the account exact. -/
lemma exact_step (hcfg : Accepted cfg) (h : Exact cfg as s) (hstep : TickCase s t a s')
    (hclean : CleanExit s t) : Exact cfg (as ++ [a]) s' := by
  have hc' : s'.cfg = cfg := (frame_step hstep).1.trans h.cfg_eq
  have hrep : Rep s' := rep_step (h.cfg_eq ▸ hcfg.bounds) h.rep hstep
  cases hstep with
  | closed hc =>
    exact ⟨hc', hrep, fun ho => absurd hc ho, fun _ => by
      rw [holding_append]; exact h.closed_le hc⟩
  | hold b hc hs hr ht hh hb =>
    exact ⟨hc', hrep, fun _ => by rw [holding_append]; exact h.open_eq hc,
      fun hcl => absurd hcl hc⟩
  | stopLoss hc hs =>
    exact exact_of_fullExit h hc hc' hrep rfl _ (hclean ⟨hc, .inl hs⟩)
  | trailingStop hc hs hr ht =>
    exact exact_of_fullExit h hc hc' hrep rfl _ (hclean ⟨hc, .inr ⟨hr, .inl ht⟩⟩)
  | maxHold b hc hs hr ht hh hb =>
    exact exact_of_fullExit h hc hc' hrep rfl _ (hclean ⟨hc, .inr ⟨hr, .inr hh⟩⟩)
  | takeProfit rung i hc hs hr =>
    have hpos := epsilon_pos
    rcases remaining_sellFromRung s rung with ⟨h0, hle⟩ | ⟨hgt, heq⟩
    · refine ⟨hc', hrep, fun ho => absurd (closed_of_zero h0) ho, fun _ => ?_⟩
      rw [holding_rung h hc, abs_of_nonneg (le_max_right _ _)]
      exact max_le hle hpos.le
    · have hopen : ¬ (s.sellFromRung rung).2.isClosed := by
        rw [open_iff, heq]
        exact hgt
      refine ⟨hc', hrep, fun _ => ?_, fun hcl => absurd hcl hopen⟩
      rw [holding_rung h hc, max_eq_left (by linarith)]
      exact heq.symm

/-- A full exit that is not clean breaks the account. -/
lemma not_accounted_step (h : Exact cfg as s) (hstep : TickCase s t a s')
    (hclean : ¬ CleanExit s t) : ¬ Accounted (as ++ [a]) s' := by
  unfold CleanExit at hclean
  push Not at hclean
  obtain ⟨⟨hc, hexit⟩, hgt⟩ := hclean
  have hfull : ∀ r, s'.remaining = 0 → ¬ Accounted (as ++ [.sell s.remaining r]) s' := by
    rintro r h0 ⟨hle, -⟩
    rw [h0, holding_fullExit h hc, sub_zero, abs_of_nonneg (fullExit_nonneg h hc)] at hle
    exact absurd hle (not_le.mpr hgt)
  cases hstep with
  | closed hc' => exact absurd hc' hc
  | stopLoss _ hs => exact hfull _ rfl
  | trailingStop _ hs hr ht => exact hfull _ rfl
  | maxHold b _ hs hr ht hh hb => exact hfull _ rfl
  | takeProfit rung i _ hs hr =>
    rcases hexit with hs' | ⟨hr', -⟩
    · exact absurd hs' hs
    · rw [hr] at hr'; cases hr'
  | hold b _ hs hr ht hh hb =>
    rcases hexit with hs' | ⟨-, ht' | hh'⟩
    · exact absurd hs' hs
    · exact absurd ht' ht
    · exact absurd hh' hh

/-- **Exactly the clean runs are accounted for.** After every tick of a run the caller's
holding agrees with `remaining`, and a closed position is sold, if and only if no tick of
the run sells everything while `r (1 - r)` is above the tolerance, `r` being what remained
before it. -/
theorem accounted_iff (hcfg : Accepted cfg) (e : ℚ) (t0 : ℕ) (w : List (Tick ℚ)) :
    (∀ u v, w = u ++ v → Accounted (actions e t0 cfg u) (after e t0 cfg u)) ↔
      Mealy.Along onTick CleanExit (openPosition e t0 cfg) w := by
  have h0 : Exact cfg [] (openPosition e t0 cfg) := by
    refine ⟨rfl, rep_open e t0 cfg, fun _ => rfl, fun hc => ?_⟩
    exact absurd hc (open_iff.mpr epsilon_lt_one)
  exact Mealy.forall_prefix_iff_along (J := Exact cfg) (fun _ _ h => h.accounted)
    (fun _ s t h hc => exact_step hcfg h (onTick_spec s t) hc)
    (fun _ s t h hc => not_accounted_step h (onTick_spec s t) hc) h0 w

/-- Nothing is sold before the stop-loss of this run, which closes all of it. -/
theorem accounted_iff_example :
    Accounted (actions 1 0 exampleConfig.strategy [⟨3 / 2, 1⟩, ⟨1 / 2, 2⟩])
      (after 1 0 exampleConfig.strategy [⟨3 / 2, 1⟩, ⟨1 / 2, 2⟩]) := by
  refine (accounted_iff accepted_example 1 0 [⟨3 / 2, 1⟩, ⟨1 / 2, 2⟩]).mpr ?_ _ [] (by simp)
  refine ⟨fun h => absurd h.2 ?_, fun _ => ?_, trivial⟩
  · unfold StopHit TrailHit Armed HoldOver
    decide +kernel
  · decide +kernel

/-- A rung at 2.1, then the trailing stop at 1.3 with 0.7 remaining: the position is closed
and the caller still holds 0.21. -/
theorem holding_after_trailing_stop :
    Accepted exampleConfig.strategy ∧
    (after 1 0 exampleConfig.strategy [⟨21 / 10, 1⟩, ⟨13 / 10, 2⟩]).isClosed ∧
    holding (actions 1 0 exampleConfig.strategy [⟨21 / 10, 1⟩, ⟨13 / 10, 2⟩]) = 21 / 100 ∧
    ¬ Accounted (actions 1 0 exampleConfig.strategy [⟨21 / 10, 1⟩, ⟨13 / 10, 2⟩])
      (after 1 0 exampleConfig.strategy [⟨21 / 10, 1⟩, ⟨13 / 10, 2⟩]) := by
  have hh : holding (actions 1 0 exampleConfig.strategy [⟨21 / 10, 1⟩, ⟨13 / 10, 2⟩]) =
      21 / 100 := by decide +kernel
  have hc : (after 1 0 exampleConfig.strategy [⟨21 / 10, 1⟩, ⟨13 / 10, 2⟩]).isClosed := by
    decide +kernel
  refine ⟨accepted_example, hc, hh, fun h => ?_⟩
  have := h.2 hc
  rw [hh] at this
  norm_num [epsilon_rat] at this

end NovaSniper.Accounting
