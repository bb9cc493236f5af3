import NovaSniper.Position

/-!
The exit policy as a function of the history of a position, and the proof that the state
machine computes it.

The policy keeps nothing between ticks: the rungs sold are those the earlier decisions
name, the high is the maximum of the prices so far, and the trailing stop is armed when
that high has reached the activation price. The machine keeps a flag for each rung, a peak
and a latch, and brings the latch up to date only on ticks that come as far as the
trailing stop; the relation below says why nothing is lost by that.
-/

namespace NovaSniper.ExitPolicy

open NovaSniper.FloatOps NovaSniper.Config NovaSniper.Strategy NovaSniper.Ladder
open NovaSniper.Position NovaSniper.Strategy.PositionState NovaSniper.Lib NovaSniper.Lib.Marked

/-- What a tick decides: the kind and reason of the action, and the rung it sells. -/
inductive Decision
  | closed | stopLoss
  | takeProfit (rung : ℕ)
  | trailingStop | maxHold | hold
  deriving DecidableEq

def Decision.rung? : Decision → Option ℕ
  | .takeProfit i => some i
  | _ => none

/-- The decisions that sell everything. -/
def Decision.isExit : Decision → Bool
  | .stopLoss => true
  | .trailingStop => true
  | .maxHold => true
  | _ => false

/-! ### The policy -/

section Policy

variable (cfg : StrategyConfig ℚ) (e : ℚ) (t0 : ℕ)

/-- The rungs sold by earlier ticks. -/
def soldRungs (past : List Decision) : List ℕ := past.filterMap Decision.rung?

/-- The part of the position that rung `i` sells. -/
def part (i : ℕ) : ℚ := ((cfg.takeProfitLadder[i]?).map fun r => r.sellPct / 100).getD 0

/-- The part of the position sold by earlier ticks, if none sold everything. -/
def soldPart (past : List Decision) : ℚ := ((soldRungs past).map (part cfg)).sum

/-- The highest price so far, the entry included. -/
def high (prices : List ℚ) : ℚ := prices.foldl max e

/-- The least-index rung that is not sold and whose target is reached. -/
def leastRung (past : List Decision) (p : ℚ) : Option ℕ :=
  (List.range cfg.takeProfitLadder.length).find? fun i =>
    decide (i ∉ soldRungs past) &&
      (cfg.takeProfitLadder[i]?).any fun r => decide (e * r.multiplier ≤ p)

/-- The decision at a tick, from the earlier decisions, the earlier prices and the tick. -/
def exitPolicy (past : List Decision) (prices : List ℚ) (t : Tick ℚ) : Decision :=
  let M := high e (prices ++ [t.price])
  if 1 - soldPart cfg past ≤ EPSILON ∨ past.any Decision.isExit = true then .closed
  else if t.price ≤ e * cfg.stopLossMultiplier then .stopLoss
  else match leastRung cfg e past t.price with
  | some i => .takeProfit i
  | none =>
    if e * cfg.trailingStopActivation ≤ M ∧ t.price ≤ M * (1 - cfg.trailingStopDrawdown) then
      .trailingStop
    else if cfg.maxHoldSeconds ≤ t.nowSecs - t0 then .maxHold
    else .hold

end Policy

/-! ### What is seen of the machine -/

/-- The decision an action and the change of state amount to. The rung sold is the one
whose flag changed. -/
def observe (s : PositionState ℚ) : StrategyAction ℚ × PositionState ℚ → Decision
  | (.closed, _) => .closed
  | (.hold, _) => .hold
  | (.sell _ .stopLoss, _) => .stopLoss
  | (.sell _ .trailingStop, _) => .trailingStop
  | (.sell _ .maxHold, _) => .maxHold
  | (.sell _ .takeProfit, s') => .takeProfit (firstDiff s.firedRungs s'.firedRungs)

def observedTick (s : PositionState ℚ) (t : Tick ℚ) : Decision × PositionState ℚ :=
  (observe s (s.onTick t), (s.onTick t).2)

/-- The decisions of the machine along a run of ticks on a new position. -/
def decisions (e : ℚ) (t0 : ℕ) (cfg : StrategyConfig ℚ) (w : List (Tick ℚ)) : List Decision :=
  Mealy.outputs observedTick (openPosition e t0 cfg) w

/-! ### The caches and the history -/

/-- How the state after ticks `w` that decided `ds` stands to that history. -/
structure Tracks (cfg : StrategyConfig ℚ) (e : ℚ) (t0 : ℕ) (w : List (Tick ℚ))
    (ds : List Decision) (s : PositionState ℚ) : Prop where
  cfg_eq : s.cfg = cfg
  entry : s.entryPrice = e
  entryTs : s.entryTsSecs = t0
  rep : Rep s
  flags : ∀ i, s.firedRungs.getD i false = true ↔ i ∈ soldRungs ds
  sum : sold s = soldPart cfg ds
  closed : s.isClosed ↔ 1 - soldPart cfg ds ≤ EPSILON ∨ ds.any Decision.isExit = true
  peak : ¬ s.isClosed → s.peakPrice = high e (w.map (·.price))
  -- the latch may lag behind the peak, never ahead of it
  armed : s.trailingArmed = true → e * cfg.trailingStopActivation ≤ s.peakPrice

lemma tracks_open (e : ℚ) (t0 : ℕ) (cfg : StrategyConfig ℚ) :
    Tracks cfg e t0 [] [] (openPosition e t0 cfg) where
  cfg_eq := rfl
  entry := rfl
  entryTs := rfl
  rep := rep_open e t0 cfg
  flags i := by
    rw [unfired_open]
    simp [soldRungs]
  sum := by simp [openPosition, sold, marked_replicate, soldPart, soldRungs]
  closed := by simp [isClosed, openPosition, soldPart, soldRungs]
  peak _ := rfl
  armed h := by simp [openPosition] at h

lemma peakAt_eq (s : PositionState ℚ) (p : ℚ) : s.peakAt p = max s.peakPrice p := by
  unfold peakAt
  split_ifs with h
  · exact (max_eq_right h.le).symm
  · exact (max_eq_left (not_lt.mp h)).symm

lemma high_append (e : ℚ) (ps : List ℚ) (p : ℚ) : high e (ps ++ [p]) = max (high e ps) p := by
  simp [high]

section Tracks

variable {cfg : StrategyConfig ℚ} {e : ℚ} {t0 : ℕ} {w : List (Tick ℚ)} {ds : List Decision}
  {s s' : PositionState ℚ} {t : Tick ℚ} {a : StrategyAction ℚ}

lemma Tracks.high_eq (h : Tracks cfg e t0 w ds s) (hc : ¬ s.isClosed) (t : Tick ℚ) :
    s.peakAt t.price = high e (w.map (·.price) ++ [t.price]) := by
  rw [peakAt_eq, high_append, h.peak hc]

/-- The scan of the machine and the search of the policy find the same rung. -/
lemma Tracks.leastRung_eq (h : Tracks cfg e t0 w ds s) (p : ℚ) :
    leastRung cfg e ds p = (s.nextRung p).map (·.2) := by
  cases hr : s.nextRung p with
  | none =>
    refine List.find?_eq_none.mpr fun j hj hp => ?_
    obtain ⟨r, hjr⟩ : ∃ r, cfg.takeProfitLadder[j]? = some r :=
      ⟨_, List.getElem?_eq_getElem (List.mem_range.mp hj)⟩
    simp only [hjr, Option.any_some, Bool.and_eq_true, decide_eq_true_eq] at hp
    rcases nextRung_none hr j r (h.cfg_eq ▸ hjr) with hf | hf
    · exact hp.1 ((h.flags j).mp hf)
    · exact hf (h.entry ▸ hp.2)
  | some q =>
    obtain ⟨rung, i⟩ := q
    obtain ⟨hl, hf, hreach, hbefore⟩ := nextRung_some hr
    rw [h.cfg_eq] at hl
    refine List.find?_range_eq_some.mpr ⟨?_, ?_, fun j hj => ?_⟩
    · have hns : i ∉ soldRungs ds := fun hm => by
        rw [(h.flags i).mpr hm] at hf
        cases hf
      simp [hl, hns, ← h.entry, hreach]
    · exact List.mem_range.mpr (List.getElem?_eq_some_iff.mp hl).1
    · obtain ⟨r, hjr⟩ : ∃ r, cfg.takeProfitLadder[j]? = some r :=
        ⟨_, List.getElem?_eq_getElem (hj.trans (List.getElem?_eq_some_iff.mp hl).1)⟩
      rcases hbefore j r hj (h.cfg_eq ▸ hjr) with hf' | hf'
      · simp [(h.flags j).mp hf']
      · simp [hjr, ← h.entry, hf']

/-- The latch adds nothing to the high. -/
lemma Tracks.armed_iff (h : Tracks cfg e t0 w ds s) (t : Tick ℚ) :
    s.Armed t ↔ e * cfg.trailingStopActivation ≤ s.peakAt t.price := by
  unfold Armed
  rw [h.cfg_eq, h.entry, peakAt_eq]
  refine ⟨?_, ?_⟩
  · rintro (ha | ha)
    · exact le_max_of_le_left (h.armed ha)
    · exact ha
  · exact .inr

/-- **One tick decides what the policy decides.** -/
lemma observe_step (h : Tracks cfg e t0 w ds s) (hstep : TickCase s t a s') :
    observe s (a, s') = exitPolicy cfg e t0 ds (w.map (·.price)) t := by
  have hstop : s.StopHit t ↔ t.price ≤ e * cfg.stopLossMultiplier := by
    rw [StopHit, h.entry, h.cfg_eq]
  have hhold : s.HoldOver t ↔ cfg.maxHoldSeconds ≤ t.nowSecs - t0 := by
    rw [HoldOver, h.entryTs, h.cfg_eq]
  have htrail : ∀ hc : ¬ s.isClosed, s.TrailHit t ↔
      e * cfg.trailingStopActivation ≤ high e (w.map (·.price) ++ [t.price]) ∧
      t.price ≤ high e (w.map (·.price) ++ [t.price]) * (1 - cfg.trailingStopDrawdown) := by
    intro hc
    rw [TrailHit, h.armed_iff, h.high_eq hc, h.cfg_eq]
  have hrung := h.leastRung_eq t.price
  simp only [exitPolicy]
  cases hstep with
  | closed hc =>
    rw [if_pos (h.closed.mp hc)]
    rfl
  | stopLoss hc hs =>
    rw [if_neg (mt h.closed.mpr hc), if_pos (hstop.mp hs)]
    rfl
  | takeProfit rung i hc hs hr =>
    rw [if_neg (mt h.closed.mpr hc), if_neg (mt hstop.mpr hs), hrung, hr]
    exact congrArg _ (firstDiff_set (h.rep.flag hr))
  | trailingStop hc hs hr ht =>
    rw [if_neg (mt h.closed.mpr hc), if_neg (mt hstop.mpr hs), hrung, hr]
    exact (if_pos ((htrail hc).mp ht)).symm
  | maxHold b hc hs hr ht hh hb =>
    rw [if_neg (mt h.closed.mpr hc), if_neg (mt hstop.mpr hs), hrung, hr]
    simp only [Option.map_none]
    rw [if_neg (mt (htrail hc).mpr ht), if_pos (hhold.mp hh)]
    rfl
  | hold b hc hs hr ht hh hb =>
    rw [if_neg (mt h.closed.mpr hc), if_neg (mt hstop.mpr hs), hrung, hr]
    simp only [Option.map_none]
    rw [if_neg (mt (htrail hc).mpr ht), if_neg (mt hhold.mpr hh)]
    rfl

lemma soldRungs_append (ds : List Decision) (d : Decision) :
    soldRungs (ds ++ [d]) = soldRungs ds ++ d.rung?.toList := by
  cases hd : d.rung? <;> simp [soldRungs, hd]

lemma soldPart_append (cfg : StrategyConfig ℚ) (ds : List Decision) (d : Decision) :
    soldPart cfg (ds ++ [d]) = soldPart cfg ds + (d.rung?.toList.map (part cfg)).sum := by
  simp [soldPart, soldRungs_append]

/-- A decision that fires no rung leaves the sold rungs as they were. -/
lemma sold_same (cfg : StrategyConfig ℚ) (ds : List Decision) {d : Decision}
    (hd : d.rung? = none) :
    soldRungs (ds ++ [d]) = soldRungs ds ∧ soldPart cfg (ds ++ [d]) = soldPart cfg ds := by
  simp [soldRungs_append, soldPart_append, hd]

/-- A decision that sells at most a rung leaves the earlier exits as they were. -/
lemma any_same {d : Decision} (hd : d.isExit = false) :
    (ds ++ [d]).any Decision.isExit = ds.any Decision.isExit := by
  simp [hd]

/-- A state that only ends the position, after a decision to sell everything. -/
lemma Tracks.exit (h : Tracks cfg e t0 w ds s) {d : Decision} (hd : d.isExit = true)
    (hrep : Rep s') (hcfg : s'.cfg = s.cfg) (he : s'.entryPrice = s.entryPrice)
    (ht : s'.entryTsSecs = s.entryTsSecs) (hf : s'.firedRungs = s.firedRungs)
    (h0 : s'.remaining = 0)
    (ha : s'.trailingArmed = true → e * cfg.trailingStopActivation ≤ s'.peakPrice) :
    Tracks cfg e t0 (w ++ [t]) (ds ++ [d]) s' := by
  have hr : d.rung? = none := by cases d <;> first | rfl | cases hd
  obtain ⟨hsr, hsp⟩ := sold_same cfg ds hr
  refine ⟨hcfg.trans h.cfg_eq, he.trans h.entry, ht.trans h.entryTs, hrep, ?_, ?_, ?_, ?_, ha⟩
  · rw [hf, hsr]
    exact h.flags
  · rw [hsp, ← h.sum, sold, sold, hf, hcfg]
  · simp [closed_of_zero h0, hd]
  · exact fun ho => absurd (closed_of_zero h0) ho

/-- **One tick keeps the caches true to the history.** -/
lemma tracks_step (hcfg : Accepted cfg) (h : Tracks cfg e t0 w ds s)
    (hstep : TickCase s t a s') :
    Tracks cfg e t0 (w ++ [t]) (ds ++ [observe s (a, s')]) s' := by
  have hrep : Rep s' := rep_step (h.cfg_eq ▸ hcfg.bounds) h.rep hstep
  have hpk : s.peakPrice ≤ s.peakAt t.price := peakAt_eq s t.price ▸ le_max_left _ _
  cases hstep with
  | closed hc =>
    obtain ⟨hsr, hsp⟩ := sold_same cfg ds (d := .closed) rfl
    exact ⟨h.cfg_eq, h.entry, h.entryTs, h.rep, hsr ▸ h.flags, hsp ▸ h.sum,
      by rw [observe, hsp, any_same rfl]; exact h.closed, fun ho => absurd hc ho, h.armed⟩
  | stopLoss hc hs =>
    exact h.exit (d := .stopLoss) rfl hrep rfl rfl rfl rfl rfl fun hb => (h.armed hb).trans hpk
  | trailingStop hc hs hr ht =>
    exact h.exit (d := .trailingStop) rfl hrep rfl rfl rfl rfl rfl fun _ =>
      (h.armed_iff t).mp ht.1
  | maxHold b hc hs hr ht hh hb =>
    exact h.exit (d := .maxHold) rfl hrep rfl rfl rfl rfl rfl fun hb' =>
      (h.armed_iff t).mp (hb.mp hb')
  | hold b hc hs hr ht hh hb =>
    obtain ⟨hsr, hsp⟩ := sold_same cfg ds (d := .hold) rfl
    refine ⟨h.cfg_eq, h.entry, h.entryTs, hrep, hsr ▸ h.flags, hsp ▸ h.sum,
      by rw [observe, hsp, any_same rfl]; exact h.closed, fun _ => ?_, fun hb' =>
      (h.armed_iff t).mp (hb.mp hb')⟩
    simpa using h.high_eq hc t
  | takeProfit rung i hc hs hr =>
    have hflag := h.rep.flag hr
    have hl : cfg.takeProfitLadder[i]? = some rung := h.cfg_eq ▸ (nextRung_some hr).1
    have hd : observe s ((s.sellFromRung rung).1, { (s.sellFromRung rung).2 with
        peakPrice := s.peakAt t.price, firedRungs := s.firedRungs.set i true }) =
        .takeProfit i := congrArg _ (firstDiff_set hflag)
    have hsp : soldPart cfg (ds ++ [.takeProfit i]) = rung.sellPct / 100 + soldPart cfg ds := by
      simp [soldPart_append, Decision.rung?, part, hl, add_comm]
    have hnot : ds.any Decision.isExit = false := by
      have := mt h.closed.mpr hc
      push Not at this
      simpa using this.2
    rw [hd]
    refine ⟨h.cfg_eq, h.entry, h.entryTs, hrep, fun j => ?_, ?_, ?_, fun _ => ?_, fun hb =>
      (h.armed hb).trans hpk⟩
    · rw [soldRungs_append, getD_set hflag, h.flags]
      simp [Decision.rung?]
    · rw [hsp, ← h.sum]
      exact sum_marked_set (fun r => r.sellPct / 100) (nextRung_some hr).1 hflag
    · have hleft := h.rep.left hc
      rw [hsp, ← h.sum, any_same rfl, hnot]
      simp only [Bool.false_eq_true, or_false]
      show (s.sellFromRung rung).2.remaining ≤ EPSILON ↔ _
      rcases remaining_sellFromRung s rung with ⟨h0, hle⟩ | ⟨hgt, heq⟩
      · rw [h0]
        exact ⟨fun _ => by linarith, fun _ => epsilon_pos.le⟩
      · rw [heq]
        constructor <;> intro hle <;> linarith
    · simpa using h.high_eq hc t

end Tracks

/-- At every state of every run the caches are true to the history. -/
lemma tracks {cfg : StrategyConfig ℚ} (hcfg : Accepted cfg) (e : ℚ) (t0 : ℕ)
    (w : List (Tick ℚ)) : Tracks cfg e t0 w (decisions e t0 cfg w) (after e t0 cfg w) :=
  Mealy.history_inv (H := Tracks cfg e t0)
    (fun _ _ s t h => tracks_step hcfg h (onTick_spec s t)) (tracks_open e t0 cfg) w

/-- **The machine is the policy.** At every tick of every run the machine decides what the
exit policy decides from the earlier decisions and the prices so far. -/
theorem decisions_eq_exitPolicy {cfg : StrategyConfig ℚ} (hcfg : Accepted cfg) (e : ℚ) (t0 : ℕ)
    (w : List (Tick ℚ)) (t : Tick ℚ) :
    decisions e t0 cfg (w ++ [t]) =
      decisions e t0 cfg w ++
        [exitPolicy cfg e t0 (decisions e t0 cfg w) (w.map (·.price)) t] := by
  have hlast : observe (after e t0 cfg w) ((after e t0 cfg w).onTick t) =
      exitPolicy cfg e t0 (decisions e t0 cfg w) (w.map (·.price)) t :=
    observe_step (tracks hcfg e t0 w) (onTick_spec _ t)
  rw [← hlast]
  exact Mealy.outputs_append observedTick (openPosition e t0 cfg) w [t]

/-- A gap over two targets, a fall under the stop, and a tick on the closed position. -/
theorem decisions_eq_exitPolicy_example :
    decisions 1 0 exampleConfig.strategy
        [⟨6, 1⟩, ⟨6, 2⟩, ⟨2 / 5, 3⟩, ⟨2, 4⟩] =
      [.takeProfit 0, .takeProfit 1, .stopLoss, .closed] ∧
    decisions 1 0 exampleConfig.strategy ([⟨6, 1⟩, ⟨6, 2⟩] ++ [⟨2 / 5, 3⟩]) =
      decisions 1 0 exampleConfig.strategy [⟨6, 1⟩, ⟨6, 2⟩] ++
        [exitPolicy exampleConfig.strategy 1 0
          (decisions 1 0 exampleConfig.strategy [⟨6, 1⟩, ⟨6, 2⟩]) [6, 6] ⟨2 / 5, 3⟩] :=
  ⟨by decide +kernel,
    decisions_eq_exitPolicy accepted_example 1 0 [⟨6, 1⟩, ⟨6, 2⟩] ⟨2 / 5, 3⟩⟩

end NovaSniper.ExitPolicy
