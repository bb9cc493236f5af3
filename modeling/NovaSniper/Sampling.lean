import NovaSniper.BoundedExit

/-!
What the exit machine reads of its ticks.

Prices count only against the entry price, and the clock only against the entry time. And a poll
whose price is not a new high, and on which nothing is sold, may as well not have been made: at
most it sets the latch of the trailing stop, which the next tick that needs it sets as well.
-/

namespace NovaSniper.Sampling

open NovaSniper.FloatOps NovaSniper.Config NovaSniper.Strategy NovaSniper.Ladder
open NovaSniper.BoundedExit NovaSniper.Strategy.PositionState NovaSniper.Lib

/-! ### One branch -/

section Unique

variable {F : Type} [F64 F] {s s₁ s₂ : PositionState F} {t : Tick F} {a₁ a₂ : StrategyAction F}

/-- The conditions of the six branches exclude one another. -/
lemma tickCase_unique (h₁ : TickCase s t a₁ s₁) (h₂ : TickCase s t a₂ s₂) :
    a₁ = a₂ ∧ s₁ = s₂ := by
  have hlatch : ∀ b b' : Bool, (b = true ↔ s.Armed t) → (b' = true ↔ s.Armed t) → b = b' :=
    fun b b' hb hb' => Bool.eq_iff_iff.mpr (hb.trans hb'.symm)
  cases h₁ with
  | closed hc =>
    cases h₂ with
    | closed _ => exact ⟨rfl, rfl⟩
    | _ => contradiction
  | stopLoss hc hs =>
    cases h₂ with
    | stopLoss _ _ => exact ⟨rfl, rfl⟩
    | _ => contradiction
  | takeProfit rung i hc hs hr =>
    cases h₂ with
    | takeProfit rung' i' _ _ hr' =>
      rw [hr, Option.some.injEq, Prod.mk.injEq] at hr'
      obtain ⟨rfl, rfl⟩ := hr'
      exact ⟨rfl, rfl⟩
    | trailingStop _ _ hr' _ => exact absurd (hr.symm.trans hr') nofun
    | maxHold _ _ _ hr' _ _ _ => exact absurd (hr.symm.trans hr') nofun
    | hold _ _ _ hr' _ _ _ => exact absurd (hr.symm.trans hr') nofun
    | _ => contradiction
  | trailingStop hc hs hr ht =>
    cases h₂ with
    | trailingStop _ _ _ _ => exact ⟨rfl, rfl⟩
    | takeProfit _ _ _ _ hr' => exact absurd (hr'.symm.trans hr) nofun
    | _ => contradiction
  | maxHold b hc hs hr ht hh hb =>
    cases h₂ with
    | maxHold b' _ _ _ _ _ hb' =>
      obtain rfl := hlatch b b' hb hb'
      exact ⟨rfl, rfl⟩
    | takeProfit _ _ _ _ hr' => exact absurd (hr'.symm.trans hr) nofun
    | _ => contradiction
  | hold b hc hs hr ht hh hb =>
    cases h₂ with
    | hold b' _ _ _ _ _ hb' =>
      obtain rfl := hlatch b b' hb hb'
      exact ⟨rfl, rfl⟩
    | takeProfit _ _ _ _ hr' => exact absurd (hr'.symm.trans hr) nofun
    | _ => contradiction

/-- What a tick was seen to do is what it does. -/
lemma onTick_of_tickCase (h : TickCase s t a₁ s₁) : (s.onTick t).1 = a₁ ∧ (s.onTick t).2 = s₁ :=
  tickCase_unique (onTick_spec s t) h

end Unique

/-! ### Prices and times are relative -/

/-- The same tick in another unit of price and with another origin of time. -/
def Tick.rescale (c : ℚ) (k : ℕ) (t : Tick ℚ) : Tick ℚ := ⟨c * t.price, t.nowSecs + k⟩

def rescale (c : ℚ) (k : ℕ) (s : PositionState ℚ) : PositionState ℚ :=
  { s with
    entryPrice := c * s.entryPrice
    entryTsSecs := s.entryTsSecs + k
    peakPrice := c * s.peakPrice }

section Rescale

variable {c : ℚ} {k : ℕ} {s : PositionState ℚ} {p : ℚ}

lemma rescale_open (c : ℚ) (k : ℕ) (e : ℚ) (t0 : ℕ) (cfg : StrategyConfig ℚ) :
    rescale c k (openPosition e t0 cfg) = openPosition (c * e) (t0 + k) cfg := rfl

lemma peakAt_rescale (hc : 0 < c) : (rescale c k s).peakAt (c * p) = c * s.peakAt p := by
  have hlt : c * s.peakPrice < c * p ↔ s.peakPrice < p := mul_lt_mul_iff_right₀ hc
  unfold peakAt
  show (if c * s.peakPrice < c * p then c * p else c * s.peakPrice) = _
  by_cases h : s.peakPrice < p
  · rw [if_pos h, if_pos (hlt.mpr h)]
  · rw [if_neg h, if_neg (mt hlt.mp h)]

/-- A price at a multiple of a price. -/
lemma scaled_le (hc : 0 < c) (a m b : ℚ) : c * a * m ≤ c * b ↔ a * m ≤ b := by
  rw [mul_assoc]
  exact mul_le_mul_iff_right₀ hc

lemma le_scaled (hc : 0 < c) (a m b : ℚ) : c * b ≤ c * a * m ↔ b ≤ a * m := by
  rw [mul_assoc]
  exact mul_le_mul_iff_right₀ hc

lemma nextRung_rescale (hc : 0 < c) : (rescale c k s).nextRung (c * p) = s.nextRung p := by
  unfold nextRung
  have htest : (fun q : TakeProfitRung ℚ × ℕ => !(rescale c k s).firedRungs.getD q.2 false &&
      decide ((rescale c k s).entryPrice * q.1.multiplier ≤ c * p)) =
      fun q => !s.firedRungs.getD q.2 false &&
        decide (s.entryPrice * q.1.multiplier ≤ p) := by
    funext q
    congr 1
    exact decide_eq_decide.mpr (scaled_le hc _ _ _)
  exact congrArg (s.cfg.takeProfitLadder.zipIdx.find? ·) htest

lemma stopHit_rescale (hc : 0 < c) {t : Tick ℚ} :
    (rescale c k s).StopHit (Tick.rescale c k t) ↔ s.StopHit t :=
  le_scaled hc _ _ _

lemma armed_rescale (hc : 0 < c) {t : Tick ℚ} :
    (rescale c k s).Armed (Tick.rescale c k t) ↔ s.Armed t := by
  unfold Armed
  rw [show (Tick.rescale c k t).price = c * t.price from rfl, peakAt_rescale hc]
  exact or_congr Iff.rfl (scaled_le hc _ _ _)

lemma trailHit_rescale (hc : 0 < c) {t : Tick ℚ} :
    (rescale c k s).TrailHit (Tick.rescale c k t) ↔ s.TrailHit t := by
  unfold TrailHit
  rw [armed_rescale hc, show (Tick.rescale c k t).price = c * t.price from rfl,
    peakAt_rescale hc]
  exact and_congr Iff.rfl (le_scaled hc _ _ _)

lemma holdOver_rescale {t : Tick ℚ} :
    (rescale c k s).HoldOver (Tick.rescale c k t) ↔ s.HoldOver t := by
  unfold HoldOver
  show s.cfg.maxHoldSeconds ≤ t.nowSecs + k - (s.entryTsSecs + k) ↔ _
  rw [Nat.add_sub_add_right]

/-- A tick takes the same branch. -/
lemma tickCase_rescale (hc : 0 < c) {t : Tick ℚ} {a : StrategyAction ℚ} {s' : PositionState ℚ}
    (h : TickCase s t a s') :
    TickCase (rescale c k s) (Tick.rescale c k t) a (rescale c k s') := by
  have hpeak : ∀ (b : Bool) (r : ℚ) (fired : List Bool),
      rescale c k { s with
        peakPrice := s.peakAt t.price, remaining := r, firedRungs := fired, trailingArmed := b } =
      { rescale c k s with
        peakPrice := (rescale c k s).peakAt (Tick.rescale c k t).price, remaining := r
        firedRungs := fired, trailingArmed := b } := by
    intro b r fired
    rw [show (Tick.rescale c k t).price = c * t.price from rfl, peakAt_rescale hc]
    rfl
  have hstop := mt (stopHit_rescale (k := k) (s := s) (t := t) hc).mp
  have hrung : (rescale c k s).nextRung (Tick.rescale c k t).price = s.nextRung t.price :=
    nextRung_rescale hc
  have htrail := mt (trailHit_rescale (k := k) (s := s) (t := t) hc).mp
  cases h with
  | closed hcl => exact .closed hcl
  | stopLoss hcl hs =>
    rw [hpeak s.trailingArmed 0 s.firedRungs]
    exact .stopLoss hcl ((stopHit_rescale hc).mpr hs)
  | takeProfit rung i hcl hs hr =>
    show TickCase _ _ _ (rescale c k { s with
      peakPrice := s.peakAt t.price, remaining := (s.sellFromRung rung).2.remaining
      firedRungs := s.firedRungs.set i true })
    rw [hpeak s.trailingArmed (s.sellFromRung rung).2.remaining (s.firedRungs.set i true)]
    exact .takeProfit rung i hcl (hstop hs) (hrung.trans hr)
  | trailingStop hcl hs hr ht =>
    rw [hpeak true 0 s.firedRungs]
    exact .trailingStop hcl (hstop hs) (hrung.trans hr) ((trailHit_rescale hc).mpr ht)
  | maxHold b hcl hs hr ht hh hb =>
    rw [hpeak b 0 s.firedRungs]
    exact .maxHold b hcl (hstop hs) (hrung.trans hr) (htrail ht) (holdOver_rescale.mpr hh)
      (hb.trans (armed_rescale hc).symm)
  | hold b hcl hs hr ht hh hb =>
    rw [hpeak b s.remaining s.firedRungs]
    exact .hold b hcl (hstop hs) (hrung.trans hr) (htrail ht) (mt holdOver_rescale.mp hh)
      (hb.trans (armed_rescale hc).symm)

end Rescale

/-- **Only ratios and durations count.** With every price, the entry price included, in another
unit, and every time, the entry time included, from another origin, a run asks for the same
actions, and leaves the same position in the new unit. -/
theorem actions_rescale {c : ℚ} (hc : 0 < c) (k : ℕ) (e : ℚ) (t0 : ℕ) (cfg : StrategyConfig ℚ)
    (w : List (Tick ℚ)) :
    actions (c * e) (t0 + k) cfg (w.map (Tick.rescale c k)) = actions e t0 cfg w ∧
      after (c * e) (t0 + k) cfg (w.map (Tick.rescale c k)) =
        rescale c k (after e t0 cfg w) := by
  have hstep : ∀ (s s' : PositionState ℚ) (t : Tick ℚ), s' = rescale c k s →
      (s'.onTick (Tick.rescale c k t)).1 = (s.onTick t).1 ∧
        (s'.onTick (Tick.rescale c k t)).2 = rescale c k (s.onTick t).2 := by
    rintro s _ t rfl
    exact onTick_of_tickCase (tickCase_rescale hc (onTick_spec s t))
  exact Mealy.run_related hstep (rescale_open c k e t0 cfg).symm w

theorem actions_rescale_example :
    actions 2 7 exampleConfig.strategy [⟨6, 8⟩, ⟨2, 9⟩] =
      actions 1 0 exampleConfig.strategy [⟨3, 1⟩, ⟨1, 2⟩] := by
  have h := (actions_rescale (c := 2) (by norm_num) 7 1 0 exampleConfig.strategy
    [⟨3, 1⟩, ⟨1, 2⟩]).1
  norm_num [Tick.rescale] at h
  exact h

/-! ### Polls that can be left out -/

section Polls

variable {F : Type} [F64 F]

/-- The trailing stop is armed, or the high is one that arms it. -/
def Latched (s : PositionState F) : Prop :=
  s.trailingArmed = true ∨ s.entryPrice * s.cfg.trailingStopActivation ≤ s.peakPrice

/-- The states differ at most in the latch, and there only in when it was set. -/
def Alike (s s' : PositionState F) : Prop :=
  s' = { s with trailingArmed := s'.trailingArmed } ∧ (Latched s ↔ Latched s')

/-- A tick on which nothing is sold and which sets no new high, or which comes too late. -/
def quiet (s : PositionState F) (t : Tick F) : Bool :=
  match (s.onTick t).1 with
  | .hold => !decide (s.peakPrice < t.price)
  | .sell _ _ => false
  | .closed => true

/-- The sells of a run, each with its tick. -/
def sellsAt (e : F) (t0 : ℕ) (cfg : StrategyConfig F) (w : List (Tick F)) :
    List (Tick F × StrategyAction F) :=
  (Mealy.answered onTick (openPosition e t0 cfg) w).filter fun p => isSell p.2

/-- The ticks of a run that are not quiet. -/
def heard (e : F) (t0 : ℕ) (cfg : StrategyConfig F) (w : List (Tick F)) : List (Tick F) :=
  Mealy.skip onTick quiet (openPosition e t0 cfg) w

variable (htrans : ∀ a b c : F, a ≤ b → b < c → a ≤ c)

include htrans in
/-- A high that arms the trailing stop still does so after a new high. -/
lemma armed_iff_latched {s : PositionState F} {t : Tick F} :
    s.Armed t ↔
      Latched s ∨ s.entryPrice * s.cfg.trailingStopActivation ≤ s.peakAt t.price := by
  unfold Armed Latched peakAt
  refine ⟨?_, ?_⟩
  · rintro (h | h)
    · exact .inl (.inl h)
    · exact .inr h
  · rintro ((h | h) | h)
    · exact .inl h
    · right
      split_ifs with hlt
      · exact htrans _ _ _ h hlt
      · exact h
    · exact .inr h

include htrans in
lemma Alike.armed_iff {s s' : PositionState F} (h : Alike s s') (t : Tick F) :
    s'.Armed t ↔ s.Armed t := by
  rw [armed_iff_latched htrans, armed_iff_latched htrans, h.2, h.1]
  exact Iff.rfl

include htrans in
/-- Alike states answer alike and stay alike: a branch reads the latch only through `Armed`, and
leaves it set or derivable exactly when the stop was armed. -/
lemma alike_step {s s' : PositionState F} {t : Tick F} (h : Alike s s') :
    (s'.onTick t).1 = (s.onTick t).1 ∧ Alike (s.onTick t).2 (s'.onTick t).2 := by
  have harmed : s'.Armed t ↔ s.Armed t := h.armed_iff htrans t
  have hlatched : Latched s ↔ Latched s' := h.2
  obtain ⟨b', rfl⟩ : ∃ b', s' = { s with trailingArmed := b' } := ⟨_, h.1⟩
  set s' : PositionState F := { s with trailingArmed := b' } with hs'
  -- what the latch is after a branch that does not touch it
  have hnext : ∀ (r : F) (fired : List Bool), Alike
      { s with peakPrice := s.peakAt t.price, remaining := r, firedRungs := fired }
      { s' with peakPrice := s.peakAt t.price, remaining := r, firedRungs := fired } :=
    fun r fired => ⟨rfl, harmed.symm⟩
  suffices hcase : ∃ u, TickCase s' t (s.onTick t).1 u ∧ Alike (s.onTick t).2 u by
    obtain ⟨u, hu, halike⟩ := hcase
    obtain ⟨hans, hstate⟩ := onTick_of_tickCase hu
    exact ⟨hans, hstate ▸ halike⟩
  have hspec := onTick_spec s t
  generalize (s.onTick t).1 = a at hspec ⊢
  generalize (s.onTick t).2 = s₁ at hspec ⊢
  cases hspec with
  | closed hc => exact ⟨s', .closed hc, rfl, hlatched⟩
  | stopLoss hc hs => exact ⟨_, .stopLoss hc hs, hnext 0 s.firedRungs⟩
  | takeProfit rung i hc hs hr => exact ⟨_, .takeProfit rung i hc hs hr, hnext _ _⟩
  | trailingStop hc hs hr ht =>
    exact ⟨_, .trailingStop hc hs hr ⟨harmed.mpr ht.1, ht.2⟩, rfl, Iff.rfl⟩
  | maxHold b hc hs hr ht hh hb =>
    have ht' : ¬ s'.TrailHit t := fun ht' => ht ⟨harmed.mp ht'.1, ht'.2⟩
    exact ⟨_, .maxHold b hc hs hr ht' hh (hb.trans harmed.symm), rfl, Iff.rfl⟩
  | hold b hc hs hr ht hh hb =>
    have ht' : ¬ s'.TrailHit t := fun ht' => ht ⟨harmed.mp ht'.1, ht'.2⟩
    exact ⟨_, .hold b hc hs hr ht' hh (hb.trans harmed.symm), rfl, Iff.rfl⟩

/-- A quiet tick changes at most the latch. -/
lemma alike_of_quiet {s s' : PositionState F} {t : Tick F} (h : Alike s s')
    (hq : quiet s t = true) : Alike (s.onTick t).2 s' := by
  have hspec := onTick_spec s t
  unfold quiet at hq
  generalize (s.onTick t).1 = a at hspec hq
  generalize (s.onTick t).2 = s₁ at hspec ⊢
  cases hspec with
  | closed _ => exact h
  | hold b hc hs hr ht hh hb =>
    have hlow : ¬ s.peakPrice < t.price := by simpa using hq
    have hpeak : s.peakAt t.price = s.peakPrice := if_neg hlow
    have hb' : b = true ↔ Latched s := by
      rw [hb]
      unfold Armed Latched
      rw [hpeak]
    refine ⟨?_, ?_⟩
    · rw [hpeak]
      exact h.1
    · rw [← h.2]
      unfold Latched at hb' ⊢
      simp only [hpeak, hb']
      exact ⟨fun hl => hl.elim id .inr, .inl⟩
  | stopLoss _ _ => cases hq
  | takeProfit _ _ _ _ _ => cases hq
  | trailingStop _ _ _ _ => cases hq
  | maxHold _ _ _ _ _ _ _ => cases hq

lemma isSell_of_quiet {s : PositionState F} {t : Tick F} (hq : quiet s t = true) :
    isSell (s.onTick t).1 = false := by
  unfold quiet at hq
  cases ha : (s.onTick t).1 with
  | hold => rfl
  | sell f r =>
    rw [ha] at hq
    cases hq
  | closed => rfl

include htrans in
/-- **Quiet polls can be left out.** A run sells the same parts for the same reasons at the same
ticks without its quiet ticks, and leaves the same position, the time at which the latch was set
apart. -/
theorem sellsAt_heard (e : F) (t0 : ℕ) (cfg : StrategyConfig F) (w : List (Tick F)) :
    sellsAt e t0 cfg (heard e t0 cfg w) = sellsAt e t0 cfg w ∧
      Alike (after e t0 cfg w) (after e t0 cfg (heard e t0 cfg w)) := by
  have hstart : Alike (openPosition e t0 cfg) (openPosition e t0 cfg) := ⟨rfl, Iff.rfl⟩
  apply Mealy.filter_answered_skip (R := Alike) _ _ _ hstart w
  · exact fun s s' t h => alike_step htrans h
  · exact fun s s' t h hq => alike_of_quiet h hq
  · exact fun s t hq => isSell_of_quiet hq

end Polls

/-- The ticks at 2.5 and at 3 are quiet, as is what comes after the exit. -/
theorem sellsAt_heard_example :
    heard 1 0 exampleConfig.strategy
        [⟨3, 1⟩, ⟨5 / 2, 2⟩, ⟨3, 3⟩, ⟨1, 4⟩, ⟨9, 5⟩] = [⟨3, 1⟩, ⟨1, 4⟩] ∧
      sellsAt 1 0 exampleConfig.strategy (heard 1 0 exampleConfig.strategy
          [⟨3, 1⟩, ⟨5 / 2, 2⟩, ⟨3, 3⟩, ⟨1, 4⟩, ⟨9, 5⟩]) =
        sellsAt 1 0 exampleConfig.strategy [⟨3, 1⟩, ⟨5 / 2, 2⟩, ⟨3, 3⟩, ⟨1, 4⟩, ⟨9, 5⟩] :=
  ⟨by decide +kernel,
    (sellsAt_heard (fun _ _ _ hab hbc => hab.trans hbc.le) 1 0 exampleConfig.strategy
      [⟨3, 1⟩, ⟨5 / 2, 2⟩, ⟨3, 3⟩, ⟨1, 4⟩, ⟨9, 5⟩]).1⟩

end NovaSniper.Sampling
