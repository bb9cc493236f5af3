import NovaSniper.Config
import NovaSniper.Lib.Mealy

/-!
The exit state machine of one open position.

`onTick` and the checks it calls are translated branch by branch. `onTick_spec` then says,
once, everything a tick can do; whatever is proved about runs of ticks is derived from it
and never unfolds `onTick` again.
-/

namespace NovaSniper.Strategy

open NovaSniper.FloatOps NovaSniper.Config NovaSniper.Lib

inductive SellReason
  | takeProfit | stopLoss | trailingStop | maxHold
  deriving DecidableEq

/-- What the machine asks for at a tick; `fraction` is of what is left of the position. -/
inductive StrategyAction (F : Type)
  | hold
  | sell (fraction : F) (reason : SellReason)
  | closed
  deriving DecidableEq

structure PositionState (F : Type) where
  entryPrice : F
  entryTsSecs : ℕ
  peakPrice : F
  remaining : F
  firedRungs : List Bool
  trailingArmed : Bool
  cfg : StrategyConfig F
  deriving DecidableEq

/-- The arguments of one call of `on_tick`. -/
structure Tick (F : Type) where
  price : F
  nowSecs : ℕ
  deriving DecidableEq

variable {F : Type} [F64 F]

/-- `open`, renamed since the word is reserved. -/
def openPosition (entryPrice : F) (entryTsSecs : ℕ) (cfg : StrategyConfig F) :
    PositionState F where
  entryPrice := entryPrice
  entryTsSecs := entryTsSecs
  peakPrice := entryPrice
  remaining := 1
  firedRungs := List.replicate cfg.takeProfitLadder.length false
  trailingArmed := false
  cfg := cfg

namespace PositionState

def isClosed (s : PositionState F) : Prop := s.remaining ≤ EPSILON

instance (s : PositionState F) : Decidable s.isClosed :=
  inferInstanceAs (Decidable (s.remaining ≤ EPSILON))

/-- The three full exits sell in the same way. -/
def sellAll (s : PositionState F) (reason : SellReason) :
    StrategyAction F × PositionState F :=
  (.sell s.remaining reason, { s with remaining := 0 })

def checkStopLoss (s : PositionState F) (price : F) :
    Option (StrategyAction F) × PositionState F :=
  if price ≤ s.entryPrice * s.cfg.stopLossMultiplier then
    let (a, s') := s.sellAll .stopLoss
    (some a, s')
  else (none, s)

def sellFromRung (s : PositionState F) (rung : TakeProfitRung F) :
    StrategyAction F × PositionState F :=
  let wantedOfOriginal := rung.sellPct / lit 100
  let fractionOfRemaining := fmin (wantedOfOriginal / s.remaining) 1
  let remaining := fmax (s.remaining - wantedOfOriginal) 0
  let remaining := if remaining ≤ EPSILON then 0 else remaining
  (.sell fractionOfRemaining .takeProfit, { s with remaining := remaining })

/-- The next unfired rung whose target is reached, with its index. A missing flag, where
the source would panic, reads as unfired. -/
def nextRung (s : PositionState F) (price : F) : Option (TakeProfitRung F × ℕ) :=
  s.cfg.takeProfitLadder.zipIdx.find? fun (rung, i) =>
    !s.firedRungs.getD i false && decide (s.entryPrice * rung.multiplier ≤ price)

def checkTakeProfit (s : PositionState F) (price : F) :
    Option (StrategyAction F) × PositionState F :=
  match s.nextRung price with
  | some (rung, i) =>
    let (a, s') := { s with firedRungs := s.firedRungs.set i true }.sellFromRung rung
    (some a, s')
  | none => (none, s)

def checkTrailingStop (s : PositionState F) (price : F) :
    Option (StrategyAction F) × PositionState F :=
  let activationPrice := s.entryPrice * s.cfg.trailingStopActivation
  let s := if !s.trailingArmed ∧ activationPrice ≤ s.peakPrice then
    { s with trailingArmed := true } else s
  if !s.trailingArmed then (none, s)
  else if price ≤ s.peakPrice * (1 - s.cfg.trailingStopDrawdown) then
    let (a, s') := s.sellAll .trailingStop
    (some a, s')
  else (none, s)

def checkMaxHold (s : PositionState F) (nowSecs : ℕ) :
    Option (StrategyAction F) × PositionState F :=
  -- natural subtraction truncates as `saturating_sub` does
  if s.cfg.maxHoldSeconds ≤ nowSecs - s.entryTsSecs then
    let (a, s') := s.sellAll .maxHold
    (some a, s')
  else (none, s)

/-- The new high, if the price is one. -/
def bumpPeak (s : PositionState F) (price : F) : PositionState F :=
  if s.peakPrice < price then { s with peakPrice := price } else s

/-- `on_tick`: stop-loss first, then take-profit rungs, trailing stop and max-hold. -/
def onTick (s : PositionState F) (t : Tick F) : StrategyAction F × PositionState F :=
  if s.isClosed then (.closed, s)
  else match (s.bumpPeak t.price).checkStopLoss t.price with
  | (some a, s) => (a, s)
  | (none, s) => match s.checkTakeProfit t.price with
  | (some a, s) => (a, s)
  | (none, s) => match s.checkTrailingStop t.price with
  | (some a, s) => (a, s)
  | (none, s) => match s.checkMaxHold t.nowSecs with
  | (some a, s) => (a, s)
  | (none, s) => (.hold, s)

/-! ### What a tick can do -/

/-- The high after a tick. -/
def peakAt (s : PositionState F) (price : F) : F :=
  if s.peakPrice < price then price else s.peakPrice

/-- The price is at or under the stop-loss threshold. -/
def StopHit (s : PositionState F) (t : Tick F) : Prop :=
  t.price ≤ s.entryPrice * s.cfg.stopLossMultiplier

/-- The trailing stop is armed, now if not before. -/
def Armed (s : PositionState F) (t : Tick F) : Prop :=
  s.trailingArmed = true ∨
    s.entryPrice * s.cfg.trailingStopActivation ≤ s.peakAt t.price

/-- The trailing stop is armed and the price is at or under its trigger. -/
def TrailHit (s : PositionState F) (t : Tick F) : Prop :=
  s.Armed t ∧ t.price ≤ s.peakAt t.price * (1 - s.cfg.trailingStopDrawdown)

/-- The position has been held for as long as it may. -/
def HoldOver (s : PositionState F) (t : Tick F) : Prop :=
  s.cfg.maxHoldSeconds ≤ t.nowSecs - s.entryTsSecs

/-- The branches of `onTick`: what is tested, what is returned and what the state becomes.
The latch `b` after a branch that came as far as the trailing stop is set exactly when the
stop is armed. -/
inductive TickCase (s : PositionState F) (t : Tick F) :
    StrategyAction F → PositionState F → Prop
  | closed (hc : s.isClosed) : TickCase s t .closed s
  | stopLoss (hc : ¬ s.isClosed) (hs : s.StopHit t) :
      TickCase s t (.sell s.remaining .stopLoss)
        { s with peakPrice := s.peakAt t.price, remaining := 0 }
  | takeProfit (rung : TakeProfitRung F) (i : ℕ) (hc : ¬ s.isClosed) (hs : ¬ s.StopHit t)
      (hr : s.nextRung t.price = some (rung, i)) :
      TickCase s t (s.sellFromRung rung).1
        { (s.sellFromRung rung).2 with
          peakPrice := s.peakAt t.price, firedRungs := s.firedRungs.set i true }
  | trailingStop (hc : ¬ s.isClosed) (hs : ¬ s.StopHit t) (hr : s.nextRung t.price = none)
      (ht : s.TrailHit t) :
      TickCase s t (.sell s.remaining .trailingStop)
        { s with peakPrice := s.peakAt t.price, remaining := 0, trailingArmed := true }
  | maxHold (b : Bool) (hc : ¬ s.isClosed) (hs : ¬ s.StopHit t) (hr : s.nextRung t.price = none)
      (ht : ¬ s.TrailHit t) (hh : s.HoldOver t) (hb : b = true ↔ s.Armed t) :
      TickCase s t (.sell s.remaining .maxHold)
        { s with peakPrice := s.peakAt t.price, remaining := 0, trailingArmed := b }
  | hold (b : Bool) (hc : ¬ s.isClosed) (hs : ¬ s.StopHit t) (hr : s.nextRung t.price = none)
      (ht : ¬ s.TrailHit t) (hh : ¬ s.HoldOver t) (hb : b = true ↔ s.Armed t) :
      TickCase s t .hold { s with peakPrice := s.peakAt t.price, trailingArmed := b }

lemma bumpPeak_eq (s : PositionState F) (price : F) :
    s.bumpPeak price = { s with peakPrice := s.peakAt price } := by
  unfold bumpPeak peakAt
  split_ifs <;> rfl

/-- The trailing check, with the latch brought up to date. -/
lemma checkTrailingStop_eq (s : PositionState F) (price : F) :
    s.checkTrailingStop price =
      let b := s.trailingArmed ||
        decide (s.entryPrice * s.cfg.trailingStopActivation ≤ s.peakPrice)
      let s' := { s with trailingArmed := b }
      if b = true ∧ price ≤ s.peakPrice * (1 - s.cfg.trailingStopDrawdown) then
        (some (s'.sellAll .trailingStop).1, (s'.sellAll .trailingStop).2)
      else (none, s') := by
  obtain ⟨e, t0, pk, r, fr, armed, cfg⟩ := s
  by_cases hact : e * cfg.trailingStopActivation ≤ pk <;> cases armed <;>
    by_cases htr : price ≤ pk * (1 - cfg.trailingStopDrawdown) <;>
    simp [checkTrailingStop, sellAll, hact, htr]

/-- **A tick takes one of the six branches.** -/
theorem onTick_spec (s : PositionState F) (t : Tick F) :
    TickCase s t (s.onTick t).1 (s.onTick t).2 := by
  unfold onTick
  split_ifs with hc
  · exact .closed hc
  rw [bumpPeak_eq]
  by_cases hs : s.StopHit t
  · have hs' : t.price ≤ s.entryPrice * s.cfg.stopLossMultiplier := hs
    simp only [checkStopLoss, if_pos hs', sellAll]
    exact .stopLoss hc hs
  have hs' : ¬ t.price ≤ s.entryPrice * s.cfg.stopLossMultiplier := hs
  simp only [checkStopLoss, if_neg hs']
  have hnr : nextRung { s with peakPrice := s.peakAt t.price } t.price = s.nextRung t.price := rfl
  cases hr : s.nextRung t.price with
  | some p =>
    obtain ⟨rung, i⟩ := p
    simp only [checkTakeProfit, hnr, hr]
    exact .takeProfit rung i hc hs hr
  | none =>
    simp only [checkTakeProfit, hnr, hr, checkTrailingStop_eq]
    have hb : (s.trailingArmed ||
        decide (s.entryPrice * s.cfg.trailingStopActivation ≤ s.peakAt t.price)) = true ↔
        s.Armed t := by simp [Armed]
    by_cases ht : s.TrailHit t
    · simp only [hb.mpr ht.1, ht.2, and_self, if_true, sellAll]
      exact .trailingStop hc hs hr ht
    · have ht' := ht
      unfold TrailHit at ht'
      rw [← hb] at ht'
      simp only [if_neg ht', checkMaxHold, sellAll]
      by_cases hh : s.HoldOver t
      · have hh' : s.cfg.maxHoldSeconds ≤ t.nowSecs - s.entryTsSecs := hh
        simp only [if_pos hh']
        exact .maxHold _ hc hs hr ht hh hb
      · have hh' : ¬ s.cfg.maxHoldSeconds ≤ t.nowSecs - s.entryTsSecs := hh
        simp only [if_neg hh']
        exact .hold _ hc hs hr ht hh hb

end PositionState

/-! ### Runs -/

/-- The state after a run of ticks on a new position. -/
def after (e : F) (t0 : ℕ) (cfg : StrategyConfig F) (w : List (Tick F)) : PositionState F :=
  Mealy.final PositionState.onTick (openPosition e t0 cfg) w

/-- The actions returned along that run. -/
def actions (e : F) (t0 : ℕ) (cfg : StrategyConfig F) (w : List (Tick F)) :
    List (StrategyAction F) :=
  Mealy.outputs PositionState.onTick (openPosition e t0 cfg) w

def StrategyAction.isTakeProfit : StrategyAction F → Bool
  | .sell _ .takeProfit => true
  | _ => false

end NovaSniper.Strategy
