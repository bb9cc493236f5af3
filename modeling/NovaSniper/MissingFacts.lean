import NovaSniper.Main
import NovaSniper.Solana

/-!
What becomes of a launch whose facts could not be fetched.

The default facts are all zero or false. They fall on the rejecting side of a minimum and of
a required flag, and on the accepting side of a maximum.
-/

namespace NovaSniper.MissingFacts

open NovaSniper.FloatOps NovaSniper.Config NovaSniper.Detector NovaSniper.Filters
open NovaSniper.Main NovaSniper.Solana

section Facts

variable {F : Type} [F64 F]

/-- Some check on the facts other than the maximal supply is asked for. -/
def MinimumChecked (cfg : FilterConfig F) : Prop :=
  0 < cfg.minInitialLiquiditySol ∨ cfg.requireMintAuthorityRenounced = true ∨
    cfg.requireFreezeAuthorityNull = true ∨ 0 < cfg.minLpLockedPct ∨ cfg.requireSocials = true

/-- Some check on the facts is asked for. -/
def FactChecked (cfg : FilterConfig F) : Prop := MinimumChecked cfg ∨ 0 < cfg.maxSupply

/-- The default facts pass when nothing but the maximal supply is checked. -/
lemma factsPass_default (cfg : FilterConfig F) :
    FactsPass cfg .default ↔ ¬ MinimumChecked cfg := by
  refine ⟨?_, ?_⟩
  · rintro h (hliq | hmint | hfreeze | hlp | hsocials)
    · exact h.liquidity ⟨hliq, hliq⟩
    · exact absurd (h.mintAuthority hmint) (by simp [LaunchFacts.default])
    · exact absurd (h.freezeAuthority hfreeze) (by simp [LaunchFacts.default])
    · exact h.lpLocked ⟨hlp, hlp⟩
    · exact absurd (h.socials hsocials) (by simp [LaunchFacts.default])
  · intro h
    unfold MinimumChecked at h
    push Not at h
    obtain ⟨hliq, hmint, hfreeze, hlp, hsocials⟩ := h
    refine ⟨fun hc => hliq hc.1, .inr (Nat.zero_le _), fun hc => absurd hc hmint,
      fun hc => absurd hc hfreeze, fun hc => hlp hc.1, fun hc => absurd hc hsocials⟩

end Facts

/-! ### Rejection -/

variable {F R : Type}

/-- The launch was turned down by one of the two filter stages. -/
def Rejected : Outcome F R → Prop
  | .prefilteredOut _ => True
  | .filteredOut _ => True
  | .noWallet => False
  | .finished _ _ => False

/-- `Executor::buy` was called. -/
def Bought : Outcome F R → Prop
  | .finished _ _ => True
  | _ => False

lemma rejected_iff [F64 F] (filters : FilterEngine F) (launch : LaunchEvent)
    (facts : Option (LaunchFacts F)) (wallet : Option ℕ) (buy : LaunchEvent → ℕ → R) :
    Rejected (handleLaunch filters launch facts wallet buy) ↔
      filters.evaluate launch (facts.getD .default) ≠ .accept := by
  unfold handleLaunch
  cases hpre : filters.prefilter launch with
  | reject reason =>
    have heval : filters.evaluate launch (facts.getD .default) ≠ .accept := by
      rw [ne_eq, evaluate_eq_accept, hpre]
      simp
    simp only [Rejected, true_iff]
    exact heval
  | accept =>
    cases heval : filters.evaluate launch (facts.getD .default) with
    | reject reason => simp [Rejected]
    | accept => cases wallet <;> simp [Rejected]

lemma not_bought_of_rejected {outcome : Outcome F R} (h : Rejected outcome) :
    ¬ Bought outcome := by
  cases outcome with
  | prefilteredOut reason => exact id
  | filteredOut reason => exact id
  | noWallet => exact id
  | finished i result => exact absurd h id

/-- **When missing facts are fatal.** A launch without facts is rejected, and not bought,
exactly when the pre-check rejects it or some check on the facts other than the maximal
supply is asked for. -/
theorem rejected_without_facts_iff [F64 F] (filters : FilterEngine F) (launch : LaunchEvent)
    (wallet : Option ℕ) (buy : LaunchEvent → ℕ → R) :
    (Rejected (handleLaunch filters launch none wallet buy) ∧
        ¬ Bought (handleLaunch filters launch none wallet buy)) ↔
      filters.prefilter launch ≠ .accept ∨ MinimumChecked filters.cfg := by
  have hboth : (Rejected (handleLaunch filters launch none wallet buy) ∧
      ¬ Bought (handleLaunch filters launch none wallet buy)) ↔
      Rejected (handleLaunch filters launch none wallet buy) :=
    and_iff_left_of_imp not_bought_of_rejected
  rw [hboth, rejected_iff, Option.getD_none, ne_eq, evaluate_eq_accept, factsPass_default,
    not_and_or, not_not]

/-! ### A maximal supply alone -/

def onlySupply : FilterConfig ℚ :=
  { exampleConfig.filters with
    minInitialLiquiditySol := 0, requireMintAuthorityRenounced := false
    requireFreezeAuthorityNull := false, minLpLockedPct := 0, nameDenyRegex := [] }

def onlySupplyEngine : FilterEngine ℚ where
  cfg := onlySupply
  nameAllow := []
  nameDeny := []
  symbolAllow := []
  allowlist := []
  blocklist := []

theorem bought_with_supply_check :
    (∀ compile, FilterEngine.new compile crates onlySupply = .ok onlySupplyEngine) ∧
      FactChecked onlySupply ∧
      Bought (handleLaunch onlySupplyEngine exampleLaunch none (some 0) fun _ _ => ()) := by
  refine ⟨fun _ => rfl, .inr (by decide), ?_⟩
  have heval : onlySupplyEngine.evaluate exampleLaunch .default = .accept := by decide +kernel
  have hpre : onlySupplyEngine.prefilter exampleLaunch = .accept := (evaluate_eq_accept.mp heval).1
  unfold handleLaunch
  rw [hpre, Option.getD_none]
  simp only [heval, Bought]

end NovaSniper.MissingFacts
