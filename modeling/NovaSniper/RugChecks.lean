import NovaSniper.Filters

/-!
What an accepted launch has met, when a fact may be NaN.

Each check turns a launch down if its fact is on the wrong side of the setting. A fact that
compares with nothing is on no side: it passes the checks for a minimum.
-/

namespace NovaSniper.RugChecks

open NovaSniper.FloatOps NovaSniper.Config NovaSniper.Detector NovaSniper.Filters
open NovaSniper.Lib

/-- Every check that is asked for is met, and not only not failed. -/
structure Met {F : Type} [F64 F] (engine : FilterEngine F) (event : LaunchEvent)
    (facts : LaunchFacts F) : Prop where
  allowed : engine.allowlist ≠ [] → event.creator ∈ engine.allowlist
  unblocked : event.creator ∉ engine.blocklist
  undenied : ∀ name ∈ event.name, ∀ re ∈ engine.nameDeny, re.isMatch name = false
  liquidity : 0 < engine.cfg.minInitialLiquiditySol →
    engine.cfg.minInitialLiquiditySol ≤ facts.initialLiquiditySol
  supply : 0 < engine.cfg.maxSupply → facts.totalSupply ≤ engine.cfg.maxSupply
  lpLocked : 0 < engine.cfg.minLpLockedPct → engine.cfg.minLpLockedPct ≤ facts.lpLockedPct
  mintAuthority : engine.cfg.requireMintAuthorityRenounced = true →
    facts.mintAuthorityRenounced = true
  freezeAuthority : engine.cfg.requireFreezeAuthorityNull = true → facts.freezeAuthorityNull = true
  socials : engine.cfg.requireSocials = true → facts.hasSocials = true

/-- The facts that a minimum is asked of are numbers. -/
structure Measured (cfg : FilterConfig (Unordered ℚ)) (facts : LaunchFacts (Unordered ℚ)) :
    Prop where
  liquidity : 0 < cfg.minInitialLiquiditySol → facts.initialLiquiditySol ≠ .nan
  lpLocked : 0 < cfg.minLpLockedPct → facts.lpLockedPct ≠ .nan

/-- A minimum that is asked for and not failed is met exactly when its fact is a number. -/
lemma minimum_iff {least fact : Unordered ℚ} (h : ¬ (0 < least ∧ fact < least)) :
    (0 < least → least ≤ fact) ↔ (0 < least → fact ≠ .nan) := by
  refine forall_congr' fun hpos => ⟨?_, fun hfact => ?_⟩
  · rintro hle rfl
    exact Unordered.not_le_nan least hle
  · have hleast : least ≠ .nan := (Unordered.ne_nan_of_lt hpos).2
    exact Unordered.le_of_not_lt hfact hleast fun hlt => h ⟨hpos, hlt⟩

variable {engine : FilterEngine (Unordered ℚ)} {event : LaunchEvent}
  {facts : LaunchFacts (Unordered ℚ)}

/-- What an accepted launch has met, but for the two minimums. -/
lemma met_of_accept (h : engine.evaluate event facts = .accept) :
    Met engine event facts ↔ Measured engine.cfg facts := by
  obtain ⟨hpre, hfacts⟩ := evaluate_eq_accept.mp h
  obtain ⟨hcreator, hname, -⟩ := prefilter_eq_accept.mp hpre
  have hliquidity := minimum_iff hfacts.liquidity
  have hlp := minimum_iff hfacts.lpLocked
  refine ⟨fun hmet => ⟨hliquidity.mp hmet.liquidity, hlp.mp hmet.lpLocked⟩, fun hmeas => ?_⟩
  exact
    { allowed := fun hlist => hcreator.1.resolve_left hlist
      unblocked := hcreator.2
      undenied := fun name hn => (hname name hn).1
      liquidity := hliquidity.mpr hmeas.liquidity
      supply := fun hpos => hfacts.supply.resolve_left (by omega)
      lpLocked := hlp.mpr hmeas.lpLocked
      mintAuthority := hfacts.mintAuthority
      freezeAuthority := hfacts.freezeAuthority
      socials := hfacts.socials }

/-- **When acceptance is sound.** An accepted launch has met every check that is asked for
exactly when each fact that a minimum is asked of is a number, or some check fails. -/
theorem met_iff (engine : FilterEngine (Unordered ℚ)) (event : LaunchEvent)
    (facts : LaunchFacts (Unordered ℚ)) :
    (engine.evaluate event facts = .accept → Met engine event facts) ↔
      Measured engine.cfg facts ∨ ¬ (engine.CreatorPasses event.creator ∧
        engine.NamePasses event.name ∧ engine.SymbolPasses event.symbol ∧
        FactsPass engine.cfg facts) := by
  have haccept : engine.evaluate event facts = .accept ↔ engine.CreatorPasses event.creator ∧
      engine.NamePasses event.name ∧ engine.SymbolPasses event.symbol ∧
      FactsPass engine.cfg facts := by
    rw [evaluate_eq_accept, prefilter_eq_accept, and_assoc, and_assoc]
  rw [← haccept]
  refine ⟨fun h => ?_, ?_⟩
  · by_cases hacc : engine.evaluate event facts = .accept
    · exact .inl ((met_of_accept hacc).mp (h hacc))
    · exact .inr hacc
  · rintro (hmeas | hrej) hacc
    · exact (met_of_accept hacc).mpr hmeas
    · exact absurd hacc hrej

/-! ### A percentage of nothing -/

/-- Ninety percent of the LP tokens must be locked, and nothing else is asked for. -/
def ninetyLocked : FilterEngine (Unordered ℚ) where
  cfg :=
    { minInitialLiquiditySol := 0, maxSupply := 0, requireMintAuthorityRenounced := false
      requireFreezeAuthorityNull := false, minLpLockedPct := lit 90, nameAllowRegex := []
      nameDenyRegex := [], symbolAllowRegex := [], requireSocials := false, devAllowlist := []
      devBlocklist := [] }
  nameAllow := []
  nameDeny := []
  symbolAllow := []
  allowlist := []
  blocklist := []

/-- A pool without LP tokens: the part of them that is locked is a quotient of zeros. -/
def emptyPool : LaunchFacts (Unordered ℚ) where
  initialLiquiditySol := lit 5
  totalSupply := 100000
  mintAuthorityRenounced := true
  freezeAuthorityNull := true
  lpLockedPct := 0 / 0
  hasSocials := true

theorem emptyPool_accepted :
    ninetyLocked.evaluate exampleLaunch emptyPool = .accept ∧
      ¬ Met ninetyLocked exampleLaunch emptyPool := by
  have hnot : ¬ ninetyLocked.cfg.minLpLockedPct ≤ emptyPool.lpLockedPct := by decide +kernel
  refine ⟨by decide +kernel, fun h => hnot (h.lpLocked ?_)⟩
  decide +kernel

end NovaSniper.RugChecks
