import NovaSniper.Filters

/-!
The filter against two orders: facts that are better, and settings that are looser.

A setting of zero, or an empty list, is off: it stands above all others, and not where its
number or its entries would put it.
-/

namespace NovaSniper.FilterOrder

open NovaSniper.FloatOps NovaSniper.Config NovaSniper.Solana NovaSniper.Detector
open NovaSniper.Filters NovaSniper.Lib.Fallible

/-! ### The orders -/

/-- Facts that are no worse in any respect. -/
structure Better (facts facts' : LaunchFacts ℚ) : Prop where
  liquidity : facts.initialLiquiditySol ≤ facts'.initialLiquiditySol
  supply : facts'.totalSupply ≤ facts.totalSupply
  mintAuthority : facts.mintAuthorityRenounced = true → facts'.mintAuthorityRenounced = true
  freezeAuthority : facts.freezeAuthorityNull = true → facts'.freezeAuthorityNull = true
  lpLocked : facts.lpLockedPct ≤ facts'.lpLockedPct
  socials : facts.hasSocials = true → facts'.hasSocials = true

/-- A minimum that is lowered, or off. -/
def Lowered (least least' : ℚ) : Prop := least' ≤ 0 ∨ least' ≤ least

/-- A maximum that is raised, or off. One that was off stays so. -/
def Raised (most most' : ℕ) : Prop := most' = 0 ∨ (most ≠ 0 ∧ most ≤ most')

/-- An allow list with more entries, or off. One that was off stays so. -/
def Widened {α : Type} (list list' : List α) : Prop := list' = [] ∨ (list ≠ [] ∧ list ⊆ list')

/-- Settings that are no stricter in any respect. -/
structure Looser (cfg cfg' : FilterConfig ℚ) : Prop where
  liquidity : Lowered cfg.minInitialLiquiditySol cfg'.minInitialLiquiditySol
  supply : Raised cfg.maxSupply cfg'.maxSupply
  mintAuthority : cfg'.requireMintAuthorityRenounced = true →
    cfg.requireMintAuthorityRenounced = true
  freezeAuthority : cfg'.requireFreezeAuthorityNull = true → cfg.requireFreezeAuthorityNull = true
  lpLocked : Lowered cfg.minLpLockedPct cfg'.minLpLockedPct
  nameAllow : Widened cfg.nameAllowRegex cfg'.nameAllowRegex
  nameDeny : cfg'.nameDenyRegex ⊆ cfg.nameDenyRegex
  symbolAllow : Widened cfg.symbolAllowRegex cfg'.symbolAllowRegex
  socials : cfg'.requireSocials = true → cfg.requireSocials = true
  allowlist : Widened cfg.devAllowlist cfg'.devAllowlist
  blocklist : cfg'.devBlocklist ⊆ cfg.devBlocklist

lemma Better.refl (facts : LaunchFacts ℚ) : Better facts facts :=
  ⟨le_refl _, le_refl _, id, id, le_refl _, id⟩

lemma Widened.refl {α : Type} (list : List α) : Widened list list := by
  by_cases h : list = []
  · exact .inl h
  · exact .inr ⟨h, List.Subset.refl _⟩

lemma Raised.refl (most : ℕ) : Raised most most := by
  unfold Raised
  omega

lemma Looser.refl (cfg : FilterConfig ℚ) : Looser cfg cfg where
  liquidity := .inr (le_refl _)
  supply := .refl _
  mintAuthority := id
  freezeAuthority := id
  lpLocked := .inr (le_refl _)
  nameAllow := .refl _
  nameDeny := List.Subset.refl _
  symbolAllow := .refl _
  socials := id
  allowlist := .refl _
  blocklist := List.Subset.refl _

/-! ### One check -/

/-- The check of a minimum still passes. -/
lemma minimum_mono {least least' fact fact' : ℚ} (hleast : Lowered least least')
    (hfact : fact ≤ fact') (h : ¬ (0 < least ∧ fact < least)) :
    ¬ (0 < least' ∧ fact' < least') := by
  rintro ⟨hpos, hlt⟩
  rcases hleast with hoff | hle
  · exact absurd hpos (not_lt.mpr hoff)
  · exact h ⟨hpos.trans_le hle, hfact.trans_lt (hlt.trans_le hle)⟩

/-- The check of the maximum still passes. -/
lemma maximum_mono {most most' fact fact' : ℕ} (hmost : Raised most most')
    (hfact : fact' ≤ fact) (h : most = 0 ∨ fact ≤ most) : most' = 0 ∨ fact' ≤ most' := by
  rcases hmost with hoff | ⟨hon, hle⟩
  · exact .inl hoff
  · have hold : fact ≤ most := h.resolve_left hon
    exact .inr (hfact.trans (hold.trans hle))

/-- The check of an allow list still passes. -/
lemma allow_mono {α : Type} {list list' : List α} {p : α → Prop} (hlist : Widened list list')
    (h : list = [] ∨ ∃ a ∈ list, p a) : list' = [] ∨ ∃ a ∈ list', p a := by
  rcases hlist with hoff | ⟨hon, hsub⟩
  · exact .inl hoff
  · obtain ⟨a, ha, hp⟩ := h.resolve_left hon
    exact .inr ⟨a, hsub ha, hp⟩

/-- Compiling keeps one allow list wider than another. -/
lemma widened_of_mapM {α β : Type} {f : α → Except String β} {xs xs' : List α}
    {ys ys' : List β} (h : xs.mapM f = .ok ys) (h' : xs'.mapM f = .ok ys')
    (hlist : Widened xs xs') : Widened ys ys' := by
  rcases hlist with hoff | ⟨hon, hsub⟩
  · exact .inl ((eq_nil_of_mapM h').mpr hoff)
  · refine .inr ⟨fun hnil => hon ((eq_nil_of_mapM h).mp hnil), subset_of_mapM h h' hsub⟩

/-! ### The two checks -/

section Engines

variable {compile : String → Except String Regex} {ext : Codecs} {cfg cfg' : FilterConfig ℚ}
  {engine engine' : FilterEngine ℚ} {event : LaunchEvent} {facts facts' : LaunchFacts ℚ}

lemma factsPass_mono (hcfg : Looser cfg cfg') (hfacts : Better facts facts')
    (h : FactsPass cfg facts) : FactsPass cfg' facts' where
  liquidity := minimum_mono hcfg.liquidity hfacts.liquidity h.liquidity
  supply := maximum_mono hcfg.supply hfacts.supply h.supply
  mintAuthority hreq := hfacts.mintAuthority (h.mintAuthority (hcfg.mintAuthority hreq))
  freezeAuthority hreq := hfacts.freezeAuthority (h.freezeAuthority (hcfg.freezeAuthority hreq))
  lpLocked := minimum_mono hcfg.lpLocked hfacts.lpLocked h.lpLocked
  socials hreq := hfacts.socials (h.socials (hcfg.socials hreq))

lemma prefilter_mono (hnew : FilterEngine.new compile ext cfg = .ok engine)
    (hnew' : FilterEngine.new compile ext cfg' = .ok engine') (hcfg : Looser cfg cfg')
    (h : engine.prefilter event = .accept) : engine'.prefilter event = .accept := by
  obtain ⟨-, hname, hdeny, hsymbol, hallow, hblock⟩ := lists_of_new hnew
  obtain ⟨-, hname', hdeny', hsymbol', hallow', hblock'⟩ := lists_of_new hnew'
  obtain ⟨⟨hcreator, hunblocked⟩, hnames, hsymbols⟩ := prefilter_eq_accept.mp h
  refine prefilter_eq_accept.mpr ⟨⟨?_, ?_⟩, ?_, ?_⟩
  · have hmem : engine.allowlist = [] ∨ ∃ p ∈ engine.allowlist, p = event.creator := by
      simpa using hcreator
    simpa using allow_mono (widened_of_mapM hallow hallow' hcfg.allowlist) hmem
  · exact fun hmem => hunblocked (subset_of_mapM hblock' hblock hcfg.blocklist hmem)
  · intro name hn
    obtain ⟨hundenied, hallowed⟩ := hnames name hn
    refine ⟨?_, allow_mono (widened_of_mapM hname hname' hcfg.nameAllow) hallowed⟩
    intro re hre
    exact hundenied re (subset_of_mapM hdeny' hdeny hcfg.nameDeny hre)
  · intro symbol hs
    exact allow_mono (widened_of_mapM hsymbol hsymbol' hcfg.symbolAllow) (hsymbols symbol hs)

/-- **The filter is monotone.** For every event: what is accepted is still accepted with
better facts under looser settings. -/
theorem evaluate_mono (hnew : FilterEngine.new compile ext cfg = .ok engine)
    (hnew' : FilterEngine.new compile ext cfg' = .ok engine') (hcfg : Looser cfg cfg')
    (hfacts : Better facts facts') (h : engine.evaluate event facts = .accept) :
    engine'.evaluate event facts' = .accept := by
  obtain ⟨hpre, hpass⟩ := evaluate_eq_accept.mp h
  have hkept : engine.cfg = cfg := (lists_of_new hnew).1
  have hkept' : engine'.cfg = cfg' := (lists_of_new hnew').1
  rw [hkept] at hpass
  refine evaluate_eq_accept.mpr ⟨prefilter_mono hnew hnew' hcfg hpre, ?_⟩
  rw [hkept']
  exact factsPass_mono hcfg hfacts hpass

end Engines

/-! ### One launch under two settings -/

/-- A compiler for which a pattern matches the text that it spells, and no other. -/
def compileText (pattern : String) : Except String Regex :=
  .ok { asStr := pattern, isMatch := fun text => text = pattern }

def namedLaunch : LaunchEvent := { exampleLaunch with name := some "moon" }

def strict : FilterConfig ℚ where
  minInitialLiquiditySol := 5
  maxSupply := 100
  requireMintAuthorityRenounced := true
  requireFreezeAuthorityNull := true
  minLpLockedPct := 90
  nameAllowRegex := ["moon"]
  nameDenyRegex := ["rugs"]
  symbolAllowRegex := []
  requireSocials := true
  devAllowlist := []
  devBlocklist := []

def loose : FilterConfig ℚ :=
  { strict with
    minInitialLiquiditySol := 0, maxSupply := 200, requireSocials := false
    nameAllowRegex := ["moon", "star"], nameDenyRegex := [] }

def goodFacts : LaunchFacts ℚ where
  initialLiquiditySol := 5
  totalSupply := 100
  mintAuthorityRenounced := true
  freezeAuthorityNull := true
  lpLockedPct := 90
  hasSocials := true

def betterFacts : LaunchFacts ℚ := { goodFacts with initialLiquiditySol := 6, totalSupply := 50 }

theorem evaluate_mono_example : ∃ engine engine',
    FilterEngine.new compileText crates strict = .ok engine ∧
      FilterEngine.new compileText crates loose = .ok engine' ∧
      engine.evaluate namedLaunch betterFacts = .accept ∧
      engine'.evaluate namedLaunch goodFacts = .accept := by
  have hstrict : FilterEngine.new compileText crates strict = .ok _ := rfl
  have hloose : FilterEngine.new compileText crates loose = .ok _ := rfl
  have hlooser : Looser strict loose :=
    { Looser.refl strict with
      liquidity := .inl (le_refl _)
      supply := .inr (by decide)
      nameAllow := .inr (by decide)
      nameDeny := List.nil_subset _
      socials := fun h => absurd h (by decide) }
  have hbetter : Better goodFacts betterFacts :=
    { Better.refl goodFacts with
      liquidity := by decide +kernel
      supply := by decide }
  refine ⟨_, _, hstrict, hloose, ?_, ?_⟩
  · exact evaluate_mono hstrict hstrict (.refl _) hbetter (by decide +kernel)
  · exact evaluate_mono hstrict hloose hlooser (.refl _) (by decide +kernel)

end NovaSniper.FilterOrder
