import NovaSniper.Detector
import NovaSniper.Lib.Fallible

/-!
The filter pipeline: a cheap check on the launch event, and a full one that also looks at
facts about the token. Each check is run only when its setting asks for it.
-/

namespace NovaSniper.Filters

open NovaSniper.FloatOps NovaSniper.Config NovaSniper.Solana NovaSniper.Detector
open NovaSniper.Lib.Fallible

variable {F : Type}

structure LaunchFacts (F : Type) where
  initialLiquiditySol : F
  totalSupply : ℕ
  mintAuthorityRenounced : Bool
  freezeAuthorityNull : Bool
  lpLockedPct : F
  hasSocials : Bool
  deriving DecidableEq

/-- `LaunchFacts::default`. -/
def LaunchFacts.default [F64 F] : LaunchFacts F where
  initialLiquiditySol := 0
  totalSupply := 0
  mintAuthorityRenounced := false
  freezeAuthorityNull := false
  lpLockedPct := 0
  hasSocials := false

inductive FilterVerdict (F : Type)
  | accept
  | reject (reason : Msg F)
  deriving DecidableEq

/-- A compiled pattern. -/
structure Regex where
  asStr : String
  isMatch : String → Bool

structure FilterEngine (F : Type) where
  cfg : FilterConfig F
  nameAllow : List Regex
  nameDeny : List Regex
  symbolAllow : List Regex
  allowlist : List Pubkey
  blocklist : List Pubkey

/-- `FilterEngine::new`, with the pattern compiler that it calls. -/
def FilterEngine.new (compile : String → Except String Regex) (ext : Codecs)
    (cfg : FilterConfig F) : Except String (FilterEngine F) := do
  let nameAllow ← cfg.nameAllowRegex.mapM compile
  let nameDeny ← cfg.nameDenyRegex.mapM compile
  let symbolAllow ← cfg.symbolAllowRegex.mapM compile
  let allowlist ← cfg.devAllowlist.mapM ext.parsePubkey
  let blocklist ← cfg.devBlocklist.mapM ext.parsePubkey
  .ok { cfg, nameAllow, nameDeny, symbolAllow, allowlist, blocklist }

/-- Why a name is turned down, if it is: the deny list is searched first. -/
def FilterEngine.nameReason (engine : FilterEngine F) (name : String) : Option String :=
  match engine.nameDeny.find? (·.isMatch name) with
  | some re => some s!"name matches deny regex: {re.asStr}"
  | none =>
    if engine.nameAllow ≠ [] ∧ engine.nameAllow.any (·.isMatch name) = false then
      some "name did not match any allow regex"
    else none

def FilterEngine.symbolReason (engine : FilterEngine F) (symbol : String) : Option String :=
  if engine.symbolAllow ≠ [] ∧ engine.symbolAllow.any (·.isMatch symbol) = false then
    some "symbol did not match any allow regex"
  else none

/-- `FilterEngine::prefilter`. A name or a symbol that is absent is not looked at. -/
def FilterEngine.prefilter (engine : FilterEngine F) (event : LaunchEvent) : FilterVerdict F :=
  if engine.allowlist ≠ [] ∧ event.creator ∉ engine.allowlist then
    .reject (plain "creator not in dev allowlist")
  else if event.creator ∈ engine.blocklist then
    .reject (plain "creator in dev blocklist")
  else
    match event.name.bind engine.nameReason with
    | some reason => .reject (plain reason)
    | none =>
      match event.symbol.bind engine.symbolReason with
      | some reason => .reject (plain reason)
      | none => .accept

/-- `FilterEngine::evaluate`. -/
def FilterEngine.evaluate [F64 F] (engine : FilterEngine F) (event : LaunchEvent)
    (facts : LaunchFacts F) : FilterVerdict F :=
  match engine.prefilter event with
  | .reject reason => .reject reason
  | .accept =>
    let cfg := engine.cfg
    if 0 < cfg.minInitialLiquiditySol ∧
        facts.initialLiquiditySol < cfg.minInitialLiquiditySol then
      .reject [.text "liquidity ", .float facts.initialLiquiditySol (some 3),
        .text " SOL below min ", .float cfg.minInitialLiquiditySol (some 3)]
    else if 0 < cfg.maxSupply ∧ cfg.maxSupply < facts.totalSupply then
      .reject (plain s!"supply {facts.totalSupply} exceeds max {cfg.maxSupply}")
    else if cfg.requireMintAuthorityRenounced ∧ ¬ facts.mintAuthorityRenounced then
      .reject (plain "mint authority not renounced")
    else if cfg.requireFreezeAuthorityNull ∧ ¬ facts.freezeAuthorityNull then
      .reject (plain "freeze authority not null")
    else if 0 < cfg.minLpLockedPct ∧ facts.lpLockedPct < cfg.minLpLockedPct then
      .reject [.text "LP locked ", .float facts.lpLockedPct (some 2), .text "% below min ",
        .float cfg.minLpLockedPct (some 2), .text "%"]
    else if cfg.requireSocials ∧ ¬ facts.hasSocials then
      .reject (plain "missing required social links")
    else .accept

/-! ### What construction keeps -/

lemma eq_nil_of_mapM {α β : Type} {f : α → Except String β} {xs : List α} {ys : List β}
    (h : xs.mapM f = .ok ys) : ys = [] ↔ xs = [] := by
  rw [← List.length_eq_zero_iff, length_of_mapM h, List.length_eq_zero_iff]

/-- What construction makes of the settings. -/
lemma lists_of_new {compile : String → Except String Regex} {ext : Codecs}
    {cfg : FilterConfig F} {engine : FilterEngine F}
    (h : FilterEngine.new compile ext cfg = .ok engine) :
    engine.cfg = cfg ∧ cfg.nameAllowRegex.mapM compile = .ok engine.nameAllow ∧
      cfg.nameDenyRegex.mapM compile = .ok engine.nameDeny ∧
      cfg.symbolAllowRegex.mapM compile = .ok engine.symbolAllow ∧
      cfg.devAllowlist.mapM ext.parsePubkey = .ok engine.allowlist ∧
      cfg.devBlocklist.mapM ext.parsePubkey = .ok engine.blocklist := by
  unfold FilterEngine.new at h
  obtain ⟨nameAllow, hname, h⟩ := bind_eq_ok.mp h
  obtain ⟨nameDeny, hdeny, h⟩ := bind_eq_ok.mp h
  obtain ⟨symbolAllow, hsymbol, h⟩ := bind_eq_ok.mp h
  obtain ⟨allowlist, hallow, h⟩ := bind_eq_ok.mp h
  obtain ⟨blocklist, hblock, h⟩ := bind_eq_ok.mp h
  obtain rfl := Except.ok.inj h
  exact ⟨rfl, hname, hdeny, hsymbol, hallow, hblock⟩

/-- An engine keeps its settings, and has patterns exactly where the settings list some. -/
lemma new_patterns {compile : String → Except String Regex} {ext : Codecs}
    {cfg : FilterConfig F} {engine : FilterEngine F}
    (h : FilterEngine.new compile ext cfg = .ok engine) :
    engine.cfg = cfg ∧ (engine.nameAllow = [] ↔ cfg.nameAllowRegex = []) ∧
      (engine.symbolAllow = [] ↔ cfg.symbolAllowRegex = []) := by
  obtain ⟨hcfg, hname, -, hsymbol, -, -⟩ := lists_of_new h
  exact ⟨hcfg, eq_nil_of_mapM hname, eq_nil_of_mapM hsymbol⟩

/-! ### What acceptance says -/

/-- The creator is allowed where there is an allow list, and is not blocked. -/
def FilterEngine.CreatorPasses (engine : FilterEngine F) (creator : Pubkey) : Prop :=
  (engine.allowlist = [] ∨ creator ∈ engine.allowlist) ∧ creator ∉ engine.blocklist

/-- A name that is present is not denied, and allowed where there is an allow list. -/
def FilterEngine.NamePasses (engine : FilterEngine F) (name : Option String) : Prop :=
  ∀ n ∈ name, (∀ re ∈ engine.nameDeny, re.isMatch n = false) ∧
    (engine.nameAllow = [] ∨ ∃ re ∈ engine.nameAllow, re.isMatch n = true)

/-- A symbol that is present is allowed where there is an allow list. -/
def FilterEngine.SymbolPasses (engine : FilterEngine F) (symbol : Option String) : Prop :=
  ∀ s ∈ symbol, engine.symbolAllow = [] ∨ ∃ re ∈ engine.symbolAllow, re.isMatch s = true

/-- No check on the facts that is asked for fails. -/
structure FactsPass [F64 F] (cfg : FilterConfig F) (facts : LaunchFacts F) : Prop where
  liquidity : ¬ (0 < cfg.minInitialLiquiditySol ∧
    facts.initialLiquiditySol < cfg.minInitialLiquiditySol)
  supply : cfg.maxSupply = 0 ∨ facts.totalSupply ≤ cfg.maxSupply
  mintAuthority : cfg.requireMintAuthorityRenounced → facts.mintAuthorityRenounced
  freezeAuthority : cfg.requireFreezeAuthorityNull → facts.freezeAuthorityNull
  lpLocked : ¬ (0 < cfg.minLpLockedPct ∧ facts.lpLockedPct < cfg.minLpLockedPct)
  socials : cfg.requireSocials → facts.hasSocials

lemma nameReason_eq_none {engine : FilterEngine F} {name : Option String} :
    name.bind engine.nameReason = none ↔ engine.NamePasses name := by
  unfold FilterEngine.NamePasses
  cases name with
  | none => simp
  | some n =>
    simp only [Option.bind_some, Option.mem_some_iff, forall_eq', FilterEngine.nameReason]
    cases hdeny : engine.nameDeny.find? (·.isMatch n) with
    | some re =>
      have hre := List.find?_some hdeny
      have hmem := List.mem_of_find?_eq_some hdeny
      simp only [reduceCtorEq, false_iff, not_and]
      intro h
      simp [h re hmem] at hre
    | none =>
      have hno : ∀ re ∈ engine.nameDeny, re.isMatch n = false := by
        simpa using hdeny
      simp only [ite_eq_right_iff, reduceCtorEq, imp_false, not_and, ne_eq]
      rw [and_iff_right hno]
      simp [or_iff_not_imp_left]

lemma symbolReason_eq_none {engine : FilterEngine F} {symbol : Option String} :
    symbol.bind engine.symbolReason = none ↔ engine.SymbolPasses symbol := by
  unfold FilterEngine.SymbolPasses
  cases symbol with
  | none => simp
  | some s => simp [FilterEngine.symbolReason, or_iff_not_imp_left]

/-- **What the pre-check asks.** -/
theorem prefilter_eq_accept {engine : FilterEngine F} {event : LaunchEvent} :
    engine.prefilter event = .accept ↔ engine.CreatorPasses event.creator ∧
      engine.NamePasses event.name ∧ engine.SymbolPasses event.symbol := by
  unfold FilterEngine.prefilter FilterEngine.CreatorPasses
  rw [← nameReason_eq_none, ← symbolReason_eq_none]
  split_ifs with hallow hblock
  · simp [hallow.1, hallow.2]
  · simp [hblock]
  · have hcreator : engine.allowlist = [] ∨ event.creator ∈ engine.allowlist := by
      rw [not_and_or, not_not, not_not] at hallow
      exact hallow
    cases event.name.bind engine.nameReason with
    | some reason => simp
    | none =>
      cases event.symbol.bind engine.symbolReason with
      | some reason => simp
      | none => simp [hcreator, hblock]

/-- **What the full check asks.** -/
theorem evaluate_eq_accept [F64 F] {engine : FilterEngine F} {event : LaunchEvent}
    {facts : LaunchFacts F} :
    engine.evaluate event facts = .accept ↔
      engine.prefilter event = .accept ∧ FactsPass engine.cfg facts := by
  unfold FilterEngine.evaluate
  cases engine.prefilter event with
  | reject reason => simp
  | accept =>
    simp only [true_and]
    split_ifs with hliq hsupply hmint hfreeze hlp hsocials
    · simp only [false_iff]
      exact fun h => h.liquidity hliq
    · simp only [false_iff]
      intro h
      have := h.supply
      omega
    · simp only [false_iff]
      exact fun h => hmint.2 (h.mintAuthority hmint.1)
    · simp only [false_iff]
      exact fun h => hfreeze.2 (h.freezeAuthority hfreeze.1)
    · simp only [false_iff]
      exact fun h => h.lpLocked hlp
    · simp only [false_iff]
      exact fun h => hsocials.2 (h.socials hsocials.1)
    · simp only [true_iff]
      refine ⟨hliq, by omega, ?_, ?_, hlp, ?_⟩
      · exact fun h => not_not.mp fun hn => hmint ⟨h, hn⟩
      · exact fun h => not_not.mp fun hn => hfreeze ⟨h, hn⟩
      · exact fun h => not_not.mp fun hn => hsocials ⟨h, hn⟩

end NovaSniper.Filters
