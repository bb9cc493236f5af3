import NovaSniper.Filters
import NovaSniper.Metadata

/-!
The allow lists for names and symbols, against what the decoder can read.

The filter does not look at a name that is absent, and a sender decides whether it can be
read; so an allow list binds those launches only whose payload begins with a text.
-/

namespace NovaSniper.AllowLists

open NovaSniper.FloatOps NovaSniper.Config NovaSniper.Solana NovaSniper.Detector
open NovaSniper.Metadata NovaSniper.Filters

/-- The instruction is one of a venue whose metadata is decoded, and begins with `k` texts
after its discriminator. -/
def Readable (d : Detector) (programId : Pubkey) (data : List UInt8) (k : ℕ) : Prop :=
  (d.matcherFor programId).map (·.venue) = some .pumpFun ∧
    ∃ texts, texts.length = k ∧ Starts texts (data.drop 8)

/-- Some pattern of the list matches the text, which is there. -/
def Matched (allow : List Regex) (text : Option String) : Prop :=
  ∃ s ∈ text, ∃ re ∈ allow, re.isMatch s = true

section Decode

variable {d : Detector} {nowMs : ℤ} {programId : Pubkey} {data : List UInt8}
  {accounts : List Pubkey} {signature : String} {slot : ℕ} {ev : LaunchEvent}

/-- An event carries the metadata that can be read: none outside Pump.fun. -/
lemma metadata_of_decode
    (h : d.decode nowMs programId data accounts signature slot = some ev) :
    ((d.matcherFor programId).map (·.venue) = some .pumpFun ∧
        ev.name = (decodeBorshStrings (data.drop 8)).1 ∧
        ev.symbol = (decodeBorshStrings (data.drop 8)).2.1) ∨
      ((d.matcherFor programId).map (·.venue) = some .raydiumLaunchLab ∧
        ev.name = none ∧ ev.symbol = none) := by
  obtain ⟨m, hm, -, -, hlaunch⟩ := decode_eq_some.mp h
  rw [hm, Option.map_some]
  rcases launchOf_cases hlaunch with ⟨hv, hev⟩ | ⟨hv, hev⟩
  · obtain ⟨mint, creator, -, -, rfl⟩ := decodePumpfun_eq_some.mp hev
    exact .inl ⟨congrArg some hv, rfl, rfl⟩
  · obtain ⟨mint, creator, -, -, rfl⟩ := decodeRaydium_eq_some.mp hev
    exact .inr ⟨congrArg some hv, rfl, rfl⟩

lemma exists_length_one {P : List String → Prop} :
    (∃ texts, texts.length = 1 ∧ P texts) ↔ ∃ s, P [s] := by
  simp only [List.length_eq_one_iff]
  refine ⟨?_, ?_⟩
  · rintro ⟨_, ⟨s, rfl⟩, h⟩
    exact ⟨s, h⟩
  · rintro ⟨s, h⟩
    exact ⟨[s], ⟨s, rfl⟩, h⟩

lemma exists_length_two {P : List String → Prop} :
    (∃ texts, texts.length = 2 ∧ P texts) ↔ ∃ s t, P [s, t] := by
  simp only [List.length_eq_two]
  refine ⟨?_, ?_⟩
  · rintro ⟨_, ⟨s, t, rfl⟩, h⟩
    exact ⟨s, t, h⟩
  · rintro ⟨s, t, h⟩
    exact ⟨[s, t], ⟨s, t, rfl⟩, h⟩

lemma name_isSome_iff_readable
    (h : d.decode nowMs programId data accounts signature slot = some ev) :
    ev.name.isSome ↔ Readable d programId data 1 := by
  unfold Readable
  rw [exists_length_one, ← name_isSome_iff]
  rcases metadata_of_decode h with ⟨hv, hname, -⟩ | ⟨hv, hname, -⟩
  · rw [hv, hname]
    simp
  · rw [hv, hname]
    simp

lemma symbol_isSome_iff_readable
    (h : d.decode nowMs programId data accounts signature slot = some ev) :
    ev.symbol.isSome ↔ Readable d programId data 2 := by
  unfold Readable
  rw [exists_length_two, ← symbol_isSome_iff]
  rcases metadata_of_decode h with ⟨hv, -, hsymbol⟩ | ⟨hv, -, hsymbol⟩
  · rw [hv, hsymbol]
    simp
  · rw [hv, hsymbol]
    simp

end Decode

/-! ### What an allow list is worth -/

lemma not_matched_none (allow : List Regex) : ¬ Matched allow none := by
  rintro ⟨s, hs, -⟩
  simp at hs

/-- A list whose check passes when there is no text is binding exactly when there is one, or
when the other checks fail. -/
lemma binding_iff {allow : List Regex} {text : Option String} {passes others : Prop}
    (hallow : allow ≠ []) (habsent : text = none → passes)
    (hpresent : passes → ∀ s ∈ text, allow = [] ∨ ∃ re ∈ allow, re.isMatch s = true) :
    (passes ∧ others → Matched allow text) ↔ text.isSome = true ∨ ¬ others := by
  cases htext : text with
  | none =>
    have hpass : passes := habsent htext
    simp only [Option.isSome_none, Bool.false_eq_true, false_or]
    refine ⟨?_, ?_⟩
    · intro h hothers
      exact not_matched_none _ (h ⟨hpass, hothers⟩)
    · rintro h ⟨-, hothers⟩
      exact absurd hothers h
  | some s =>
    simp only [Option.isSome_some, true_or, iff_true]
    rintro ⟨hpass, -⟩
    rcases hpresent hpass s htext with hnil | hre
    · exact absurd hnil hallow
    · exact ⟨s, rfl, hre⟩

variable {F : Type} [F64 F]

/-- **When an allow list cannot be bypassed.** For every instruction that decodes, every
engine and all facts: an accepted launch has matched the name list exactly when a name can be
read from the instruction or some other check fails, and it has matched the symbol list
exactly when a symbol can be read or some other check fails. -/
theorem matched_iff {d : Detector} {nowMs : ℤ} {programId : Pubkey} {data : List UInt8}
    {accounts : List Pubkey} {signature : String} {slot : ℕ} {ev : LaunchEvent}
    (hdec : d.decode nowMs programId data accounts signature slot = some ev)
    {compile : String → Except String Regex} {ext : Codecs} {cfg : FilterConfig F}
    {engine : FilterEngine F} (hnew : FilterEngine.new compile ext cfg = .ok engine)
    (facts : LaunchFacts F) :
    (cfg.nameAllowRegex ≠ [] →
        ((engine.evaluate ev facts = .accept → Matched engine.nameAllow ev.name) ↔
          Readable d programId data 1 ∨ ¬ (engine.CreatorPasses ev.creator ∧
            engine.SymbolPasses ev.symbol ∧ FactsPass cfg facts))) ∧
      (cfg.symbolAllowRegex ≠ [] →
        ((engine.evaluate ev facts = .accept → Matched engine.symbolAllow ev.symbol) ↔
          Readable d programId data 2 ∨ ¬ (engine.CreatorPasses ev.creator ∧
            engine.NamePasses ev.name ∧ FactsPass cfg facts))) := by
  obtain ⟨hcfg, hname, hsymbol⟩ := new_patterns hnew
  rw [← name_isSome_iff_readable hdec, ← symbol_isSome_iff_readable hdec, evaluate_eq_accept,
    prefilter_eq_accept, hcfg]
  refine ⟨fun hlist => ?_, fun hlist => ?_⟩
  · rw [ne_eq, ← hname] at hlist
    have habsent : ev.name = none → engine.NamePasses ev.name := fun hnone => by
      simp [hnone, FilterEngine.NamePasses]
    rw [and_assoc, and_assoc, and_left_comm]
    exact binding_iff hlist habsent fun hpass s hs => (hpass s hs).2
  · rw [ne_eq, ← hsymbol] at hlist
    have habsent : ev.symbol = none → engine.SymbolPasses ev.symbol := fun hnone => by
      simp [hnone, FilterEngine.SymbolPasses]
    rw [and_assoc, and_assoc, and_left_comm (b := engine.SymbolPasses ev.symbol),
      and_left_comm (b := engine.SymbolPasses ev.symbol)]
    exact binding_iff hlist habsent id

/-! ### A launch without metadata -/

/-- Patterns without special characters, which match wherever they occur. -/
def literal (pattern : String) : Except String Regex :=
  .ok { asStr := pattern, isMatch := fun s => decide (pattern.toList <:+: s.toList) }

/-- The example settings with the fact checks off and one pattern in each allow list. -/
def allowPepe : FilterConfig ℚ :=
  { exampleConfig.filters with
    minInitialLiquiditySol := 0, maxSupply := 0, requireMintAuthorityRenounced := false
    requireFreezeAuthorityNull := false, minLpLockedPct := 0
    nameAllowRegex := ["Pepe"], nameDenyRegex := [], symbolAllowRegex := ["PEPE"] }

def allowPepeEngine : FilterEngine ℚ where
  cfg := allowPepe
  nameAllow := [⟨"Pepe", fun s => decide ("Pepe".toList <:+: s.toList)⟩]
  nameDeny := []
  symbolAllow := [⟨"PEPE", fun s => decide ("PEPE".toList <:+: s.toList)⟩]
  allowlist := []
  blocklist := []

lemma new_allowPepe : FilterEngine.new literal crates allowPepe = .ok allowPepeEngine := rfl

/-- A Pump.fun payload whose name claims more bytes than there are. -/
def cutShort : List UInt8 :=
  [0x18, 0x1e, 0xc8, 0x28, 0x05, 0x1c, 0x07, 0x77, 5, 0, 0, 0, 0x53, 0x63, 0x61, 0x6d]

def cutShortLaunch : LaunchEvent where
  venue := .pumpFun
  signature := ""
  slot := 1
  mint := raydiumProgram
  creator := raydiumProgram
  pool := some raydiumProgram
  name := none
  symbol := none
  uri := none
  observedAtMs := 0

lemma decode_cutShort : exampleDetector.decode 0 pumpfunProgram cutShort
    (List.replicate 8 raydiumProgram) "" 1 = some cutShortLaunch := by
  decide +kernel

lemma factsPass_allowPepe : FactsPass allowPepe .default :=
  ⟨by decide +kernel, .inl rfl, by decide, by decide, by decide +kernel, by decide⟩

theorem matched_iff_example :
    ¬ (allowPepeEngine.evaluate cutShortLaunch .default = .accept →
      Matched allowPepeEngine.nameAllow cutShortLaunch.name) := by
  rw [(matched_iff decode_cutShort new_allowPepe .default).1 (by decide),
    ← name_isSome_iff_readable decode_cutShort]
  rintro (hsome | hfail)
  · exact absurd hsome (by decide)
  · refine hfail ⟨⟨.inl rfl, List.not_mem_nil⟩, ?_, factsPass_allowPepe⟩
    intro s hs
    exact absurd hs (by simp [cutShortLaunch])

/-- Raydium LaunchLab launches carry no metadata, and pass both allow lists. -/
theorem nameless_accepted :
    FilterEngine.new literal crates allowPepe = .ok allowPepeEngine ∧
      ∃ ev, exampleDetector.decode 0 raydiumProgram
          [0xaf, 0xaf, 0x6d, 0x1f, 0x0d, 0x98, 0x9b, 0xed] [pumpfunProgram, raydiumProgram] "" 1
          = some ev ∧
        allowPepeEngine.evaluate ev .default = .accept ∧
        ¬ Matched allowPepeEngine.nameAllow ev.name ∧
        ¬ Matched allowPepeEngine.symbolAllow ev.symbol := by
  refine ⟨new_allowPepe, _, rfl, ?_, ?_, ?_⟩
  · decide +kernel
  · exact not_matched_none _
  · exact not_matched_none _

end NovaSniper.AllowLists
