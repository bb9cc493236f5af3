import NovaSniper.Config
import NovaSniper.Solana
import NovaSniper.Lib.Bytes
import NovaSniper.Lib.Fallible

set_option linter.dupNamespace false

/-!
Launch detection: from the program id, data and accounts of an instruction to a launch
event.
-/

namespace NovaSniper.Detector

open NovaSniper.Config NovaSniper.Solana NovaSniper.Lib.Bytes NovaSniper.Lib.Fallible

inductive Venue
  | pumpFun | raydiumLaunchLab
  deriving DecidableEq

structure LaunchEvent where
  venue : Venue
  signature : String
  slot : ℕ
  mint : Pubkey
  creator : Pubkey
  pool : Option Pubkey
  name : Option String
  symbol : Option String
  uri : Option String
  observedAtMs : ℕ
  deriving DecidableEq

/-- An instruction discriminator: 8 bytes. -/
structure Discriminator where
  bytes : List UInt8
  size : bytes.length = 8
  deriving DecidableEq

structure ProgramMatcher where
  programId : Pubkey
  discriminator : Discriminator
  venue : Venue
  deriving DecidableEq

structure Detector where
  pumpfun : Option ProgramMatcher
  raydium : Option ProgramMatcher
  deriving DecidableEq

/-! ### Construction -/

/-- `trim_start_matches("0x")`: every leading `0x` goes. -/
def trimStart0x : List Char → List Char
  | '0' :: 'x' :: cs => trimStart0x cs
  | cs => cs

def parseDiscriminator (ext : Codecs) (hexStr : String) : Except String Discriminator := do
  let bytes ← ext.hexDecode (String.ofList (trimStart0x hexStr.toList))
  if h : bytes.length = 8 then .ok ⟨bytes, h⟩
  else .error s!"discriminator must be 8 hex-encoded bytes, got {bytes.length}"

/-- The matcher of one target, if the target is enabled. -/
def matcherOf (ext : Codecs) (enabled : Bool) (programId discriminator : String)
    (venue : Venue) : Except String (Option ProgramMatcher) :=
  if enabled then do
    let programId ← ext.parsePubkey programId
    let discriminator ← parseDiscriminator ext discriminator
    .ok (some { programId, discriminator, venue })
  else .ok none

/-- `Detector::new`. -/
def Detector.new (ext : Codecs) (targets : TargetsConfig) : Except String Detector := do
  let pumpfun ← matcherOf ext targets.pumpfun.enabled targets.pumpfun.programId
    targets.pumpfun.createDiscriminator .pumpFun
  let raydium ← matcherOf ext targets.raydiumLaunchlab.enabled
    targets.raydiumLaunchlab.programId targets.raydiumLaunchlab.initializeDiscriminator
    .raydiumLaunchLab
  .ok { pumpfun, raydium }

def Detector.watchedProgramIds (d : Detector) : List Pubkey :=
  (d.pumpfun.toList ++ d.raydium.toList).map (·.programId)

lemma matcherOf_eq_ok {ext : Codecs} {enabled : Bool} {programId discriminator : String}
    {venue : Venue} {m : Option ProgramMatcher} :
    matcherOf ext enabled programId discriminator venue = .ok m ↔
      (enabled = false ∧ m = none) ∨
        (enabled = true ∧ ∃ p δ, ext.parsePubkey programId = .ok p ∧
          parseDiscriminator ext discriminator = .ok δ ∧ m = some ⟨p, δ, venue⟩) := by
  unfold matcherOf
  cases enabled with
  | false => simp [eq_comm]
  | true =>
    simp only [if_true, bind_eq_ok, Except.ok.injEq, Bool.true_eq_false, false_and, false_or,
      true_and]
    refine ⟨?_, ?_⟩
    · rintro ⟨p, hp, δ, hδ, rfl⟩
      exact ⟨p, δ, hp, hδ, rfl⟩
    · rintro ⟨p, δ, hp, hδ, rfl⟩
      exact ⟨p, hp, δ, hδ, rfl⟩

lemma new_eq_ok {ext : Codecs} {targets : TargetsConfig} {d : Detector} :
    Detector.new ext targets = .ok d ↔
      matcherOf ext targets.pumpfun.enabled targets.pumpfun.programId
          targets.pumpfun.createDiscriminator .pumpFun = .ok d.pumpfun ∧
        matcherOf ext targets.raydiumLaunchlab.enabled targets.raydiumLaunchlab.programId
          targets.raydiumLaunchlab.initializeDiscriminator .raydiumLaunchLab = .ok d.raydium := by
  unfold Detector.new
  simp only [bind_eq_ok, Except.ok.injEq]
  refine ⟨?_, ?_⟩
  · rintro ⟨pumpfun, hp, raydium, hr, rfl⟩
    exact ⟨hp, hr⟩
  · rintro ⟨hp, hr⟩
    exact ⟨d.pumpfun, hp, d.raydium, hr, rfl⟩

/-- The program of Pump.fun in the example configuration. -/
def pumpfunProgram : Pubkey where
  bytes := [1, 86, 224, 246, 147, 102, 90, 207, 68, 219, 21, 104, 191, 23, 91, 170,
    81, 137, 203, 151, 245, 210, 255, 59, 101, 93, 43, 182, 253, 109, 24, 176]
  size := rfl

/-- The program of Raydium LaunchLab in the example configuration. -/
def raydiumProgram : Pubkey where
  bytes := [5, 4, 59, 149, 77, 202, 38, 225, 239, 145, 181, 44, 79, 143, 137, 175,
    138, 111, 90, 200, 198, 33, 86, 241, 113, 207, 15, 33, 172, 81, 201, 34]
  size := rfl

/-- The detector of the example configuration. -/
def exampleDetector : Detector where
  pumpfun := some
    { programId := pumpfunProgram
      discriminator := ⟨[0x18, 0x1e, 0xc8, 0x28, 0x05, 0x1c, 0x07, 0x77], rfl⟩
      venue := .pumpFun }
  raydium := some
    { programId := raydiumProgram
      discriminator := ⟨[0xaf, 0xaf, 0x6d, 0x1f, 0x0d, 0x98, 0x9b, 0xed], rfl⟩
      venue := .raydiumLaunchLab }

def exampleLaunch : LaunchEvent where
  venue := .raydiumLaunchLab
  signature := ""
  slot := 1
  mint := pumpfunProgram
  creator := raydiumProgram
  pool := none
  name := none
  symbol := none
  uri := none
  observedAtMs := 0

theorem new_example : Detector.new crates exampleConfig.targets = .ok exampleDetector := by
  decide +kernel

/-! ### Decoding -/

/-- One Borsh string off the front of `bytes`, with the bytes after it; a failure leaves
the bytes where they are. -/
def readBorshString (bytes : List UInt8) : Option String × List UInt8 :=
  if bytes.length < 4 then (none, bytes)
  else
    -- `u32::from_le_bytes`
    let len := ofLE (bytes.take 4)
    if bytes.length < 4 + len then (none, bytes)
    else match String.fromUTF8? ⟨((bytes.drop 4).take len).toArray⟩ with
      | none => (none, bytes)
      | some s => (some s, bytes.drop (4 + len))

def decodeBorshStrings (bytes : List UInt8) : Option String × Option String × Option String :=
  let (name, bytes) := readBorshString bytes
  let (symbol, bytes) := readBorshString bytes
  let (uri, _) := readBorshString bytes
  (name, symbol, uri)

def decodePumpfun (data : List UInt8) (accounts : List Pubkey) (signature : String)
    (slot observedAtMs : ℕ) : Option LaunchEvent := do
  let mint ← accounts[0]?
  let pool := accounts[2]?
  let creator ← accounts[7]?
  let (name, symbol, uri) := decodeBorshStrings (data.drop 8)
  some { venue := .pumpFun, signature, slot, mint, creator, pool, name, symbol, uri, observedAtMs }

def decodeRaydium (_data : List UInt8) (accounts : List Pubkey) (signature : String)
    (slot observedAtMs : ℕ) : Option LaunchEvent := do
  let pool := accounts[0]?
  let mint ← accounts[1]?
  let creator ← accounts.getLast?
  some { venue := .raydiumLaunchLab, signature, slot, mint, creator, pool
         name := none, symbol := none, uri := none, observedAtMs }

/-- The first matcher with the program id. -/
def Detector.matcherFor (d : Detector) (programId : Pubkey) : Option ProgramMatcher :=
  match d.pumpfun.filter (·.programId = programId) with
  | some m => some m
  | none => d.raydium.filter (·.programId = programId)

/-- `Detector::decode`; `nowMs` is the reading of the clock. -/
def Detector.decode (d : Detector) (nowMs : ℤ) (programId : Pubkey) (data : List UInt8)
    (accounts : List Pubkey) (signature : String) (slot : ℕ) : Option LaunchEvent := do
  let m ← d.matcherFor programId
  if data.length < 8 ∨ data.take 8 ≠ m.discriminator.bytes then none
  else
    let observedAtMs := (max nowMs 0).toNat
    match m.venue with
    | .pumpFun => decodePumpfun data accounts signature slot observedAtMs
    | .raydiumLaunchLab => decodeRaydium data accounts signature slot observedAtMs

/-! ### What decoding reads -/

lemma matcherFor_mem {d : Detector} {p : Pubkey} {m : ProgramMatcher}
    (h : d.matcherFor p = some m) :
    m.programId = p ∧ (d.pumpfun = some m ∨ d.raydium = some m) := by
  unfold Detector.matcherFor at h
  split at h
  · next m' hm =>
    obtain ⟨hd, hp⟩ := Option.filter_eq_some_iff.mp hm
    obtain rfl : m' = m := by simpa using h
    exact ⟨by simpa using hp, .inl hd⟩
  · obtain ⟨hd, hp⟩ := Option.filter_eq_some_iff.mp h
    exact ⟨by simpa using hp, .inr hd⟩

lemma mem_watched {d : Detector} {p : Pubkey} :
    p ∈ d.watchedProgramIds ↔
      ∃ m, (d.pumpfun = some m ∨ d.raydium = some m) ∧ m.programId = p := by
  simp [Detector.watchedProgramIds, or_and_right, exists_or]

/-- The launch a matcher finds in the accounts of its venue. -/
def launchOf (m : ProgramMatcher) (nowMs : ℤ) (data : List UInt8) (accounts : List Pubkey)
    (signature : String) (slot : ℕ) : Option LaunchEvent :=
  match m.venue with
  | .pumpFun => decodePumpfun data accounts signature slot (max nowMs 0).toNat
  | .raydiumLaunchLab => decodeRaydium data accounts signature slot (max nowMs 0).toNat

section Decode

variable {d : Detector} {nowMs : ℤ} {p : Pubkey} {data : List UInt8} {accounts : List Pubkey}
  {signature : String} {slot at_ : ℕ} {ev : LaunchEvent}

/-- Decoding is a matcher, its discriminator, and the launch of its venue. -/
theorem decode_eq_some : d.decode nowMs p data accounts signature slot = some ev ↔
    ∃ m, d.matcherFor p = some m ∧ 8 ≤ data.length ∧ data.take 8 = m.discriminator.bytes ∧
      launchOf m nowMs data accounts signature slot = some ev := by
  unfold Detector.decode
  cases hm : d.matcherFor p with
  | none => simp
  | some m =>
    simp only [Option.bind_eq_bind, Option.bind_some, Option.some.injEq, exists_eq_left',
      launchOf]
    split_ifs with hbad
    · simp only [false_iff, not_and]
      intro hlen htake
      rcases hbad with hbad | hbad
      · omega
      · exact absurd htake hbad
    · push Not at hbad
      simp [hbad.1, hbad.2]

lemma decodePumpfun_eq_some :
    decodePumpfun data accounts signature slot at_ = some ev ↔
      ∃ mint creator, accounts[0]? = some mint ∧ accounts[7]? = some creator ∧
        ev = { venue := .pumpFun, signature, slot, mint, creator, pool := accounts[2]?
               name := (decodeBorshStrings (data.drop 8)).1
               symbol := (decodeBorshStrings (data.drop 8)).2.1
               uri := (decodeBorshStrings (data.drop 8)).2.2, observedAtMs := at_ } := by
  simp only [decodePumpfun, Option.bind_eq_bind, Option.bind_eq_some_iff, Option.some.injEq]
  refine ⟨?_, ?_⟩
  · rintro ⟨mint, hm, creator, hc, rfl⟩
    exact ⟨mint, creator, hm, hc, rfl⟩
  · rintro ⟨mint, creator, hm, hc, rfl⟩
    exact ⟨mint, hm, creator, hc, rfl⟩

lemma decodeRaydium_eq_some :
    decodeRaydium data accounts signature slot at_ = some ev ↔
      ∃ mint creator, accounts[1]? = some mint ∧ accounts.getLast? = some creator ∧
        ev = { venue := .raydiumLaunchLab, signature, slot, mint, creator, pool := accounts[0]?
               name := none, symbol := none, uri := none, observedAtMs := at_ } := by
  simp only [decodeRaydium, Option.bind_eq_bind, Option.bind_eq_some_iff, Option.some.injEq]
  refine ⟨?_, ?_⟩
  · rintro ⟨mint, hm, creator, hc, rfl⟩
    exact ⟨mint, creator, hm, hc, rfl⟩
  · rintro ⟨mint, creator, hm, hc, rfl⟩
    exact ⟨mint, hm, creator, hc, rfl⟩

/-- **A launch is of one of the two venues.** -/
theorem launchOf_cases {m : ProgramMatcher}
    (h : launchOf m nowMs data accounts signature slot = some ev) :
    (m.venue = .pumpFun ∧
        decodePumpfun data accounts signature slot (max nowMs 0).toNat = some ev) ∨
      (m.venue = .raydiumLaunchLab ∧
        decodeRaydium data accounts signature slot (max nowMs 0).toNat = some ev) := by
  unfold launchOf at h
  cases hv : m.venue with
  | pumpFun =>
    rw [hv] at h
    exact .inl ⟨rfl, h⟩
  | raydiumLaunchLab =>
    rw [hv] at h
    exact .inr ⟨rfl, h⟩

end Decode

end NovaSniper.Detector
