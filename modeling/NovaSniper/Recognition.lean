import NovaSniper.Accounts

/-!
Which instructions are launches, told from the configuration alone.

The lookup goes by the program id and takes Pump.fun first, so a program id that both targets
name stands for Pump.fun. Otherwise an instruction is a launch when its target is enabled and
its discriminator and number of accounts are right, whatever its payload says.
-/

namespace NovaSniper.Recognition

open NovaSniper.Config NovaSniper.Solana NovaSniper.Detector NovaSniper.Accounts

/-- The settings of one target. -/
structure Target where
  enabled : Bool
  programId : String
  discriminator : String

def targetOf (targets : TargetsConfig) : Venue → Target
  | .pumpFun =>
    { enabled := targets.pumpfun.enabled, programId := targets.pumpfun.programId
      discriminator := targets.pumpfun.createDiscriminator }
  | .raydiumLaunchLab =>
    { enabled := targets.raydiumLaunchlab.enabled, programId := targets.raydiumLaunchlab.programId
      discriminator := targets.raydiumLaunchlab.initializeDiscriminator }

/-- The target is enabled, and this is its program. -/
def Target.Watches (ext : Codecs) (target : Target) (p : Pubkey) : Prop :=
  target.enabled = true ∧ ext.parsePubkey target.programId = .ok p

/-- The number of accounts that the roles of a venue need. -/
def accountsNeeded : Venue → ℕ
  | .pumpFun => 8
  | .raydiumLaunchLab => 2

/-- An instruction that launches a token at a venue, by the settings of that venue's target. -/
structure IsLaunch (ext : Codecs) (targets : TargetsConfig) (v : Venue) (programId : Pubkey)
    (data : List UInt8) (accounts : List Pubkey) : Prop where
  watched : (targetOf targets v).Watches ext programId
  size : 8 ≤ data.length
  starts : ∃ δ, parseDiscriminator ext (targetOf targets v).discriminator = .ok δ ∧
    data.take 8 = δ.bytes
  accounts : accountsNeeded v ≤ accounts.length

/-- A target that is looked up earlier has the same program. -/
def Shadowed (ext : Codecs) (targets : TargetsConfig) (v : Venue) (programId : Pubkey) : Prop :=
  v = .raydiumLaunchLab ∧ (targetOf targets .pumpFun).Watches ext programId

/-! ### The lookup -/

def matcherAt (d : Detector) : Venue → Option ProgramMatcher
  | .pumpFun => d.pumpfun
  | .raydiumLaunchLab => d.raydium

section Lookup

variable {ext : Codecs} {targets : TargetsConfig} {d : Detector}

lemma matcherOf_targetOf (hd : Detector.new ext targets = .ok d) (v : Venue) :
    matcherOf ext (targetOf targets v).enabled (targetOf targets v).programId
      (targetOf targets v).discriminator v = .ok (matcherAt d v) := by
  obtain ⟨hpump, hray⟩ := new_eq_ok.mp hd
  cases v with
  | pumpFun => exact hpump
  | raydiumLaunchLab => exact hray

/-- What construction makes of a target. -/
lemma matcherAt_eq_some (hd : Detector.new ext targets = .ok d) {v : Venue}
    {m : ProgramMatcher} :
    matcherAt d v = some m ↔ (targetOf targets v).Watches ext m.programId ∧
      parseDiscriminator ext (targetOf targets v).discriminator = .ok m.discriminator ∧
      m.venue = v := by
  rcases matcherOf_eq_ok.mp (matcherOf_targetOf hd v) with ⟨hoff, hnone⟩ | ⟨hon, p, δ, hp, hδ, hsome⟩
  · rw [hnone]
    unfold Target.Watches
    simp [hoff]
  · rw [hsome, Option.some.injEq]
    refine ⟨?_, ?_⟩
    · rintro rfl
      exact ⟨⟨hon, hp⟩, hδ, rfl⟩
    · rintro ⟨⟨-, hp'⟩, hδ', rfl⟩
      rw [hp, Except.ok.injEq] at hp'
      rw [hδ, Except.ok.injEq] at hδ'
      rw [hp', hδ']

/-- A target watches a program exactly when it has a matcher for it. -/
lemma watches_iff (hd : Detector.new ext targets = .ok d) {v : Venue} {p : Pubkey} :
    (targetOf targets v).Watches ext p ↔ ∃ m, matcherAt d v = some m ∧ m.programId = p := by
  refine ⟨?_, ?_⟩
  · rintro ⟨hon, hp⟩
    rcases matcherOf_eq_ok.mp (matcherOf_targetOf hd v) with ⟨hoff, -⟩ | ⟨-, p', δ, hp', -, hsome⟩
    · rw [hon] at hoff
      cases hoff
    · exact ⟨_, hsome, Except.ok.inj (hp'.symm.trans hp)⟩
  · rintro ⟨m, hm, rfl⟩
    exact ((matcherAt_eq_some hd).mp hm).1

/-- **The lookup.** It finds the matcher of a venue for its program, unless Pump.fun is before
it with the same program. -/
lemma matcherFor_iff (hd : Detector.new ext targets = .ok d) {v : Venue} {p : Pubkey}
    {m : ProgramMatcher} :
    d.matcherFor p = some m ∧ m.venue = v ↔
      matcherAt d v = some m ∧ m.programId = p ∧ ¬ Shadowed ext targets v p := by
  unfold Shadowed
  rw [watches_iff hd]
  have hvenue : ∀ {v' m'}, matcherAt d v' = some m' → m'.venue = v' :=
    fun hm => ((matcherAt_eq_some hd).mp hm).2.2
  unfold Detector.matcherFor
  cases hpump : d.pumpfun.filter (·.programId = p) with
  | some m' =>
    obtain ⟨hm', hp'⟩ := Option.filter_eq_some_iff.mp hpump
    have hid : m'.programId = p := of_decide_eq_true hp'
    have hv' : m'.venue = .pumpFun := hvenue hm'
    refine ⟨?_, ?_⟩
    · rintro ⟨hm, rfl⟩
      obtain rfl := Option.some.inj hm
      rw [hv']
      exact ⟨hm', hid, fun h => by cases h.1⟩
    · rintro ⟨hm, -, hnot⟩
      cases v with
      | pumpFun =>
        obtain rfl : m' = m := Option.some.inj (hm'.symm.trans hm)
        exact ⟨rfl, hv'⟩
      | raydiumLaunchLab => exact absurd ⟨rfl, m', hm', hid⟩ hnot
  | none =>
    have hno : ∀ m', d.pumpfun = some m' → m'.programId ≠ p := fun m' hm' =>
      by simpa using Option.filter_eq_none_iff.mp hpump m' hm'
    rw [Option.filter_eq_some_iff, decide_eq_true_iff]
    refine ⟨?_, ?_⟩
    · rintro ⟨⟨hm, hp⟩, rfl⟩
      have hray : m.venue = .raydiumLaunchLab :=
        hvenue (show matcherAt d .raydiumLaunchLab = some m from hm)
      rw [hray]
      refine ⟨hm, hp, ?_⟩
      rintro ⟨-, m', hm', hp'⟩
      exact hno m' hm' hp'
    · rintro ⟨hm, hp, -⟩
      cases v with
      | pumpFun => exact absurd hp (hno m hm)
      | raydiumLaunchLab => exact ⟨⟨hm, hp⟩, hvenue hm⟩

end Lookup

/-! ### Recognition -/

section Decode

variable {ext : Codecs} {targets : TargetsConfig} {d : Detector} {nowMs : ℤ} {p : Pubkey}
  {data : List UInt8} {accounts : List Pubkey} {signature : String} {slot : ℕ}

/-- A launch is found exactly when there are accounts for its roles. -/
lemma launchOf_iff {m : ProgramMatcher} :
    (∃ ev, launchOf m nowMs data accounts signature slot = some ev) ↔
      accountsNeeded m.venue ≤ accounts.length := by
  unfold launchOf
  cases m.venue with
  | pumpFun =>
    simp only [decodePumpfun_eq_some, accountsNeeded]
    refine ⟨?_, ?_⟩
    · rintro ⟨-, -, creator, -, hc, -⟩
      exact (List.getElem?_eq_some_iff.mp hc).1
    · intro h
      exact ⟨_, accounts[0], accounts[7], List.getElem?_eq_getElem _, List.getElem?_eq_getElem _,
        rfl⟩
  | raydiumLaunchLab =>
    simp only [decodeRaydium_eq_some, accountsNeeded]
    refine ⟨?_, ?_⟩
    · rintro ⟨-, mint, -, hm, -, -⟩
      exact (List.getElem?_eq_some_iff.mp hm).1
    · intro h
      have hne : accounts ≠ [] := by
        rintro rfl
        simp at h
      exact ⟨_, accounts[1], accounts.getLast hne, List.getElem?_eq_getElem _,
        List.getLast?_eq_some_getLast hne, rfl⟩

/-- What an event says apart from its payload: the venue, and the accounts in its roles. -/
def identity (ev : LaunchEvent) : Venue × Roles Pubkey := (ev.venue, filled ev)

lemma identity_of_launchOf {m : ProgramMatcher} {ev : LaunchEvent}
    (h : launchOf m nowMs data accounts signature slot = some ev) :
    identity ev = (m.venue, roles m.venue accounts) := by
  obtain ⟨hvenue, hfilled⟩ := filled_of_launchOf h
  rw [identity, hvenue, hfilled]

/-- A launch is still one, with the same identity, under any other payload. -/
lemma decode_payload {head payload payload' : List UInt8} (hlen : head.length = 8)
    {ev : LaunchEvent}
    (h : d.decode nowMs p (head ++ payload) accounts signature slot = some ev) :
    ∃ ev', d.decode nowMs p (head ++ payload') accounts signature slot = some ev' ∧
      identity ev' = identity ev := by
  obtain ⟨m, hm, -, hstarts, hlaunch⟩ := decode_eq_some.mp h
  rw [List.take_left' hlen] at hstarts
  obtain ⟨ev', hlaunch'⟩ : ∃ ev',
      launchOf m nowMs (head ++ payload') accounts signature slot = some ev' :=
    launchOf_iff.mpr (launchOf_iff.mp ⟨ev, hlaunch⟩)
  refine ⟨ev', decode_eq_some.mpr ⟨m, hm, ?_, ?_, hlaunch'⟩, ?_⟩
  · rw [List.length_append, hlen]
    exact Nat.le_add_right _ _
  · rw [List.take_left' hlen]
    exact hstarts
  · rw [identity_of_launchOf hlaunch', identity_of_launchOf hlaunch]

/-- What a matcher takes, with accounts for its roles, is a launch by the settings. -/
lemma isLaunch_of_matcher (hd : Detector.new ext targets = .ok d) {v : Venue}
    {m : ProgramMatcher} (hm : matcherAt d v = some m) (hp : m.programId = p)
    (hsize : 8 ≤ data.length) (hstarts : data.take 8 = m.discriminator.bytes)
    (haccounts : accountsNeeded v ≤ accounts.length) :
    IsLaunch ext targets v p data accounts := by
  obtain ⟨hwatched, hδ, -⟩ := (matcherAt_eq_some hd).mp hm
  rw [hp] at hwatched
  exact ⟨hwatched, hsize, ⟨m.discriminator, hδ, hstarts⟩, haccounts⟩

/-- **Which venue an event is of.** -/
lemma decode_venue_iff (hd : Detector.new ext targets = .ok d) (v : Venue) :
    (∃ ev, d.decode nowMs p data accounts signature slot = some ev ∧ ev.venue = v) ↔
      IsLaunch ext targets v p data accounts ∧ ¬ Shadowed ext targets v p := by
  refine ⟨?_, ?_⟩
  · rintro ⟨ev, hev, rfl⟩
    obtain ⟨m, hm, hlen, hstarts, hlaunch⟩ := decode_eq_some.mp hev
    obtain ⟨hvenue, -⟩ := filled_of_launchOf hlaunch
    obtain ⟨hat, rfl, hshadow⟩ := (matcherFor_iff hd).mp ⟨hm, hvenue.symm⟩
    have haccounts := launchOf_iff.mp ⟨ev, hlaunch⟩
    rw [← hvenue] at haccounts
    exact ⟨isLaunch_of_matcher hd hat rfl hlen hstarts haccounts, hshadow⟩
  · rintro ⟨⟨hw, hlen, ⟨δ, hδ, hstarts⟩, haccounts⟩, hshadow⟩
    obtain ⟨m, hat, hp⟩ := (watches_iff hd).mp hw
    obtain ⟨-, hδ', hvenue⟩ := (matcherAt_eq_some hd).mp hat
    have hdisc : δ = m.discriminator := Except.ok.inj (hδ.symm.trans hδ')
    obtain ⟨hm, -⟩ := (matcherFor_iff hd).mpr ⟨hat, hp, hshadow⟩
    rw [← hvenue] at haccounts
    obtain ⟨ev, hlaunch⟩ : ∃ ev, launchOf m nowMs data accounts signature slot = some ev :=
      launchOf_iff.mpr haccounts
    refine ⟨ev, decode_eq_some.mpr ⟨m, hm, hlen, hdisc ▸ hstarts, hlaunch⟩, ?_⟩
    rw [(filled_of_launchOf hlaunch).1, hvenue]

/-- **Recognition.** A detector that was built finds a launch of a venue exactly where the
settings of its target say so, and no target looked up earlier has the same program. The mint,
the creator and the pool are read off the account list alone; and whatever payload follows the
discriminator, the launch is found, with the same accounts. -/
theorem recognition (hd : Detector.new ext targets = .ok d) (nowMs : ℤ) (p : Pubkey)
    (data : List UInt8) (accounts : List Pubkey) (signature : String) (slot : ℕ) :
    (∀ v, (∃ ev, d.decode nowMs p data accounts signature slot = some ev ∧ ev.venue = v) ↔
        IsLaunch ext targets v p data accounts ∧ ¬ Shadowed ext targets v p) ∧
      (∀ ev, d.decode nowMs p data accounts signature slot = some ev →
        filled ev = roles ev.venue accounts) ∧
      ∀ head payload payload' : List UInt8, head.length = 8 →
        (d.decode nowMs p (head ++ payload) accounts signature slot).map identity =
          (d.decode nowMs p (head ++ payload') accounts signature slot).map identity := by
  refine ⟨decode_venue_iff hd, fun ev hev => ?_, fun head payload payload' hlen => ?_⟩
  · obtain ⟨m, -, -, -, hlaunch⟩ := decode_eq_some.mp hev
    obtain ⟨hvenue, hfilled⟩ := filled_of_launchOf hlaunch
    rw [hvenue]
    exact hfilled
  · refine Option.ext fun k => ?_
    simp only [Option.map_eq_some_iff]
    refine ⟨?_, ?_⟩
    · rintro ⟨ev, hev, rfl⟩
      exact decode_payload hlen hev
    · rintro ⟨ev, hev, rfl⟩
      exact decode_payload hlen hev

end Decode

/-- A create of Pump.fun with no payload at all. -/
theorem recognition_example : ∃ ev,
    exampleDetector.decode 0 pumpfunProgram [0x18, 0x1e, 0xc8, 0x28, 0x05, 0x1c, 0x07, 0x77]
      (List.replicate 8 raydiumProgram) "" 1 = some ev ∧ ev.venue = .pumpFun := by
  refine ((recognition new_example 0 pumpfunProgram _ _ "" 1).1 .pumpFun).mpr ⟨?_, ?_⟩
  · have hm : matcherAt exampleDetector .pumpFun = some _ := rfl
    exact isLaunch_of_matcher new_example hm rfl (by decide) rfl (by decide)
  · rintro ⟨hv, -⟩
    cases hv

/-! ### One program for both targets -/

/-- The example with Raydium's target set to the program of Pump.fun. -/
def sharedTargets : TargetsConfig :=
  { exampleConfig.targets with
    raydiumLaunchlab :=
      { exampleConfig.targets.raydiumLaunchlab with
        programId := exampleConfig.targets.pumpfun.programId } }

/-- Its detector: both matchers have the same program. -/
def sharedDetector : Detector where
  pumpfun := exampleDetector.pumpfun
  raydium := exampleDetector.raydium.map fun m => { m with programId := pumpfunProgram }

lemma new_shared : Detector.new crates sharedTargets = .ok sharedDetector := by
  decide +kernel

/-- An initialize of Raydium is not found: its discriminator is compared with that of
Pump.fun. -/
theorem initialize_shadowed :
    let data : List UInt8 := [0xaf, 0xaf, 0x6d, 0x1f, 0x0d, 0x98, 0x9b, 0xed]
    Detector.new crates sharedTargets = .ok sharedDetector ∧
      IsLaunch crates sharedTargets .raydiumLaunchLab pumpfunProgram data
        [pumpfunProgram, raydiumProgram] ∧
      sharedDetector.decode 0 pumpfunProgram data [pumpfunProgram, raydiumProgram] "" 1 =
        none := by
  intro data
  have hm : matcherAt sharedDetector .raydiumLaunchLab = some _ := rfl
  refine ⟨new_shared, ?_, by decide⟩
  exact isLaunch_of_matcher new_shared hm rfl (by decide) rfl (by decide)

end NovaSniper.Recognition
