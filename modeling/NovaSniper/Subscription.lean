import NovaSniper.Listener

/-!
What the subscription lets through, against what the walk recognises.

The filter lists every watched program under the keys a transaction must all have, while the
walk is content with one of them.
-/

namespace NovaSniper.Subscription

open NovaSniper.Config NovaSniper.Solana NovaSniper.Detector NovaSniper.Listener

/-! ### The filter semantics of the server -/

def failed (info : TransactionInfo) : Bool :=
  (info.statusMeta.bind (·.err)).isSome

/-- A key of the request stands for itself among the keys of the transaction. -/
def Names (ext : Codecs) (info : TransactionInfo) (s : String) : Prop :=
  ∃ p ∈ accountKeys info, ext.parsePubkey s = .ok p

instance (ext : Codecs) (info : TransactionInfo) (s : String) : Decidable (Names ext info s) :=
  inferInstanceAs (Decidable (∃ p ∈ accountKeys info, ext.parsePubkey s = .ok p))

/-- **When a transaction is delivered.** -/
def Admits (ext : Codecs) (f : TransactionFilter) (info : TransactionInfo) : Prop :=
  (∀ v ∈ f.vote, info.isVote = v) ∧
  (∀ v ∈ f.failed, failed info = v) ∧
  (∀ s ∈ f.accountRequired, Names ext info s) ∧
  (∀ s ∈ f.accountExclude, ¬ Names ext info s) ∧
  (f.accountInclude = [] ∨ ∃ s ∈ f.accountInclude, Names ext info s)

instance (ext : Codecs) (f : TransactionFilter) (info : TransactionInfo) :
    Decidable (Admits ext f info) :=
  inferInstanceAs (Decidable ((∀ v ∈ f.vote, info.isVote = v) ∧
    (∀ v ∈ f.failed, failed info = v) ∧ (∀ s ∈ f.accountRequired, Names ext info s) ∧
    (∀ s ∈ f.accountExclude, ¬ Names ext info s) ∧
    (f.accountInclude = [] ∨ ∃ s ∈ f.accountInclude, Names ext info s)))

/-- A successful transaction, not a vote, in which the walk finds a launch. -/
structure Recognised (ext : Codecs) (d : Detector) (clock : ℕ → ℤ) (info : TransactionInfo)
    (slot : ℕ) : Prop where
  vote : info.isVote = false
  success : failed info = false
  launches : ∃ out, extractLaunches ext d clock info slot = some out

/-- Both targets are enabled, with different programs. -/
def TwoPrograms (ext : Codecs) (targets : TargetsConfig) : Prop :=
  targets.pumpfun.enabled = true ∧ targets.raydiumLaunchlab.enabled = true ∧
    ext.parsePubkey targets.pumpfun.programId ≠ ext.parsePubkey targets.raydiumLaunchlab.programId

instance (ext : Codecs) (targets : TargetsConfig) : Decidable (TwoPrograms ext targets) :=
  inferInstanceAs (Decidable (_ ∧ _ ∧ _ ≠ _))

/-! ### The required keys -/

lemma names_showPubkey {ext : Codecs} (hext : ext.RoundTrip) (info : TransactionInfo)
    (p : Pubkey) : Names ext info (ext.showPubkey p) ↔ p ∈ accountKeys info := by
  unfold Names
  rw [hext p]
  simp

lemma admits_launchesFilter {ext : Codecs} (hext : ext.RoundTrip) (d : Detector)
    {info : TransactionInfo} (hvote : info.isVote = false) (hsucc : failed info = false) :
    Admits ext (launchesFilter ext d) info ↔ ∀ p ∈ d.watchedProgramIds, p ∈ accountKeys info := by
  refine ⟨?_, ?_⟩
  · rintro ⟨-, -, hreq, -, -⟩ p hp
    have hmem : ext.showPubkey p ∈ (launchesFilter ext d).accountRequired :=
      List.mem_map_of_mem hp
    exact (names_showPubkey hext info p).mp (hreq _ hmem)
  · intro h
    refine ⟨?_, ?_, ?_, ?_, .inl rfl⟩
    · simp [launchesFilter, hvote]
    · simp [launchesFilter, hsucc]
    · intro s hs
      obtain ⟨p, hp, rfl⟩ := List.mem_map.mp hs
      exact (names_showPubkey hext info p).mpr (h p hp)
    · simp [launchesFilter]

/-- A recognised transaction has at least one watched program among its keys. -/
lemma watched_of_recognised {ext : Codecs} {d : Detector} {clock : ℕ → ℤ}
    {info : TransactionInfo} {slot : ℕ} (h : Recognised ext d clock info slot) :
    ∃ p ∈ d.watchedProgramIds, p ∈ accountKeys info := by
  obtain ⟨ix, k, ev, -, hev⟩ := exists_extractLaunches.mp h.launches
  obtain ⟨p, m, hp, hm, -⟩ := eventAt_eq_some hev
  obtain ⟨hid, hd⟩ := matcherFor_mem hm
  exact ⟨p, mem_watched.mpr ⟨m, hd, hid⟩, walkKeys_subset info (List.mem_of_getElem? hp)⟩

section Targets

variable {ext : Codecs} {targets : TargetsConfig} {d : Detector}

lemma watched_eq_of_not_two (hd : Detector.new ext targets = .ok d)
    (h : ¬ TwoPrograms ext targets) {p q : Pubkey} (hp : p ∈ d.watchedProgramIds)
    (hq : q ∈ d.watchedProgramIds) : p = q := by
  obtain ⟨hpump, hray⟩ := new_eq_ok.mp hd
  rw [matcherOf_eq_ok] at hpump hray
  simp only [Detector.watchedProgramIds] at hp hq
  rcases hpump with ⟨-, hpump⟩ | ⟨hpe, p₁, δ₁, hp₁, -, hpump⟩ <;>
    rcases hray with ⟨-, hray⟩ | ⟨hre, p₂, δ₂, hp₂, -, hray⟩
  · simp [hpump, hray] at hp
  · simp only [hpump, hray, Option.toList_none, Option.toList_some, List.nil_append,
      List.map_cons, List.map_nil, List.mem_singleton] at hp hq
    rw [hp, hq]
  · simp only [hpump, hray, Option.toList_none, Option.toList_some, List.append_nil,
      List.map_cons, List.map_nil, List.mem_singleton] at hp hq
    rw [hp, hq]
  · have hsame : p₁ = p₂ := by
      by_contra hne
      refine h ⟨hpe, hre, ?_⟩
      rw [hp₁, hp₂]
      simpa using hne
    subst hsame
    simp only [hpump, hray, Option.toList_some, List.cons_append, List.nil_append,
      List.map_cons, List.map_nil, List.mem_cons, List.not_mem_nil, or_false, or_self] at hp hq
    rw [hp, hq]

lemma matchers_of_two (hd : Detector.new ext targets = .ok d) (h : TwoPrograms ext targets) :
    ∃ m r, d.pumpfun = some m ∧ m.venue = .pumpFun ∧ d.raydium = some r ∧
      m.programId ≠ r.programId := by
  obtain ⟨hpe, hre, hne⟩ := h
  obtain ⟨hpump, hray⟩ := new_eq_ok.mp hd
  rw [matcherOf_eq_ok] at hpump hray
  rcases hpump with ⟨hoff, -⟩ | ⟨-, p₁, δ₁, hp₁, -, hpump⟩
  · rw [hpe] at hoff
    exact absurd hoff (by decide)
  rcases hray with ⟨hoff, -⟩ | ⟨-, p₂, δ₂, hp₂, -, hray⟩
  · rw [hre] at hoff
    exact absurd hoff (by decide)
  refine ⟨_, _, hpump, rfl, hray, ?_⟩
  rintro hsame
  rw [hp₁, hp₂] at hne
  exact hne (congrArg Except.ok hsame)

end Targets

/-! ### A launch of one program alone -/

/-- An instruction of the first key, which is also each of its eight accounts. -/
def loneInstruction (data : List UInt8) : Instruction where
  programIdIndex := 0
  accounts := List.replicate 8 0
  data := data

/-- A transaction with one key and that instruction. -/
def loneLaunch (p : Pubkey) (data : List UInt8) : TransactionInfo where
  signature := []
  isVote := false
  transaction := some ⟨some
    { accountKeys := [p.bytes], instructions := [loneInstruction data] }⟩
  statusMeta := none

lemma accountKeys_loneLaunch (p : Pubkey) (data : List UInt8) :
    accountKeys (loneLaunch p data) = [p] := by
  simp [accountKeys, keyBytes, loneLaunch]

lemma recognised_loneLaunch (ext : Codecs) {d : Detector} {m : ProgramMatcher}
    (hm : d.pumpfun = some m) (hv : m.venue = .pumpFun) (clock : ℕ → ℤ) (slot : ℕ) :
    Recognised ext d clock (loneLaunch m.programId m.discriminator.bytes) slot := by
  have hfilter : d.pumpfun.filter (·.programId = m.programId) = some m := by
    rw [hm]
    simp [Option.filter]
  have hmatch : d.matcherFor m.programId = some m := by
    unfold Detector.matcherFor
    rw [hfilter]
  have hkeys : walkKeys (loneLaunch m.programId m.discriminator.bytes) = [m.programId] := by
    simp [walkKeys, loneLaunch, staticKeys]
  have haccounts : ((loneInstruction m.discriminator.bytes).accounts.filterMap
      fun i => [m.programId][i.toNat]?) = List.replicate 8 m.programId := by
    rfl
  have hlaunch : ∃ ev, launchOf m (clock 0) m.discriminator.bytes
      (List.replicate 8 m.programId) (ext.bs58Encode []) slot = some ev := by
    unfold launchOf
    rw [hv]
    exact ⟨_, decodePumpfun_eq_some.mpr ⟨_, _, rfl, rfl, rfl⟩⟩
  obtain ⟨ev, hev⟩ := hlaunch
  have hemit : eventAt ext d clock (loneLaunch m.programId m.discriminator.bytes) slot
      (loneInstruction m.discriminator.bytes) 0 = some ev := by
    unfold eventAt instructionLaunch
    rw [hkeys, haccounts]
    refine decode_eq_some.mpr ⟨m, hmatch, ?_, ?_, hev⟩
    · exact m.discriminator.size.ge
    · exact List.take_of_length_le m.discriminator.size.le
  exact ⟨rfl, rfl, exists_extractLaunches.mpr ⟨_, 0, ev, rfl, hemit⟩⟩

/-! ### What is lost -/

/-- **What the subscription delivers of what the walk recognises.** Nothing is lost exactly
when the targets do not name two programs; when they do, a launch gets through exactly when
its transaction has both of them among its keys. -/
theorem admits_iff {ext : Codecs} (hext : ext.RoundTrip) {targets : TargetsConfig}
    {d : Detector} (hd : Detector.new ext targets = .ok d) :
    ((∀ clock info slot, Recognised ext d clock info slot →
        Admits ext (launchesFilter ext d) info) ↔ ¬ TwoPrograms ext targets) ∧
      ∀ clock info slot, Recognised ext d clock info slot →
        (Admits ext (launchesFilter ext d) info ↔
          ¬ TwoPrograms ext targets ∨ ∀ p ∈ d.watchedProgramIds, p ∈ accountKeys info) := by
  have hall : ¬ TwoPrograms ext targets → ∀ clock info slot,
      Recognised ext d clock info slot → ∀ p ∈ d.watchedProgramIds, p ∈ accountKeys info := by
    intro hone clock info slot hrec p hp
    obtain ⟨q, hq, hkey⟩ := watched_of_recognised hrec
    rw [watched_eq_of_not_two hd hone hp hq]
    exact hkey
  refine ⟨⟨?_, ?_⟩, ?_⟩
  · intro h htwo
    obtain ⟨m, r, hm, hv, hr, hne⟩ := matchers_of_two hd htwo
    have hrec := recognised_loneLaunch ext hm hv (fun _ => 0) 0
    have hadm := (admits_launchesFilter hext d hrec.vote hrec.success).mp (h _ _ _ hrec)
    have hkey := hadm r.programId (mem_watched.mpr ⟨r, .inr hr, rfl⟩)
    rw [accountKeys_loneLaunch, List.mem_singleton] at hkey
    exact hne hkey.symm
  · intro hone clock info slot hrec
    exact (admits_launchesFilter hext d hrec.vote hrec.success).mpr (hall hone _ _ _ hrec)
  · intro clock info slot hrec
    rw [admits_launchesFilter hext d hrec.vote hrec.success]
    refine ⟨.inr, ?_⟩
    rintro (hone | hkeys)
    · exact hall hone _ _ _ hrec
    · exact hkeys

theorem admits_iff_example : TwoPrograms crates exampleConfig.targets ∧
    ¬ ∀ clock info slot, Recognised crates exampleDetector clock info slot →
      Admits crates (launchesFilter crates exampleDetector) info := by
  have htwo : TwoPrograms crates exampleConfig.targets := by decide +kernel
  exact ⟨htwo, fun h => (admits_iff roundTrip_crates new_example).1.mp h htwo⟩

/-- A launch on Pump.fun, by a transaction that does not mention Raydium LaunchLab. -/
def createLaunch : TransactionInfo where
  signature := [1]
  isVote := false
  transaction := some ⟨some
    { accountKeys := pumpfunProgram.bytes ::
        (List.range 8).map fun i => List.replicate 32 (UInt8.ofNat i)
      instructions :=
        [{ programIdIndex := 0, accounts := [1, 2, 3, 4, 5, 6, 7, 8]
           data := [0x18, 0x1e, 0xc8, 0x28, 0x05, 0x1c, 0x07, 0x77] }] }⟩
  statusMeta := some
    { err := none, innerInstructions := []
      loadedWritableAddresses := [], loadedReadonlyAddresses := [] }

theorem createLaunch_not_admitted :
    Detector.new crates exampleConfig.targets = .ok exampleDetector ∧
      Recognised crates exampleDetector (fun _ => 0) createLaunch 1 ∧
      ¬ Admits crates (launchesFilter crates exampleDetector) createLaunch := by
  refine ⟨new_example, ⟨rfl, rfl, ?_⟩, ?_⟩
  · exact Option.isSome_iff_exists.mp (by decide +kernel)
  · decide +kernel

end NovaSniper.Subscription
