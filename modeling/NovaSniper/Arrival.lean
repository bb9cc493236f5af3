import NovaSniper.EndToEnd
import NovaSniper.Metadata
import NovaSniper.TaskRuns

/-!
The way of a create from the wire to its task.

A create of Pump.fun is written into an instruction as a program would write it: behind the
discriminator the three texts, each with its length in front, and the slots of its accounts in their
places. Where all of its slots are of the message, whatever else the transaction holds and however
the program takes turns, the launch with these texts and accounts comes to a task, or is on its way
to one.
-/

namespace NovaSniper.Arrival

open NovaSniper.FloatOps NovaSniper.Config NovaSniper.Solana NovaSniper.Detector
open NovaSniper.Listener NovaSniper.ListenerTask NovaSniper.Delivery NovaSniper.Metadata
open NovaSniper.BuyOnce NovaSniper.Wallet NovaSniper.Accounts
open NovaSniper.Startup NovaSniper.System NovaSniper.EndToEnd NovaSniper.TaskRuns
open NovaSniper.Lib.Transition NovaSniper.Lib.Transition.LTS NovaSniper.Lib.Bytes
open NovaSniper.Lib.Kept

/-! ### A create -/

/-- A text that fits the length in front of it. -/
structure Text where
  value : String
  fits : value.utf8ByteSize < 2 ^ 32

/-- What the caller of `create` says. -/
structure Create where
  mint : Pubkey
  creator : Pubkey
  pool : Option Pubkey
  name : Text
  symbol : Text
  uri : Text

/-- The data of the instruction, with anything behind the texts. -/
def Create.data (c : Create) (δ : Discriminator) (tail : List UInt8) : List UInt8 :=
  δ.bytes ++ (enc c.name.value ++ enc c.symbol.value ++ enc c.uri.value ++ tail)

/-- The launch, as it is observed. -/
def Create.event (c : Create) (signature : String) (slot observedAtMs : ℕ) : LaunchEvent where
  venue := .pumpFun
  signature := signature
  slot := slot
  mint := c.mint
  creator := c.creator
  pool := c.pool
  name := some c.name.value
  symbol := some c.symbol.value
  uri := some c.uri.value
  observedAtMs := observedAtMs

/-- The instruction makes the create: its program and accounts are the keys in the slots that it
names, of all the keys of the transaction. -/
structure Makes (programId : Pubkey) (δ : Discriminator) (info : TransactionInfo)
    (ix : Instruction) (c : Create) : Prop where
  program : resolve info ix.programIdIndex = some programId
  data : ∃ tail, ix.data = c.data δ tail
  mint : (namedSlots ix)[0]?.bind (resolve info) = some c.mint
  pool : (namedSlots ix)[2]?.bind (resolve info) = c.pool
  creator : (namedSlots ix)[7]?.bind (resolve info) = some c.creator

/-- All that the instruction names is among the keys of the message, none of them malformed. -/
structure Static (info : TransactionInfo) (ix : Instruction) : Prop where
  keys : WellFormed info
  program : ix.programIdIndex < (messageKeys info).length
  accounts : ∀ i ∈ ix.accounts, i.toNat < (messageKeys info).length

/-! ### What is read -/

section Read

variable {info : TransactionInfo} {ix : Instruction}

/-- The accounts of an instruction, as the walk resolves them. -/
def accountsOf (info : TransactionInfo) (ix : Instruction) : List Pubkey :=
  ix.accounts.filterMap fun i => (walkKeys info)[i.toNat]?

lemma map_resolve_namedSlots (h : Static info ix) :
    (namedSlots ix).map (resolve info) = (accountsOf info ix).map some := by
  rw [← seenSlots_of_wellFormed h.keys h.accounts]
  exact map_seenSlots info ix

/-- The walk looks up what stands in the slot, if the slot is of the message. -/
lemma getElem?_walkKeys (h : WellFormed info) (i : ℕ) : (walkKeys info)[i]? =
    if i < (messageKeys info).length then resolve info i else none := by
  rw [getElem?_eq_bind (map_keptSlots info) i, keptSlots_of_wellFormed h]
  split_ifs with hi
  · rw [List.getElem?_range hi, Option.bind_some]
  · rw [List.getElem?_eq_none (by simpa using hi), Option.bind_none]

end Read

/-! ### It is decoded -/

section Decode

variable {ext : Codecs} {d : Detector} {programId : Pubkey} {δ : Discriminator}
  {info : TransactionInfo} {ix : Instruction} {c : Create}

lemma decodeBorshStrings_data (c : Create) (δ : Discriminator) (tail : List UInt8) :
    decodeBorshStrings ((c.data δ tail).drop 8) =
      (some c.name.value, some c.symbol.value, some c.uri.value) := by
  unfold Create.data
  rw [List.drop_left' δ.size]
  exact decodeBorshStrings_enc c.name.fits c.symbol.fits c.uri.fits tail

/-- The walk emits the launch of the create. -/
lemma eventAt_of_makes (hd : d.pumpfun = some ⟨programId, δ, .pumpFun⟩)
    (h : Makes programId δ info ix c) (hstatic : Static info ix) (clock : ℕ → ℤ) (slot k : ℕ) :
    eventAt ext d clock info slot ix k =
      some (c.event (ext.bs58Encode info.signature) slot (max (clock k) 0).toNat) := by
  obtain ⟨tail, hdata⟩ := h.data
  have hmatcher : d.matcherFor programId = some ⟨programId, δ, .pumpFun⟩ := by
    simp [Detector.matcherFor, hd, Option.filter]
  have hlen : 8 ≤ ix.data.length := by
    rw [hdata, Create.data, List.length_append, δ.size]
    omega
  have htake : ix.data.take 8 = δ.bytes := by
    rw [hdata, Create.data, List.take_left' δ.size]
  have haccount : ∀ j : ℕ, (accountsOf info ix)[j]? = (namedSlots ix)[j]?.bind (resolve info) :=
    getElem?_eq_bind (map_resolve_namedSlots hstatic)
  have hdecode : d.decode (clock k) programId ix.data (accountsOf info ix)
      (ext.bs58Encode info.signature) slot =
      some (c.event (ext.bs58Encode info.signature) slot (max (clock k) 0).toNat) := by
    refine decode_eq_some.mpr ⟨_, hmatcher, hlen, htake, ?_⟩
    refine decodePumpfun_eq_some.mpr ⟨c.mint, c.creator, ?_, ?_, ?_⟩
    · rw [haccount, h.mint]
    · rw [haccount, h.creator]
    · rw [hdata, decodeBorshStrings_data, haccount, h.pool]
      rfl
  unfold eventAt instructionLaunch
  rw [getElem?_walkKeys hstatic.keys, if_pos hstatic.program, h.program]
  exact hdecode

/-- The events of an update are those that the walk emits for its instructions. -/
lemma mem_updateEvents_iff {update : SubscribeUpdate} {clock : ℕ → ℤ} {ev : LaunchEvent} :
    ev ∈ updateEvents ext d update clock ↔ ∃ info slot ix k,
      transactionOf update = some (info, slot) ∧ (allInstructions info)[k]? = some ix ∧
        eventAt ext d clock info slot ix k = some ev := by
  unfold updateEvents decoded
  cases transactionOf update with
  | none => simp
  | some t =>
    obtain ⟨info, slot⟩ := t
    rw [Option.toList_some, List.flatMap_singleton, List.mem_filterMap]
    refine ⟨?_, ?_⟩
    · rintro ⟨⟨ix, k⟩, hmem, hev⟩
      exact ⟨info, slot, ix, k, rfl, List.mem_zipIdx_iff_getElem?.mp hmem, hev⟩
    · rintro ⟨info', slot', ix, k, htx, hix, hev⟩
      obtain ⟨rfl, rfl⟩ := Prod.mk.inj (Option.some.inj htx)
      exact ⟨(ix, k), List.mem_zipIdx_iff_getElem?.mpr hix, hev⟩

variable (ext) in
/-- So does the handling of an update that holds it. -/
lemma mem_updateEvents (slot : ℕ) {k : ℕ} (hd : d.pumpfun = some ⟨programId, δ, .pumpFun⟩)
    (hix : (allInstructions info)[k]? = some ix) (h : Makes programId δ info ix c)
    (hstatic : Static info ix) (clock : ℕ → ℤ) :
    c.event (ext.bs58Encode info.signature) slot (max (clock k) 0).toNat ∈
      updateEvents ext d ⟨some (.transaction ⟨some info, slot⟩)⟩ clock :=
  mem_updateEvents_iff.mpr
    ⟨info, slot, ix, k, rfl, hix, eventAt_of_makes hd h hstatic clock slot k⟩

end Decode

/-! ### It arrives -/

section Run

variable {F K : Type} [F64 F] {host : Host K} {simulate : Bool} {cfg : Config F}
  {p : Program F K} {ls : List Label} {s : State F K}

/-- The detector of a program that started with Pump.fun enabled. -/
lemma pumpfun_of_built (hbuilt : Built host simulate cfg p)
    (henabled : cfg.targets.pumpfun.enabled = true) {programId : Pubkey} {δ : Discriminator}
    (hprogram : host.crates.codecs.parsePubkey cfg.targets.pumpfun.programId = .ok programId)
    (hδ : parseDiscriminator host.crates.codecs cfg.targets.pumpfun.createDiscriminator = .ok δ) :
    p.detector.pumpfun = some ⟨programId, δ, .pumpFun⟩ := by
  obtain ⟨hpumpfun, -⟩ := new_eq_ok.mp hbuilt.detector
  rcases matcherOf_eq_ok.mp hpumpfun with ⟨hdisabled, -⟩ | ⟨-, p', δ', hp', hδ', hd⟩
  · rw [henabled] at hdisabled
    cases hdisabled
  · rw [hprogram] at hp'
    rw [hδ] at hδ'
    obtain rfl := Except.ok.inj hp'
    obtain rfl := Except.ok.inj hδ'
    exact hd

/-- **A create arrives as it was written.** Let the program have started with Pump.fun enabled, and
have received a transaction of which some instruction, outer or inner, makes a create and names
nothing behind a lookup table. As long as the program receives, the launch with exactly the texts
and accounts of the create, and with the signature and the slot of the transaction, has been given
to a task or is on its way to one. -/
theorem create_arrives (hbuilt : Built host simulate cfg p)
    (henabled : cfg.targets.pumpfun.enabled = true) (programId : Pubkey) {δ : Discriminator}
    (hprogram : host.crates.codecs.parsePubkey cfg.targets.pumpfun.programId = .ok programId)
    (hδ : parseDiscriminator host.crates.codecs cfg.targets.pumpfun.createDiscriminator = .ok δ)
    (h : (system host.crates p).Trace ls s) (hs : s.loop ≠ .left) {info : TransactionInfo}
    {slot k : ℕ} {clock : ℕ → ℤ} {ix : Instruction} {c : Create}
    (hreceived : .listener (.received ⟨.ok ⟨some (.transaction ⟨some info, slot⟩)⟩, clock⟩) ∈ ls)
    (hix : (allInstructions info)[k]? = some ix) (hmakes : Makes programId δ info ix c)
    (hstatic : Static info ix) :
    c.event (host.crates.codecs.bs58Encode info.signature) slot (max (clock k) 0).toNat ∈
      s.tasks.map (·.launch) ++ onTheWay s := by
  have hd := pumpfun_of_built hbuilt henabled hprogram hδ
  have hdecoded := mem_updateEvents host.crates.codecs slot hd hix hmakes hstatic clock
  rw [← launches_split h hs, List.mem_flatMap]
  exact ⟨_, hreceived, hdecoded⟩

end Run

/-! ### A create with its texts -/

def dogeCreate : Create where
  mint := .default
  creator := (Pubkey.tryFrom (List.replicate 32 7)).getD .default
  pool := Pubkey.tryFrom (List.replicate 32 2)
  name := ⟨"Doge", by decide⟩
  symbol := ⟨"DOGE", by decide⟩
  uri := ⟨"", by decide⟩

def createBytes : List UInt8 := [0x18, 0x1e, 0xc8, 0x28, 0x05, 0x1c, 0x07, 0x77]

lemma length_createBytes : createBytes.length = 8 := rfl

/-- The create of the example with texts, and two bytes behind them. -/
def dogeInstruction : Instruction :=
  { createWith [1, 2, 3, 4, 5, 6, 7, 8] with
    data := dogeCreate.data ⟨createBytes, length_createBytes⟩ [1, 2] }

def dogeInfo : TransactionInfo := routedLaunch dogeInstruction

def dogeUpdate : Received := ⟨.ok ⟨some (.transaction ⟨some dogeInfo, 1⟩)⟩, fun _ => 0⟩

def dogeSession : Session := { wrappedSession with stream := [dogeUpdate] }

lemma makes_example : Makes pumpfunProgram ⟨createBytes, length_createBytes⟩ dogeInfo
    dogeInstruction dogeCreate where
  program := by decide +kernel
  data := ⟨[1, 2], rfl⟩
  mint := by decide +kernel
  pool := by decide +kernel
  creator := by decide +kernel

lemma static_example : Static dogeInfo dogeInstruction where
  keys := show ∀ bs ∈ messageKeys dogeInfo, bs.length = 32 by decide +kernel
  program := by decide +kernel
  accounts := by decide +kernel

/-- Right after the update was received, the launch is with the listener. -/
theorem create_arrives_example : ∃ s, (system exampleCrates exampleProgram).Trace
    [.listener (.connected 0 dogeSession), .listener (.received dogeUpdate)] s ∧
      dogeCreate.event "2" 1 0 ∈ s.tasks.map (·.launch) ++ onTheWay s := by
  have h₀ : (system exampleCrates exampleProgram).Trace [] (initial exampleProgram) := .start rfl
  have h₁ := h₀.snoc (.listener (.connect dogeSession) trivial)
  have hconnected : ListenerPhase.afterConnect exampleCrates.codecs exampleProgram.rpc
      exampleProgram.detector dogeSession = .streaming [dogeUpdate] [] := rfl
  rw [hconnected] at h₁
  have h₂ := h₁.snoc (.listener .receive trivial)
  exact ⟨_, h₂, create_arrives built_example rfl pumpfunProgram
    (by decide +kernel) (by decide +kernel) h₂ nofun (List.mem_cons_of_mem _
      (List.mem_singleton.mpr rfl)) (k := 0) rfl makes_example static_example⟩

end NovaSniper.Arrival
