import NovaSniper.Listener
import NovaSniper.Lib.Kept

/-!
The accounts an event names, against the accounts its instruction names.

An instruction refers to its accounts by slot in the full key list. The walk drops keys that
are not 32 bytes long, then the account indices beyond the keys it kept, and only then looks
at fixed places; so the slot it reads for a place need not be the slot named there.
-/

namespace NovaSniper.Accounts

open NovaSniper.Solana NovaSniper.Detector NovaSniper.Listener NovaSniper.Lib.Kept

/-! ### What an instruction names -/

/-- A slot of the full key list; a malformed key keeps its slot and does not resolve. -/
def resolve (info : TransactionInfo) (slot : ℕ) : Option Pubkey :=
  (keyBytes info)[slot]?.bind Pubkey.tryFrom

/-- The three roles that a launch event fills from the accounts of its instruction. -/
@[ext]
structure Roles (α : Type) where
  mint : Option α
  creator : Option α
  pool : Option α
  deriving DecidableEq

/-- The places of the roles, by venue. -/
def roles {α : Type} (v : Venue) (xs : List α) : Roles α :=
  match v with
  | .pumpFun => { mint := xs[0]?, creator := xs[7]?, pool := xs[2]? }
  | .raydiumLaunchLab => { mint := xs[1]?, creator := xs.getLast?, pool := xs[0]? }

def Roles.bind {α β : Type} (r : Roles α) (f : α → Option β) : Roles β where
  mint := r.mint.bind f
  creator := r.creator.bind f
  pool := r.pool.bind f

/-- The roles of an event, as it fills them. -/
def filled (ev : LaunchEvent) : Roles Pubkey where
  mint := some ev.mint
  creator := some ev.creator
  pool := ev.pool

/-- The slots that an instruction names. -/
def namedSlots (ix : Instruction) : List ℕ := ix.accounts.map UInt8.toNat

/-- **The event names the accounts of its instruction.** -/
def RightAccounts (info : TransactionInfo) (ix : Instruction) (ev : LaunchEvent) : Prop :=
  filled ev = (roles ev.venue (namedSlots ix)).bind (resolve info)

instance (info : TransactionInfo) (ix : Instruction) (ev : LaunchEvent) :
    Decidable (RightAccounts info ix ev) :=
  inferInstanceAs (Decidable (filled ev = _))

/-! ### What the walk reads -/

/-- The slots of the keys that the walk keeps. -/
def keptSlots (info : TransactionInfo) : List ℕ :=
  ((info.transaction.bind (·.message)).map fun message =>
    kept Pubkey.tryFrom message.accountKeys).getD []

/-- The slots behind the accounts that the walk hands to the decoder. -/
def seenSlots (info : TransactionInfo) (ix : Instruction) : List ℕ :=
  ix.accounts.filterMap fun i => (keptSlots info)[i.toNat]?

/-- The venue whose matcher takes the instruction. -/
def venueOf (d : Detector) (info : TransactionInfo) (ix : Instruction) : Option Venue :=
  ((walkKeys info)[ix.programIdIndex]?.bind d.matcherFor).map (·.venue)

/-- In each role, the slot read and the slot named hold the same key. -/
def SlotsMatch (d : Detector) (info : TransactionInfo) (ix : Instruction) : Prop :=
  ∀ v ∈ venueOf d info ix, (roles v (seenSlots info ix)).bind (resolve info) =
    (roles v (namedSlots ix)).bind (resolve info)

/-- In each role, the slot read is the slot named. -/
def SlotsAgree (d : Detector) (info : TransactionInfo) (ix : Instruction) : Prop :=
  ∀ v ∈ venueOf d info ix, roles v (seenSlots info ix) =
    (roles v (namedSlots ix)).bind fun s => if (resolve info s).isSome then some s else none

/-- No key occupies two slots. -/
def KeysDistinct (info : TransactionInfo) : Prop :=
  ∀ s t, (resolve info s).isSome → resolve info s = resolve info t → s = t

lemma map_keptSlots (info : TransactionInfo) :
    (keptSlots info).map (resolve info) = (walkKeys info).map some := by
  unfold keptSlots walkKeys staticKeys
  cases hmsg : info.transaction.bind (·.message) with
  | none => rfl
  | some message =>
    simp only [Option.map_some, Option.getD_some]
    rw [← map_kept]
    refine List.map_congr_left ?_
    intro s hs
    unfold resolve keyBytes
    rw [hmsg, Option.map_some, Option.getD_some, List.append_assoc,
      List.getElem?_append_left (lt_of_mem_kept hs)]

lemma map_seenSlots (info : TransactionInfo) (ix : Instruction) :
    (seenSlots info ix).map (resolve info) =
      (ix.accounts.filterMap fun i => (walkKeys info)[i.toNat]?).map some :=
  map_filterMap_getElem? (map_keptSlots info) ix.accounts UInt8.toNat

lemma roles_bind {α β : Type} {xs : List α} {ys : List β} {f : α → Option β}
    (h : xs.map f = ys.map some) (v : Venue) : (roles v xs).bind f = roles v ys := by
  cases v with
  | pumpFun =>
    simp only [roles, Roles.bind, ← getElem?_eq_bind h]
  | raydiumLaunchLab =>
    simp only [roles, Roles.bind, ← getElem?_eq_bind h, ← getLast?_eq_bind h]

/-! ### What the decoder fills -/

lemma filled_of_launchOf {m : ProgramMatcher} {nowMs : ℤ} {data : List UInt8}
    {accounts : List Pubkey} {signature : String} {slot : ℕ} {ev : LaunchEvent}
    (h : launchOf m nowMs data accounts signature slot = some ev) :
    ev.venue = m.venue ∧ filled ev = roles m.venue accounts := by
  rcases launchOf_cases h with ⟨hv, hdec⟩ | ⟨hv, hdec⟩
  · obtain ⟨mint, creator, hm, hc, rfl⟩ := decodePumpfun_eq_some.mp hdec
    rw [hv]
    exact ⟨rfl, by simp only [filled, roles, hm, hc]⟩
  · obtain ⟨mint, creator, hm, hc, rfl⟩ := decodeRaydium_eq_some.mp hdec
    rw [hv]
    exact ⟨rfl, by simp only [filled, roles, hm, hc]⟩

/-! ### When they are the same -/

section Emitted

variable {ext : Codecs} {d : Detector} {clock : ℕ → ℤ} {info : TransactionInfo} {slot k : ℕ}
  {ix : Instruction} {ev : LaunchEvent}

lemma filled_eq (hev : eventAt ext d clock info slot ix k = some ev) :
    venueOf d info ix = some ev.venue ∧
      filled ev = (roles ev.venue (seenSlots info ix)).bind (resolve info) := by
  obtain ⟨p, m, hp, hm, hlaunch⟩ := eventAt_eq_some hev
  obtain ⟨hvenue, hfilled⟩ := filled_of_launchOf hlaunch
  refine ⟨?_, ?_⟩
  · unfold venueOf
    rw [hp, Option.bind_some, hm, hvenue]
    rfl
  · rw [hfilled, hvenue, roles_bind (map_seenSlots info ix)]

/-- Every slot that the walk reads resolves. -/
lemma resolve_of_mem_seen {s : ℕ} (hs : s ∈ seenSlots info ix) : (resolve info s).isSome := by
  have hmem : resolve info s ∈ (seenSlots info ix).map (resolve info) := List.mem_map_of_mem hs
  rw [map_seenSlots] at hmem
  obtain ⟨p, -, hp⟩ := List.mem_map.mp hmem
  rw [← hp]
  rfl

/-- With no key in two slots, a slot read and a slot named hold the same key exactly when
they are the same slot. -/
lemma slot_eq_iff (hdist : KeysDistinct info) {seen named : Option ℕ}
    (hseen : ∀ s ∈ seen, (resolve info s).isSome) :
    seen.bind (resolve info) = named.bind (resolve info) ↔
      seen = named.bind fun s => if (resolve info s).isSome then some s else none := by
  cases seen with
  | none =>
    cases named with
    | none => simp
    | some t => cases ht : resolve info t <;> simp [ht]
  | some s =>
    have hs := hseen s rfl
    cases named with
    | none => simpa [← Option.isSome_iff_ne_none] using hs
    | some t =>
      simp only [Option.bind_some]
      refine ⟨?_, ?_⟩
      · intro h
        rw [if_pos (h ▸ hs), hdist s t hs h]
      · intro h
        split_ifs at h with ht
        rw [Option.some.inj h]

lemma slotsMatch_iff_slotsAgree (hdist : KeysDistinct info) :
    SlotsMatch d info ix ↔ SlotsAgree d info ix := by
  refine forall₂_congr fun v _ => ?_
  have hmem : ∀ o : Option ℕ, (∀ s ∈ o, s ∈ seenSlots info ix) →
      ∀ s ∈ o, (resolve info s).isSome := fun o ho s hs => resolve_of_mem_seen (ho s hs)
  have hget : ∀ j : ℕ, ∀ s ∈ (seenSlots info ix)[j]?, s ∈ seenSlots info ix :=
    fun j s hs => List.mem_of_getElem? hs
  have hlast : ∀ s ∈ (seenSlots info ix).getLast?, s ∈ seenSlots info ix :=
    fun s hs => List.mem_of_getLast? hs
  rw [Roles.ext_iff, Roles.ext_iff]
  cases v with
  | pumpFun =>
    simp only [roles, Roles.bind]
    rw [slot_eq_iff hdist (hmem _ (hget 0)), slot_eq_iff hdist (hmem _ (hget 7)),
      slot_eq_iff hdist (hmem _ (hget 2))]
  | raydiumLaunchLab =>
    simp only [roles, Roles.bind]
    rw [slot_eq_iff hdist (hmem _ (hget 1)), slot_eq_iff hdist (hmem _ hlast),
      slot_eq_iff hdist (hmem _ (hget 0))]

/-- The keys of the message, without those that are loaded from lookup tables. -/
def messageKeys (info : TransactionInfo) : List (List UInt8) :=
  ((info.transaction.bind (·.message)).map (·.accountKeys)).getD []

/-- No key of the message is malformed. -/
def WellFormed (info : TransactionInfo) : Prop := ∀ bs ∈ messageKeys info, bs.length = 32

lemma keptSlots_of_wellFormed (h : WellFormed info) :
    keptSlots info = List.range (messageKeys info).length := by
  have hall : ∀ bs ∈ messageKeys info, (Pubkey.tryFrom bs).isSome := by
    intro bs hbs
    unfold Pubkey.tryFrom
    rw [dif_pos (h bs hbs)]
    rfl
  rw [← kept_eq_range hall]
  unfold keptSlots messageKeys
  cases info.transaction.bind (·.message) <;> rfl

/-- What is read of an instruction that names only keys of the message is what it names. -/
lemma seenSlots_of_wellFormed (h : WellFormed info)
    (hix : ∀ i ∈ ix.accounts, i.toNat < (messageKeys info).length) :
    seenSlots info ix = namedSlots ix := by
  unfold seenSlots namedSlots
  rw [keptSlots_of_wellFormed h, ← List.filterMap_eq_map]
  refine List.filterMap_congr fun i hi => ?_
  rw [List.getElem?_range (hix i hi)]
  rfl

/-- Nothing shifts when the message keys are well formed and the instruction refers to
no others. -/
lemma slotsMatch_of_static {message : Message}
    (hmsg : info.transaction.bind (·.message) = some message)
    (hkeys : ∀ bs ∈ message.accountKeys, bs.length = 32)
    (hix : ∀ i ∈ ix.accounts, i.toNat < message.accountKeys.length) :
    SlotsMatch d info ix := by
  have heq : messageKeys info = message.accountKeys := by
    unfold messageKeys
    rw [hmsg]
    rfl
  rw [← heq] at hkeys hix
  intro v _
  rw [seenSlots_of_wellFormed hkeys hix]

/-- **When an event names the right accounts.** For every instruction that emits an event:
the event names the accounts of the instruction exactly when the slots that the walk reads
hold the keys of the slots that are named; and if no key occupies two slots, exactly when
they are the same slots. -/
theorem rightAccounts_iff (hix : (instructions info)[k]? = some ix)
    (hev : eventAt ext d clock info slot ix k = some ev) :
    ev ∈ (extractLaunches ext d clock info slot).getD [] ∧
      (RightAccounts info ix ev ↔ SlotsMatch d info ix) ∧
      (KeysDistinct info → (RightAccounts info ix ev ↔ SlotsAgree d info ix)) := by
  obtain ⟨hvenue, hfilled⟩ := filled_eq hev
  have hiff : RightAccounts info ix ev ↔ SlotsMatch d info ix := by
    unfold RightAccounts SlotsMatch
    rw [hvenue, hfilled]
    simp
  refine ⟨mem_extractLaunches.mpr ⟨ix, k, hix, hev⟩, hiff, fun hdist => ?_⟩
  rw [hiff, slotsMatch_iff_slotsAgree hdist]

end Emitted

/-- A Pump.fun launch through a lookup table that holds slot 9 of the full key list. -/
def routedLaunch (create : Instruction) : TransactionInfo where
  signature := [1]
  isVote := false
  transaction := some ⟨some
    { accountKeys := pumpfunProgram.bytes ::
        (List.range 8).map fun i => List.replicate 32 (UInt8.ofNat i)
      instructions := [create] }⟩
  statusMeta := some
    { err := none, innerInstructions := [], loadedWritableAddresses := []
      loadedReadonlyAddresses := [List.replicate 32 9] }

def createWith (accounts : List UInt8) : Instruction where
  programIdIndex := 0
  accounts := accounts
  data := [0x18, 0x1e, 0xc8, 0x28, 0x05, 0x1c, 0x07, 0x77]

theorem rightAccounts_iff_example :
    ∃ ev, eventAt crates exampleDetector (fun _ => 0)
        (routedLaunch (createWith [1, 2, 3, 4, 5, 6, 7, 8])) 1
        (createWith [1, 2, 3, 4, 5, 6, 7, 8]) 0 = some ev ∧
      RightAccounts (routedLaunch (createWith [1, 2, 3, 4, 5, 6, 7, 8]))
        (createWith [1, 2, 3, 4, 5, 6, 7, 8]) ev := by
  obtain ⟨ev, hev⟩ := Option.isSome_iff_exists.mp
    (show (eventAt crates exampleDetector (fun _ => 0)
      (routedLaunch (createWith [1, 2, 3, 4, 5, 6, 7, 8])) 1
      (createWith [1, 2, 3, 4, 5, 6, 7, 8]) 0).isSome by decide +kernel)
  refine ⟨ev, hev, (rightAccounts_iff rfl hev).2.1.mpr (slotsMatch_of_static rfl ?_ ?_)⟩
  · decide
  · decide +kernel

/-- With the second account behind the lookup table, every later one moves up a place. -/
theorem routedLaunch_wrong :
    let create := createWith [1, 9, 2, 3, 4, 5, 6, 7, 8]
    (extractLaunches crates exampleDetector (fun _ => 0) (routedLaunch create) 1).isSome ∧
      ∀ ev ∈ (extractLaunches crates exampleDetector (fun _ => 0) (routedLaunch create) 1).getD [],
        ¬ RightAccounts (routedLaunch create) create ev := by
  decide +kernel

end NovaSniper.Accounts
