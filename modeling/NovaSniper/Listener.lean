import NovaSniper.Detector

/-!
The Geyser listener: the messages it receives, the subscription it asks for, and the walk
over the instructions of a transaction.

Keys arrive as byte strings. The walk keeps those of 32 bytes, and of the account indices
of an instruction those that are in range of the keys it kept.
-/

namespace NovaSniper.Listener

open NovaSniper.Config NovaSniper.Solana NovaSniper.Detector

/-! ### Messages -/

/-- A compiled instruction; an inner one has the same three fields. -/
structure Instruction where
  programIdIndex : ℕ
  accounts : List UInt8
  data : List UInt8
  deriving DecidableEq

structure Message where
  accountKeys : List (List UInt8)
  instructions : List Instruction
  deriving DecidableEq

structure Transaction where
  message : Option Message
  deriving DecidableEq

structure InnerInstructions where
  instructions : List Instruction
  deriving DecidableEq

structure TransactionStatusMeta where
  err : Option (List UInt8)
  innerInstructions : List InnerInstructions
  loadedWritableAddresses : List (List UInt8)
  loadedReadonlyAddresses : List (List UInt8)
  deriving DecidableEq

/-- `SubscribeUpdateTransactionInfo`. -/
structure TransactionInfo where
  signature : List UInt8
  isVote : Bool
  transaction : Option Transaction
  statusMeta : Option TransactionStatusMeta
  deriving DecidableEq

/-- `SubscribeRequestFilterTransactions`. -/
structure TransactionFilter where
  vote : Option Bool
  failed : Option Bool
  signature : Option String
  accountInclude : List String
  accountExclude : List String
  accountRequired : List String
  deriving DecidableEq

inductive CommitmentLevel
  | processed | confirmed | finalized
  deriving DecidableEq

structure SubscribeRequest where
  transactions : List (String × TransactionFilter)
  commitment : Option CommitmentLevel
  deriving DecidableEq

/-! ### The subscription -/

def parseCommitment (s : String) : CommitmentLevel :=
  -- no letter outside ASCII has a lower case that occurs in either word
  if s.toLower = "finalized" then .finalized
  else if s.toLower = "confirmed" then .confirmed
  else .processed

/-- The filter `run_once` builds from the watched programs. -/
def launchesFilter (ext : Codecs) (d : Detector) : TransactionFilter where
  vote := some false
  failed := some false
  signature := none
  accountInclude := []
  accountExclude := []
  accountRequired := d.watchedProgramIds.map ext.showPubkey

def subscribeRequest (ext : Codecs) (cfg : RpcConfig) (d : Detector) : SubscribeRequest where
  transactions := [("launches", launchesFilter ext d)]
  commitment := some (parseCommitment cfg.commitment)

/-! ### The walk -/

/-- The keys of the message that are 32 bytes long. -/
def staticKeys (message : Message) : List Pubkey :=
  message.accountKeys.filterMap Pubkey.tryFrom

/-- The body of both loops: an instruction whose program is in range, decoded with those of
its accounts that are in range. -/
def instructionLaunch (d : Detector) (accountKeys : List Pubkey) (signature : String)
    (slot : ℕ) (nowMs : ℤ) (ix : Instruction) : Option LaunchEvent := do
  let programId ← accountKeys[ix.programIdIndex]?
  let accounts := ix.accounts.filterMap fun i => accountKeys[i.toNat]?
  d.decode nowMs programId ix.data accounts signature slot

/-- One turn of a loop: what has been pushed, and how many instructions were walked. The
clock is read once for each instruction. -/
def walkStep (d : Detector) (accountKeys : List Pubkey) (signature : String) (slot : ℕ)
    (clock : ℕ → ℤ) (acc : List LaunchEvent × ℕ) (ix : Instruction) : List LaunchEvent × ℕ :=
  match instructionLaunch d accountKeys signature slot (clock acc.2) ix with
  | some ev => (acc.1 ++ [ev], acc.2 + 1)
  | none => (acc.1, acc.2 + 1)

/-- `extract_launches`. -/
def extractLaunches (ext : Codecs) (d : Detector) (clock : ℕ → ℤ) (info : TransactionInfo)
    (slot : ℕ) : Option (List LaunchEvent) := do
  let tx ← info.transaction
  let message ← tx.message
  let accountKeys := staticKeys message
  let signature := ext.bs58Encode info.signature
  let step := walkStep d accountKeys signature slot clock
  let outer := message.instructions.foldl step ([], 0)
  let (out, _) := match info.statusMeta with
    | some m => m.innerInstructions.foldl
        (fun acc (inner : InnerInstructions) => inner.instructions.foldl step acc) outer
    | none => outer
  if out.isEmpty then none else some out

/-! ### What the walk emits -/

/-- The instructions in the order of the walk: the outer ones, then the inner ones. -/
def instructions (info : TransactionInfo) : List Instruction :=
  match info.transaction.bind (·.message) with
  | none => []
  | some message => message.instructions ++
      (info.statusMeta.toList.flatMap (·.innerInstructions)).flatMap (·.instructions)

/-- The keys that indices are resolved against during the walk. -/
def walkKeys (info : TransactionInfo) : List Pubkey :=
  ((info.transaction.bind (·.message)).map staticKeys).getD []

/-- The event that the walk emits for the `k`-th instruction, if any. -/
def eventAt (ext : Codecs) (d : Detector) (clock : ℕ → ℤ) (info : TransactionInfo) (slot : ℕ)
    (ix : Instruction) (k : ℕ) : Option LaunchEvent :=
  instructionLaunch d (walkKeys info) (ext.bs58Encode info.signature) slot (clock k) ix

/-! ### The full key list -/

/-- The key bytes of a transaction: those of the message, then the addresses loaded from
lookup tables, writable ones first. -/
def keyBytes (info : TransactionInfo) : List (List UInt8) :=
  ((info.transaction.bind (·.message)).map (·.accountKeys)).getD [] ++
    (info.statusMeta.map (·.loadedWritableAddresses)).getD [] ++
    (info.statusMeta.map (·.loadedReadonlyAddresses)).getD []

/-- The account keys of a transaction. -/
def accountKeys (info : TransactionInfo) : List Pubkey :=
  (keyBytes info).filterMap Pubkey.tryFrom

lemma walkKeys_subset (info : TransactionInfo) : walkKeys info ⊆ accountKeys info := by
  intro p hp
  unfold walkKeys at hp
  unfold accountKeys keyBytes
  cases hmsg : info.transaction.bind (·.message) with
  | none => simp [hmsg] at hp
  | some message =>
    simp only [hmsg, Option.map_some, Option.getD_some] at hp ⊢
    rw [List.filterMap_append, List.filterMap_append]
    exact List.mem_append_left _ (List.mem_append_left _ hp)

/-! ### What the walk returns -/

lemma foldl_walkStep (d : Detector) (keys : List Pubkey) (signature : String) (slot : ℕ)
    (clock : ℕ → ℤ) (ixs : List Instruction) (out : List LaunchEvent) (n : ℕ) :
    ixs.foldl (walkStep d keys signature slot clock) (out, n) =
      (out ++ (ixs.zipIdx n).filterMap
        fun p => instructionLaunch d keys signature slot (clock p.2) p.1, n + ixs.length) := by
  induction ixs generalizing out n with
  | nil => simp
  | cons ix ixs ih =>
    have hlen : n + 1 + ixs.length = n + (ixs.length + 1) := by omega
    cases hev : instructionLaunch d keys signature slot (clock n) ix with
    | none => simp [walkStep, hev, ih, hlen]
    | some ev => simp [walkStep, hev, ih, hlen]

/-- **The walk is a filter.** `extract_launches` returns the events of the instructions, in
order, and nothing when there are none. -/
theorem extractLaunches_eq (ext : Codecs) (d : Detector) (clock : ℕ → ℤ)
    (info : TransactionInfo) (slot : ℕ) :
    extractLaunches ext d clock info slot =
      let out := (instructions info).zipIdx.filterMap
        fun p => eventAt ext d clock info slot p.1 p.2
      if out.isEmpty then none else some out := by
  rcases info with ⟨sig, vote, _ | ⟨_ | message⟩, _ | m⟩
  · rfl
  · rfl
  · rfl
  · rfl
  · simp only [extractLaunches, instructions, eventAt, walkKeys, Option.bind_eq_bind,
      Option.bind_some, Option.map_some, Option.getD_some, Option.toList_none,
      List.flatMap_nil, List.append_nil]
    rw [foldl_walkStep, List.nil_append]
  · simp only [extractLaunches, instructions, eventAt, walkKeys, Option.bind_eq_bind,
      Option.bind_some, Option.map_some, Option.getD_some, Option.toList_some,
      List.flatMap_cons, List.flatMap_nil, List.append_nil]
    rw [← List.foldl_flatMap, ← List.foldl_append, foldl_walkStep, List.nil_append]

/-- An event is returned exactly when some instruction emits it. -/
lemma mem_extractLaunches {ext : Codecs} {d : Detector} {clock : ℕ → ℤ}
    {info : TransactionInfo} {slot : ℕ} {ev : LaunchEvent} :
    ev ∈ (extractLaunches ext d clock info slot).getD [] ↔
      ∃ ix k, (instructions info)[k]? = some ix ∧
        eventAt ext d clock info slot ix k = some ev := by
  have hout : (extractLaunches ext d clock info slot).getD [] =
      (instructions info).zipIdx.filterMap fun p => eventAt ext d clock info slot p.1 p.2 := by
    rw [extractLaunches_eq]
    simp only
    split_ifs with h
    · simpa using h
    · rfl
  rw [hout, List.mem_filterMap]
  refine ⟨?_, ?_⟩
  · rintro ⟨⟨ix, k⟩, hmem, hev⟩
    exact ⟨ix, k, List.mem_zipIdx_iff_getElem?.mp hmem, hev⟩
  · rintro ⟨ix, k, hk, hev⟩
    exact ⟨(ix, k), List.mem_zipIdx_iff_getElem?.mpr hk, hev⟩

/-- The walk returns something exactly when some instruction emits an event. -/
lemma exists_extractLaunches {ext : Codecs} {d : Detector} {clock : ℕ → ℤ}
    {info : TransactionInfo} {slot : ℕ} :
    (∃ out, extractLaunches ext d clock info slot = some out) ↔
      ∃ ix k ev, (instructions info)[k]? = some ix ∧
        eventAt ext d clock info slot ix k = some ev := by
  refine ⟨?_, ?_⟩
  · rintro ⟨out, hout⟩
    have hne : out ≠ [] := by
      rintro rfl
      rw [extractLaunches_eq] at hout
      simp only at hout
      split_ifs at hout with h
      rw [Option.some.injEq] at hout
      simp [hout] at h
    obtain ⟨ev, hev⟩ := List.exists_mem_of_ne_nil out hne
    obtain ⟨ix, k, hk, hev'⟩ := mem_extractLaunches.mp
      (show ev ∈ (extractLaunches ext d clock info slot).getD [] by rw [hout]; exact hev)
    exact ⟨ix, k, ev, hk, hev'⟩
  · rintro ⟨ix, k, ev, hk, hev⟩
    have hmem := mem_extractLaunches.mpr ⟨ix, k, hk, hev⟩
    cases hout : extractLaunches ext d clock info slot with
    | none => simp [hout] at hmem
    | some out => exact ⟨out, rfl⟩

/-- An emitting instruction runs a program that a matcher watches. -/
lemma eventAt_eq_some {ext : Codecs} {d : Detector} {clock : ℕ → ℤ} {info : TransactionInfo}
    {slot : ℕ} {ix : Instruction} {k : ℕ} {ev : LaunchEvent}
    (h : eventAt ext d clock info slot ix k = some ev) :
    ∃ p m, (walkKeys info)[ix.programIdIndex]? = some p ∧ d.matcherFor p = some m ∧
      launchOf m (clock k) ix.data
        (ix.accounts.filterMap fun i => (walkKeys info)[i.toNat]?)
        (ext.bs58Encode info.signature) slot = some ev := by
  unfold eventAt instructionLaunch at h
  simp only [Option.bind_eq_bind, Option.bind_eq_some_iff] at h
  obtain ⟨p, hp, hdec⟩ := h
  obtain ⟨m, hm, -, -, hev⟩ := decode_eq_some.mp hdec
  exact ⟨p, m, hp, hm, hev⟩

end NovaSniper.Listener
