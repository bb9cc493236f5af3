import NovaSniper.Config
import NovaSniper.Lib.Fallible
import NovaSniper.Lib.Transition

/-!
The wallet pool: its rotation strategies, and any number of tasks that acquire wallets and
drop their guards.

Each critical section is one step. Round-robin and random acquisition choose a wallet first
and mark it busy in a second step; first-available acquisition does both in one.
-/

namespace NovaSniper.Wallet

open NovaSniper.Config NovaSniper.Lib.Transition NovaSniper.Lib.Fallible

variable {K : Type}

/-- The pool. `K` is a keypair; the cursor is a word of 64 bits. -/
structure WalletPool (K : Type) where
  wallets : List K
  strategy : RotationStrategy
  cursor : ℕ
  busy : List Bool

/-! ### Loading -/

/-- What `load_keypair` calls: the file, the JSON parser, and the check of the bytes. -/
structure Files (K : Type) where
  readToString : String → Except String String
  parseBytes : String → Except String (List UInt8)
  fromBytes : List UInt8 → Except String K

def loadKeypair (ext : Files K) (path : String) : Except String K := do
  let text ← withContext (ext.readToString path) s!"reading keypair file {path}"
  let bytes ← withContext (ext.parseBytes text) s!"parsing keypair JSON at {path}"
  if bytes.length ≠ 64 then
    .error s!"keypair at {path} has {bytes.length} bytes, expected 64"
  else withContext (ext.fromBytes bytes) s!"invalid keypair bytes in {path}"

/-- `WalletPool::load`. -/
def WalletPool.load (ext : Files K) (cfg : WalletConfig) : Except String (WalletPool K) := do
  let wallets ← cfg.keypairPaths.mapM (loadKeypair ext)
  .ok { wallets, strategy := cfg.rotation, cursor := 0
        busy := List.replicate wallets.length false }

/-! ### Critical sections -/

def WalletPool.markBusy (pool : WalletPool K) (idx : ℕ) : WalletPool K :=
  if idx < pool.busy.length then { pool with busy := pool.busy.set idx true } else pool

def WalletPool.release (pool : WalletPool K) (idx : ℕ) : WalletPool K :=
  if idx < pool.busy.length then { pool with busy := pool.busy.set idx false } else pool

/-- `cursor.fetch_add(1)`, and the index made of it. -/
def WalletPool.fetchAdd (pool : WalletPool K) : ℕ × WalletPool K :=
  (pool.cursor % pool.wallets.length, { pool with cursor := (pool.cursor + 1) % 2 ^ 64 })

/-- The first wallet that is not busy, marked. -/
def WalletPool.firstAvailable (pool : WalletPool K) : Option (ℕ × WalletPool K) := do
  let i ← pool.busy.findIdx? (fun b => !b)
  some (i, { pool with busy := pool.busy.set i true })

/-- `WalletPool::acquire`, run alone; `choice` is what the random generator picks. -/
def WalletPool.acquire (pool : WalletPool K) (choice : ℕ) : Option (ℕ × WalletPool K) :=
  match pool.strategy with
  | .roundRobin =>
    -- without wallets this panics, which is a step of its own below
    let (i, pool) := pool.fetchAdd
    some (i, pool.markBusy i)
  | .random =>
    if pool.wallets = [] then none
    else
      let i := choice % pool.wallets.length
      some (i, pool.markBusy i)
  | .firstAvailable => pool.firstAvailable

/-- `WalletGuard::keypair`. -/
def WalletPool.keypair (pool : WalletPool K) (idx : ℕ) : Option K := pool.wallets[idx]?

/-! ### Any number of tasks -/

/-- The pool, the wallets chosen and not yet marked, and those that a live guard holds. -/
structure PoolState (K : Type) where
  pool : WalletPool K
  marking : Multiset ℕ
  live : Multiset ℕ

/-- What a step does, as its task sees it. -/
inductive PoolEvent
  | chose (i : ℕ)
  | acquired (r : Option ℕ)
  | dropped (i : ℕ)
  | panicked
  deriving DecidableEq

/-- One atomic step of some task. -/
inductive PoolStep : PoolState K → PoolEvent → PoolState K → Prop
  | roundRobin {s : PoolState K} (hs : s.pool.strategy = .roundRobin) (hn : s.pool.wallets ≠ []) :
      PoolStep s (.chose s.pool.fetchAdd.1)
        { s with pool := s.pool.fetchAdd.2, marking := s.pool.fetchAdd.1 ::ₘ s.marking }
  -- the remainder by zero panics after the cursor has moved
  | roundRobinNone {s : PoolState K} (hs : s.pool.strategy = .roundRobin)
      (hn : s.pool.wallets = []) :
      PoolStep s .panicked { s with pool := s.pool.fetchAdd.2 }
  | random {s : PoolState K} {i : ℕ} (hs : s.pool.strategy = .random)
      (hi : i < s.pool.wallets.length) :
      PoolStep s (.chose i) { s with marking := i ::ₘ s.marking }
  | randomNone {s : PoolState K} (hs : s.pool.strategy = .random) (hn : s.pool.wallets = []) :
      PoolStep s (.acquired none) s
  | mark {s : PoolState K} {i : ℕ} (hi : i ∈ s.marking) :
      PoolStep s (.acquired (some i))
        { pool := s.pool.markBusy i, marking := s.marking.erase i, live := i ::ₘ s.live }
  | first {s : PoolState K} {i : ℕ} {pool : WalletPool K}
      (hs : s.pool.strategy = .firstAvailable) (hi : s.pool.firstAvailable = some (i, pool)) :
      PoolStep s (.acquired (some i)) { s with pool, live := i ::ₘ s.live }
  | firstNone {s : PoolState K} (hs : s.pool.strategy = .firstAvailable)
      (hi : s.pool.firstAvailable = none) : PoolStep s (.acquired none) s
  | drop {s : PoolState K} {i : ℕ} (hi : i ∈ s.live) :
      PoolStep s (.dropped i) { s with pool := s.pool.release i, live := s.live.erase i }

/-- The pools that load from a configuration, before any task has run. -/
def pools (ext : Files K) (cfg : WalletConfig) : LTS (PoolState K) PoolEvent where
  init s := WalletPool.load ext cfg = .ok s.pool ∧ s.marking = 0 ∧ s.live = 0
  step := PoolStep

/-! ### The flags -/

/-- The check of the index changes nothing: setting a flag that is not there does not either. -/
lemma markBusy_eq (pool : WalletPool K) (i : ℕ) :
    pool.markBusy i = { pool with busy := pool.busy.set i true } := by
  unfold WalletPool.markBusy
  split_ifs with hi
  · rfl
  · rw [List.set_eq_of_length_le (not_lt.mp hi)]

lemma release_eq (pool : WalletPool K) (i : ℕ) :
    pool.release i = { pool with busy := pool.busy.set i false } := by
  unfold WalletPool.release
  split_ifs with hi
  · rfl
  · rw [List.set_eq_of_length_le (not_lt.mp hi)]

/-- The flags after one of them was set to `b`. -/
lemma getElem?_set_flag {busy : List Bool} {i : ℕ} (hi : i < busy.length) (b : Bool) (j : ℕ) :
    (busy.set i b)[j]? = some true ↔ (j = i ∧ b = true) ∨ (j ≠ i ∧ busy[j]? = some true) := by
  by_cases hj : j = i
  · subst hj
    simp [List.getElem?_set_self hi]
  · have hne : i ≠ j := fun h => hj h.symm
    simp [List.getElem?_set_ne hne, hj]

/-! ### The search for a free wallet -/

lemma firstAvailable_eq_none {pool : WalletPool K} :
    pool.firstAvailable = none ↔ ∀ i < pool.busy.length, pool.busy[i]? = some true := by
  unfold WalletPool.firstAvailable
  rw [Option.bind_eq_bind, Option.bind_eq_none_iff]
  refine ⟨?_, ?_⟩
  · intro h i hi
    have hnone : pool.busy.findIdx? (fun b => !b) = none := by
      cases hf : pool.busy.findIdx? (fun b => !b) with
      | none => rfl
      | some j => exact absurd (h j hf) (by simp)
    have hb := List.findIdx?_eq_none_iff.mp hnone pool.busy[i] (List.getElem_mem hi)
    rw [List.getElem?_eq_getElem hi]
    simpa using hb
  · intro h i hi
    obtain ⟨hlt, hfree, -⟩ := List.findIdx?_eq_some_iff_getElem.mp hi
    have hbusy := h i hlt
    rw [List.getElem?_eq_getElem hlt, Option.some.injEq] at hbusy
    simp [hbusy] at hfree

lemma firstAvailable_eq_some {pool pool' : WalletPool K} {i : ℕ}
    (h : pool.firstAvailable = some (i, pool')) :
    pool.busy[i]? = some false ∧ (∀ j < i, pool.busy[j]? = some true) ∧
      pool' = { pool with busy := pool.busy.set i true } := by
  unfold WalletPool.firstAvailable at h
  rw [Option.bind_eq_bind, Option.bind_eq_some_iff] at h
  obtain ⟨k, hk, hout⟩ := h
  obtain ⟨rfl, rfl⟩ := Prod.mk.inj (Option.some.inj hout)
  obtain ⟨hlt, hfree, hbefore⟩ := List.findIdx?_eq_some_iff_getElem.mp hk
  refine ⟨?_, ?_, rfl⟩
  · rw [List.getElem?_eq_getElem hlt]
    simpa using hfree
  · intro j hj
    rw [List.getElem?_eq_getElem (by omega)]
    simpa using hbefore j hj

/-! ### What construction and steps keep -/

lemma load_eq_ok {ext : Files K} {cfg : WalletConfig} {pool : WalletPool K}
    (h : WalletPool.load ext cfg = .ok pool) :
    pool.strategy = cfg.rotation ∧ pool.wallets.length = cfg.keypairPaths.length ∧
      pool.cursor = 0 ∧ pool.busy = List.replicate pool.wallets.length false := by
  unfold WalletPool.load at h
  obtain ⟨wallets, hwallets, hpool⟩ := bind_eq_ok.mp h
  obtain rfl := Except.ok.inj hpool
  exact ⟨rfl, length_of_mapM hwallets, rfl, rfl⟩

/-- The wallets and the strategy stay as they were loaded. -/
lemma PoolStep.settings {s t : PoolState K} {e : PoolEvent} (h : PoolStep s e t) :
    t.pool.wallets = s.pool.wallets ∧ t.pool.strategy = s.pool.strategy := by
  cases h with
  | roundRobin hs hn => exact ⟨rfl, rfl⟩
  | roundRobinNone hs hn => exact ⟨rfl, rfl⟩
  | random hs hi => exact ⟨rfl, rfl⟩
  | randomNone hs hn => exact ⟨rfl, rfl⟩
  | mark hi =>
    rw [markBusy_eq]
    exact ⟨rfl, rfl⟩
  | first hs hi =>
    obtain ⟨-, -, rfl⟩ := firstAvailable_eq_some hi
    exact ⟨rfl, rfl⟩
  | firstNone hs hi => exact ⟨rfl, rfl⟩
  | drop hi =>
    rw [release_eq]
    exact ⟨rfl, rfl⟩

lemma settings_of_trace {ext : Files K} {cfg : WalletConfig} {es : List PoolEvent}
    {s : PoolState K} (h : (pools ext cfg).Trace es s) :
    s.pool.wallets.length = cfg.keypairPaths.length ∧ s.pool.strategy = cfg.rotation := by
  refine h.inv (P := fun s => s.pool.wallets.length = cfg.keypairPaths.length ∧
    s.pool.strategy = cfg.rotation) ?_ ?_
  · rintro s ⟨hload, -, -⟩
    obtain ⟨hstrategy, hwallets, -, -⟩ := load_eq_ok hload
    exact ⟨hwallets, hstrategy⟩
  · intro s e t hs hstep
    obtain ⟨hwallets, hstrategy⟩ := hstep.settings
    rw [hwallets, hstrategy]
    exact hs

/-- Flags and indices fit the wallets. -/
structure InRange (s : PoolState K) : Prop where
  busy : s.pool.busy.length = s.pool.wallets.length
  marking : ∀ i ∈ s.marking, i < s.pool.wallets.length
  live : ∀ i ∈ s.live, i < s.pool.wallets.length

lemma inRange_step {s t : PoolState K} {e : PoolEvent} (hs : InRange s) (hstep : PoolStep s e t) :
    InRange t := by
  obtain ⟨hbusy, hmarking, hlive⟩ := hs
  cases hstep with
  | roundRobin hrot hn =>
    have hlt : s.pool.fetchAdd.1 < s.pool.wallets.length :=
      Nat.mod_lt _ (List.length_pos_iff.mpr hn)
    exact ⟨hbusy, Multiset.forall_mem_cons.mpr ⟨hlt, hmarking⟩, hlive⟩
  | roundRobinNone hrot hn => exact ⟨hbusy, hmarking, hlive⟩
  | random hrot hi => exact ⟨hbusy, Multiset.forall_mem_cons.mpr ⟨hi, hmarking⟩, hlive⟩
  | randomNone hrot hn => exact ⟨hbusy, hmarking, hlive⟩
  | @mark i hi =>
    rw [markBusy_eq]
    refine ⟨?_, ?_, Multiset.forall_mem_cons.mpr ⟨hmarking i hi, hlive⟩⟩
    · simpa using hbusy
    · exact fun j hj => hmarking j (Multiset.mem_of_mem_erase hj)
  | @first i pool hrot hsome =>
    obtain ⟨hfree, -, rfl⟩ := firstAvailable_eq_some hsome
    have hlt : i < s.pool.busy.length := (List.getElem?_eq_some_iff.mp hfree).1
    refine ⟨?_, hmarking, Multiset.forall_mem_cons.mpr ⟨hbusy ▸ hlt, hlive⟩⟩
    simpa using hbusy
  | firstNone hrot hnone => exact ⟨hbusy, hmarking, hlive⟩
  | @drop i hi =>
    rw [release_eq]
    refine ⟨?_, hmarking, ?_⟩
    · simpa using hbusy
    · exact fun j hj => hlive j (Multiset.mem_of_mem_erase hj)

lemma inRange_init {ext : Files K} {cfg : WalletConfig} {s : PoolState K}
    (h : (pools ext cfg).init s) : InRange s := by
  obtain ⟨hload, hmarking, hlive⟩ := h
  obtain ⟨-, -, -, hbusy⟩ := load_eq_ok hload
  refine ⟨?_, ?_, ?_⟩
  · rw [hbusy, List.length_replicate]
  · rw [hmarking]
    exact fun i hi => absurd hi (Multiset.notMem_zero i)
  · rw [hlive]
    exact fun i hi => absurd hi (Multiset.notMem_zero i)

lemma inRange_of_trace {ext : Files K} {cfg : WalletConfig} {es : List PoolEvent}
    {s : PoolState K} (h : (pools ext cfg).Trace es s) : InRange s :=
  h.inv (fun _ => inRange_init) fun _ _ _ => inRange_step

/-! ### An acquire that nothing comes between -/

/-- `acquire`, as a change of the state: what it returns, and the guard it leaves. -/
def PoolState.acquire (s : PoolState K) (choice : ℕ) : Option ℕ × PoolState K :=
  match s.pool.acquire choice with
  | none => (none, s)
  | some (i, pool) => (some i, { s with pool, live := i ::ₘ s.live })

/-- The steps of one acquire, with no other step among them. -/
inductive AcquireAlone (s : PoolState K) : Option ℕ → PoolState K → Prop
  | chosen {i : ℕ} {t u : PoolState K} (hchoose : PoolStep s (.chose i) t)
      (hmark : PoolStep t (.acquired (some i)) u) : AcquireAlone s (some i) u
  -- a wallet that another task chose is left for that task to mark
  | once {r : Option ℕ} {u : PoolState K} (h : PoolStep s (.acquired r) u)
      (hothers : u.marking = s.marking) : AcquireAlone s r u

section Acquire

variable {s u : PoolState K} {i : ℕ} {r : Option ℕ}

/-- A choice and its mark leave a guard, and nothing to mark. -/
lemma acquireAlone_of_chosen {pool : WalletPool K}
    (h : PoolStep s (.chose i) { s with pool, marking := i ::ₘ s.marking }) :
    AcquireAlone s (some i) { s with pool := pool.markBusy i, live := i ::ₘ s.live } := by
  have hmark := PoolStep.mark (s := { s with pool, marking := i ::ₘ s.marking })
    (Multiset.mem_cons_self i s.marking)
  rw [Multiset.erase_cons_head] at hmark
  exact .chosen h hmark

lemma acquireAlone_acquire (hn : s.pool.strategy = .roundRobin → s.pool.wallets ≠ [])
    (choice : ℕ) : AcquireAlone s (s.acquire choice).1 (s.acquire choice).2 := by
  unfold PoolState.acquire WalletPool.acquire
  cases hs : s.pool.strategy with
  | roundRobin => exact acquireAlone_of_chosen (.roundRobin hs (hn hs))
  | random =>
    by_cases hnil : s.pool.wallets = []
    · simp only [if_pos hnil]
      exact .once (.randomNone hs hnil) rfl
    · simp only [if_neg hnil]
      exact acquireAlone_of_chosen
        (.random hs (Nat.mod_lt _ (List.length_pos_iff.mpr hnil)))
  | firstAvailable =>
    cases hfirst : s.pool.firstAvailable with
    | none => exact .once (.firstNone hs hfirst) rfl
    | some found => exact .once (.first hs hfirst) rfl

/-- The mark of a wallet that was chosen in between. -/
lemma mark_inv {t : PoolState K} (h : PoolStep t (.acquired (some i)) u)
    (hs : t.pool.strategy ≠ .firstAvailable) :
    u = { pool := t.pool.markBusy i, marking := t.marking.erase i, live := i ::ₘ t.live } := by
  cases h with
  | mark hi => rfl
  | first hfirst hi => exact absurd hfirst hs

lemma acquire_of_acquireAlone (h : AcquireAlone s r u) : ∃ choice, s.acquire choice = (r, u) := by
  unfold PoolState.acquire WalletPool.acquire
  cases h with
  | @chosen k t _ hchoose hmark =>
    cases hchoose with
    | roundRobin hs hn =>
      rw [mark_inv hmark fun h => absurd (hs.symm.trans h) (by decide), hs]
      exact ⟨0, by simp⟩
    | random hs hi =>
      have hne : s.pool.wallets ≠ [] := fun hnil => by simp [hnil] at hi
      rw [mark_inv hmark fun h => absurd (hs.symm.trans h) (by decide), hs]
      exact ⟨k, by simp [hne, Nat.mod_eq_of_lt hi]⟩
  | once h hothers =>
    cases h with
    | randomNone hs hn =>
      rw [hs]
      exact ⟨0, by simp only [if_pos hn]⟩
    | @mark k hk =>
      -- the mark of another task would show
      have hcard := congrArg Multiset.card hothers
      have hpos := Multiset.card_pos_iff_exists_mem.mpr ⟨k, hk⟩
      rw [Multiset.card_erase_of_mem hk, Nat.pred_eq_sub_one] at hcard
      omega
    | first hs hi =>
      rw [hs]
      exact ⟨0, by simp only [hi]⟩
    | firstNone hs hi =>
      rw [hs]
      exact ⟨0, by simp only [hi]⟩

/-- **`acquire` run alone is its steps**, for every strategy: the choice and then the mark, or the
one step in which the first free wallet is found and marked. Round-robin without wallets panics
instead. -/
theorem acquireAlone_iff (hn : s.pool.strategy = .roundRobin → s.pool.wallets ≠ []) :
    AcquireAlone s r u ↔ ∃ choice, s.acquire choice = (r, u) := by
  refine ⟨acquire_of_acquireAlone, ?_⟩
  rintro ⟨choice, h⟩
  have halone := acquireAlone_acquire hn choice
  rw [h] at halone
  exact halone

end Acquire

/-! ### One wallet -/

def exampleKeypair : List UInt8 :=
  [157, 97, 177, 157, 239, 253, 90, 96, 186, 132, 74, 244, 146, 236, 44, 196,
    68, 73, 197, 105, 123, 50, 105, 25, 112, 59, 172, 3, 28, 174, 127, 96,
    215, 90, 152, 1, 130, 177, 10, 183, 213, 75, 254, 211, 201, 100, 7, 58,
    14, 225, 114, 243, 218, 166, 35, 37, 175, 2, 26, 104, 247, 7, 81, 26]

/-- A disk where every path leads to the file of that keypair. -/
def exampleFiles : Files (List UInt8) where
  readToString _ := .ok (toString exampleKeypair)
  parseBytes text :=
    if text = toString exampleKeypair then .ok exampleKeypair else .error "expected value"
  fromBytes := .ok

/-- The wallets of the example configuration, first available. -/
def exampleWallets : WalletConfig := { exampleConfig.wallets with rotation := .firstAvailable }

def examplePool : WalletPool (List UInt8) where
  wallets := [exampleKeypair]
  strategy := .firstAvailable
  cursor := 0
  busy := [false]

lemma load_example : WalletPool.load exampleFiles exampleWallets = .ok examplePool := by
  simp [WalletPool.load, exampleWallets, exampleConfig, loadKeypair, withContext, exampleFiles,
    examplePool, exampleKeypair, bind, Except.bind, pure, Except.pure]

end NovaSniper.Wallet
