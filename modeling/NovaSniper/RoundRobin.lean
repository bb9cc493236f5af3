import NovaSniper.Wallet
import NovaSniper.Lib.Turns

/-!
Round-robin rotation: whatever tasks do in between, the wallets are chosen in turn.

The cursor moves only when a wallet is chosen, so it counts the choices, and the choices are
turns of the wallets until its word of 64 bits is used up.
-/

namespace NovaSniper.RoundRobin

open NovaSniper.Config NovaSniper.Wallet NovaSniper.Lib.Transition NovaSniper.Lib.Turns

variable {K : Type}

/-! ### The invariant -/

/-- The wallet that an event chooses. -/
def choice : PoolEvent → Option ℕ
  | .chose i => some i
  | _ => none

/-- The wallets chosen, in the order of the `fetch_add`s. -/
def chosen (es : List PoolEvent) : List ℕ := es.filterMap choice

lemma chosen_snoc (es : List PoolEvent) (e : PoolEvent) :
    chosen (es ++ [e]) = chosen es ++ (choice e).toList := by
  unfold chosen
  rw [List.filterMap_append]
  cases h : choice e <;> simp [h]

/-- The choices are turns, the cursor is their number, and each was marked or still will be. -/
structure InTurn (n : ℕ) (es : List PoolEvent) (s : PoolState K) : Prop where
  strategy : s.pool.strategy = .roundRobin
  size : s.pool.wallets.length = n
  cursor : s.pool.cursor = (chosen es).length % 2 ^ 64
  turns : (chosen es).length ≤ 2 ^ 64 → chosen es = turns n (chosen es).length
  marked : ∀ i, (chosen es).count i = es.count (.acquired (some i)) + s.marking.count i

section Step

variable {n : ℕ} {es : List PoolEvent} {s t : PoolState K}

/-- What can happen to a pool that rotates over its wallets. -/
lemma step_cases {e : PoolEvent} (hn : 0 < n) (hs : InTurn n es s) (hstep : PoolStep s e t) :
    (e = .chose s.pool.fetchAdd.1 ∧ t =
        { s with pool := s.pool.fetchAdd.2, marking := s.pool.fetchAdd.1 ::ₘ s.marking }) ∨
      (∃ i ∈ s.marking, e = .acquired (some i) ∧ t =
        { pool := s.pool.markBusy i, marking := s.marking.erase i, live := i ::ₘ s.live }) ∨
      ∃ i ∈ s.live, e = .dropped i ∧ t =
        { s with pool := s.pool.release i, live := s.live.erase i } := by
  cases hstep with
  | roundRobin hrot hne => exact .inl ⟨rfl, rfl⟩
  | roundRobinNone hrot hnil =>
    have hsize := hs.size
    rw [hnil, List.length_nil] at hsize
    omega
  | random hrot hi => exact absurd (hs.strategy.symm.trans hrot) (by decide)
  | randomNone hrot hnil => exact absurd (hs.strategy.symm.trans hrot) (by decide)
  | @mark i hi => exact .inr (.inl ⟨i, hi, rfl, rfl⟩)
  | first hrot hsome => exact absurd (hs.strategy.symm.trans hrot) (by decide)
  | firstNone hrot hnone => exact absurd (hs.strategy.symm.trans hrot) (by decide)
  | @drop i hi => exact .inr (.inr ⟨i, hi, rfl, rfl⟩)

/-- Choosing a wallet takes the next turn. -/
lemma inTurn_chose (hs : InTurn n es s) :
    InTurn n (es ++ [.chose s.pool.fetchAdd.1])
      { s with pool := s.pool.fetchAdd.2, marking := s.pool.fetchAdd.1 ::ₘ s.marking } := by
  have hsnoc : chosen (es ++ [.chose s.pool.fetchAdd.1]) = chosen es ++ [s.pool.fetchAdd.1] :=
    chosen_snoc _ _
  have hlen : (chosen es ++ [s.pool.fetchAdd.1]).length = (chosen es).length + 1 := by simp
  refine ⟨hs.strategy, hs.size, ?_, ?_, ?_⟩
  · rw [hsnoc, hlen]
    simp only [WalletPool.fetchAdd, hs.cursor]
    omega
  · rw [hsnoc, hlen]
    intro hmax
    -- this choice was made with a cursor that had not wrapped
    have hcursor : s.pool.cursor = (chosen es).length := by
      rw [hs.cursor]
      exact Nat.mod_eq_of_lt hmax
    have hnext : s.pool.fetchAdd.1 = (chosen es).length % n := by
      simp only [WalletPool.fetchAdd, hcursor, hs.size]
    rw [turns_succ, hnext, ← hs.turns (by omega)]
  · intro i
    have hi := hs.marked i
    have hnone : [PoolEvent.chose s.pool.fetchAdd.1].count (.acquired (some i)) = 0 := by simp
    rw [hsnoc, List.count_append, hi, List.count_append, hnone]
    by_cases hji : i = s.pool.fetchAdd.1
    · rw [← hji, List.count_singleton_self, Multiset.count_cons_self]
      omega
    · have hzero : [s.pool.fetchAdd.1].count i = 0 :=
          List.count_eq_zero.mpr fun hmem => hji (List.mem_singleton.mp hmem)
      rw [hzero, Multiset.count_cons_of_ne hji]
      omega

/-- An event that chooses nothing leaves the turns as they are. -/
lemma inTurn_other {e : PoolEvent} (hs : InTurn n es s) (hstep : PoolStep s e t)
    (he : choice e = none) (hcursor : t.pool.cursor = s.pool.cursor)
    (hmarked : ∀ i, [e].count (.acquired (some i)) + t.marking.count i = s.marking.count i) :
    InTurn n (es ++ [e]) t := by
  have hsnoc : chosen (es ++ [e]) = chosen es := by
    rw [chosen_snoc, he, Option.toList_none, List.append_nil]
  obtain ⟨hwallets, hstrategy⟩ := hstep.settings
  refine ⟨hstrategy.trans hs.strategy, ?_, ?_, ?_, ?_⟩
  · rw [hwallets, hs.size]
  · rw [hsnoc, hcursor, hs.cursor]
  · rw [hsnoc]
    exact hs.turns
  · intro i
    rw [hsnoc, List.count_append, add_assoc, hmarked i]
    exact hs.marked i

/-- **Every step keeps the turns.** -/
theorem inTurn_step {e : PoolEvent} (hn : 0 < n) (hs : InTurn n es s) (hstep : PoolStep s e t) :
    InTurn n (es ++ [e]) t := by
  obtain ⟨rfl, rfl⟩ | ⟨i, hi, rfl, rfl⟩ | ⟨i, hi, rfl, rfl⟩ := step_cases hn hs hstep
  · exact inTurn_chose hs
  · refine inTurn_other hs hstep rfl (by rw [markBusy_eq]) ?_
    intro j
    have hpos := Multiset.one_le_count_iff_mem.mpr hi
    have hacq : [PoolEvent.acquired (some i)].count (.acquired (some j)) =
        if i = j then 1 else 0 := by simp [List.count_singleton]
    rw [hacq]
    split_ifs with hij
    · rw [← hij, Multiset.count_erase_self]
      omega
    · have hji : j ≠ i := fun h => hij h.symm
      rw [Multiset.count_erase_of_ne hji, Nat.zero_add]
  · refine inTurn_other hs hstep rfl (by rw [release_eq]) ?_
    intro j
    simp

end Step

section Runs

variable {ext : Files K} {cfg : WalletConfig} {es : List PoolEvent} {s : PoolState K}

lemma inTurn_of_trace (hrot : cfg.rotation = .roundRobin) (hne : cfg.keypairPaths ≠ [])
    (h : (pools ext cfg).Trace es s) : InTurn cfg.keypairPaths.length es s := by
  have hpos : 0 < cfg.keypairPaths.length := List.length_pos_iff.mpr hne
  refine h.hist (P := InTurn cfg.keypairPaths.length) ?_ fun _ _ _ _ => inTurn_step hpos
  rintro s ⟨hload, hmarking, -⟩
  obtain ⟨hstrategy, hwallets, hcursor, -⟩ := load_eq_ok hload
  refine ⟨hstrategy.trans hrot, hwallets, ?_, fun _ => rfl, ?_⟩
  · rw [hcursor]
    rfl
  · intro i
    rw [hmarking]
    rfl

/-- What a task can see of one step. -/
def Served (n : ℕ) (e : PoolEvent) : Prop :=
  e ≠ .acquired none ∧ e ≠ .panicked ∧ ∀ i, e = .chose i ∨ e = .acquired (some i) → i < n

lemma served_of_step {t : PoolState K} {n : ℕ} {e : PoolEvent} (hn : 0 < n)
    (hs : InTurn n es s) (hrange : InRange s) (hstep : PoolStep s e t) : Served n e := by
  obtain ⟨rfl, -⟩ | ⟨i, hi, rfl, -⟩ | ⟨i, -, rfl, -⟩ := step_cases hn hs hstep
  · have hlt : s.pool.fetchAdd.1 < n := by
      simp only [WalletPool.fetchAdd, hs.size]
      exact Nat.mod_lt _ hn
    simpa [Served] using hlt
  · have hlt : i < n := hs.size ▸ hrange.marking i hi
    simpa [Served] using hlt
  · simp [Served]

/-- **Round-robin fairness.** With at least one wallet, however tasks take turns: no acquire
fails or divides by zero, and every index is one of a wallet; any choices in a row, as many as
there are wallets, are of each wallet once; no wallet is chosen two times more than another;
and the choices are the acquires, those in progress included, so that the acquires differ by
one at most when none is in progress. -/
theorem fair (hrot : cfg.rotation = .roundRobin) (hne : cfg.keypairPaths ≠ [])
    (h : (pools ext cfg).Trace es s) (hmax : (chosen es).length < 2 ^ 64) :
    (∀ e ∈ es, Served cfg.keypairPaths.length e) ∧
      (∀ u w v, chosen es = u ++ w ++ v → w.length = cfg.keypairPaths.length →
        w.Perm (List.range cfg.keypairPaths.length)) ∧
      (∀ i < cfg.keypairPaths.length, ∀ j < cfg.keypairPaths.length,
        (chosen es).count i ≤ (chosen es).count j + 1) ∧
      (∀ i, (chosen es).count i = es.count (.acquired (some i)) + s.marking.count i) ∧
      (s.marking = 0 → ∀ i < cfg.keypairPaths.length, ∀ j < cfg.keypairPaths.length,
        es.count (.acquired (some i)) ≤ es.count (.acquired (some j)) + 1) := by
  have hpos : 0 < cfg.keypairPaths.length := List.length_pos_iff.mpr hne
  have hs := inTurn_of_trace hrot hne h
  have hturns := hs.turns hmax.le
  have heven : ∀ i < cfg.keypairPaths.length, ∀ j < cfg.keypairPaths.length,
      (chosen es).count i ≤ (chosen es).count j + 1 := by
    intro i hi j hj
    rw [hturns]
    exact count_turns_le _ hi hj
  refine ⟨?_, ?_, heven, hs.marked, ?_⟩
  · refine h.labels (P := fun s => InRange s ∧ ∃ es, InTurn cfg.keypairPaths.length es s) ?_ ?_
    · intro es s h
      exact ⟨inRange_of_trace h, es, inTurn_of_trace hrot hne h⟩
    · rintro s e t ⟨hrange, es, hs⟩ hstep
      exact served_of_step hpos hs hrange hstep
  · intro u w v huwv hw
    rw [hturns] at huwv
    exact perm_of_window huwv hw
  · intro hmarking i hi j hj
    have hij := heven i hi j hj
    rw [hs.marked i, hs.marked j, hmarking] at hij
    exact hij

end Runs

/-! ### Two wallets -/

def twoWallets : WalletConfig where
  keypairPaths := ["./wallets/wallet-1.json", "./wallets/wallet-2.json"]
  rotation := .roundRobin

def twoPool : WalletPool (List UInt8) where
  wallets := [exampleKeypair, exampleKeypair]
  strategy := .roundRobin
  cursor := 0
  busy := [false, false]

lemma load_two (rotation : RotationStrategy) :
    WalletPool.load exampleFiles { twoWallets with rotation } =
      .ok { twoPool with strategy := rotation } := by
  simp [WalletPool.load, twoWallets, loadKeypair, Lib.Fallible.withContext, exampleFiles, twoPool,
    exampleKeypair, bind, Except.bind, pure, Except.pure]

lemma load_twoWallets : WalletPool.load exampleFiles twoWallets = .ok twoPool :=
  load_two .roundRobin

/-- Two tasks choose, and the second is done before the first has marked its wallet. -/
def overtaken : List PoolEvent := [.chose 0, .chose 1, .acquired (some 1), .dropped 1]

theorem fair_example :
    (∃ s, (pools exampleFiles twoWallets).Trace overtaken s) ∧
      (chosen overtaken).Perm (List.range 2) := by
  have h₀ : (pools exampleFiles twoWallets).Trace []
      { pool := twoPool, marking := 0, live := 0 } := .start ⟨load_twoWallets, rfl, rfl⟩
  have h₁ : (pools exampleFiles twoWallets).Trace [.chose 0]
      { pool := { twoPool with cursor := 1 }, marking := {0}, live := 0 } :=
    h₀.snoc (.roundRobin rfl (List.cons_ne_nil _ _))
  have h₂ : (pools exampleFiles twoWallets).Trace [.chose 0, .chose 1]
      { pool := { twoPool with cursor := 2 }, marking := 1 ::ₘ {0}, live := 0 } :=
    h₁.snoc (.roundRobin rfl (List.cons_ne_nil _ _))
  have h₃ : (pools exampleFiles twoWallets).Trace [.chose 0, .chose 1, .acquired (some 1)]
      { pool := { twoPool with cursor := 2, busy := [false, true] }, marking := {0}, live := {1} } :=
    h₂.snoc (.mark (by decide))
  have h₄ : (pools exampleFiles twoWallets).Trace overtaken
      { pool := { twoPool with cursor := 2, busy := [false, false] }, marking := {0}, live := 0 } :=
    h₃.snoc (.drop (Multiset.mem_singleton_self 1))
  obtain ⟨-, hrounds, -⟩ := fair rfl (by decide) h₄ (by decide)
  exact ⟨⟨_, h₄⟩, hrounds [] (chosen overtaken) [] rfl rfl⟩

end NovaSniper.RoundRobin
