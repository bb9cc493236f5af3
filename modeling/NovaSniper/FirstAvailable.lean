import NovaSniper.Wallet

/-!
First-available rotation: the busy flags are the live guards, and no wallet has two.
-/

namespace NovaSniper.FirstAvailable

open NovaSniper.Config NovaSniper.Wallet NovaSniper.Lib.Transition

variable {K : Type}

/-! ### The invariant -/

structure Exclusive (s : PoolState K) : Prop where
  strategy : s.pool.strategy = .firstAvailable
  size : s.pool.busy.length = s.pool.wallets.length
  marking : s.marking = 0
  nodup : s.live.Nodup
  busy : ∀ i, s.pool.busy[i]? = some true ↔ i ∈ s.live

lemma exclusive_init {ext : Files K} {cfg : WalletConfig} (hrot : cfg.rotation = .firstAvailable)
    {s : PoolState K} (h : (pools ext cfg).init s) : Exclusive s := by
  obtain ⟨hload, hmarking, hlive⟩ := h
  obtain ⟨hstrategy, -, -, hbusy⟩ := load_eq_ok hload
  refine ⟨hstrategy.trans hrot, ?_, hmarking, ?_, ?_⟩
  · rw [hbusy, List.length_replicate]
  · rw [hlive]
    exact Multiset.nodup_zero
  · intro i
    rw [hbusy, hlive, List.getElem?_replicate]
    split_ifs with hi
    · simp
    · simp

/-- **Every step keeps the wallets exclusive.** -/
theorem exclusive_step {s t : PoolState K} {e : PoolEvent} (hs : Exclusive s)
    (hstep : PoolStep s e t) : Exclusive t := by
  cases hstep with
  | roundRobin hrot hn => exact absurd (hs.strategy.symm.trans hrot) (by decide)
  | roundRobinNone hrot hn => exact absurd (hs.strategy.symm.trans hrot) (by decide)
  | random hrot hi => exact absurd (hs.strategy.symm.trans hrot) (by decide)
  | randomNone hrot hn => exact absurd (hs.strategy.symm.trans hrot) (by decide)
  | mark hi =>
    rw [hs.marking] at hi
    exact absurd hi (Multiset.notMem_zero _)
  | firstNone hrot hnone => exact hs
  | @first i pool hrot hsome =>
    obtain ⟨hfree, -, rfl⟩ := firstAvailable_eq_some hsome
    have hnot : i ∉ s.live := by
      rw [← hs.busy i, hfree]
      decide
    have hlt : i < s.pool.busy.length := (List.getElem?_eq_some_iff.mp hfree).1
    refine ⟨hs.strategy, ?_, hs.marking, Multiset.nodup_cons.mpr ⟨hnot, hs.nodup⟩, ?_⟩
    · simpa using hs.size
    · intro j
      rw [getElem?_set_flag hlt, hs.busy j, Multiset.mem_cons]
      by_cases hj : j = i <;> simp [hj]
  | @drop i hi =>
    have hlt : i < s.pool.busy.length :=
      (List.getElem?_eq_some_iff.mp ((hs.busy i).mpr hi)).1
    rw [release_eq]
    refine ⟨hs.strategy, ?_, hs.marking, hs.nodup.erase i, ?_⟩
    · simpa using hs.size
    · intro j
      rw [getElem?_set_flag hlt, hs.busy j, hs.nodup.mem_erase_iff]
      simp

lemma exclusive_of_trace {ext : Files K} {cfg : WalletConfig}
    (hrot : cfg.rotation = .firstAvailable) {es : List PoolEvent} {s : PoolState K}
    (h : (pools ext cfg).Trace es s) : Exclusive s :=
  h.inv (fun _ => exclusive_init hrot) fun _ _ _ hs hstep => exclusive_step hs hstep

/-! ### What it gives -/

lemma Exclusive.lt {s : PoolState K} (hs : Exclusive s) {i : ℕ} (hi : i ∈ s.live) :
    i < s.pool.wallets.length := by
  rw [← hs.size]
  exact (List.getElem?_eq_some_iff.mp ((hs.busy i).mpr hi)).1

/-- The live guards are some of the wallets. -/
lemma Exclusive.live_le {s : PoolState K} (hs : Exclusive s) :
    s.live ≤ Multiset.range s.pool.wallets.length := by
  rw [Multiset.le_iff_subset hs.nodup]
  intro i hi
  exact Multiset.mem_range.mpr (hs.lt hi)

/-- Nothing is free exactly when there are as many live guards as wallets. -/
lemma Exclusive.none_iff {s : PoolState K} (hs : Exclusive s) :
    s.pool.firstAvailable = none ↔ s.live.card = s.pool.wallets.length := by
  have hcard : (Multiset.range s.pool.wallets.length).card = s.pool.wallets.length :=
    Multiset.card_range _
  rw [firstAvailable_eq_none, hs.size]
  simp only [hs.busy]
  refine ⟨?_, ?_⟩
  · intro h
    have hle : Multiset.range s.pool.wallets.length ≤ s.live := by
      rw [Multiset.le_iff_subset (Multiset.nodup_range _)]
      intro i hi
      exact h i (Multiset.mem_range.mp hi)
    have h₁ := Multiset.card_le_card hle
    have h₂ := Multiset.card_le_card hs.live_le
    omega
  · intro h i hi
    have heq : s.live = Multiset.range s.pool.wallets.length :=
      Multiset.eq_of_le_of_card_le hs.live_le (by omega)
    rw [heq]
    exact Multiset.mem_range.mpr hi

/-- **First-available exclusivity.** In every state that tasks can reach: no wallet has two
live guards; the busy flags are the live guards; acquiring fails exactly when every wallet
has a guard, and otherwise gives the lowest wallet that has none; and the flags are as many
as the wallets, so that a guard's keypair exists. -/
theorem exclusive {ext : Files K} {cfg : WalletConfig} (hrot : cfg.rotation = .firstAvailable)
    {es : List PoolEvent} {s : PoolState K} (h : (pools ext cfg).Trace es s) (choice : ℕ) :
    s.live.Nodup ∧
      (∀ i, s.pool.busy[i]? = some true ↔ i ∈ s.live) ∧
      (s.pool.acquire choice = none ↔ s.live.card = s.pool.wallets.length) ∧
      (∀ i pool, s.pool.acquire choice = some (i, pool) →
        i < s.pool.wallets.length ∧ i ∉ s.live ∧ ∀ j < i, j ∈ s.live) ∧
      s.pool.busy.length = s.pool.wallets.length ∧
      ∀ i ∈ s.live, (s.pool.keypair i).isSome := by
  have hs := exclusive_of_trace hrot h
  have hacquire : s.pool.acquire choice = s.pool.firstAvailable := by
    unfold WalletPool.acquire
    rw [hs.strategy]
  rw [hacquire]
  refine ⟨hs.nodup, hs.busy, hs.none_iff, ?_, hs.size, ?_⟩
  · intro i pool hsome
    obtain ⟨hfree, hbefore, -⟩ := firstAvailable_eq_some hsome
    refine ⟨?_, ?_, fun j hj => (hs.busy j).mp (hbefore j hj)⟩
    · rw [← hs.size]
      exact (List.getElem?_eq_some_iff.mp hfree).1
    · rw [← hs.busy i, hfree]
      decide
  · intro i hi
    unfold WalletPool.keypair
    rw [List.getElem?_eq_getElem (hs.lt hi)]
    rfl

theorem exclusive_example :
    let s : PoolState (List UInt8) :=
      { pool := { examplePool with busy := [true] }, marking := 0, live := 0 ::ₘ 0 }
    (pools exampleFiles exampleWallets).Trace [.acquired (some 0)] s ∧ s.live.Nodup ∧
      s.pool.acquire 0 = none := by
  intro s
  have hstart : (pools exampleFiles exampleWallets).Trace []
      { pool := examplePool, marking := 0, live := 0 } := .start ⟨load_example, rfl, rfl⟩
  have hs : (pools exampleFiles exampleWallets).Trace [.acquired (some 0)] s :=
    hstart.snoc (.first rfl rfl)
  obtain ⟨hnodup, -, hnone, -⟩ := exclusive rfl hs 0
  exact ⟨hs, hnodup, hnone.mpr rfl⟩

end NovaSniper.FirstAvailable
