import NovaSniper.Wallet

/-!
The busy flags against the live guards, under every rotation.

A flag is one bit: an acquire sets it and every drop clears it, so it says which of the two
came last. A set flag always has a guard; a wallet with several guards looks free once one of
them is dropped, until it is acquired again.
-/

namespace NovaSniper.InFlight

open NovaSniper.Config NovaSniper.Wallet NovaSniper.Lib.Transition

variable {K : Type}

/-! ### What a history says -/

/-- What an event does to the flag of wallet `i`, if anything. -/
def touch (i : ℕ) : PoolEvent → Option Bool
  | .acquired (some j) => if j = i then some true else none
  | .dropped j => if j = i then some false else none
  | _ => none

/-- Whether the last acquire or drop of wallet `i` was an acquire, if there was any. -/
def lastTouch (i : ℕ) (es : List PoolEvent) : Option Bool := (es.filterMap (touch i)).getLast?

/-- Every wallet that has more acquires than drops was acquired after its last drop. -/
def Refreshed (es : List PoolEvent) : Prop :=
  ∀ i, es.count (.dropped i) < es.count (.acquired (some i)) → lastTouch i es = some true

/-- Every guard that was dropped was then the only one of its wallet. -/
def SoleDrops (es : List PoolEvent) : Prop :=
  ∀ u i v, es = u ++ .dropped i :: v → u.count (.acquired (some i)) = u.count (.dropped i) + 1

lemma touch_eq_none {i : ℕ} {e : PoolEvent} :
    touch i e = none ↔ e ≠ .acquired (some i) ∧ e ≠ .dropped i := by
  cases e with
  | chose j => simp [touch]
  | panicked => simp [touch]
  | dropped j => simp [touch]
  | acquired r => cases r <;> simp [touch]

lemma lastTouch_snoc (i : ℕ) (es : List PoolEvent) (e : PoolEvent) :
    lastTouch i (es ++ [e]) = (touch i e).or (lastTouch i es) := by
  unfold lastTouch
  rw [List.filterMap_append, List.getLast?_append]
  cases h : touch i e with
  | none => simp [h]
  | some b => simp [h]

lemma SoleDrops.of_snoc {es : List PoolEvent} {e : PoolEvent} (h : SoleDrops (es ++ [e])) :
    SoleDrops es := by
  intro u i v huv
  refine h u i (v ++ [e]) ?_
  rw [huv, List.append_assoc, List.cons_append]

/-- Where every drop was of the only guard, a wallet that was not acquired last has none. -/
lemma SoleDrops.count_le {es : List PoolEvent} (h : SoleDrops es) {i : ℕ}
    (hlast : lastTouch i es ≠ some true) :
    es.count (.acquired (some i)) ≤ es.count (.dropped i) := by
  induction es using List.reverseRecOn with
  | nil => rfl
  | append_singleton es e ih =>
    have hih := ih h.of_snoc
    rw [lastTouch_snoc] at hlast
    rw [List.count_append, List.count_append]
    by_cases hacq : e = .acquired (some i)
    · subst hacq
      simp [touch] at hlast
    · by_cases hdrop : e = .dropped i
      · have hsole := h es i [] (by rw [hdrop])
        have hone : [PoolEvent.dropped i].count (.dropped i) = 1 := List.count_singleton_self
        have hnone : [PoolEvent.dropped i].count (.acquired (some i)) = 0 := by simp
        rw [hdrop, hone, hnone]
        omega
      · have hnone : touch i e = none := touch_eq_none.mpr ⟨hacq, hdrop⟩
        rw [hnone, Option.none_or] at hlast
        have hle := hih hlast
        simpa [List.count_singleton, hacq, hdrop] using hle

/-! ### The invariant -/

/-- The guards are the acquires without the drops, and a flag is the last of the two. -/
structure Tracked (es : List PoolEvent) (s : PoolState K) : Prop where
  range : InRange s
  live : ∀ i, s.live.count i + es.count (.dropped i) = es.count (.acquired (some i))
  busy : ∀ i, s.pool.busy[i]? = some true ↔ lastTouch i es = some true
  held : ∀ i, lastTouch i es = some true → i ∈ s.live

section Step

variable {es : List PoolEvent} {s t : PoolState K}

/-- The flags after an event that sets the one of wallet `i` to `b`. -/
lemma busy_set (hs : Tracked es s) {e : PoolEvent} {i : ℕ} {b : Bool}
    (he : ∀ j, touch j e = if i = j then some b else none) (hlt : i < s.pool.busy.length) (j : ℕ) :
    (s.pool.busy.set i b)[j]? = some true ↔ lastTouch j (es ++ [e]) = some true := by
  rw [getElem?_set_flag hlt, lastTouch_snoc, hs.busy j, he]
  by_cases hij : i = j
  · simp [hij]
  · have hji : ¬ j = i := fun h => hij h.symm
    simp [hij, hji]

lemma tracked_acquired {i : ℕ} (hs : Tracked es s) (ht : InRange t)
    (hlt : i < s.pool.busy.length) (hbusy : t.pool.busy = s.pool.busy.set i true)
    (hlive : t.live = i ::ₘ s.live) : Tracked (es ++ [.acquired (some i)]) t := by
  refine ⟨ht, ?_, ?_, ?_⟩
  · intro j
    have hj := hs.live j
    have hacq : [PoolEvent.acquired (some i)].count (.acquired (some j)) =
        if i = j then 1 else 0 := by simp [List.count_singleton]
    have hdrop : [PoolEvent.acquired (some i)].count (.dropped j) = 0 := by simp
    rw [hlive, Multiset.count_cons, List.count_append, List.count_append, hacq, hdrop]
    split_ifs <;> omega
  · rw [hbusy]
    exact busy_set hs (fun _ => rfl) hlt
  · intro j hj
    rw [hlive, Multiset.mem_cons]
    rw [lastTouch_snoc, touch] at hj
    split_ifs at hj with hij
    · exact .inl hij.symm
    · exact .inr (hs.held j hj)

lemma tracked_dropped {i : ℕ} (hs : Tracked es s) (ht : InRange t) (hi : i ∈ s.live)
    (hbusy : t.pool.busy = s.pool.busy.set i false) (hlive : t.live = s.live.erase i) :
    Tracked (es ++ [.dropped i]) t := by
  have hlt : i < s.pool.busy.length := by
    rw [hs.range.busy]
    exact hs.range.live i hi
  refine ⟨ht, ?_, ?_, ?_⟩
  · intro j
    have hj := hs.live j
    have hacq : [PoolEvent.dropped i].count (.acquired (some j)) = 0 := by simp
    have hdrop : [PoolEvent.dropped i].count (.dropped j) = if i = j then 1 else 0 := by
      simp [List.count_singleton]
    rw [hlive, List.count_append, List.count_append, hacq, hdrop]
    split_ifs with hij
    · have hpos := Multiset.one_le_count_iff_mem.mpr hi
      rw [← hij, Multiset.count_erase_self]
      rw [← hij] at hj
      omega
    · have hji : j ≠ i := fun h => hij h.symm
      rw [Multiset.count_erase_of_ne hji]
      exact hj
  · rw [hbusy]
    exact busy_set hs (fun _ => rfl) hlt
  · intro j hj
    rw [lastTouch_snoc, touch] at hj
    split_ifs at hj with hij
    · simp at hj
    · have hji : j ≠ i := fun h => hij h.symm
      rw [hlive, Multiset.mem_erase_of_ne hji]
      exact hs.held j hj

/-- An event that touches no flag. -/
lemma tracked_untouched {e : PoolEvent} (hs : Tracked es s) (ht : InRange t)
    (he : ∀ i, touch i e = none) (hbusy : t.pool.busy = s.pool.busy) (hlive : t.live = s.live) :
    Tracked (es ++ [e]) t := by
  have hlast : ∀ i, lastTouch i (es ++ [e]) = lastTouch i es := by
    intro i
    rw [lastTouch_snoc, he, Option.none_or]
  refine ⟨ht, ?_, ?_, ?_⟩
  · intro i
    obtain ⟨hacq, hdrop⟩ := touch_eq_none.mp (he i)
    rw [hlive]
    simpa [List.count_append, List.count_singleton, hacq, hdrop] using hs.live i
  · intro i
    rw [hbusy, hlast]
    exact hs.busy i
  · intro i hi
    rw [hlive]
    exact hs.held i (hlast i ▸ hi)

/-- **Every step keeps track.** -/
theorem tracked_step {e : PoolEvent} (hs : Tracked es s) (hstep : PoolStep s e t) :
    Tracked (es ++ [e]) t := by
  have ht := inRange_step hs.range hstep
  cases hstep with
  | roundRobin hrot hn => exact tracked_untouched hs ht (fun _ => rfl) rfl rfl
  | roundRobinNone hrot hn => exact tracked_untouched hs ht (fun _ => rfl) rfl rfl
  | random hrot hi => exact tracked_untouched hs ht (fun _ => rfl) rfl rfl
  | randomNone hrot hn => exact tracked_untouched hs ht (fun _ => rfl) rfl rfl
  | @mark i hi =>
    have hlt : i < s.pool.busy.length := by
      rw [hs.range.busy]
      exact hs.range.marking i hi
    exact tracked_acquired hs ht hlt (by rw [markBusy_eq]) rfl
  | @first i pool hrot hsome =>
    obtain ⟨hfree, -, rfl⟩ := firstAvailable_eq_some hsome
    exact tracked_acquired hs ht (List.getElem?_eq_some_iff.mp hfree).1 rfl rfl
  | firstNone hrot hnone => exact tracked_untouched hs ht (fun _ => rfl) rfl rfl
  | drop hi => exact tracked_dropped hs ht hi (by rw [release_eq]) rfl

end Step

section Runs

variable {ext : Files K} {cfg : WalletConfig} {es : List PoolEvent} {s : PoolState K}

lemma tracked_init (h : (pools ext cfg).init s) : Tracked [] s := by
  have hrange := inRange_init h
  obtain ⟨hload, -, hlive⟩ := h
  obtain ⟨-, -, -, hbusy⟩ := load_eq_ok hload
  refine ⟨hrange, ?_, ?_, ?_⟩
  · simp [hlive]
  · intro i
    rw [hbusy, List.getElem?_replicate]
    split_ifs <;> simp [lastTouch]
  · simp [lastTouch]

lemma tracked_of_trace (h : (pools ext cfg).Trace es s) : Tracked es s :=
  h.hist (P := Tracked) (fun _ => tracked_init) fun _ _ _ _ => tracked_step

lemma Tracked.mem_live_iff (hs : Tracked es s) (i : ℕ) :
    i ∈ s.live ↔ es.count (.dropped i) < es.count (.acquired (some i)) := by
  have hcount := hs.live i
  rw [← Multiset.one_le_count_iff_mem]
  omega

/-- **When the flags track the guards.** Under every rotation and after every run of acquires
and drops: the flags are the wallets with live guards exactly when each of these was acquired
after its last drop. So they are in every run that drops a guard only where it is the only one
of its wallet. -/
theorem busy_iff_live (h : (pools ext cfg).Trace es s) :
    ((∀ i, s.pool.busy[i]? = some true ↔ i ∈ s.live) ↔ Refreshed es) ∧
      (SoleDrops es → ∀ i, s.pool.busy[i]? = some true ↔ i ∈ s.live) := by
  have hs := tracked_of_trace h
  have hiff : (∀ i, s.pool.busy[i]? = some true ↔ i ∈ s.live) ↔ Refreshed es := by
    refine ⟨?_, ?_⟩
    · intro hall i hi
      rw [← hs.mem_live_iff, ← hall, hs.busy] at hi
      exact hi
    · intro hfresh i
      rw [hs.busy]
      exact ⟨hs.held i, fun hi => hfresh i ((hs.mem_live_iff i).mp hi)⟩
  refine ⟨hiff, fun hsole => hiff.mpr ?_⟩
  intro i hi
  by_contra hlast
  have hle := hsole.count_le hlast
  omega

end Runs

/-! ### Two guards of one wallet -/

/-- The wallets of the example configuration, in turn. -/
def inTurn : WalletConfig := { exampleConfig.wallets with rotation := .roundRobin }

def inTurnPool : WalletPool (List UInt8) := { examplePool with strategy := .roundRobin }

def twoAcquires : List PoolEvent :=
  [.chose 0, .acquired (some 0), .chose 0, .acquired (some 0)]

/-- The pool after them. -/
def afterTwo : PoolState (List UInt8) where
  pool := { inTurnPool with cursor := 2, busy := [true] }
  marking := 0
  live := {0, 0}

lemma load_inTurn : WalletPool.load exampleFiles inTurn = .ok inTurnPool := by
  simp [WalletPool.load, inTurn, exampleConfig, loadKeypair, Lib.Fallible.withContext,
    exampleFiles, inTurnPool, examplePool, exampleKeypair, bind, Except.bind, pure, Except.pure]

lemma trace_afterTwo : (pools exampleFiles inTurn).Trace twoAcquires afterTwo := by
  have h₀ : (pools exampleFiles inTurn).Trace []
      { pool := inTurnPool, marking := 0, live := 0 } := .start ⟨load_inTurn, rfl, rfl⟩
  have h₁ : (pools exampleFiles inTurn).Trace [.chose 0]
      { pool := { inTurnPool with cursor := 1 }, marking := {0}, live := 0 } :=
    h₀.snoc (.roundRobin rfl (List.cons_ne_nil _ _))
  have h₂ : (pools exampleFiles inTurn).Trace [.chose 0, .acquired (some 0)]
      { pool := { inTurnPool with cursor := 1, busy := [true] }, marking := 0, live := {0} } :=
    h₁.snoc (.mark (Multiset.mem_singleton_self 0))
  have h₃ : (pools exampleFiles inTurn).Trace [.chose 0, .acquired (some 0), .chose 0]
      { pool := { inTurnPool with cursor := 2, busy := [true] }, marking := {0}, live := {0} } :=
    h₂.snoc (.roundRobin rfl (List.cons_ne_nil _ _))
  exact h₃.snoc (.mark (Multiset.mem_singleton_self 0))

theorem busy_iff_live_example : (pools exampleFiles inTurn).Trace twoAcquires afterTwo ∧
    ∀ i, afterTwo.pool.busy[i]? = some true ↔ i ∈ afterTwo.live := by
  refine ⟨trace_afterTwo, (busy_iff_live trace_afterTwo).2 ?_⟩
  intro u i v huv
  have hmem : PoolEvent.dropped i ∈ twoAcquires := by
    rw [huv]
    simp
  simp [twoAcquires] at hmem

/-- The first drop clears the flag, and the other guard is still live. -/
theorem held_but_free : ∃ s, (pools exampleFiles inTurn).Trace (twoAcquires ++ [.dropped 0]) s ∧
    s.marking = 0 ∧ ¬ ∀ i, s.pool.busy[i]? = some true ↔ i ∈ s.live := by
  have hlive : (0 : ℕ) ∈ afterTwo.live := by decide
  refine ⟨_, trace_afterTwo.snoc (.drop hlive), rfl, fun h => ?_⟩
  have hheld := (h 0).mpr (by decide)
  revert hheld
  decide

end NovaSniper.InFlight
