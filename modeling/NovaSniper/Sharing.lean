import NovaSniper.Custody
import NovaSniper.RoundRobin

/-!
What the tasks of the running program share: the permits, and the turns of the rotation.

Both are known of smaller programs, of the main loop and of the pool. The running program refines
them, so that they hold however the acts of the tasks, the channel and the listener come between.
-/

namespace NovaSniper.Sharing

open NovaSniper.FloatOps NovaSniper.Config NovaSniper.Wallet NovaSniper.RoundRobin
open NovaSniper.BuyOnce NovaSniper.Startup NovaSniper.System NovaSniper.SystemRefines
open NovaSniper.Concurrency NovaSniper.EndToEnd NovaSniper.TaskRuns NovaSniper.Custody
open NovaSniper.Lib.Transition NovaSniper.Lib.Turns

variable {F K : Type}

/-! ### Permits -/

/-- The task has a permit. -/
def alive (t : System.Task F) : Bool :=
  match t.phase with
  | .gone _ => false
  | _ => true

lemma isSome_absTask (t : System.Task F) : (absTask t).isSome = alive t := by
  unfold absTask alive
  cases t.phase <;> rfl

lemma isSome_walletOf {t : System.Task F} (h : (walletOf t).isSome) : alive t = true := by
  unfold walletOf at h
  unfold alive
  cases hphase : t.phase with
  | gone outcome => simp [hphase] at h
  | _ => rfl

/-- The main loop knows the tasks with a permit. -/
lemma card_absTasks (s : State F K) : (absState s).tasks.card = s.tasks.countP alive := by
  unfold absState
  rw [Multiset.filterMap_coe, Multiset.coe_card, List.length_filterMap_eq_countP]
  exact List.countP_congr fun t _ => by rw [isSome_absTask]

section Permits

variable [F64 F] {host : Host K} {simulate : Bool} {cfg : Config F} {p : Program F K}
  {ls : List Label} {s : State F K}

/-- **Permits are neither lost nor made.** In every state that the program can reach, the free
permits, the permit that the loop holds for a launch, and those of the tasks that have not ended
are `max_concurrent_snipes`, or one; so no more tasks than that are at work, and no more guards of
wallets are held. -/
theorem permits_exact (hbuilt : Built host simulate cfg p)
    (h : (system host.crates p).Trace ls s) :
    s.permits + held s.loop + s.tasks.countP alive = max cfg.runtime.maxConcurrentSnipes 1 ∧
      s.tasks.countP (fun t => (walletOf t).isSome) ≤ s.tasks.countP alive := by
  have hpermits := permits_of_trace (main_of_trace hbuilt h)
  rw [card_absTasks] at hpermits
  exact ⟨hpermits, List.countP_mono_left fun t _ ht => isSome_walletOf ht⟩

/-! ### Turns -/

def choiceBy : Label → Option ℕ
  | .task _ (.pool e) => choice e
  | _ => none

/-- The wallets that the tasks have chosen, in the order of their `fetch_add`s. -/
def choices (ls : List Label) : List ℕ := ls.filterMap choiceBy

lemma chosen_eq_choices (ls : List Label) :
    RoundRobin.chosen ((ls.filterMap absLabel).filterMap id) = choices ls := by
  unfold RoundRobin.chosen choices
  rw [List.filterMap_filterMap, List.filterMap_filterMap]
  refine List.filterMap_congr fun l _ => ?_
  cases l with
  | task k a => cases a <;> rfl
  | _ => rfl

/-- **Wallets are chosen in turn.** With round-robin rotation, as long as fewer than `2 ^ 64`
wallets have been chosen, the tasks choose the wallets one after another, over and over, in the
order in which they come to choose, whatever their launches and however long they hold them: any
choices in a row, as many as there are wallets, are of each wallet once, and no wallet is chosen
two times more than another. -/
theorem rotation_in_turn (hbuilt : Built host simulate cfg p)
    (hrot : cfg.wallets.rotation = .roundRobin) (h : (system host.crates p).Trace ls s)
    (hmax : (choices ls).length < 2 ^ 64) :
    choices ls = turns cfg.wallets.keypairPaths.length (choices ls).length ∧
      (∀ u w v, choices ls = u ++ w ++ v → w.length = cfg.wallets.keypairPaths.length →
        w.Perm (List.range cfg.wallets.keypairPaths.length)) ∧
      ∀ i < cfg.wallets.keypairPaths.length, ∀ j < cfg.wallets.keypairPaths.length,
        (choices ls).count i ≤ (choices ls).count j + 1 := by
  have hne : cfg.wallets.keypairPaths ≠ [] := by
    intro hnil
    exact validate_eq_ok.mp hbuilt.valid (.inl hnil)
  have hturns := (inTurn_of_trace hrot hne (pool_of_trace hbuilt h)).turns
  rw [chosen_eq_choices] at hturns
  have hin := hturns hmax.le
  refine ⟨hin, ?_, ?_⟩
  · intro u w v huwv hw
    rw [hin] at huwv
    exact perm_of_window huwv hw
  · intro i hi j hj
    rw [hin]
    exact count_turns_le _ hi hj

end Permits

/-- One permit, and the task that has it is in its buy. -/
theorem permits_exact_example :
    0 + 0 + [(⟨createLaunch, .buying 0 smoothBuy.log smoothBuy.result⟩ :
      System.Task ℚ)].countP alive = max 1 1 :=
  (permits_exact built_example trace_untilBuy).1

/-- The second task chooses before the first, each its own wallet. -/
def untilPairChose : List Label :=
  untilPair ++ [.task 1 (.pool (.chose 0)), .task 0 (.pool (.chose 1))]

theorem rotation_in_turn_example :
    choices untilPairChose = turns 2 2 ∧ [0, 1].Perm (List.range 2) := by
  have hne : twoPool.wallets ≠ [] := List.cons_ne_nil _ _
  have h : (system exampleCrates (pairProgram .roundRobin)).Trace untilPairChose
      (twoTasks (.marking 1) (.marking 0) { twoPool with cursor := 2 } 0) :=
    ((trace_untilPair .roundRobin).snoc (.task (k := 1) rfl (.roundRobin rfl hne))).snoc
      (.task (k := 0) rfl (.roundRobin rfl hne))
  obtain ⟨hturns, hwindow, -⟩ := rotation_in_turn (built_pair .roundRobin) rfl h (by decide)
  exact ⟨hturns, hwindow [] [0, 1] [] rfl rfl⟩

end NovaSniper.Sharing
