import NovaSniper.EndToEnd
import NovaSniper.SystemRefines
import NovaSniper.TaskRuns
import NovaSniper.Transactions

/-!
Who may act with a wallet.

Whatever is done outside the program is done by a task that was spawned for a launch of the
stream, after the filters let the launch pass, and with the keypair of the wallet whose guard
the task holds. With first-available rotation no other task holds a guard of that wallet.
-/

namespace NovaSniper.Custody

open NovaSniper.FloatOps NovaSniper.Config NovaSniper.Detector NovaSniper.Filters
open NovaSniper.Wallet NovaSniper.FirstAvailable NovaSniper.Executor NovaSniper.Transactions
open NovaSniper.BuyProtocol NovaSniper.Startup NovaSniper.System NovaSniper.SystemRefines
open NovaSniper.EndToEnd NovaSniper.TaskRuns NovaSniper.Concurrency NovaSniper.Lib
open NovaSniper.Lib.Transition NovaSniper.Lib.Transition.LTS NovaSniper.Lib.Parties
open NovaSniper.Lib.Fallible NovaSniper.Lib.Retry

variable {F K : Type} [F64 F] {host : Host K} {path : String} {simulate : Bool} {cfg : Config F}
  {p : Program F K} {ls : List Label} {s : State F K}

/-! ### Keypairs -/

/-- A keypair of the pool is the one that was loaded from the path with its number. -/
lemma loaded_of_keypair (hbuilt : Built host simulate cfg p) {i : ℕ} {wallet : K}
    (h : p.wallets.keypair i = some wallet) :
    ∃ file, cfg.wallets.keypairPaths[i]? = some file ∧
      loadKeypair host.files file = .ok wallet := by
  have hload := hbuilt.wallets
  unfold WalletPool.load at hload
  obtain ⟨wallets, hwallets, hpool⟩ := bind_eq_ok.mp hload
  have hpool := Except.ok.inj hpool
  unfold WalletPool.keypair at h
  rw [← hpool] at h
  exact getElem?_of_mapM hwallets h

/-! ### The acts -/

/-- The wallet whose guard a task holds. -/
def walletOf (t : System.Task F) : Option ℕ :=
  match t.phase with
  | .holding i => some i
  | .buying i _ _ => some i
  | .returning i _ => some i
  | _ => none

/-- What there must be for a task to act, having acted as in `before`. -/
structure Authorised (host : Host K) (simulate : Bool) (cfg : Config F) (p : Program F K)
    (ls : List Label) (s : State F K) (k : ℕ) (before : List Act) (a : Act) : Prop where
  live : simulate = false
  act : ∃ t i file wallet w, s.tasks[k]? = some t ∧ walletOf t = some i ∧
    t.launch ∈ ls.flatMap (decodedBy host.crates p) ∧ Passed p t.launch ∧
    cfg.wallets.keypairPaths[i]? = some file ∧ loadKeypair host.files file = .ok wallet ∧
    Proper host.crates p.executor w t.launch wallet before a

/-- A task's launch is one of the updates received. -/
lemma launch_received (h : (system host.crates p).Trace ls s) {k : ℕ} {t : System.Task F}
    (ht : s.tasks[k]? = some t) : t.launch ∈ ls.flatMap (decodedBy host.crates p) :=
  (launches_delivered h).subset (List.mem_map_of_mem (List.mem_of_getElem? ht))

/-- **Every act is authorised.** In every run of a program that started: an act outside is that of
a task whose launch was decoded from an update received before, and passed the filters; it is not
a dry run; the task holds the guard of a wallet, and the act is what the protocol of a buy has
next for it, with the keypair loaded from the configured path of that wallet. -/
theorem acts_authorised (hbuilt : Built host simulate cfg p) {k : ℕ} {a : Act}
    (h : (system host.crates p).Trace (ls ++ [.task k (.act a)]) s) :
    Authorised host simulate cfg p ls s k ((actsBy k ls).filterMap remote) a := by
  obtain ⟨s', h', hstep⟩ := h.of_snoc
  cases hstep with
  | @task _ launch phase next _ pool ht hmove =>
    cases hmove with
    | @act i _ todo result =>
      have hs := (stands_of_trace h').task k _ ht
      obtain ⟨w, wallet, hkey, hbuy⟩ := hs.buy
      have hproper : Proper host.crates p.executor w launch wallet
          ((actsBy k ls).filterMap remote) a := by
        have hplaced := placed_buy host.crates p.executor w launch wallet
        rw [hbuy] at hplaced
        exact hplaced _ a todo rfl
      have hlive : p.executor.mode = .live := by
        cases hmode : p.executor.mode with
        | live => rfl
        | dryRun =>
          obtain ⟨summary, hdry⟩ := dryRun_eq host.crates p.executor launch hmode
          rw [hdry w wallet] at hbuy
          have hlog := congrArg Logged.log hbuy
          simp at hlog
      obtain ⟨file, hfile, hload⟩ := loaded_of_keypair hbuilt hkey
      have hlt : k < s'.tasks.length := (List.getElem?_eq_some_iff.mp ht).1
      have hreceived : launch ∈ ls.flatMap (decodedBy host.crates p) := launch_received h' ht
      refine ⟨?_, ⟨launch, .buying i todo result⟩, i, file, wallet, w, ?_, rfl, hreceived,
        hs.passed, hfile, hload, hproper⟩
      · rw [hbuilt.executor] at hlive
        cases simulate with
        | false => rfl
        | true => cases hlive
      · exact List.getElem?_set_self hlt

lemma smoothBuy_log : ∃ todo, smoothBuy.log = .getLatestBlockhash :: todo := ⟨_, rfl⟩

theorem acts_authorised_example : ∃ s,
    Authorised exampleHost false openConfig exampleProgram untilBuy s 0
      ((actsBy 0 untilBuy).filterMap remote) .getLatestBlockhash := by
  obtain ⟨todo, hlog⟩ := smoothBuy_log
  have h := trace_untilBuy
  rw [hlog] at h
  exact ⟨_, acts_authorised built_example (h.snoc (.task rfl .act))⟩

/-! ### One task for each wallet -/

omit [F64 F] in
lemma guard_absTask (t : System.Task F) : (absTask t).bind Concurrency.guard = walletOf t := by
  unfold absTask walletOf Concurrency.guard
  cases t.phase <;> rfl

omit [F64 F] in
/-- The live guards, as the pool sees them, are those of the tasks. -/
lemma live_eq (s : State F K) : (poolState (absState s)).live =
    (s.tasks : Multiset (System.Task F)).filterMap walletOf := by
  unfold poolState absState
  simp only [Multiset.filterMap_filterMap, guard_absTask]

/-- **A wallet has one keeper.** With first-available rotation, in every state that the program can
reach, the guards are the busy flags, and two tasks that hold the guard of one wallet are one
task: what is signed with a keypair is signed for one launch at a time. -/
theorem wallets_exclusive (hbuilt : Built host simulate cfg p)
    (hrot : cfg.wallets.rotation = .firstAvailable) (h : (system host.crates p).Trace ls s) :
    (∀ i, s.pool.busy[i]? = some true ↔ ∃ t ∈ s.tasks, walletOf t = some i) ∧
      ∀ (j k : ℕ) (t u : System.Task F) (i : ℕ), s.tasks[j]? = some t → s.tasks[k]? = some u →
        walletOf t = some i → walletOf u = some i → j = k := by
  have hexcl := exclusive_of_trace hrot (pool_of_trace hbuilt h)
  have hnodup := hexcl.nodup
  rw [live_eq] at hnodup
  refine ⟨?_, ?_⟩
  · intro i
    refine (hexcl.busy i).trans ?_
    rw [live_eq, Multiset.mem_filterMap]
    rfl
  · intro j k t u i hj hk ht hu
    exact eq_of_nodup hnodup hj hk ht hu

/-- Both wallets are busy, and the two tasks that buy do so with different ones. -/
theorem wallets_exclusive_example :
    let first : System.Task ℚ := ⟨createLaunch, .buying 1 smoothBuy.log smoothBuy.result⟩
    let second : System.Task ℚ := ⟨secondLaunch, .buying 0 secondBuy.log secondBuy.result⟩
    (∃ t ∈ [first, second], walletOf t = some 0) ∧ (∃ t ∈ [first, second], walletOf t = some 1) ∧
      walletOf first ≠ walletOf second := by
  intro first second
  obtain ⟨hbusy, hone⟩ :=
    wallets_exclusive (built_pair .firstAvailable) rfl trace_untilPairBuy
  refine ⟨(hbusy 0).mp rfl, (hbusy 1).mp rfl, fun hsame => ?_⟩
  exact absurd (hone 0 1 first second 1 rfl rfl rfl hsame.symm) (by decide)

end NovaSniper.Custody
