import NovaSniper.Executor
import NovaSniper.Wallet

/-!
Whether one call of `buy` can have two transactions taken.

The client retries on every error. An attempt whose bundle was taken and whose answer reads
as an error is followed by another, with another transaction.
-/

namespace NovaSniper.BuyOnce

open NovaSniper.FloatOps NovaSniper.Config NovaSniper.Solana NovaSniper.Detector
open NovaSniper.Executor NovaSniper.Wallet NovaSniper.Lib.Retry NovaSniper.Lib.Retry.Logged

/-! ### The property -/

/-- A bundle that the block engine took. -/
def bundleTaken : Act → Bool
  | .postBundle _ _ _ accepted => accepted
  | _ => false

/-- A submission of either kind that was taken. -/
def taken : Act → Bool
  | .postBundle _ _ _ accepted => accepted
  | .sendTransaction _ accepted => accepted
  | _ => false

/-- Nothing is submitted after an act of kind `p`. -/
def NothingAfter (p : Act → Bool) (log : List Act) : Prop :=
  log.Pairwise fun a b => p a = true → b.submits = false

/-- **At most once**: nothing is submitted after a bundle was taken, and no more than one
transaction is taken in all. -/
def AtMostOnce (log : List Act) : Prop :=
  NothingAfter bundleTaken log ∧ (log.filter taken).length ≤ 1

/-- What counts as taken, for bundles: their flag; and only submissions are taken. -/
structure Takes (p : Act → Bool) : Prop where
  bundle : ∀ url request tx accepted, p (.postBundle url request tx accepted) = accepted
  submits : ∀ a, p a = true → a.submits = true

lemma takes_bundleTaken : Takes bundleTaken where
  bundle _ _ _ _ := rfl
  submits a h := by cases a <;> simp_all [bundleTaken, Act.submits]

lemma takes_taken : Takes taken where
  bundle _ _ _ _ := rfl
  submits a h := by cases a <;> simp_all [taken, Act.submits]

lemma atMostOnce_of_taken {log : List Act} (h : NothingAfter taken log) : AtMostOnce log := by
  refine ⟨?_, ?_⟩
  · refine h.imp ?_
    intro a b hab ha
    cases a with
    | postBundle url request tx accepted => exact hab ha
    | _ => simp [bundleTaken] at ha
  · -- two that are taken would be two submissions in a row
    have hpair : (log.filter taken).Pairwise fun _ _ => False := by
      rw [List.pairwise_filter]
      refine h.imp ?_
      intro a b hab ha hb
      have hsub := takes_taken.submits b hb
      rw [hab ha] at hsub
      exact absurd hsub (by decide)
    cases hlog : log.filter taken with
    | nil => simp
    | cons a rest =>
      rw [hlog, List.pairwise_cons] at hpair
      have hrest : rest = [] := List.eq_nil_iff_forall_not_mem.mpr hpair.1
      rw [hrest]
      simp

/-! ### Parts of a log -/

/-- A part of a log: nothing follows a taken act inside it, `posts` says whether it has a
submission, and `lands` whether one of kind `p`. -/
structure Part (p : Act → Bool) (log : List Act) (posts lands : Prop) : Prop where
  inside : NothingAfter p log
  posts : (∃ a ∈ log, a.submits = true) ↔ posts
  lands : (∃ a ∈ log, p a = true) ↔ lands

def Quiet (log : List Act) : Prop := ∀ a ∈ log, a.submits = false

section Parts

variable {p : Act → Bool}

lemma Quiet.not_taken {log : List Act} (h : Quiet log) (hp : Takes p) {a : Act} (ha : a ∈ log) :
    ¬ p a = true := by
  intro hpa
  have hsub := hp.submits a hpa
  rw [h a ha] at hsub
  exact absurd hsub (by decide)

lemma Quiet.nothingAfter {log : List Act} (h : Quiet log) (hp : Takes p) : NothingAfter p log := by
  induction log with
  | nil => exact List.Pairwise.nil
  | cons a log ih =>
    refine List.Pairwise.cons ?_ (ih fun b hb => h b (List.mem_cons_of_mem _ hb))
    intro b _ hpa
    exact absurd hpa (h.not_taken hp (List.mem_cons_self ..))

lemma part_quiet {log : List Act} (h : Quiet log) (hp : Takes p) : Part p log False False where
  inside := h.nothingAfter hp
  posts := by
    refine iff_false_intro ?_
    rintro ⟨a, ha, hsub⟩
    rw [h a ha] at hsub
    exact absurd hsub (by decide)
  lands := by
    refine iff_false_intro ?_
    rintro ⟨a, ha, hpa⟩
    exact h.not_taken hp ha hpa

/-- One submission among acts that are none. -/
lemma part_single {before after : List Act} {a : Act} (hp : Takes p) (hbefore : Quiet before)
    (hafter : Quiet after) (ha : a.submits = true) :
    Part p (before ++ a :: after) True (p a = true) where
  inside := by
    unfold NothingAfter
    rw [List.pairwise_append, List.pairwise_cons]
    refine ⟨hbefore.nothingAfter hp, ⟨fun b hb _ => hafter b hb, hafter.nothingAfter hp⟩, ?_⟩
    intro b hb c _ hpb
    exact absurd hpb (hbefore.not_taken hp hb)
  posts := iff_true_intro ⟨a, by simp, ha⟩
  lands := by
    refine ⟨?_, ?_⟩
    · rintro ⟨b, hb, hpb⟩
      rcases List.mem_append.mp hb with hb | hb
      · exact absurd hpb (hbefore.not_taken hp hb)
      · rcases List.mem_cons.mp hb with rfl | hb
        · exact hpb
        · exact absurd hpb (hafter.not_taken hp hb)
    · exact fun hpa => ⟨a, by simp, hpa⟩

/-- Between two parts, nothing follows exactly when the first does not land or the second
does not post. -/
lemma Part.cross {log log' : List Act} {posts lands posts' lands' : Prop}
    (h : Part p log posts lands) (h' : Part p log' posts' lands') :
    (∀ a ∈ log, ∀ b ∈ log', p a = true → b.submits = false) ↔ (lands → ¬ posts') := by
  rw [← h.lands, ← h'.posts]
  refine ⟨?_, ?_⟩
  · rintro hall ⟨a, ha, hpa⟩ ⟨b, hb, hsub⟩
    rw [hall a ha b hb hpa] at hsub
    exact absurd hsub (by decide)
  · intro himp a ha b hb hpa
    by_contra hsub
    exact himp ⟨a, ha, hpa⟩ ⟨b, hb, by simpa using hsub⟩

/-- A run of parts and a last one. -/
lemma nothingAfter_parts {stage : ℕ → List Act} {posts lands : ℕ → Prop} {last : List Act}
    {lastPosts lastLands : Prop} (hstage : ∀ j, Part p (stage j) (posts j) (lands j))
    (hlast : Part p last lastPosts lastLands) (k : ℕ) :
    NothingAfter p ((List.range' 0 k).flatMap stage ++ last) ↔
      (∀ b < k, ∀ a < b, lands a → ¬ posts b) ∧ ∀ a < k, lands a → ¬ lastPosts := by
  unfold NothingAfter
  rw [← List.range_eq_range', List.pairwise_append, List.pairwise_flatMap]
  refine ⟨?_, ?_⟩
  · rintro ⟨⟨-, hpairs⟩, -, hcross⟩
    refine ⟨fun b hb a hab => ?_, fun a ha => ?_⟩
    · rw [List.pairwise_iff_getElem] at hpairs
      have h := hpairs a b (by simpa using hab.trans hb) (by simpa using hb) hab
      rw [List.getElem_range, List.getElem_range] at h
      exact ((hstage a).cross (hstage b)).mp h
    · refine ((hstage a).cross hlast).mp fun x hx y hy => hcross x ?_ y hy
      exact List.mem_flatMap.mpr ⟨a, List.mem_range.mpr ha, hx⟩
  · rintro ⟨hpairs, hcross⟩
    refine ⟨⟨fun a _ => (hstage a).inside, ?_⟩, hlast.inside, ?_⟩
    · rw [List.pairwise_iff_getElem]
      intro a b ha hb hab
      rw [List.getElem_range, List.getElem_range]
      exact ((hstage a).cross (hstage b)).mpr (hpairs b (by simpa using hb) a hab)
    · intro x hx y hy
      obtain ⟨a, ha, hxa⟩ := List.mem_flatMap.mp hx
      exact ((hstage a).cross hlast).mpr (hcross a (List.mem_range.mp ha)) x hxa y hy

end Parts

/-! ### The attempts of one call -/

section Attempts

variable {F K : Type} (ext : Crates K) (ex : Executor F) (w : World) (event : LaunchEvent)
  (wallet : K)

lemma quiet_nil : Quiet [] := fun _ ha => absurd ha List.not_mem_nil

/-- The direct path submits exactly when it has a blockhash. -/
lemma part_fallback {p : Act → Bool} (hp : Takes p) (lastErr : Option String) : ∃ lands,
    Part p (ex.fallback ext w.direct event wallet lastErr).log
      (∃ hash, w.direct.blockhash = .ok hash) lands := by
  rw [fallback_log]
  rcases submitDirect_cases ext ex w.direct event wallet with ⟨hhash, before, tx, hbefore, hlog⟩ |
    ⟨hhash, hquiet⟩
  · have hpart : Part p (before ++ [.sendTransaction tx w.direct.accepted]) True _ :=
      part_single hp hbefore quiet_nil rfl
    rw [hlog]
    exact ⟨_, hpart.inside, hpart.posts.trans (iff_of_true trivial hhash), hpart.lands⟩
  · have hpart := part_quiet hquiet hp
    exact ⟨_, hpart.inside, hpart.posts.trans (iff_of_false id hhash), hpart.lands⟩

variable [F64 F]

/-- Attempt `j` submits its bundle. -/
def Posts (j : ℕ) : Prop := ex.Posts ext (w.bundle j) event wallet

/-- Attempt `j` submits its bundle, and it is taken. -/
def Lands (j : ℕ) : Prop := Posts ext ex w event wallet j ∧ (w.bundle j).accepted = true

/-- Attempt `n` is made: none before it was read as a success. -/
def Reached (n : ℕ) : Prop :=
  ∀ j < n, ¬ (Posts ext ex w event wallet j ∧ Answered ext (w.bundle j))

/-- **No submission after one that lands.** After an attempt whose bundle was taken, no later
attempt that is made gets as far as a submission, and the direct path, if it is reached, does
not either. -/
structure NoneAfterLanding : Prop where
  bundle : ∀ b ≤ ex.jito.maxBundleRetries.toNat, Reached ext ex w event wallet b →
    ∀ a < b, Lands ext ex w event wallet a → ¬ Posts ext ex w event wallet b
  direct : Reached ext ex w event wallet (ex.jito.maxBundleRetries.toNat + 1) →
    ∀ a ≤ ex.jito.maxBundleRetries.toNat, Lands ext ex w event wallet a →
      ¬ ∃ hash, w.direct.blockhash = .ok hash

def attempt (j : ℕ) : Logged Act (BuyOutcome F) :=
  ex.submitBundle ext (w.bundle j) event wallet

variable {ext ex w event wallet} {p : Act → Bool}

lemma failed_iff (j : ℕ) : (attempt ext ex w event wallet j).Failed ↔
    ¬ (Posts ext ex w event wallet j ∧ Answered ext (w.bundle j)) := by
  unfold attempt Posts
  rcases submitBundle_cases ext ex (w.bundle j) event wallet with ⟨hposts, -, hfail⟩ |
    ⟨hposts, -, hfail⟩
  · rw [hfail, not_and]
    exact ⟨fun h _ => h, fun h => h hposts⟩
  · exact ⟨fun _ h => hposts h.1, fun _ => hfail⟩

/-- The log of an attempt, with or without what follows a failure. -/
lemma part_attempt (hp : Takes p) {after : List Act} (hafter : Quiet after) (j : ℕ) :
    Part p ((attempt ext ex w event wallet j).log ++ after) (Posts ext ex w event wallet j)
      (Lands ext ex w event wallet j) := by
  unfold attempt Lands Posts
  rcases submitBundle_cases ext ex (w.bundle j) event wallet with
    ⟨hposts, ⟨before, url, request, tx, hbefore, hlog⟩, -⟩ | ⟨hposts, hquiet, -⟩
  · rw [hlog, List.append_assoc, List.singleton_append]
    have hpart := part_single (a := .postBundle url request tx (w.bundle j).accepted) hp hbefore
      hafter rfl
    rw [hp.bundle] at hpart
    refine ⟨hpart.inside, hpart.posts.trans (iff_of_true trivial hposts), hpart.lands.trans ?_⟩
    exact (and_iff_right hposts).symm
  · have hall : Quiet ((ex.submitBundle ext (w.bundle j) event wallet).log ++ after) := by
      intro a ha
      rcases List.mem_append.mp ha with ha | ha
      · exact hquiet a ha
      · exact hafter a ha
    have hpart := part_quiet hall hp
    exact ⟨hpart.inside, hpart.posts.trans (iff_of_false id hposts),
      hpart.lands.trans (iff_of_false id fun h => hposts h.1)⟩

lemma quiet_backoff (j : ℕ) : Quiet (backoff j) := by
  intro a ha
  rw [List.mem_singleton.mp ha]
  rfl

lemma reached_iff (n : ℕ) : Reached ext ex w event wallet n ↔
    ∀ j < n, (attempt ext ex w event wallet j).Failed := by
  unfold Reached
  simp only [failed_iff]

lemma nothingAfter_buy (hp : Takes p) (hlive : ex.mode = .live) :
    NothingAfter p (ex.buy ext w event wallet).log ↔
      NoneAfterLanding ext ex w event wallet := by
  have hstage : ∀ j, Part p (stage (attempt ext ex w event wallet) backoff j)
      (Posts ext ex w event wallet j) (Lands ext ex w event wallet j) :=
    fun j => part_attempt hp (quiet_backoff j) j
  have hbuy : ex.buy ext w event wallet = retry (attempt ext ex w event wallet) backoff
      (ex.fallback ext w.direct event wallet) 0 (ex.jito.maxBundleRetries.toNat + 1) none := by
    unfold Executor.buy
    rw [hlive]
    rfl
  rw [hbuy]
  rcases retry_cases (attempt ext ex w event wallet) backoff
    (ex.fallback ext w.direct event wallet) 0 (ex.jito.maxBundleRetries.toNat + 1) none with
    ⟨k, hk, hfail, hok, heq⟩ | ⟨hfail, lastErr, -, -, heq⟩
  · -- attempt `k` is read as a success, and is the last
    simp only [zero_add] at hfail hok heq
    have hlast : Part p ((attempt ext ex w event wallet k).log ++ [])
        (Posts ext ex w event wallet k) (Lands ext ex w event wallet k) :=
      part_attempt hp quiet_nil k
    rw [List.append_nil] at hlast
    rw [heq, nothingAfter_parts hstage hlast]
    refine ⟨?_, ?_⟩
    · rintro ⟨hpairs, hcross⟩
      refine ⟨fun b hb hreach a ha => ?_, fun hreach => ?_⟩
      · have hbk : b ≤ k := by
          by_contra hlt
          exact hok ((reached_iff b).mp hreach k (by omega))
        rcases hbk.lt_or_eq with hlt | rfl
        · exact hpairs b hlt a ha
        · exact hcross a ha
      · exact absurd ((reached_iff _).mp hreach k hk) hok
    · intro hnone
      have hreach : ∀ b ≤ k, Reached ext ex w event wallet b := fun b hb =>
        (reached_iff b).mpr fun j hj => hfail j (by omega)
      exact ⟨fun b hb a ha => hnone.bundle b (by omega) (hreach b hb.le) a ha,
        fun a ha => hnone.bundle k (by omega) (hreach k le_rfl) a ha⟩
  · -- every attempt fails, and the direct path is the last
    simp only [zero_add] at hfail heq
    obtain ⟨lands, hlast⟩ := part_fallback ext ex w event wallet hp lastErr
    rw [heq, nothingAfter_parts hstage hlast]
    refine ⟨?_, ?_⟩
    · rintro ⟨hpairs, hcross⟩
      exact ⟨fun b hb _ a ha => hpairs b (by omega) a ha, fun _ a ha => hcross a (by omega)⟩
    · intro hnone
      have hreach : ∀ b ≤ ex.jito.maxBundleRetries.toNat + 1, Reached ext ex w event wallet b :=
        fun b hb => (reached_iff b).mpr fun j hj => hfail j (by omega)
      exact ⟨fun b hb a ha => hnone.bundle b (by omega) (hreach b (by omega)) a ha,
        fun a ha => hnone.direct (hreach _ le_rfl) a (by omega)⟩

/-- **When a live buy submits at most once.** Exactly when no attempt that is made after a
bundle was taken gets as far as a submission, nor the direct path if it is reached. -/
theorem atMostOnce_iff (hlive : ex.mode = .live) :
    AtMostOnce (ex.buy ext w event wallet).log ↔ NoneAfterLanding ext ex w event wallet := by
  refine ⟨?_, ?_⟩
  · rintro ⟨hbundle, -⟩
    exact (nothingAfter_buy takes_bundleTaken hlive).mp hbundle
  · intro hnone
    exact atMostOnce_of_taken ((nothingAfter_buy takes_taken hlive).mpr hnone)

end Attempts

/-! ### Two purchases -/

/-- Of the crates, the key codec; signatures, serialized bytes and texts are only passed on,
and stand here for whatever they are. -/
def exampleCrates : Crates (List UInt8) where
  codecs := crates
  pubkey keypair := (Pubkey.tryFrom (keypair.drop 32)).getD .default
  signature _ _ := "signature"
  serialize tx := .ok (tx.payer.bytes ++ tx.recentBlockhash.bytes)
  base64 _ := "transaction"
  showJson _ := "null"
  showStatus status := toString status

def exampleExecutor : Executor ℚ where
  jito := exampleConfig.jito
  sizing := exampleConfig.sizing
  mode := .live

/-- Every bundle is turned down, and the direct transaction taken. -/
def flaky : World where
  bundle attempt :=
    { tip := attempt, blockhash := .ok ⟨List.replicate 32 (UInt8.ofNat attempt)⟩
      accepted := false, response := .ok (429, .ok (.object [("error", .string "busy")])) }
  direct := { blockhash := .ok ⟨List.replicate 32 9⟩, accepted := true, response := .ok "sig" }

/-- The first bundle is taken, and answered. -/
def smooth : World where
  bundle _ :=
    { tip := 0, blockhash := .ok ⟨List.replicate 32 5⟩, accepted := true
      response := .ok (200, .ok (.object [("result", .string "id")])) }
  direct := { blockhash := .error "timeout", accepted := false, response := .error "timeout" }

/-- Where nothing is taken before the direct path, and where the one bundle taken is the last. -/
theorem atMostOnce_iff_example :
    AtMostOnce (exampleExecutor.buy exampleCrates flaky exampleLaunch exampleKeypair).log ∧
      AtMostOnce (exampleExecutor.buy exampleCrates smooth exampleLaunch exampleKeypair).log ∧
      ((exampleExecutor.buy exampleCrates smooth exampleLaunch exampleKeypair).log.filter
        bundleTaken).length = 1 := by
  refine ⟨(atMostOnce_iff rfl).mpr ⟨fun b _ _ a _ h => ?_, fun _ a _ h => ?_⟩,
    (atMostOnce_iff rfl).mpr ⟨fun b _ hreach a hab h => ?_, fun hreach a ha h => ?_⟩,
    by decide +kernel⟩
  · exact absurd h.2 Bool.false_ne_true
  · exact absurd h.2 Bool.false_ne_true
  · exact absurd ⟨h.1, "id", rfl⟩ (hreach a hab)
  · exact absurd ⟨h.1, "id", rfl⟩ (hreach a (Nat.lt_succ_of_le ha))

/-- Every bundle is taken; the first answer has a result, and an error that is null. -/
def nullError : World where
  bundle attempt :=
    { tip := attempt, blockhash := .ok ⟨List.replicate 32 (UInt8.ofNat attempt)⟩
      accepted := true
      response := .ok (200, .ok (.object (if attempt = 0
        then [("result", .string "first"), ("error", .null)]
        else [("result", .string "second")]))) }
  direct := { blockhash := .error "timeout", accepted := false, response := .error "timeout" }

/-- The transaction of an act that was taken. -/
def takenTransaction : Act → Option Transaction
  | .postBundle _ _ tx true => some tx
  | .sendTransaction tx true => some tx
  | _ => none

theorem bought_twice :
    let log := (exampleExecutor.buy exampleCrates nullError exampleLaunch exampleKeypair).log
    (log.filterMap takenTransaction).length = 2 ∧ (log.filterMap takenTransaction).Nodup ∧
      ¬ AtMostOnce log := by
  intro log
  have htwice : (log.filter taken).length = 2 := by decide +kernel
  refine ⟨by decide +kernel, by decide +kernel, ?_⟩
  rintro ⟨-, hone⟩
  omega

end NovaSniper.BuyOnce
