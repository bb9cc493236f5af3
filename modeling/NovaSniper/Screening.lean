import NovaSniper.MissingFacts
import NovaSniper.TaskRuns

/-!
What the texts of the filters decide.

No launch is acted on past the filters, whatever the interleaving, and none is turned down
without one of them. Since no facts are ever fetched, a check that asks for a minimum turns
down every launch.
-/

namespace NovaSniper.Screening

open NovaSniper.FloatOps NovaSniper.Config NovaSniper.Detector NovaSniper.Filters
open NovaSniper.MissingFacts NovaSniper.Executor NovaSniper.Main NovaSniper.Startup
open NovaSniper.System NovaSniper.TaskRuns
open NovaSniper.Lib.Transition NovaSniper.Lib.Fallible NovaSniper.Lib.Retry

variable {F K : Type} [F64 F]

/-! ### What is asked of a launch -/

section Texts

/-- The pattern compiles, and matches the text. -/
def Matches (host : Host K) (pattern text : String) : Prop :=
  ∃ re, host.compile pattern = .ok re ∧ re.isMatch text = true

/-- What the lists and the patterns of the filters ask of a launch. -/
structure Screened (host : Host K) (cfg : FilterConfig F) (launch : LaunchEvent) : Prop where
  allowed : cfg.devAllowlist = [] ∨
    ∃ text ∈ cfg.devAllowlist, host.crates.codecs.parsePubkey text = .ok launch.creator
  notBlocked : ∀ text ∈ cfg.devBlocklist,
    host.crates.codecs.parsePubkey text ≠ .ok launch.creator
  nameNotDenied : ∀ name ∈ launch.name, ∀ pattern ∈ cfg.nameDenyRegex,
    ¬ Matches host pattern name
  nameAllowed : ∀ name ∈ launch.name, cfg.nameAllowRegex = [] ∨
    ∃ pattern ∈ cfg.nameAllowRegex, Matches host pattern name
  symbolAllowed : ∀ symbol ∈ launch.symbol, cfg.symbolAllowRegex = [] ∨
    ∃ pattern ∈ cfg.symbolAllowRegex, Matches host pattern symbol

/-- The launch may be bought: it is screened, and nothing is asked of the facts that are missing. -/
def Admitted (host : Host K) (cfg : FilterConfig F) (launch : LaunchEvent) : Prop :=
  Screened host cfg launch ∧ ¬ MinimumChecked cfg

variable {host : Host K} {cfg : FilterConfig F} {engine : FilterEngine F} {launch : LaunchEvent}

omit [F64 F] in
/-- Some compiled pattern matches when some pattern does. -/
lemma exists_match {patterns : List String} {res : List Regex} {text : String}
    (h : patterns.mapM host.compile = .ok res) :
    (∃ re ∈ res, re.isMatch text = true) ↔ ∃ pattern ∈ patterns, Matches host pattern text := by
  refine ⟨?_, ?_⟩
  · rintro ⟨re, hre, hmatch⟩
    obtain ⟨pattern, hpattern, hcompile⟩ := (mem_of_mapM h).mp hre
    exact ⟨pattern, hpattern, re, hcompile, hmatch⟩
  · rintro ⟨pattern, hpattern, re, hcompile, hmatch⟩
    exact ⟨re, (mem_of_mapM h).mpr ⟨pattern, hpattern, hcompile⟩, hmatch⟩

omit [F64 F] in
/-- No compiled pattern matches when no pattern does. -/
lemma forall_not_match {patterns : List String} {res : List Regex} {text : String}
    (h : patterns.mapM host.compile = .ok res) :
    (∀ re ∈ res, re.isMatch text = false) ↔
      ∀ pattern ∈ patterns, ¬ Matches host pattern text := by
  have hex : (∃ re ∈ res, re.isMatch text = true) ↔
      ∃ pattern ∈ patterns, Matches host pattern text := exists_match h
  refine ⟨?_, ?_⟩
  · intro hnone pattern hpattern hmatch
    obtain ⟨re, hre, htrue⟩ := hex.mpr ⟨pattern, hpattern, hmatch⟩
    rw [hnone re hre] at htrue
    cases htrue
  · intro hnone re hre
    rw [← Bool.not_eq_true]
    intro htrue
    obtain ⟨pattern, hpattern, hmatch⟩ := hex.mp ⟨re, hre, htrue⟩
    exact hnone pattern hpattern hmatch

omit [F64 F] in
/-- **The pre-check reads the texts.** -/
theorem prefilter_iff_screened
    (hnew : FilterEngine.new host.compile host.crates.codecs cfg = .ok engine) :
    engine.prefilter launch = .accept ↔ Screened host cfg launch := by
  obtain ⟨-, hname, hdeny, hsymbol, hallow, hblock⟩ := lists_of_new hnew
  obtain ⟨-, hnameNil, hsymbolNil⟩ := new_patterns hnew
  rw [prefilter_eq_accept]
  unfold FilterEngine.CreatorPasses FilterEngine.NamePasses FilterEngine.SymbolPasses
  simp only [exists_match hname, exists_match hsymbol, forall_not_match hdeny,
    mem_of_mapM hallow, mem_of_mapM hblock, eq_nil_of_mapM hallow, hnameNil, hsymbolNil]
  refine ⟨?_, ?_⟩
  · rintro ⟨⟨hallowed, hblocked⟩, hnamed, hsymbols⟩
    refine ⟨hallowed, ?_, fun n hn => (hnamed n hn).1, fun n hn => (hnamed n hn).2, hsymbols⟩
    intro text htext hparse
    exact hblocked ⟨text, htext, hparse⟩
  · intro h
    refine ⟨⟨h.allowed, ?_⟩, fun n hn => ⟨h.nameNotDenied n hn, h.nameAllowed n hn⟩,
      h.symbolAllowed⟩
    rintro ⟨text, htext, hparse⟩
    exact h.notBlocked text htext hparse

end Texts

/-! ### What becomes of a launch -/

section Runs

variable {host : Host K} {simulate : Bool} {cfg : Config F} {p : Program F K} {ls : List Label}
  {s : State F K} {launch : LaunchEvent}

lemma passed_iff_admitted (hbuilt : Built host simulate cfg p) :
    Passed p launch ↔ Admitted host cfg.filters launch := by
  have hcfg : p.filters.cfg = cfg.filters := (lists_of_new hbuilt.filters).1
  have heval : p.filters.evaluate launch ((fetchLaunchFacts launch).getD .default) = .accept ↔
      p.filters.prefilter launch = .accept ∧ ¬ MinimumChecked cfg.filters := by
    rw [evaluate_eq_accept, ← factsPass_default, hcfg]
    rfl
  unfold Passed Admitted
  rw [heval, prefilter_iff_screened hbuilt.filters, and_self_left]

omit [F64 F] in
/-- The account of a launch that was turned down is empty, and says so. -/
lemma rejected_of_account {o : Main.Outcome F (Option (Logged Act (BuyOutcome F)))}
    {acts : List Act} {outcome : Main.Outcome F (BuyResult F)}
    (h : account o = some (acts, outcome)) :
    (Rejected outcome ↔ Rejected o) ∧ (Rejected o → acts = []) := by
  cases o with
  | finished i buy =>
    cases buy with
    | none => cases h
    | some b =>
      obtain ⟨rfl, rfl⟩ := Prod.mk.inj (Option.some.inj h)
      exact ⟨Iff.rfl, False.elim⟩
  | _ =>
    obtain ⟨rfl, rfl⟩ := Prod.mk.inj (Option.some.inj h)
    exact ⟨Iff.rfl, fun _ => rfl⟩

lemma rejected_alone {crates : Crates K} {w : World} {wallet : Option ℕ} :
    Rejected (alone crates p w wallet launch) ↔ ¬ Passed p launch := by
  have hpassed : Passed p launch ↔
      p.filters.evaluate launch ((fetchLaunchFacts launch).getD .default) = .accept := by
    rw [Passed, and_iff_right_iff_imp]
    exact fun h => (evaluate_eq_accept.mp h).1
  unfold alone
  rw [rejected_iff, hpassed]

/-- A task that has acted works for a launch that passed. -/
lemma passed_of_stands {crates : Crates K} {acts : List TaskAct} {phase : System.Phase F}
    (hs : Stands crates p launch acts phase) (hacts : acts.filterMap remote ≠ []) :
    Passed p launch := by
  have hreport : ∀ {outcome}, (∃ w wallet, account (alone crates p w wallet launch) =
      some (acts.filterMap remote, outcome)) → Passed p launch := by
    rintro outcome ⟨w, wallet, haccount⟩
    by_contra hnot
    exact hacts ((rejected_of_account haccount).2 (rejected_alone.mpr hnot))
  cases phase with
  | spawned => exact absurd hs hacts
  | enriching => exact absurd hs.1 hacts
  | acquiring => exact hs.2
  | marking i => exact hs.2
  | holding i => exact hs.2
  | buying i todo result => exact hs.passed
  | returning i result => exact hs.passed
  | done outcome => exact hreport hs
  | gone outcome =>
    cases outcome with
    | none => exact hs.2
    | some outcome => exact hreport hs

/-- Whatever is done outside is done for a launch that is admitted. -/
lemma admitted_of_act (hbuilt : Built host simulate cfg p)
    (h : (system host.crates p).Trace ls s) {k : ℕ} {a : Act} (ha : .task k (.act a) ∈ ls) :
    ∃ t, s.tasks[k]? = some t ∧ Admitted host cfg.filters t.launch := by
  have hkept := stands_of_trace h
  have hact : TaskAct.act a ∈ actsBy k ls := List.mem_filterMap.mpr ⟨_, ha, if_pos rfl⟩
  have hlt : k < s.tasks.length := by
    by_contra hle
    rw [hkept.absent k (Nat.le_of_not_lt hle)] at hact
    cases hact
  have ht : s.tasks[k]? = some s.tasks[k] := List.getElem?_eq_getElem hlt
  refine ⟨_, ht, (passed_iff_admitted hbuilt).mp (passed_of_stands (hkept.task k _ ht) ?_)⟩
  exact List.ne_nil_of_mem (List.mem_filterMap.mpr ⟨_, hact, rfl⟩)

/-- A launch whose task has ended was turned down exactly if it is not admitted. -/
lemma rejected_iff_of_gone (hbuilt : Built host simulate cfg p)
    (h : (system host.crates p).Trace ls s) {t : System.Task F} (ht : t ∈ s.tasks)
    {outcome : Main.Outcome F (BuyResult F)} (hphase : t.phase = .gone (some outcome)) :
    Rejected outcome ↔ ¬ Admitted host cfg.filters t.launch := by
  obtain ⟨k, hk⟩ := List.getElem?_of_mem ht
  have hs := (stands_of_trace h).task k t hk
  rw [hphase] at hs
  obtain ⟨w, wallet, haccount⟩ := hs
  rw [← passed_iff_admitted hbuilt]
  exact (rejected_of_account haccount).1.trans rejected_alone

/-- **The texts decide.** In every run of a program that started, something is done outside for a
launch only if the texts of the filters admit it; and when its task has ended, the launch has been
turned down exactly if they do not. -/
theorem texts_decide (hbuilt : Built host simulate cfg p)
    (h : (system host.crates p).Trace ls s) :
    (∀ k a, .task k (.act a) ∈ ls →
        ∃ t, s.tasks[k]? = some t ∧ Admitted host cfg.filters t.launch) ∧
      ∀ t ∈ s.tasks, ∀ outcome, t.phase = .gone (some outcome) →
        (Rejected outcome ↔ ¬ Admitted host cfg.filters t.launch) :=
  ⟨fun _ _ => admitted_of_act hbuilt h, fun _ ht _ => rejected_iff_of_gone hbuilt h ht⟩

end Runs

open NovaSniper.EndToEnd

/-- The launch of the example was bought. -/
theorem texts_decide_example : Admitted exampleHost openConfig.filters createLaunch := by
  have hiff := (texts_decide built_example trace_untilGone).2 _ (List.mem_singleton.mpr rfl) _ rfl
  exact not_not.mp (hiff.not.mp id)

end NovaSniper.Screening
