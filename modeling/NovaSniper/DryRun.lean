import NovaSniper.TaskRuns

/-!
A dry run shows what a live run does.

The two modes differ in what happens between the choice of a wallet and the return of its guard:
a live task acts there, a dry one does not. Everything else is the same: what is hidden of the
live runs are the acts of their buys, and what is left are exactly the dry runs.
-/

namespace NovaSniper.DryRun

open NovaSniper.FloatOps NovaSniper.Config NovaSniper.Detector NovaSniper.Filters
open NovaSniper.Wallet NovaSniper.Executor NovaSniper.ListenerTask NovaSniper.Main
open NovaSniper.Startup NovaSniper.System NovaSniper.TaskRuns NovaSniper.Lib.Transition
open NovaSniper.Lib.Transition.LTS NovaSniper.Lib.Parties

variable {F K : Type}

/-! ### What is seen of a live run -/

section See

variable (crates : Crates K) (p : Program F K)

/-- The same program in a dry run. -/
def dry : Program F K := { p with executor := { p.executor with mode := .dryRun } }

/-- What a dry run returns for a launch, whatever the wallet and the world. -/
def simulated (launch : LaunchEvent) : BuyResult F :=
  .ok (.simulated [.text "[dry-run] would buy ", .float p.executor.sizing.buySol none,
    .text (s!" SOL of mint {crates.codecs.showPubkey launch.mint} via {showVenue launch.venue}" ++
      s!" (sig-src={launch.signature}, slot={launch.slot})")])

def dryOutcome (launch : LaunchEvent) :
    Main.Outcome F (BuyResult F) → Main.Outcome F (BuyResult F)
  | .finished i _ => .finished i (simulated crates p launch)
  | outcome => outcome

/-- The phase of a task, without what its buy has yet to do and what came of it. -/
def dryPhase (launch : LaunchEvent) : System.Phase F → System.Phase F
  | .buying i _ _ => .buying i [] (simulated crates p launch)
  | .returning i _ => .returning i (simulated crates p launch)
  | .done outcome => .done (dryOutcome crates p launch outcome)
  | .gone outcome => .gone (outcome.map (dryOutcome crates p launch))
  | phase => phase

def dryTask (t : System.Task F) : System.Task F := ⟨t.launch, dryPhase crates p t.launch t.phase⟩

def dryState (s : State F K) : State F K := { s with tasks := s.tasks.map (dryTask crates p) }

end See

/-- Only the acts of a buy are hidden. -/
def seen : Label → Option Label
  | .task _ (.act _) => none
  | l => some l

section Steps

variable [F64 F] {crates : Crates K} {p : Program F K} {s t : State F K} {l : Label}

/-! ### Tasks -/

omit [F64 F] in
lemma dryPhase_afterPrefilter (launch : LaunchEvent) :
    dryPhase crates p launch (.afterPrefilter p.filters launch) =
      .afterPrefilter p.filters launch := by
  unfold System.Phase.afterPrefilter
  cases p.filters.prefilter launch with
  | reject reason => rfl
  | accept => rfl

lemma dryPhase_afterFacts (launch : LaunchEvent) :
    dryPhase crates p launch (.afterFacts p.filters launch) = .afterFacts p.filters launch := by
  unfold System.Phase.afterFacts
  cases p.filters.evaluate launch ((fetchLaunchFacts launch).getD .default) with
  | reject reason => rfl
  | accept => rfl

/-- A step of a live task is hidden, or it is the step of the dry task. -/
lemma taskStep_dry {launch : LaunchEvent} {pool pool' : WalletPool K} {phase next : System.Phase F}
    {a : TaskAct} (h : TaskStep crates p launch pool phase a pool' next) :
    (∃ b, a = .act b ∧ pool' = pool ∧
        dryPhase crates p launch next = dryPhase crates p launch phase) ∨
      ((∀ b, a ≠ .act b) ∧ TaskStep crates (dry p) launch pool (dryPhase crates p launch phase) a
        pool' (dryPhase crates p launch next)) := by
  cases h with
  | prefilter =>
    rw [dryPhase_afterPrefilter]
    exact .inr ⟨nofun, .prefilter⟩
  | evaluate =>
    rw [dryPhase_afterFacts]
    exact .inr ⟨nofun, .evaluate⟩
  | roundRobin hs hn => exact .inr ⟨nofun, .roundRobin hs hn⟩
  | roundRobinNone hs hn => exact .inr ⟨nofun, .roundRobinNone hs hn⟩
  | random hs hi => exact .inr ⟨nofun, .random hs hi⟩
  | randomNone hs hn => exact .inr ⟨nofun, .randomNone hs hn⟩
  | mark => exact .inr ⟨nofun, .mark⟩
  | first hs hi => exact .inr ⟨nofun, .first hs hi⟩
  | firstNone hs hi => exact .inr ⟨nofun, .firstNone hs hi⟩
  | begin w hk => exact .inr ⟨nofun, .begin w hk⟩
  | act => exact .inl ⟨_, rfl, rfl, rfl⟩
  | finish => exact .inr ⟨nofun, .finish⟩
  | dropGuard => exact .inr ⟨nofun, .dropGuard⟩
  | dropPermit => exact .inr ⟨nofun, .dropPermit⟩

/-- A step of a dry task is that of the live task, which may have acts to do before it. -/
lemma taskStep_live {launch : LaunchEvent} {pool pool' : WalletPool K}
    {phase next : System.Phase F} {a : TaskAct}
    (h : TaskStep crates (dry p) launch pool (dryPhase crates p launch phase) a pool' next) :
    (∃ next', (∀ b, a ≠ .act b) ∧ TaskStep crates p launch pool phase a pool' next' ∧
        dryPhase crates p launch next' = next) ∨
      ∃ i todo result, phase = .buying i todo result ∧ a = .moved ∧ pool' = pool ∧
        next = .returning i (simulated crates p launch) := by
  cases phase with
  | spawned =>
    cases h with
    | prefilter => exact .inl ⟨_, nofun, .prefilter, dryPhase_afterPrefilter launch⟩
  | enriching =>
    cases h with
    | evaluate => exact .inl ⟨_, nofun, .evaluate, dryPhase_afterFacts launch⟩
  | acquiring =>
    left
    cases h with
    | roundRobin hs hn => exact ⟨_, nofun, .roundRobin hs hn, rfl⟩
    | roundRobinNone hs hn => exact ⟨_, nofun, .roundRobinNone hs hn, rfl⟩
    | random hs hi => exact ⟨_, nofun, .random hs hi, rfl⟩
    | randomNone hs hn => exact ⟨_, nofun, .randomNone hs hn, rfl⟩
    | first hs hi => exact ⟨_, nofun, .first hs hi, rfl⟩
    | firstNone hs hi => exact ⟨_, nofun, .firstNone hs hi, rfl⟩
  | marking i =>
    cases h with
    | mark => exact .inl ⟨_, nofun, .mark, rfl⟩
  | holding i =>
    cases h with
    | begin w hk => exact .inl ⟨_, nofun, .begin w hk, rfl⟩
  | buying i todo result =>
    cases h with
    | finish => exact .inr ⟨i, todo, result, rfl, rfl, rfl, rfl⟩
  | returning i result =>
    cases h with
    | dropGuard => exact .inl ⟨_, nofun, .dropGuard, rfl⟩
  | done outcome =>
    cases h with
    | dropPermit => exact .inl ⟨_, nofun, .dropPermit, rfl⟩
  | gone outcome => cases h

/-! ### The program -/

omit [F64 F] in
lemma seen_task {k : ℕ} {a : TaskAct} (ha : ∀ b, a ≠ .act b) :
    seen (.task k a) = some (.task k a) := by
  cases a with
  | act b => exact absurd rfl (ha b)
  | _ => rfl

omit [F64 F] in
lemma dryState_set {k : ℕ} {launch : LaunchEvent} (phase : System.Phase F) (permits : ℕ)
    (pool : WalletPool K) :
    dryState crates p { s with permits, tasks := s.tasks.set k ⟨launch, phase⟩, pool } =
      { dryState crates p s with
        permits, tasks := (dryState crates p s).tasks.set k ⟨launch, dryPhase crates p launch phase⟩
        pool } := by
  simp only [dryState, List.map_set]
  rfl

/-- A step of the live program is hidden, or it is a step of the dry one. -/
lemma systemStep_dry (h : SystemStep crates p s l t) :
    (seen l = none → dryState crates p t = dryState crates p s) ∧
      ∀ l', seen l = some l' →
        SystemStep crates (dry p) (dryState crates p s) l' (dryState crates p t) := by
  cases h with
  | listener hl hp =>
    refine ⟨nofun, ?_⟩
    rintro l' ⟨⟩
    exact .listener hl hp
  | take hl hq =>
    refine ⟨nofun, ?_⟩
    rintro l' ⟨⟩
    exact .take hl hq
  | leave hl =>
    refine ⟨nofun, ?_⟩
    rintro l' ⟨⟩
    exact .leave hl
  | permit hl hn =>
    refine ⟨nofun, ?_⟩
    rintro l' ⟨⟩
    exact .permit hl hn
  | @spawn launch hl =>
    refine ⟨nofun, ?_⟩
    rintro l' ⟨⟩
    have hadd : dryState crates p { s with
        loop := .selecting, tasks := s.tasks ++ [⟨launch, .spawned⟩] } =
        { dryState crates p s with
          loop := .selecting, tasks := (dryState crates p s).tasks ++ [⟨launch, .spawned⟩] } := by
      simp only [dryState, List.map_append]
      rfl
    rw [hadd]
    exact .spawn hl
  | @task k launch phase next a pool ht hmove =>
    have ht' : (dryState crates p s).tasks[k]? =
        some ⟨launch, dryPhase crates p launch phase⟩ := by
      simp only [dryState, List.getElem?_map, ht]
      rfl
    rcases taskStep_dry hmove with ⟨b, rfl, rfl, hphase⟩ | ⟨ha, hdry⟩
    · refine ⟨fun _ => ?_, nofun⟩
      rw [dryState_set, hphase, set_self ht']
      rfl
    · rw [seen_task ha]
      refine ⟨nofun, ?_⟩
      rintro l' ⟨⟩
      rw [dryState_set]
      exact .task ht' hdry

variable (crates p) in
lemma simulates_dry : Simulates (system crates p) (system crates (dry p)) (dryState crates p)
    seen where
  init s := by
    rintro rfl
    rfl
  stutter _ _ _ h := (systemStep_dry h).1
  step _ _ _ l' h := (systemStep_dry h).2 l'

variable (crates p) in
/-- Before a dry task returns from its buy, the live one does all that its buy has to do. -/
lemma lifts_dry : Lifts (system crates p) (system crates (dry p)) (dryState crates p) seen where
  init t ht := by
    obtain rfl := ht
    exact ⟨initial p, rfl, rfl⟩
  step ls s l t h hstep := by
    cases hstep with
    | @listener a next hl hp =>
      exact ⟨[.listener a], { s with listener := next, queue := s.queue ++ a.sends },
        h.snoc (.listener hl hp), rfl, rfl⟩
    | @take e rest hl hq =>
      exact ⟨[.took e], { s with queue := rest, loop := afterTake e }, h.snoc (.take hl hq), rfl,
        rfl⟩
    | leave hl =>
      exact ⟨[.left], { s with queue := [], loop := .left }, h.snoc (.leave hl), rfl, rfl⟩
    | @permit launch n hl hn =>
      exact ⟨[.permit], { s with loop := .permitted launch, permits := n },
        h.snoc (.permit hl hn), rfl, rfl⟩
    | @spawn launch hl =>
      refine ⟨[.spawned launch], _, h.snoc (.spawn hl), rfl, ?_⟩
      simp only [dryState, List.map_append]
      rfl
    | @task k launch phase next a pool ht hmove =>
      simp only [dryState, List.getElem?_map, Option.map_eq_some_iff] at ht
      obtain ⟨⟨launch', phase'⟩, ht, hdry⟩ := ht
      obtain ⟨rfl, rfl⟩ := (System.Task.mk.injEq ..).mp hdry
      rcases taskStep_live hmove with ⟨next', ha, hlive, rfl⟩ | ⟨i, todo, result, rfl, rfl, rfl, rfl⟩
      · refine ⟨[.task k a], _, h.snoc (.task ht hlive), ?_, dryState_set _ _ _⟩
        rw [List.filterMap_cons, seen_task ha]
        rfl
      · have hlt : k < s.tasks.length := (List.getElem?_eq_some_iff.mp ht).1
        have hready : (s.tasks.set k ⟨launch', .buying i [] result⟩)[k]? =
            some ⟨launch', .buying i [] result⟩ := List.getElem?_set_self hlt
        have hacts : (todo.map fun b => Label.task k (.act b)).filterMap seen = [] := by
          rw [List.filterMap_eq_nil_iff]
          intro l hl
          obtain ⟨b, -, rfl⟩ := List.mem_map.mp hl
          rfl
        have hfinish := (h.resume (run_acts ht)).snoc (.task hready .finish)
        rw [List.append_assoc] at hfinish
        refine ⟨_, _, hfinish, ?_, ?_⟩
        · rw [List.filterMap_append, hacts]
          rfl
        · simp only [dryState, List.set_set, List.map_set]
          rfl

variable (crates p) in
/-- **A dry run shows exactly what live runs do.** A history is one of the program in a dry run if
and only if it is what is seen of some history of the program when the acts of the buys are hidden;
and the states agree in all but what those buys have yet to do and what came of them: the same
launches are taken, pre-filtered, evaluated and given the same wallets, in the same order. -/
theorem dry_iff {ks : List Label} :
    (system crates (dry p)).Trace ks t ↔
      ∃ ls s, (system crates p).Trace ls s ∧ ls.filterMap seen = ks ∧ dryState crates p s = t :=
  trace_iff (simulates_dry crates p) (lifts_dry crates p)

end Steps

end NovaSniper.DryRun
