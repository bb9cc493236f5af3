import Mathlib.Tactic

/-!
Deterministic machines with one output for each input, run over lists of inputs.

A machine is its step function alone. The rules below lift what one step does to a whole
run: a relation between the history and the state, and the exact condition on the steps
under which a relation holds after every prefix of a run.
-/

namespace NovaSniper.Lib.Mealy

variable {σ ι ο : Type*} (step : σ → ι → ο × σ)

/-- The state after a list of inputs. -/
def final (s : σ) (w : List ι) : σ := w.foldl (fun s i => (step s i).2) s

/-- The outputs along a list of inputs, oldest first. -/
def outputs : σ → List ι → List ο
  | _, [] => []
  | s, i :: w => (step s i).1 :: outputs (step s i).2 w

/-- Every step of the run is taken from a state, on an input, that satisfy `C`. -/
def Along (C : σ → ι → Prop) : σ → List ι → Prop
  | _, [] => True
  | s, i :: w => C s i ∧ Along C (step s i).2 w

@[simp] lemma final_nil (s : σ) : final step s [] = s := rfl
@[simp] lemma final_cons (s : σ) (i : ι) (w : List ι) :
    final step s (i :: w) = final step (step s i).2 w := rfl
@[simp] lemma outputs_nil (s : σ) : outputs step s [] = [] := rfl
@[simp] lemma outputs_cons (s : σ) (i : ι) (w : List ι) :
    outputs step s (i :: w) = (step s i).1 :: outputs step (step s i).2 w := rfl

lemma final_append (s : σ) (u v : List ι) :
    final step s (u ++ v) = final step (final step s u) v := by
  simp [final, List.foldl_append]

lemma outputs_append (s : σ) (u v : List ι) :
    outputs step s (u ++ v) = outputs step s u ++ outputs step (final step s u) v := by
  induction u generalizing s with
  | nil => rfl
  | cons i u ih => simp [ih]

@[simp] lemma length_outputs (s : σ) (w : List ι) : (outputs step s w).length = w.length := by
  induction w generalizing s with
  | nil => rfl
  | cons i w ih => simp [ih]

variable {step}

/-- A state that every input leaves alone, with the same answer. -/
lemma run_fixed {s : σ} {o : ο} (h : ∀ i, step s i = (o, s)) (w : List ι) :
    outputs step s w = List.replicate w.length o ∧ final step s w = s := by
  induction w with
  | nil => exact ⟨rfl, rfl⟩
  | cons i w ih => simpa [h i, List.replicate_succ] using ih

/-- **States.** What every step keeps holds at the end of every run. -/
theorem state_inv {P : σ → Prop} (hstep : ∀ s i, P s → P (step s i).2) {s : σ} (h : P s)
    (w : List ι) : P (final step s w) := by
  induction w generalizing s with
  | nil => exact h
  | cons i w ih => exact ih (hstep s i h)

lemma history_inv_from {H : List ι → List ο → σ → Prop}
    (hstep : ∀ is os s i, H is os s → H (is ++ [i]) (os ++ [(step s i).1]) (step s i).2)
    {is : List ι} {os : List ο} {s : σ} (h : H is os s) (w : List ι) :
    H (is ++ w) (os ++ outputs step s w) (final step s w) := by
  induction w generalizing is os s with
  | nil => simpa using h
  | cons i w ih => simpa using ih (hstep is os s i h)

/-- **Histories.** A relation between the inputs and outputs so far and the state, kept by
every step, holds at the end of every run. -/
theorem history_inv {H : List ι → List ο → σ → Prop}
    (hstep : ∀ is os s i, H is os s → H (is ++ [i]) (os ++ [(step s i).1]) (step s i).2)
    {s : σ} (h : H [] [] s) (w : List ι) : H w (outputs step s w) (final step s w) := by
  simpa using history_inv_from hstep h w

/-! ### Ranks -/

/-- **Progress.** If every step from a state that is not done raises the rank, and done states
stay so, a run ends in a done state or has raised the rank by its length. -/
theorem progress {J done : σ → Prop} {ok : ι → Prop} (rank : σ → ℕ)
    (hJ : ∀ s i, J s → J (step s i).2) (hdone : ∀ s i, J s → done s → done (step s i).2)
    (hstep : ∀ s i, J s → ok i → ¬ done s → rank s + 1 ≤ rank (step s i).2) {s : σ} (h : J s)
    (w : List ι) (hw : ∀ i ∈ w, ok i) :
    done (final step s w) ∨ rank s + w.length ≤ rank (final step s w) := by
  induction w generalizing s with
  | nil => exact .inr le_rfl
  | cons i w ih =>
    have hi : ok i := hw i (List.mem_cons_self ..)
    have hrest : ∀ j ∈ w, ok j := fun j hj => hw j (List.mem_cons_of_mem _ hj)
    by_cases hs : done s
    · left
      have hboth : ∀ s i, J s ∧ done s → J (step s i).2 ∧ done (step s i).2 :=
        fun s i hs => ⟨hJ s i hs.1, hdone s i hs.1 hs.2⟩
      exact (state_inv hboth ⟨h, hs⟩ (i :: w)).2
    · rcases ih (hJ s i h) hrest with hfin | hle
      · exact .inl hfin
      · right
        have hup := hstep s i h hi hs
        rw [final_cons, List.length_cons]
        omega

section Exact

variable {J P : List ο → σ → Prop} {C : σ → ι → Prop}
  (hJP : ∀ os s, J os s → P os s)
  (hgood : ∀ os s i, J os s → C s i → J (os ++ [(step s i).1]) (step s i).2)
  (hbad : ∀ os s i, J os s → ¬ C s i → ¬ P (os ++ [(step s i).1]) (step s i).2)

include hJP hgood hbad

lemma forall_prefix_iff_along_from {os : List ο} {s : σ} (h : J os s) (w : List ι) :
    (∀ u v, w = u ++ v → P (os ++ outputs step s u) (final step s u)) ↔ Along step C s w := by
  induction w generalizing os s with
  | nil =>
    refine ⟨fun _ => trivial, fun _ u v huv => ?_⟩
    obtain ⟨rfl, rfl⟩ := List.append_eq_nil_iff.mp huv.symm
    simpa using hJP os s h
  | cons i w ih =>
    refine ⟨?_, ?_⟩
    · intro hP
      have hC : C s i := by
        by_contra hc
        exact hbad os s i h hc (by simpa using hP [i] w rfl)
      refine ⟨hC, (ih (hgood os s i h hC)).mp fun u v huv => ?_⟩
      simpa using hP (i :: u) v (by simp [huv])
    · rintro ⟨hC, hA⟩ u v huv
      rcases u with _ | ⟨j, u⟩
      · simpa using hJP os s h
      · obtain ⟨rfl, rfl⟩ := List.cons.inj huv
        simpa using (ih (hgood os s i h hC)).mpr hA u v rfl

/-- **Exact conditions.** Let `J` imply `P`, let a step that meets `C` keep `J`, and let a
step from `J` that misses `C` break `P`. Then `P` holds after every prefix of a run exactly
when every step of the run meets `C`. -/
theorem forall_prefix_iff_along {s : σ} (h : J [] s) (w : List ι) :
    (∀ u v, w = u ++ v → P (outputs step s u) (final step s u)) ↔ Along step C s w := by
  simpa using forall_prefix_iff_along_from hJP hgood hbad h w

end Exact

/-! ### Totals -/

section Total

variable {M : Type*} (step)

/-- What the steps of a run bring together. -/
def total [Zero M] [Add M] (gain : σ → ι → M) : σ → List ι → M
  | _, [] => 0
  | s, i :: w => gain s i + total gain (step s i).2 w

variable {gain : σ → ι → M}

@[simp] lemma total_nil [Zero M] [Add M] (s : σ) : total step gain s [] = 0 := rfl
@[simp] lemma total_cons [Zero M] [Add M] (s : σ) (i : ι) (w : List ι) :
    total step gain s (i :: w) = gain s i + total step gain (step s i).2 w := rfl

lemma total_append [AddMonoid M] (s : σ) (u v : List ι) :
    total step gain s (u ++ v) = total step gain s u + total step gain (final step s u) v := by
  induction u generalizing s with
  | nil => simp
  | cons i u ih => rw [List.cons_append, total_cons, total_cons, final_cons, ih, add_assoc]

variable {step} in
/-- **Floors.** If every step brings at least what `V` of the state falls by, so does the
run. `J` is what is known of a state and of the inputs to come. -/
theorem le_total [AddCommMonoid M] [Preorder M] [AddLeftMono M] {V : σ → M}
    {J : σ → List ι → Prop}
    (hstep : ∀ s i w, J s (i :: w) →
      V s ≤ gain s i + V (step s i).2 ∧ J (step s i).2 w)
    {s : σ} {w : List ι} (h : J s w) :
    V s ≤ total step gain s w + V (final step s w) := by
  induction w generalizing s with
  | nil => simp
  | cons i w ih =>
    obtain ⟨hle, hrest⟩ := hstep s i w h
    calc V s ≤ gain s i + V (step s i).2 := hle
      _ ≤ gain s i + (total step gain (step s i).2 w + V (final step (step s i).2 w)) := by
        gcongr
        exact ih hrest
      _ = total step gain s (i :: w) + V (final step s (i :: w)) := by
        rw [total_cons, final_cons, add_assoc]

end Total

/-! ### Two machines side by side -/

section Related

variable {σ' ι' : Type*} {step' : σ' → ι' → ο × σ'} {R : σ → σ' → Prop} {g : ι → ι'}

/-- **Related machines run alike until the second is done.** Let steps from related states answer
alike and lead to related states, or make the second machine done, which it then stays. -/
theorem run_related_until {D : σ' → Prop} (hdone : ∀ s' i, D s' → D (step' s' i).2)
    (h : ∀ s s' i, R s s' →
      ((step' s' (g i)).1 = (step s i).1 ∧ R (step s i).2 (step' s' (g i)).2) ∨
        D (step' s' (g i)).2)
    {s : σ} {s' : σ'} (hR : R s s') (w : List ι) :
    (outputs step' s' (w.map g) = outputs step s w ∧
        R (final step s w) (final step' s' (w.map g))) ∨ D (final step' s' (w.map g)) := by
  induction w generalizing s s' with
  | nil => exact .inl ⟨rfl, hR⟩
  | cons i w ih =>
    rcases h s s' i hR with ⟨hout, hnext⟩ | hD
    · rcases ih hnext with ⟨houts, hfinal⟩ | hD
      · refine .inl ⟨?_, hfinal⟩
        rw [List.map_cons, outputs_cons, outputs_cons, hout, houts]
      · exact .inr hD
    · exact .inr (state_inv hdone hD (w.map g))

/-- **Related machines run alike.** If steps from related states answer alike and lead to related
states, runs do. -/
theorem run_related
    (h : ∀ s s' i, R s s' →
      (step' s' (g i)).1 = (step s i).1 ∧ R (step s i).2 (step' s' (g i)).2)
    {s : σ} {s' : σ'} (hR : R s s') (w : List ι) :
    outputs step' s' (w.map g) = outputs step s w ∧
      R (final step s w) (final step' s' (w.map g)) :=
  (run_related_until (D := fun _ => False) (fun _ _ => id) (fun s s' i hR => .inl (h s s' i hR))
    hR w).resolve_right id

end Related

/-! ### Inputs that can be left out -/

section Skip

variable (step) (quiet : σ → ι → Bool)

/-- The inputs of a run without those that are quiet where they come. -/
def skip : σ → List ι → List ι
  | _, [] => []
  | s, i :: w =>
    if quiet s i then skip (step s i).2 w else i :: skip (step s i).2 w

/-- The inputs of a run, each with its answer. -/
def answered (s : σ) (w : List ι) : List (ι × ο) := w.zip (outputs step s w)

variable {step quiet} {R : σ → σ → Prop}

/-- **Quiet inputs can be left out.** Let related states answer alike, and let a quiet input lead
to a state related to whatever the state was related to. Then the other inputs are answered
alike without the quiet ones, as far as a test tells that no quiet input is answered with. -/
theorem filter_answered_skip
    (hR : ∀ s s' i, R s s' → (step s' i).1 = (step s i).1 ∧ R (step s i).2 (step s' i).2)
    (hquiet : ∀ s s' i, R s s' → quiet s i = true → R (step s i).2 s')
    {test : ο → Bool} (htest : ∀ s i, quiet s i = true → test (step s i).1 = false)
    {s s' : σ} (h : R s s') (w : List ι) :
    (answered step s' (skip step quiet s w)).filter (fun p => test p.2) =
        (answered step s w).filter (fun p => test p.2) ∧
      R (final step s w) (final step s' (skip step quiet s w)) := by
  induction w generalizing s s' with
  | nil => exact ⟨rfl, h⟩
  | cons i w ih =>
    cases hq : quiet s i with
    | true =>
      obtain ⟨hans, hfinal⟩ := ih (hquiet s s' i h hq)
      have hskip : skip step quiet s (i :: w) = skip step quiet (step s i).2 w := by
        rw [skip, if_pos hq]
      rw [hskip]
      refine ⟨hans.trans ?_, hfinal⟩
      unfold answered
      rw [outputs_cons, List.zip_cons_cons, List.filter_cons_of_neg (by simp [htest s i hq])]
    | false =>
      obtain ⟨hout, hnext⟩ := hR s s' i h
      obtain ⟨hans, hfinal⟩ := ih hnext
      have hskip : skip step quiet s (i :: w) = i :: skip step quiet (step s i).2 w := by
        rw [skip, hq, if_neg Bool.false_ne_true]
      rw [hskip]
      refine ⟨?_, hfinal⟩
      unfold answered at hans ⊢
      simp only [outputs_cons, List.zip_cons_cons, List.filter_cons, hout, hans]

end Skip

end NovaSniper.Lib.Mealy
