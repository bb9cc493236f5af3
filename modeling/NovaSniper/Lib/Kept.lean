import Mathlib.Tactic

/-!
The positions that a `filterMap` keeps.

What a `filterMap` drops shifts everything behind it. `kept f l` is where each surviving
element came from, so that a position of the result can be read as a position of `l`.
-/

namespace NovaSniper.Lib.Kept

variable {α β γ : Type*}

/-- The positions of `l` that `f` keeps, in order. -/
def kept (f : α → Option β) : List α → List ℕ
  | [] => []
  | a :: l =>
    if (f a).isSome then 0 :: (kept f l).map (· + 1) else (kept f l).map (· + 1)

/-- **Where the survivors come from.** -/
theorem map_kept (f : α → Option β) (l : List α) :
    (kept f l).map (fun i => l[i]?.bind f) = (l.filterMap f).map some := by
  induction l with
  | nil => rfl
  | cons a l ih =>
    have hshift : ((kept f l).map (· + 1)).map (fun i => (a :: l)[i]?.bind f) =
        (l.filterMap f).map some := by
      rw [List.map_map, ← ih]
      rfl
    unfold kept
    cases hfa : f a with
    | none => simpa [hfa] using hshift
    | some b => simpa [hfa] using hshift

lemma lt_of_mem_kept {f : α → Option β} {l : List α} {i : ℕ} (hi : i ∈ kept f l) :
    i < l.length := by
  induction l generalizing i with
  | nil => simp [kept] at hi
  | cons a l ih =>
    have hshift : ∀ {i}, i ∈ (kept f l).map (· + 1) → i < (a :: l).length := by
      intro i hi
      obtain ⟨j, hj, rfl⟩ := List.mem_map.mp hi
      have := ih hj
      simp only [List.length_cons]
      omega
    unfold kept at hi
    split_ifs at hi with ha
    · rcases List.mem_cons.mp hi with rfl | hi
      · exact Nat.succ_pos _
      · exact hshift hi
    · exact hshift hi

/-- When nothing is dropped, every position keeps its place. -/
lemma kept_eq_range {f : α → Option β} {l : List α} (h : ∀ a ∈ l, (f a).isSome) :
    kept f l = List.range l.length := by
  induction l with
  | nil => rfl
  | cons a l ih =>
    have ha : (f a).isSome := h a (List.mem_cons_self ..)
    have hl := ih fun b hb => h b (List.mem_cons_of_mem _ hb)
    unfold kept
    rw [if_pos ha, hl, List.length_cons, List.range_succ_eq_map]

lemma getElem?_eq_bind {xs : List α} {ys : List β} {f : α → Option β}
    (h : xs.map f = ys.map some) (k : ℕ) : ys[k]? = xs[k]?.bind f := by
  have hk := congrArg (fun l => l[k]?) h
  simp only [List.getElem?_map] at hk
  cases hx : xs[k]? with
  | none =>
    cases hy : ys[k]? with
    | none => rfl
    | some y => simp [hx, hy] at hk
  | some x =>
    cases hy : ys[k]? with
    | none => simp [hx, hy] at hk
    | some y => simpa [hx, hy] using hk.symm

lemma getLast?_eq_bind {xs : List α} {ys : List β} {f : α → Option β}
    (h : xs.map f = ys.map some) : ys.getLast? = xs.getLast?.bind f := by
  have hlen : xs.length = ys.length := by simpa using congrArg List.length h
  rw [List.getLast?_eq_getElem?, List.getLast?_eq_getElem?, hlen]
  exact getElem?_eq_bind h _

/-- Indexing through a list and through the positions behind it. -/
lemma map_filterMap_getElem? {xs : List α} {ys : List β} {f : α → Option β}
    (h : xs.map f = ys.map some) (is : List γ) (ix : γ → ℕ) :
    (is.filterMap fun i => xs[ix i]?).map f = (is.filterMap fun i => ys[ix i]?).map some := by
  have hi : ∀ i, xs[ix i]?.map f = ys[ix i]?.map some := fun i => by
    simpa using congrArg (fun l => l[ix i]?) h
  rw [List.map_filterMap, List.map_filterMap]
  simp only [hi]

end NovaSniper.Lib.Kept
