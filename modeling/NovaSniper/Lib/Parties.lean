import Mathlib.Tactic

/-!
Parties in a list, of which one at a time changes its place.

A party keeps its index. Seen as a multiset, the list loses the party at its old place and
gains it at its new one.
-/

namespace NovaSniper.Lib.Parties

universe u v

variable {α : Type u} {β : Type v} {xs : List α} {k : ℕ} {a : α}

lemma coe_eq_cons (h : xs[k]? = some a) : (xs : Multiset α) = a ::ₘ (xs.eraseIdx k : List α) := by
  obtain ⟨hk, rfl⟩ := List.getElem?_eq_some_iff.mp h
  exact Multiset.coe_eq_coe.mpr (List.getElem_cons_eraseIdx_perm hk).symm

lemma coe_set (h : xs[k]? = some a) (b : α) :
    ((xs.set k b : List α) : Multiset α) = b ::ₘ (xs.eraseIdx k : List α) := by
  obtain ⟨hk, -⟩ := List.getElem?_eq_some_iff.mp h
  exact Multiset.coe_eq_coe.mpr (List.set_perm_cons_eraseIdx hk b)

lemma set_self (h : xs[k]? = some a) : xs.set k a = xs := by
  obtain ⟨hk, rfl⟩ := List.getElem?_eq_some_iff.mp h
  exact List.set_getElem_self hk

/-- What holds of every party with its index is checked for the one that changes, and for the
others as they were. -/
lemma forall_set {P : ℕ → α → Prop} {b : α} (h : ∀ j c, j ≠ k → xs[j]? = some c → P j c)
    (hb : P k b) : ∀ j c, (xs.set k b)[j]? = some c → P j c := by
  intro j c hc
  rw [List.getElem?_set] at hc
  split_ifs at hc with hj hlt
  · obtain rfl := Option.some.inj hc
    exact hj ▸ hb
  · exact h j c (Ne.symm hj) hc

/-- What holds of every party with its index is checked for the one that joins. -/
lemma forall_snoc {P : ℕ → α → Prop} {b : α} (h : ∀ j c, xs[j]? = some c → P j c)
    (hb : P xs.length b) : ∀ j c, (xs ++ [b])[j]? = some c → P j c := by
  intro j c hc
  rw [List.getElem?_append] at hc
  split_ifs at hc with hj
  · exact h j c hc
  · obtain ⟨hlt, rfl⟩ := List.getElem?_eq_some_iff.mp hc
    have hj' : j = xs.length := by
      rw [List.length_singleton] at hlt
      omega
    subst hj'
    simpa using hb

/-- A sum over the parties changes by what it changes for one of them. -/
lemma sum_set (h : xs[k]? = some a) (b : α) (f : α → ℕ) :
    ((xs.set k b).map f).sum + f a = (xs.map f).sum + f b := by
  have hold := congrArg (fun m => (m.map f).sum) (coe_eq_cons h)
  have hnew := congrArg (fun m => (m.map f).sum) (coe_set h b)
  simp only [Multiset.map_coe, Multiset.sum_coe, Multiset.map_cons, Multiset.sum_cons] at hold hnew
  omega

/-- Two parties with the same value of `f` are one, if the values are without repetition. -/
lemma eq_of_nodup {f : α → Option β} (h : ((xs : Multiset α).filterMap f).Nodup) {j : ℕ} {b : α}
    {y : β} (ha : xs[k]? = some a) (hb : xs[j]? = some b) (hfa : f a = some y)
    (hfb : f b = some y) : k = j := by
  have hpair : xs.Pairwise fun c d => ∀ u, f c = some u → ∀ v, f d = some v → u ≠ v := by
    rw [← List.pairwise_filterMap]
    exact Multiset.coe_nodup.mp h
  obtain ⟨hk, rfl⟩ := List.getElem?_eq_some_iff.mp ha
  obtain ⟨hj, rfl⟩ := List.getElem?_eq_some_iff.mp hb
  rw [List.pairwise_iff_getElem] at hpair
  rcases lt_trichotomy k j with hlt | heq | hlt
  · exact absurd rfl (hpair k j hk hj hlt y hfa y hfb)
  · exact heq
  · exact absurd rfl (hpair j k hj hk hlt y hfb y hfa)

end NovaSniper.Lib.Parties
