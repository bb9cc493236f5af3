import Mathlib.Tactic

/-!
The entries of a list whose flag is set, the flags being a second list of the same length.
-/

namespace NovaSniper.Lib.Marked

variable {α : Type*}

/-- The entries whose flag is set, in order. -/
def marked : List α → List Bool → List α
  | a :: l, true :: b => a :: marked l b
  | _ :: l, false :: b => marked l b
  | _, _ => []

lemma marked_replicate (l : List α) (n : ℕ) : marked l (List.replicate n false) = [] := by
  induction l generalizing n with
  | nil => rfl
  | cons a l ih =>
    cases n with
    | zero => rfl
    | succ n => simpa [marked, List.replicate_succ] using ih n

/-- Setting one more flag marks one more entry. -/
theorem marked_set_perm {l : List α} {b : List Bool} {i : ℕ} {a : α} (ha : l[i]? = some a)
    (hb : b[i]? = some false) : (marked l (b.set i true)).Perm (a :: marked l b) := by
  induction l generalizing b i with
  | nil => simp at ha
  | cons x l ih =>
    rcases b with _ | ⟨c, b⟩
    · simp at hb
    · cases i with
      | zero =>
        obtain rfl : x = a := by simpa using ha
        obtain rfl : c = false := by simpa using hb
        simp [marked]
      | succ i =>
        have := ih (b := b) (i := i) (by simpa using ha) (by simpa using hb)
        cases c
        · simpa [marked] using this
        · simpa [marked] using (this.cons x).trans (List.Perm.swap a x _)

lemma sum_marked_set {M : Type*} [AddCommMonoid M] (f : α → M) {l : List α} {b : List Bool}
    {i : ℕ} {a : α} (ha : l[i]? = some a) (hb : b[i]? = some false) :
    ((marked l (b.set i true)).map f).sum = f a + ((marked l b).map f).sum := by
  rw [((marked_set_perm ha hb).map f).sum_eq]
  simp

lemma count_set {b : List Bool} {i : ℕ} (hb : b[i]? = some false) :
    (b.set i true).count true = b.count true + 1 := by
  induction b generalizing i with
  | nil => simp at hb
  | cons c b ih =>
    cases i with
    | zero =>
      obtain rfl : c = false := by simpa using hb
      simp
    | succ i =>
      have := ih (i := i) (by simpa using hb)
      cases c <;> simp [this]

lemma marked_append (l l' : List α) (b : List Bool) :
    marked (l ++ l') b = marked l b ++ marked l' (b.drop l.length) := by
  induction l generalizing b with
  | nil => rfl
  | cons a l ih =>
    rcases b with _ | ⟨c, b⟩
    · cases l' <;> rfl
    · cases c
      · exact ih b
      · exact congrArg (a :: ·) (ih b)

lemma marked_eq_nil {l : List α} {b : List Bool} (h : ∀ k < l.length, b.getD k false = false) :
    marked l b = [] := by
  induction l generalizing b with
  | nil => rfl
  | cons a l ih =>
    rcases b with _ | ⟨c, b⟩
    · rfl
    · obtain rfl : c = false := h 0 (Nat.succ_pos _)
      exact ih fun k hk => h (k + 1) (by simpa using hk)

/-- Flags that are all set before position `i` mark a part of the first `i` entries. -/
lemma marked_take {l : List α} {b : List Bool} {i : ℕ}
    (h : ∀ k, b.getD k false = true → k < i) : marked l b = marked (l.take i) b := by
  have hsplit := marked_append (l.take i) (l.drop i) b
  rw [List.take_append_drop] at hsplit
  have hrest : marked (l.drop i) (b.drop (l.take i).length) = [] := by
    refine marked_eq_nil fun k hk => ?_
    rw [List.length_drop] at hk
    have hlen : (l.take i).length = i := by
      rw [List.length_take]
      omega
    have hnot : ¬ b.getD (i + k) false = true := fun hset => by
      have := h _ hset
      omega
    have hdrop : (b.drop i).getD k false = b.getD (i + k) false := by
      simp only [List.getD, List.getElem?_drop]
    rw [hlen, hdrop]
    simpa using hnot
  rw [hsplit, hrest, List.append_nil]

lemma marked_take_sublist (l : List α) (b : List Bool) (i : ℕ) :
    (marked (l.take i) b).Sublist (marked l b) := by
  have hsplit := marked_append (l.take i) (l.drop i) b
  rw [List.take_append_drop] at hsplit
  rw [hsplit]
  exact List.sublist_append_left ..

/-- Where every marked entry passes `p`, the marked ones are among those that pass. -/
theorem marked_sublist_filter {p : α → Bool} {l : List α} {b : List Bool}
    (h : ∀ k a, l[k]? = some a → b.getD k false = true → p a = true) :
    (marked l b).Sublist (l.filter p) := by
  induction l generalizing b with
  | nil => exact List.Sublist.slnil
  | cons a l ih =>
    rcases b with _ | ⟨c, b⟩
    · exact List.nil_sublist _
    · have hrest : (marked l b).Sublist (l.filter p) := ih fun k x hk hb => h (k + 1) x hk hb
      cases c
      · exact hrest.trans ((List.sublist_cons_self a l).filter p)
      · have ha : p a = true := h 0 a rfl rfl
        rw [List.filter_cons_of_pos ha]
        exact hrest.cons_cons a

lemma marked_sublist (l : List α) (b : List Bool) : (marked l b).Sublist l := by
  have h := marked_sublist_filter (p := fun _ => true) (l := l) (b := b) fun _ _ _ _ => rfl
  rwa [List.filter_true] at h

/-- Where every entry that passes `p` is marked, those that pass are among the marked ones. -/
theorem filter_sublist_marked {p : α → Bool} {l : List α} {b : List Bool}
    (h : ∀ k a, l[k]? = some a → p a = true → b.getD k false = true) :
    (l.filter p).Sublist (marked l b) := by
  induction l generalizing b with
  | nil => exact List.Sublist.slnil
  | cons a l ih =>
    rcases b with _ | ⟨c, b⟩
    · have hnone : (a :: l).filter p = [] := by
        refine List.filter_eq_nil_iff.mpr fun x hx hp => ?_
        obtain ⟨k, hk⟩ := List.mem_iff_getElem?.mp hx
        exact absurd (h k x hk hp) (by simp)
      rw [hnone]
      exact List.nil_sublist _
    · have hrest : (l.filter p).Sublist (marked l b) := ih fun k x hk hx => h (k + 1) x hk hx
      by_cases ha : p a = true
      · obtain rfl : c = true := h 0 a rfl ha
        rw [List.filter_cons_of_pos ha]
        exact hrest.cons_cons a
      · rw [List.filter_cons_of_neg ha]
        cases c
        · exact hrest
        · exact hrest.cons a

/-- The first position at which two lists of flags differ. -/
def firstDiff (b c : List Bool) : ℕ := (b.zip c).findIdx fun p => p.1 != p.2

lemma firstDiff_set {b : List Bool} {i : ℕ} (hb : b[i]? = some false) :
    firstDiff b (b.set i true) = i := by
  induction b generalizing i with
  | nil => simp at hb
  | cons c b ih =>
    cases i with
    | zero =>
      obtain rfl : c = false := by simpa using hb
      simp [firstDiff, List.findIdx_cons]
    | succ i =>
      have := ih (i := i) (by simpa using hb)
      simp only [firstDiff] at this
      simp [firstDiff, List.findIdx_cons, this]

lemma getD_set {b : List Bool} {i : ℕ} (hb : b[i]? = some false) (j : ℕ) :
    (b.set i true).getD j false = true ↔ b.getD j false = true ∨ j = i := by
  have hi : i < b.length := (List.getElem?_eq_some_iff.mp hb).1
  by_cases hj : j = i
  · subst hj
    simp [List.getD, hi]
  · have hne : ¬ i = j := fun h => hj h.symm
    simp [List.getD, hne, hj]

end NovaSniper.Lib.Marked
