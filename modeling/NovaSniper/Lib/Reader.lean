import Mathlib.Tactic

/-!
Reading encoded values off the front of a list, one after the other.

A reader takes one encoded value, or leaves the input where it is. Reading several times
then finds the longest sequence of encodings that the input begins with: a value that cannot
be read stops the reads behind it, which meet the same input again.
-/

namespace NovaSniper.Lib.Reader

variable {α β : Type*}

/-- The input begins with the encodings of these values. -/
def Begins (ok : α → Prop) (enc : α → List β) (values : List α) (input : List β) : Prop :=
  (∀ a ∈ values, ok a) ∧ ∃ rest, input = values.flatMap enc ++ rest

/-- `read` takes an encoded value off the front of its input, or nothing. -/
structure Reads (ok : α → Prop) (enc : α → List β) (read : List β → Option α × List β) :
    Prop where
  some_iff : ∀ input a rest, read input = (some a, rest) ↔ ok a ∧ input = enc a ++ rest
  stays : ∀ input, (read input).1 = none → (read input).2 = input

/-- `k` reads, each from where the one before it ended. -/
def readMany (read : List β → Option α × List β) : ℕ → List β → List (Option α)
  | 0, _ => []
  | k + 1, input => (read input).1 :: readMany read k (read input).2

section Begins

variable {ok : α → Prop} {enc : α → List β}

lemma begins_nil (input : List β) : Begins ok enc [] input :=
  ⟨fun _ ha => absurd ha List.not_mem_nil, input, rfl⟩

lemma begins_cons {a : α} {values : List α} {rest : List β} (ha : ok a)
    (h : Begins ok enc values rest) : Begins ok enc (a :: values) (enc a ++ rest) := by
  obtain ⟨hok, tail, rfl⟩ := h
  refine ⟨?_, tail, ?_⟩
  · intro b hb
    rcases List.mem_cons.mp hb with rfl | hb
    · exact ha
    · exact hok b hb
  · rw [List.flatMap_cons, List.append_assoc]

/-- The first value of a sequence, and what the others begin. -/
lemma Begins.uncons {a : α} {values : List α} {input : List β}
    (h : Begins ok enc (a :: values) input) :
    ok a ∧ ∃ rest, input = enc a ++ rest ∧ Begins ok enc values rest := by
  obtain ⟨hok, tail, rfl⟩ := h
  refine ⟨hok a (List.mem_cons_self ..), values.flatMap enc ++ tail, ?_, ?_⟩
  · rw [List.flatMap_cons, List.append_assoc]
  · exact ⟨fun b hb => hok b (List.mem_cons_of_mem _ hb), tail, rfl⟩

end Begins

section Reads

variable {ok : α → Prop} {enc : α → List β} {read : List β → Option α × List β}

lemma Reads.enc_append (h : Reads ok enc read) {a : α} (ha : ok a) (rest : List β) :
    read (enc a ++ rest) = (some a, rest) :=
  (h.some_iff _ _ _).mpr ⟨ha, rfl⟩

/-- Nothing begins an input that cannot be read. -/
lemma Reads.eq_nil_of_begins (h : Reads ok enc read) {values : List α} {input : List β}
    (hnone : (read input).1 = none) (hv : Begins ok enc values input) : values = [] := by
  cases values with
  | nil => rfl
  | cons a values =>
    obtain ⟨ha, rest, rfl, -⟩ := hv.uncons
    rw [h.enc_append ha] at hnone
    cases hnone

/-- **Reading several times finds the longest sequence that the input begins with.** -/
theorem Reads.readMany_spec (h : Reads ok enc read) (k : ℕ) (input : List β) :
    ∃ values, values.length ≤ k ∧ Begins ok enc values input ∧
      (∀ others, others.length ≤ k → Begins ok enc others input → others <+: values) ∧
      readMany read k input = values.map some ++ List.replicate (k - values.length) none := by
  induction k generalizing input with
  | zero =>
    refine ⟨[], le_rfl, begins_nil input, fun others hlen _ => ?_, rfl⟩
    have hnil : others = [] := List.eq_nil_of_length_eq_zero (by omega)
    exact hnil ▸ List.prefix_rfl
  | succ k ih =>
    obtain ⟨values, hlen, hbegins, hlongest, hread⟩ := ih (read input).2
    cases hfirst : (read input).1 with
    | some a =>
      obtain ⟨ha, hinput⟩ := (h.some_iff input a (read input).2).mp (Prod.ext hfirst rfl)
      refine ⟨a :: values, by simpa using hlen, ?_, fun others holen hothers => ?_, ?_⟩
      · have hcons := begins_cons ha hbegins
        rwa [← hinput] at hcons
      · cases others with
        | nil => exact List.nil_prefix
        | cons b others =>
          obtain ⟨hb, rest, hrest, hothers⟩ := hothers.uncons
          have hsame : read input = (some b, rest) := (h.some_iff input b rest).mpr ⟨hb, hrest⟩
          have hab : a = b := by
            have := congrArg Prod.fst hsame
            rw [hfirst] at this
            exact Option.some.inj this
          have htail : rest = (read input).2 := (congrArg Prod.snd hsame).symm
          subst hab
          subst htail
          rw [List.prefix_cons_inj]
          exact hlongest others (by simpa using holen) hothers
      · have hsub : k + 1 - (a :: values).length = k - values.length := by
          rw [List.length_cons]
          omega
        rw [readMany, hfirst, hread, hsub, List.map_cons, List.cons_append]
    | none =>
      -- the reads behind this one meet the same input
      rw [h.stays input hfirst] at hread hbegins
      have hnil : values = [] := h.eq_nil_of_begins hfirst hbegins
      subst hnil
      refine ⟨[], Nat.zero_le _, begins_nil input, fun others _ hothers => ?_, ?_⟩
      · exact h.eq_nil_of_begins hfirst hothers ▸ List.prefix_rfl
      · rw [readMany, hfirst, h.stays input hfirst, hread]
        rfl

/-- A read that succeeds comes after reads that did. -/
lemma Reads.isSome_of_succ (h : Reads ok enc read) {k j : ℕ} {input : List β} {b : α}
    (hj : (readMany read k input)[j + 1]? = some (some b)) :
    ∃ a, (readMany read k input)[j]? = some (some a) := by
  obtain ⟨values, -, -, -, hread⟩ := h.readMany_spec k input
  rw [hread] at hj ⊢
  have hlt : j + 1 < values.length := by
    by_contra hge
    rw [List.getElem?_append_right (by simpa using hge), List.getElem?_replicate] at hj
    split_ifs at hj
    cases hj
  refine ⟨values[j], ?_⟩
  rw [List.getElem?_append_left (by rw [List.length_map]; omega), List.getElem?_map,
    List.getElem?_eq_getElem (by omega), Option.map_some]

end Reads

end NovaSniper.Lib.Reader
