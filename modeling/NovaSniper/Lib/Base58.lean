import Mathlib.Tactic
import Mathlib.Data.Nat.Digits.Lemmas

/-!
Change of base for digit strings that keep their leading zeros, and the base-58 text of a
byte string.

Digits are written most significant first. Leading zeros count, so the number alone does
not determine the string; the conversion carries them over one by one, and converting back
is the identity.
-/

namespace NovaSniper.Lib.Base58

/-- The number of leading zeros. -/
def zeros (ds : List ℕ) : ℕ := (ds.takeWhile (· == 0)).length

/-- From base `b` to base `c`, leading zeros kept. -/
def rebase (b c : ℕ) (ds : List ℕ) : List ℕ :=
  List.replicate (zeros ds) 0 ++ (Nat.digits c (Nat.ofDigits b ds.reverse)).reverse

lemma zeros_append {core : List ℕ} (h : core.head? ≠ some 0) (z : ℕ) :
    zeros (List.replicate z 0 ++ core) = z := by
  have hcore : core.takeWhile (· == 0) = [] := by
    rcases core with _ | ⟨d, core⟩
    · rfl
    · have hd : d ≠ 0 := by simpa using h
      simp [hd]
  simp [zeros, hcore]

lemma exists_core (ds : List ℕ) :
    ∃ z core, ds = List.replicate z 0 ++ core ∧ core.head? ≠ some 0 := by
  induction ds with
  | nil => exact ⟨0, [], rfl, by simp⟩
  | cons d ds ih =>
    by_cases hd : d = 0
    · obtain ⟨z, core, rfl, hcore⟩ := ih
      exact ⟨z + 1, core, by simp [hd, List.replicate_succ], hcore⟩
    · exact ⟨0, d :: ds, rfl, by simpa using hd⟩

lemma rebase_append (b c : ℕ) {core : List ℕ} (h : core.head? ≠ some 0) (z : ℕ) :
    rebase b c (List.replicate z 0 ++ core) =
      List.replicate z 0 ++ (Nat.digits c (Nat.ofDigits b core.reverse)).reverse := by
  rw [rebase, zeros_append h, List.reverse_append, List.reverse_replicate,
    Nat.ofDigits_append_replicate_zero]

/-- The digits of a number start with a digit that is not zero. -/
lemma head_digits (c n : ℕ) : (Nat.digits c n).reverse.head? ≠ some 0 := by
  rw [List.head?_reverse]
  by_cases hn : n = 0
  · simp [hn]
  · have hne := Nat.digits_ne_nil_iff_ne_zero (b := c).mpr hn
    rw [List.getLast?_eq_some_getLast hne]
    simpa using Nat.getLast_digit_ne_zero c hn

/-- **Converting back is the identity.** -/
theorem rebase_rebase {b c : ℕ} (hb : 1 < b) {ds : List ℕ} (h : ∀ d ∈ ds, d < b) :
    rebase c b (rebase b c ds) = ds := by
  obtain ⟨z, core, rfl, hcore⟩ := exists_core ds
  have hlt : ∀ d ∈ core.reverse, d < b := fun d hd =>
    h d (List.mem_append_right _ (List.mem_reverse.mp hd))
  have hlast : ∀ hne : core.reverse ≠ [], core.reverse.getLast hne ≠ 0 := by
    intro hne h0
    have := List.getLast?_eq_some_getLast hne
    rw [List.getLast?_reverse, h0] at this
    exact hcore this
  rw [rebase_append b c hcore, rebase_append c b (head_digits c _), List.reverse_reverse,
    Nat.ofDigits_digits, Nat.digits_ofDigits b hb _ hlt hlast, List.reverse_reverse]

lemma rebase_lt {b c : ℕ} (hc : 1 < c) {ds : List ℕ} {d : ℕ} (hd : d ∈ rebase b c ds) :
    d < c := by
  rcases List.mem_append.mp hd with hd | hd
  · have := (List.mem_replicate.mp hd).2
    omega
  · exact Nat.digits_lt_base hc (List.mem_reverse.mp hd)

/-! ### Base 58 -/

def alphabet : List Char := "123456789ABCDEFGHJKLMNPQRSTUVWXYZabcdefghijkmnopqrstuvwxyz".toList

def digitOf (c : Char) : Option ℕ := alphabet.idxOf? c

def encode (bs : List UInt8) : String :=
  String.ofList ((rebase 256 58 (bs.map UInt8.toNat)).map fun d => alphabet.getD d '1')

def decode (s : String) : Option (List UInt8) :=
  (s.toList.mapM digitOf).map fun ds => (rebase 58 256 ds).map UInt8.ofNat

lemma digitOf_alphabet : ∀ d < 58, digitOf (alphabet.getD d '1') = some d := by
  decide +kernel

lemma mapM_digitOf {ds : List ℕ} (h : ∀ d ∈ ds, d < 58) :
    (ds.map fun d => alphabet.getD d '1').mapM digitOf = some ds := by
  induction ds with
  | nil => rfl
  | cons d ds ih =>
    have hd := digitOf_alphabet d (h d (by simp))
    have ht := ih fun x hx => h x (by simp [hx])
    simp only [List.map_cons, List.mapM_cons, hd, ht, Option.pure_def, Option.bind_eq_bind,
      Option.bind_some]

/-- **The text of a byte string reads back as the string.** -/
theorem decode_encode (bs : List UInt8) : decode (encode bs) = some bs := by
  have hlt : ∀ d ∈ bs.map UInt8.toNat, d < 256 := by
    intro d hd
    obtain ⟨x, -, rfl⟩ := List.mem_map.mp hd
    exact x.toNat_lt
  rw [decode, encode, String.toList_ofList, mapM_digitOf fun d hd => rebase_lt (by omega) hd,
    Option.map_some, rebase_rebase (by omega) hlt, List.map_map]
  congr 1
  exact (List.map_congr_left fun x _ => UInt8.ofNat_toNat).trans (List.map_id bs)

end NovaSniper.Lib.Base58
