import Mathlib.Tactic
import Mathlib.Data.Nat.Digits.Lemmas

/-!
Byte strings: numbers in little-endian order, texts in UTF-8, and texts that carry their
length in front.
-/

namespace NovaSniper.Lib.Bytes

/-! ### Numbers -/

/-- The number whose base-256 digits are the bytes, least significant first. -/
def ofLE (bs : List UInt8) : ℕ := Nat.ofDigits 256 (bs.map UInt8.toNat)

/-- The `n` lowest bytes of a number. -/
def le : ℕ → ℕ → List UInt8
  | 0, _ => []
  | n + 1, v => UInt8.ofNat (v % 256) :: le n (v / 256)

@[simp] lemma length_le (n v : ℕ) : (le n v).length = n := by
  induction n generalizing v with
  | zero => rfl
  | succ n ih => simp [le, ih]

lemma ofLE_cons (b : UInt8) (bs : List UInt8) : ofLE (b :: bs) = b.toNat + 256 * ofLE bs := by
  simp [ofLE, Nat.ofDigits_cons]

lemma ofLE_lt (bs : List UInt8) : ofLE bs < 256 ^ bs.length := by
  induction bs with
  | nil => simp [ofLE]
  | cons b bs ih =>
    have hb : b.toNat < 256 := b.toNat_lt
    rw [ofLE_cons, List.length_cons, pow_succ]
    omega

/-- **Reading a number back from its bytes.** -/
theorem ofLE_le {n v : ℕ} (h : v < 256 ^ n) : ofLE (le n v) = v := by
  induction n generalizing v with
  | zero =>
    have hv : v = 0 := by simpa using h
    subst hv
    rfl
  | succ n ih =>
    have hdiv : v / 256 < 256 ^ n := by
      rw [Nat.div_lt_iff_lt_mul (by decide)]
      rwa [pow_succ] at h
    have hmod : (UInt8.ofNat (v % 256)).toNat = v % 256 := by
      rw [UInt8.toNat_ofNat']
      omega
    rw [le, ofLE_cons, ih hdiv, hmod]
    omega

/-- Writing a number that was read gives the bytes again. -/
theorem le_ofLE (bs : List UInt8) : le bs.length (ofLE bs) = bs := by
  induction bs with
  | nil => rfl
  | cons b bs ih =>
    have hb : b.toNat < 256 := b.toNat_lt
    have hmod : (b.toNat + 256 * ofLE bs) % 256 = b.toNat := by omega
    have hdiv : (b.toNat + 256 * ofLE bs) / 256 = ofLE bs := by omega
    rw [ofLE_cons, List.length_cons, le, hmod, hdiv, ih, UInt8.ofNat_toNat]

/-! ### Texts -/

/-- The UTF-8 bytes of a text. -/
def utf8 (s : String) : List UInt8 := s.toByteArray.data.toList

lemma length_utf8 (s : String) : (utf8 s).length = s.utf8ByteSize := by
  rw [utf8, Array.length_toList, ← ByteArray.size, String.size_toByteArray]

/-- Bytes read as a text exactly when they are its UTF-8 bytes. -/
theorem fromUTF8?_eq_some {bs : List UInt8} {s : String} :
    String.fromUTF8? ⟨bs.toArray⟩ = some s ↔ bs = utf8 s := by
  unfold String.fromUTF8?
  split_ifs with h
  · rw [Option.some.injEq]
    refine ⟨?_, ?_⟩
    · rintro rfl
      simp [utf8, String.fromUTF8]
    · rintro rfl
      simp [utf8, String.fromUTF8]
  · simp only [false_iff]
    rintro rfl
    exact h (by simpa [utf8] using s.isValidUTF8)

/-! ### Texts with their length in front -/

/-- A text after its length in bytes, as a number of four bytes. -/
def enc (s : String) : List UInt8 := le 4 s.utf8ByteSize ++ utf8 s

lemma length_enc (s : String) : (enc s).length = 4 + s.utf8ByteSize := by
  simp [enc, length_utf8]

end NovaSniper.Lib.Bytes
