import NovaSniper.Detector
import NovaSniper.Lib.Reader

/-!
The metadata of a launch: what the Borsh reader makes of a payload.

A read succeeds exactly on bytes that begin with an encoded text, and otherwise leaves them
alone; so once one read has failed, so do all later ones. The three reads together find the
longest sequence of at most three texts that the payload begins with, and stay inside it.
-/

namespace NovaSniper.Metadata

open NovaSniper.Detector NovaSniper.Lib.Bytes NovaSniper.Lib.Reader

/-- The bytes begin with the encodings of these texts, one after the other. -/
def Starts (texts : List String) (bytes : List UInt8) : Prop :=
  (∀ s ∈ texts, s.utf8ByteSize < 2 ^ 32) ∧ ∃ rest, bytes = texts.flatMap enc ++ rest

lemma readBorshString_enc {s : String} (hs : s.utf8ByteSize < 2 ^ 32) (rest : List UInt8) :
    readBorshString (enc s ++ rest) = (some s, rest) := by
  have hlen : (enc s ++ rest).length = 4 + s.utf8ByteSize + rest.length := by
    rw [List.length_append, length_enc]
  have htake : (enc s ++ rest).take 4 = le 4 s.utf8ByteSize := by
    rw [enc, List.append_assoc, List.take_left' (length_le 4 _)]
  have hle : ofLE (le 4 s.utf8ByteSize) = s.utf8ByteSize := ofLE_le (by simpa using hs)
  have htext : ((enc s ++ rest).drop 4).take s.utf8ByteSize = utf8 s := by
    rw [enc, List.append_assoc, List.drop_left' (length_le 4 _),
      List.take_left' (length_utf8 s)]
  have hrest : (enc s ++ rest).drop (4 + s.utf8ByteSize) = rest :=
    List.drop_left' (length_enc s)
  unfold readBorshString
  rw [htake, hle, if_neg (by omega), if_neg (by omega), htext, fromUTF8?_eq_some.mpr rfl, hrest]

/-- **A read takes an encoded text off the front, or nothing.** -/
theorem readBorshString_cases (bytes : List UInt8) :
    (∃ s rest, s.utf8ByteSize < 2 ^ 32 ∧ bytes = enc s ++ rest ∧
        readBorshString bytes = (some s, rest)) ∨
      readBorshString bytes = (none, bytes) := by
  by_cases hfour : bytes.length < 4
  · right
    unfold readBorshString
    rw [if_pos hfour]
  by_cases hlen : bytes.length < 4 + ofLE (bytes.take 4)
  · right
    unfold readBorshString
    rw [if_neg hfour, if_pos hlen]
  have hhead : (bytes.take 4).length = 4 := by
    rw [List.length_take]
    omega
  cases htext : String.fromUTF8? ⟨((bytes.drop 4).take (ofLE (bytes.take 4))).toArray⟩ with
  | none =>
    right
    unfold readBorshString
    rw [if_neg hfour, if_neg hlen, htext]
  | some s =>
    left
    have hs := fromUTF8?_eq_some.mp htext
    have hsize : s.utf8ByteSize = ofLE (bytes.take 4) := by
      rw [← length_utf8, ← hs, List.length_take, List.length_drop]
      omega
    have hbound : ofLE (bytes.take 4) < 2 ^ 32 := by
      have := ofLE_lt (bytes.take 4)
      rw [hhead] at this
      exact this
    have hsplit : bytes = enc s ++ bytes.drop (4 + s.utf8ByteSize) := by
      have hle : le 4 (ofLE (bytes.take 4)) = bytes.take 4 := by
        have := le_ofLE (bytes.take 4)
        rwa [hhead] at this
      have henc : enc s = bytes.take (4 + s.utf8ByteSize) := by
        rw [enc, ← hs, hsize, List.take_add, hle]
      rw [henc, List.take_append_drop]
    refine ⟨s, bytes.drop (4 + s.utf8ByteSize), by rw [hsize]; exact hbound, hsplit, ?_⟩
    conv_lhs => rw [hsplit]
    exact readBorshString_enc (by rw [hsize]; exact hbound) _

lemma readBorshString_eq_some {bytes rest : List UInt8} {s : String} :
    readBorshString bytes = (some s, rest) ↔ s.utf8ByteSize < 2 ^ 32 ∧ bytes = enc s ++ rest := by
  refine ⟨?_, ?_⟩
  · intro h
    rcases readBorshString_cases bytes with ⟨s', rest', hs, hbytes, hread⟩ | hread
    · rw [hread, Prod.mk.injEq, Option.some.injEq] at h
      obtain ⟨rfl, rfl⟩ := h
      exact ⟨hs, hbytes⟩
    · rw [hread] at h
      simp at h
  · rintro ⟨hs, rfl⟩
    exact readBorshString_enc hs rest

/-- There is a name exactly when the bytes begin with a text. -/
lemma name_isSome_iff (bytes : List UInt8) :
    (decodeBorshStrings bytes).1.isSome ↔ ∃ name, Starts [name] bytes := by
  unfold decodeBorshStrings Starts
  simp only [List.mem_singleton, forall_eq, List.flatMap_cons, List.flatMap_nil, List.append_nil]
  refine ⟨?_, ?_⟩
  · intro h
    obtain ⟨name, hname⟩ := Option.isSome_iff_exists.mp h
    obtain ⟨hs, hbytes⟩ := readBorshString_eq_some.mp (Prod.ext hname rfl)
    exact ⟨name, hs, _, hbytes⟩
  · rintro ⟨name, hs, rest, rfl⟩
    rw [readBorshString_enc hs]
    rfl

/-- There is a symbol exactly when the bytes begin with two texts: after a name that cannot
be read, nothing can. -/
lemma symbol_isSome_iff (bytes : List UInt8) :
    (decodeBorshStrings bytes).2.1.isSome ↔ ∃ name symbol, Starts [name, symbol] bytes := by
  unfold decodeBorshStrings Starts
  simp only [List.mem_cons, List.not_mem_nil, or_false, forall_eq_or_imp, forall_eq,
    List.flatMap_cons, List.flatMap_nil, List.append_nil]
  refine ⟨?_, ?_⟩
  · intro h
    rcases readBorshString_cases bytes with ⟨name, rest, hn, hbytes, hread⟩ | hread
    · rw [hread] at h
      obtain ⟨symbol, hsymbol⟩ := Option.isSome_iff_exists.mp h
      obtain ⟨hs, hrest⟩ := readBorshString_eq_some.mp (Prod.ext hsymbol rfl)
      refine ⟨name, symbol, ⟨hn, hs⟩, (readBorshString rest).2, ?_⟩
      rw [hbytes, List.append_assoc]
      exact congrArg (enc name ++ ·) hrest
    · -- the second read meets the same bytes
      rw [hread] at h
      simp only [hread, Option.isSome_none, Bool.false_eq_true] at h
  · rintro ⟨name, symbol, ⟨hn, hs⟩, rest, rfl⟩
    rw [List.append_assoc, readBorshString_enc hn]
    simp only [readBorshString_enc hs, Option.isSome_some]

/-! ### The longest sequence of texts -/

lemma reads_readBorshString :
    Reads (fun s : String => s.utf8ByteSize < 2 ^ 32) enc readBorshString where
  some_iff _ _ _ := readBorshString_eq_some
  stays bytes hnone := by
    rcases readBorshString_cases bytes with ⟨s, rest, -, -, hread⟩ | hread
    · rw [hread] at hnone
      cases hnone
    · rw [hread]

lemma readMany_borsh (bytes : List UInt8) :
    readMany readBorshString 3 bytes =
      [(decodeBorshStrings bytes).1, (decodeBorshStrings bytes).2.1,
        (decodeBorshStrings bytes).2.2] :=
  rfl

lemma decodeBorshStrings_enc {name symbol uri : String} (hn : name.utf8ByteSize < 2 ^ 32)
    (hs : symbol.utf8ByteSize < 2 ^ 32) (hu : uri.utf8ByteSize < 2 ^ 32) (tail : List UInt8) :
    decodeBorshStrings (enc name ++ enc symbol ++ enc uri ++ tail) =
      (some name, some symbol, some uri) := by
  have hassoc : enc name ++ enc symbol ++ enc uri ++ tail =
      enc name ++ (enc symbol ++ (enc uri ++ tail)) := by
    simp only [List.append_assoc]
  unfold decodeBorshStrings
  rw [hassoc, readBorshString_enc hn]
  simp only [readBorshString_enc hs, readBorshString_enc hu]

/-! ### Slices that are checked -/

/-- `&bytes[a..b]`; out of range, where the source would panic, there is nothing. -/
def slice (bytes : List UInt8) (a b : ℕ) : Option (List UInt8) :=
  if a ≤ b ∧ b ≤ bytes.length then some ((bytes.take b).drop a) else none

/-- A sum that fits in a `usize` of 64 bits. -/
def usizeAdd (a b : ℕ) : Option ℕ := if a + b < 2 ^ 64 then some (a + b) else none

/-- `read_borsh_string`, with every slice and every sum checked. -/
def readChecked (bytes : List UInt8) : Option (Option String × List UInt8) :=
  if bytes.length < 4 then some (none, bytes)
  else do
    let head ← slice bytes 0 4
    let stop ← usizeAdd 4 (ofLE head)
    if bytes.length < stop then some (none, bytes)
    else do
      let body ← slice bytes 4 stop
      match String.fromUTF8? ⟨body.toArray⟩ with
      | none => some (none, bytes)
      | some s => do
        let rest ← slice bytes stop bytes.length
        some (some s, rest)

/-- `decode_borsh_strings`, by checked reads. -/
def decodeChecked (bytes : List UInt8) :
    Option (Option String × Option String × Option String) := do
  let (name, bytes) ← readChecked bytes
  let (symbol, bytes) ← readChecked bytes
  let (uri, _) ← readChecked bytes
  some (name, symbol, uri)

lemma slice_eq {bytes : List UInt8} {a b : ℕ} (hab : a ≤ b) (hb : b ≤ bytes.length) :
    slice bytes a b = some ((bytes.drop a).take (b - a)) := by
  unfold slice
  rw [if_pos ⟨hab, hb⟩, List.drop_take]

/-- **No read goes past the bytes**, and no length overflows. -/
theorem readChecked_eq (bytes : List UInt8) : readChecked bytes = some (readBorshString bytes) := by
  unfold readChecked readBorshString
  by_cases hfour : bytes.length < 4
  · rw [if_pos hfour, if_pos hfour]
  have hhead : slice bytes 0 4 = some (bytes.take 4) := by
    rw [slice_eq (by omega) (by omega), List.drop_zero]
  have hlen : (bytes.take 4).length = 4 := by
    rw [List.length_take]
    omega
  have hbound : ofLE (bytes.take 4) < 2 ^ 32 := by
    have := ofLE_lt (bytes.take 4)
    rw [hlen] at this
    exact this
  have hsum : usizeAdd 4 (ofLE (bytes.take 4)) = some (4 + ofLE (bytes.take 4)) := by
    unfold usizeAdd
    rw [if_pos (by omega)]
  rw [if_neg hfour, if_neg hfour, hhead]
  simp only [Option.bind_eq_bind, Option.bind_some, hsum]
  by_cases hshort : bytes.length < 4 + ofLE (bytes.take 4)
  · rw [if_pos hshort, if_pos hshort]
  have hbody : slice bytes 4 (4 + ofLE (bytes.take 4)) =
      some ((bytes.drop 4).take (ofLE (bytes.take 4))) := by
    rw [slice_eq (by omega) (by omega), Nat.add_sub_cancel_left]
  have hrest : slice bytes (4 + ofLE (bytes.take 4)) bytes.length =
      some (bytes.drop (4 + ofLE (bytes.take 4))) := by
    rw [slice_eq (by omega) le_rfl, ← List.length_drop, List.take_length]
  rw [if_neg hshort, if_neg hshort, hbody]
  simp only [Option.bind_some, hrest]
  cases String.fromUTF8? ⟨((bytes.drop 4).take (ofLE (bytes.take 4))).toArray⟩ with
  | none => rfl
  | some s => rfl

lemma decodeChecked_eq (bytes : List UInt8) :
    decodeChecked bytes = some (decodeBorshStrings bytes) := by
  unfold decodeChecked decodeBorshStrings
  simp only [readChecked_eq, Option.bind_eq_bind, Option.bind_some]

/-- **The decoder is exact.** On every byte string it returns the longest sequence of at most
three texts whose encodings the bytes begin with, and nothing in the places behind it: so a
later text is there only with the ones before it. It reads inside the bytes only, and what
was encoded comes back, whatever follows. -/
theorem decodeBorshStrings_exact (bytes : List UInt8) :
    (∃ texts, texts.length ≤ 3 ∧ Starts texts bytes ∧
        (∀ others, others.length ≤ 3 → Starts others bytes → others <+: texts) ∧
        [(decodeBorshStrings bytes).1, (decodeBorshStrings bytes).2.1,
          (decodeBorshStrings bytes).2.2] =
          texts.map some ++ List.replicate (3 - texts.length) none) ∧
      ((decodeBorshStrings bytes).2.2.isSome → (decodeBorshStrings bytes).2.1.isSome) ∧
      ((decodeBorshStrings bytes).2.1.isSome → (decodeBorshStrings bytes).1.isSome) ∧
      decodeChecked bytes = some (decodeBorshStrings bytes) ∧
      ∀ name symbol uri : String, name.utf8ByteSize < 2 ^ 32 → symbol.utf8ByteSize < 2 ^ 32 →
        uri.utf8ByteSize < 2 ^ 32 → ∀ tail,
          decodeBorshStrings (enc name ++ enc symbol ++ enc uri ++ tail) =
            (some name, some symbol, some uri) := by
  obtain ⟨texts, hlen, hstarts, hlongest, hread⟩ := reads_readBorshString.readMany_spec 3 bytes
  rw [readMany_borsh] at hread
  refine ⟨⟨texts, hlen, hstarts, hlongest, hread⟩, ?_, ?_, decodeChecked_eq bytes,
    fun name symbol uri hn hs hu tail => decodeBorshStrings_enc hn hs hu tail⟩
  · intro huri
    obtain ⟨uri, huri⟩ := Option.isSome_iff_exists.mp huri
    have hlast : (readMany readBorshString 3 bytes)[1 + 1]? = some (some uri) := by
      rw [readMany_borsh, huri]
      rfl
    obtain ⟨symbol, hsymbol⟩ := reads_readBorshString.isSome_of_succ hlast
    rw [readMany_borsh] at hsymbol
    exact Option.isSome_iff_exists.mpr ⟨symbol, Option.some.inj hsymbol⟩
  · intro hsymbol
    obtain ⟨symbol, hsymbol⟩ := Option.isSome_iff_exists.mp hsymbol
    have hnext : (readMany readBorshString 3 bytes)[0 + 1]? = some (some symbol) := by
      rw [readMany_borsh, hsymbol]
      rfl
    obtain ⟨name, hname⟩ := reads_readBorshString.isSome_of_succ hnext
    rw [readMany_borsh] at hname
    exact Option.isSome_iff_exists.mpr ⟨name, Option.some.inj hname⟩

end NovaSniper.Metadata
