import NovaSniper.Detector

/-!
The texts of the targets.

A discriminator is written as 16 hexadecimal digits, in either case, behind any number of `0x`.
The prefix is taken off before the digits are read, and cannot take a digit with it, since `x` is
none. So what `Detector::new` makes of a configuration is known exactly from its texts.
-/

namespace NovaSniper.Targets

open NovaSniper.Config NovaSniper.Solana NovaSniper.Detector NovaSniper.Lib.Fallible

/-- The two digits of a byte. -/
def nibbles (b : UInt8) : List (Option ℕ) := [some (b.toNat / 16), some (b.toNat % 16)]

/-- `hex::decode` reads a text exactly when it consists of the digits of the bytes, high half
first, in either case. -/
def HexExact (ext : Codecs) : Prop :=
  ∀ s bs, ext.hexDecode s = .ok bs ↔ s.toList.map hexDigit = bs.flatMap nibbles

/-- `n` times `0x`. -/
def zeroX : ℕ → List Char
  | 0 => []
  | n + 1 => '0' :: 'x' :: zeroX n

/-- The text spells the discriminator. -/
def Spells (text : String) (δ : Discriminator) : Prop :=
  ∃ n digits, text.toList = zeroX n ++ digits ∧
    digits.map hexDigit = δ.bytes.flatMap nibbles

/-! ### Digits -/

lemma hexDigit_lt {c : Char} {x : ℕ} (h : hexDigit c = some x) : x < 16 := by
  unfold hexDigit at h
  rw [List.idxOf?_eq_some_iff] at h
  obtain ⟨hlt, -⟩ := h
  exact hlt

lemma length_nibbles (bs : List UInt8) : (bs.flatMap nibbles).length = 2 * bs.length := by
  induction bs with
  | nil => rfl
  | cons b bs ih =>
    rw [List.flatMap_cons, List.length_append, ih, List.length_cons]
    simp only [nibbles, List.length_cons, List.length_nil]
    omega

/-- A byte from its digits. -/
lemma toNat_pair {x y : ℕ} (hx : x < 16) (hy : y < 16) :
    (UInt8.ofNat (16 * x + y)).toNat = 16 * x + y := by
  rw [UInt8.toNat_ofNat']
  omega

lemma pair_eq_iff {x y : ℕ} (hx : x < 16) (hy : y < 16) (b : UInt8) :
    UInt8.ofNat (16 * x + y) = b ↔ x = b.toNat / 16 ∧ y = b.toNat % 16 := by
  rw [← UInt8.toNat_inj, toNat_pair hx hy]
  omega

/-- The pairs of digits are read one after the other. -/
theorem hexPairs_eq_ok : ∀ (cs : List Char) (bs : List UInt8),
    hexPairs cs = .ok bs ↔ cs.map hexDigit = bs.flatMap nibbles
  | [], bs => by
    cases bs with
    | nil => simp [hexPairs]
    | cons b bs => simp [hexPairs, nibbles]
  | [a], bs => by
    have hodd : [a].map hexDigit ≠ bs.flatMap nibbles := by
      intro heq
      have hlen := congrArg List.length heq
      rw [length_nibbles, List.length_map, List.length_singleton] at hlen
      omega
    simp only [hexPairs, hodd, iff_false]
    exact nofun
  | a :: b :: cs, bs => by
    have ih := hexPairs_eq_ok cs
    cases bs with
    | nil =>
      simp only [List.map_cons, List.flatMap_nil, reduceCtorEq, iff_false]
      intro h
      unfold hexPairs at h
      split at h <;> simp at h
    | cons c bs =>
      rw [List.flatMap_cons, nibbles, List.map_cons, List.map_cons, List.cons_append,
        List.cons_append, List.nil_append, List.cons.injEq, List.cons.injEq, ← ih bs, hexPairs]
      cases ha : hexDigit a with
      | none => simp
      | some x =>
        cases hb : hexDigit b with
        | none => simp
        | some y =>
          cases hrest : hexPairs cs with
          | error e => simp
          | ok bs' =>
            have hpair := pair_eq_iff (hexDigit_lt ha) (hexDigit_lt hb) c
            simp only [Except.ok.injEq, List.cons.injEq, Option.some.injEq]
            rw [hpair, and_assoc]

theorem hexExact_crates : HexExact crates := fun s bs => hexPairs_eq_ok s.toList bs

/-! ### The prefix -/

lemma exists_zeroX (cs : List Char) : ∃ n, cs = zeroX n ++ trimStart0x cs := by
  induction cs using trimStart0x.induct with
  | case1 cs ih =>
    obtain ⟨n, hn⟩ := ih
    refine ⟨n + 1, ?_⟩
    rw [trimStart0x, zeroX, List.cons_append, List.cons_append, ← hn]
  | case2 cs hcs =>
    refine ⟨0, ?_⟩
    unfold trimStart0x
    split
    · exact absurd rfl (hcs _)
    · rfl

/-- No digit is taken off. -/
lemma trimStart0x_digits {cs : List Char} {bs : List UInt8}
    (h : cs.map hexDigit = bs.flatMap nibbles) : trimStart0x cs = cs := by
  unfold trimStart0x
  split
  · next cs =>
    cases bs with
    | nil => simp at h
    | cons b bs =>
      have hx : hexDigit 'x' = none := by decide
      simp [nibbles, hx] at h
  · rfl

lemma trimStart0x_zeroX (n : ℕ) (cs : List Char) :
    trimStart0x (zeroX n ++ cs) = trimStart0x cs := by
  induction n with
  | zero => rfl
  | succ n ih =>
    rw [zeroX, List.cons_append, List.cons_append, trimStart0x]
    exact ih

variable {ext : Codecs}

/-- **A discriminator is read exactly where it is spelled.** -/
theorem parseDiscriminator_eq_ok (hhex : HexExact ext) {text : String} {δ : Discriminator} :
    parseDiscriminator ext text = .ok δ ↔ Spells text δ := by
  have hparse : parseDiscriminator ext text = .ok δ ↔
      (trimStart0x text.toList).map hexDigit = δ.bytes.flatMap nibbles := by
    unfold parseDiscriminator
    rw [bind_eq_ok, ← String.toList_ofList (l := trimStart0x text.toList), ← hhex,
      String.toList_ofList]
    refine ⟨?_, ?_⟩
    · rintro ⟨bytes, hbytes, hsize⟩
      split_ifs at hsize with hlen
      obtain rfl := Except.ok.inj hsize
      exact hbytes
    · intro hbytes
      exact ⟨δ.bytes, hbytes, dif_pos δ.size⟩
  rw [hparse]
  refine ⟨?_, ?_⟩
  · intro hdigits
    obtain ⟨n, hn⟩ := exists_zeroX text.toList
    exact ⟨n, _, hn, hdigits⟩
  · rintro ⟨n, digits, htext, hdigits⟩
    rw [htext, trimStart0x_zeroX, trimStart0x_digits hdigits]
    exact hdigits

/-- What is made of the texts of one target. -/
def Reads (ext : Codecs) (enabled : Bool) (programId discriminator : String) (venue : Venue)
    (m : Option ProgramMatcher) : Prop :=
  (enabled = false ∧ m = none) ∨
    (enabled = true ∧ ∃ p δ, ext.parsePubkey programId = .ok p ∧ Spells discriminator δ ∧
      m = some ⟨p, δ, venue⟩)

/-- **A detector is made exactly of what its configuration spells.** A target that is not enabled
is not read at all; of one that is, the program id must parse, and the discriminator must be 8
bytes in hexadecimal digits behind any number of `0x`. -/
theorem new_reads (hhex : HexExact ext) {targets : TargetsConfig} {d : Detector} :
    Detector.new ext targets = .ok d ↔
      Reads ext targets.pumpfun.enabled targets.pumpfun.programId
          targets.pumpfun.createDiscriminator .pumpFun d.pumpfun ∧
        Reads ext targets.raydiumLaunchlab.enabled targets.raydiumLaunchlab.programId
          targets.raydiumLaunchlab.initializeDiscriminator .raydiumLaunchLab d.raydium := by
  have hmatcher : ∀ enabled programId discriminator venue m,
      matcherOf ext enabled programId discriminator venue = .ok m ↔
        Reads ext enabled programId discriminator venue m := by
    intro enabled programId discriminator venue m
    unfold Reads
    rw [matcherOf_eq_ok]
    simp only [parseDiscriminator_eq_ok hhex]
  rw [new_eq_ok, hmatcher, hmatcher]

/-- In capitals, and behind two prefixes. -/
theorem new_reads_example :
    let targets : TargetsConfig := { exampleConfig.targets with
      pumpfun := { exampleConfig.targets.pumpfun with
        createDiscriminator := "0x0x181EC828051C0777" } }
    Detector.new crates targets = .ok exampleDetector ∧
      Spells "0x0x181EC828051C0777" ⟨[0x18, 0x1e, 0xc8, 0x28, 0x05, 0x1c, 0x07, 0x77], rfl⟩ := by
  intro targets
  have hspells : Spells "0x0x181EC828051C0777"
      ⟨[0x18, 0x1e, 0xc8, 0x28, 0x05, 0x1c, 0x07, 0x77], rfl⟩ :=
    ⟨2, "181EC828051C0777".toList, by decide +kernel, by decide +kernel⟩
  have hraydium : Spells "afaf6d1f0d989bed"
      ⟨[0xaf, 0xaf, 0x6d, 0x1f, 0x0d, 0x98, 0x9b, 0xed], rfl⟩ :=
    ⟨0, "afaf6d1f0d989bed".toList, by decide +kernel, by decide +kernel⟩
  refine ⟨(new_reads hexExact_crates).mpr ⟨?_, ?_⟩, hspells⟩
  · exact .inr ⟨rfl, pumpfunProgram, _, by decide +kernel, hspells, rfl⟩
  · exact .inr ⟨rfl, raydiumProgram, _, by decide +kernel, hraydium, rfl⟩

end NovaSniper.Targets
