import NovaSniper.Lib.Base58

/-!
Public keys, and the text codecs that the source calls and does not contain.
-/

namespace NovaSniper.Solana

open NovaSniper.Lib

/-- A public key: 32 bytes. -/
structure Pubkey where
  bytes : List UInt8
  size : bytes.length = 32
  deriving DecidableEq

/-- `Pubkey::try_from` on a byte slice. -/
def Pubkey.tryFrom (bs : List UInt8) : Option Pubkey :=
  if h : bs.length = 32 then some ⟨bs, h⟩ else none

@[simp] lemma Pubkey.tryFrom_bytes (p : Pubkey) : Pubkey.tryFrom p.bytes = some p := by
  simp [tryFrom, p.size]

/-- `Pubkey::default`. -/
def Pubkey.default : Pubkey := ⟨List.replicate 32 0, rfl⟩

/-- `Pubkey::from_str` and `to_string`, `hex::decode`, and `bs58::encode`. -/
structure Codecs where
  parsePubkey : String → Except String Pubkey
  showPubkey : Pubkey → String
  hexDecode : String → Except String (List UInt8)
  bs58Encode : List UInt8 → String

/-- The text of a key reads back as the key. -/
def Codecs.RoundTrip (ext : Codecs) : Prop :=
  ∀ p, ext.parsePubkey (ext.showPubkey p) = .ok p

/-! ### The codecs of the crates, as far as they are documented -/

def hexDigit (c : Char) : Option ℕ := "0123456789abcdef".toList.idxOf? c.toLower

def hexPairs : List Char → Except String (List UInt8)
  | [] => .ok []
  | [_] => .error "Odd number of digits"
  | a :: b :: cs =>
    match hexDigit a, hexDigit b, hexPairs cs with
    | some x, some y, .ok bs => .ok (UInt8.ofNat (16 * x + y) :: bs)
    | some _, some _, .error e => .error e
    | _, _, _ => .error "Invalid character"

def crates : Codecs where
  parsePubkey s :=
    match Base58.decode s with
    | none => .error "Invalid Base58 string"
    | some bs =>
      match Pubkey.tryFrom bs with
      | none => .error "String is the wrong size"
      | some p => .ok p
  showPubkey p := Base58.encode p.bytes
  hexDecode s := hexPairs s.toList
  bs58Encode := Base58.encode

theorem roundTrip_crates : crates.RoundTrip := by
  intro p
  simp [crates, Base58.decode_encode]

end NovaSniper.Solana
