/-
  HMAC with SHA-256 (RFC 2104).

  * `Sha256.digest`: the digest of some bytes, as bytes;
  * `hmac`: the code of a message under a key.
-/
import Xauusd.Lib.Sha256

namespace Sha256

def Hash.bytes (s : Hash) : List ℕ := [s.a, s.b, s.c, s.d, s.e, s.f, s.g, s.h].flatMap (Sha256.bytes 4)

/-- The digest of some bytes. -/
def digest (message : List ℕ) : List ℕ :=
  let padded := pad message
  (compressAll (padded.length / 64) (words padded) Hash.initial).bytes

/-- The number of bytes of a block. -/
def blockSize : ℕ := 64

/-- A key of one block: a longer one is hashed first. -/
def hmacKey (key : List ℕ) : List ℕ :=
  let short := if blockSize < key.length then digest key else key
  short ++ List.replicate (blockSize - short.length) 0

/-- The code of a message under a key. -/
def hmac (key message : List ℕ) : List ℕ :=
  digest ((hmacKey key).map (· ^^^ 0x5C) ++ digest ((hmacKey key).map (· ^^^ 0x36) ++ message))

/-- `digest.hex()` -/
def hex (digest : List ℕ) : List Char := digest.flatMap (Text.hexDigits 2)

/-- The code of no bytes under no key. -/
example : String.ofList (hex (hmac [] [])) = "b613679a0814d9ec772f95d778c35fc5ff1697c493715653c6c712144292c5ad" := by
  decide +kernel

end Sha256
