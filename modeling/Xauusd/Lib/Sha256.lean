/-
  SHA-256 (FIPS 180-4) of a text's UTF-8 bytes, in hexadecimal.

  Words are numbers below `2 ^ 32`.

  * `round`, `extend`, `compress`: a round, the message schedule, a block;
  * `sha256`: the digest of a text;
  * `isSha256Hex_sha256`: a digest is 64 lower-case hexadecimal digits.
-/
import Xauusd.Lib.Text

namespace Sha256

/-- The round constants. -/
def constants : List ℕ :=
  [0x428a2f98, 0x71374491, 0xb5c0fbcf, 0xe9b5dba5, 0x3956c25b, 0x59f111f1, 0x923f82a4, 0xab1c5ed5,
   0xd807aa98, 0x12835b01, 0x243185be, 0x550c7dc3, 0x72be5d74, 0x80deb1fe, 0x9bdc06a7, 0xc19bf174,
   0xe49b69c1, 0xefbe4786, 0x0fc19dc6, 0x240ca1cc, 0x2de92c6f, 0x4a7484aa, 0x5cb0a9dc, 0x76f988da,
   0x983e5152, 0xa831c66d, 0xb00327c8, 0xbf597fc7, 0xc6e00bf3, 0xd5a79147, 0x06ca6351, 0x14292967,
   0x27b70a85, 0x2e1b2138, 0x4d2c6dfc, 0x53380d13, 0x650a7354, 0x766a0abb, 0x81c2c92e, 0x92722c85,
   0xa2bfe8a1, 0xa81a664b, 0xc24b8b70, 0xc76c51a3, 0xd192e819, 0xd6990624, 0xf40e3585, 0x106aa070,
   0x19a4c116, 0x1e376c08, 0x2748774c, 0x34b0bcb5, 0x391c0cb3, 0x4ed8aa4a, 0x5b9cca4f, 0x682e6ff3,
   0x748f82ee, 0x78a5636f, 0x84c87814, 0x8cc70208, 0x90befffa, 0xa4506ceb, 0xbef9a3f7, 0xc67178f2]

def word : ℕ := 2 ^ 32

def rotr (n x : ℕ) : ℕ := (x >>> n) ||| ((x <<< (32 - n)) % word)

/-- The eight words of a hash value. -/
structure Hash where
  a : ℕ
  b : ℕ
  c : ℕ
  d : ℕ
  e : ℕ
  f : ℕ
  g : ℕ
  h : ℕ

def Hash.initial : Hash :=
  ⟨0x6a09e667, 0xbb67ae85, 0x3c6ef372, 0xa54ff53a, 0x510e527f, 0x9b05688c, 0x1f83d9ab, 0x5be0cd19⟩

def Hash.add (s t : Hash) : Hash :=
  ⟨(s.a + t.a) % word, (s.b + t.b) % word, (s.c + t.c) % word, (s.d + t.d) % word,
   (s.e + t.e) % word, (s.f + t.f) % word, (s.g + t.g) % word, (s.h + t.h) % word⟩

/-- One round, with its constant and its word of the schedule. -/
def round (s : Hash) (k : ℕ × ℕ) : Hash :=
  let sigma1 := rotr 6 s.e ^^^ rotr 11 s.e ^^^ rotr 25 s.e
  let choice := (s.e &&& s.f) ^^^ ((word - 1 - s.e) &&& s.g)
  let t := s.h + sigma1 + choice + k.1 + k.2
  let sigma0 := rotr 2 s.a ^^^ rotr 13 s.a ^^^ rotr 22 s.a
  let majority := (s.a &&& s.b) ^^^ (s.a &&& s.c) ^^^ (s.b &&& s.c)
  ⟨(t + sigma0 + majority) % word, s.a, s.b, s.c, (s.d + t) % word, s.e, s.f, s.g⟩

/-- Some more words of the schedule, the newest first. -/
def extend : ℕ → List ℕ → List ℕ
  | 0, w => w
  | n + 1, w =>
    let x := w.getD 1 0
    let y := w.getD 14 0
    let sigma1 := rotr 17 x ^^^ rotr 19 x ^^^ (x >>> 10)
    let sigma0 := rotr 7 y ^^^ rotr 18 y ^^^ (y >>> 3)
    extend n ((w.getD 15 0 + sigma0 + w.getD 6 0 + sigma1) % word :: w)

def compress (s : Hash) (block : List ℕ) : Hash :=
  s.add ((constants.zip (extend 48 block.reverse).reverse).foldl round s)

def compressAll : ℕ → List ℕ → Hash → Hash
  | 0, _, s => s
  | n + 1, words, s => compressAll n (words.drop 16) (compress s (words.take 16))

/-! ## Texts -/

def utf8 (c : Char) : List ℕ :=
  let n := c.toNat
  if n < 0x80 then [n]
  else if n < 0x800 then [0xC0 + n / 0x40, 0x80 + n % 0x40]
  else if n < 0x10000 then [0xE0 + n / 0x1000, 0x80 + n / 0x40 % 0x40, 0x80 + n % 0x40]
  else [0xF0 + n / 0x40000, 0x80 + n / 0x1000 % 0x40, 0x80 + n / 0x40 % 0x40, 0x80 + n % 0x40]

/-- The last `k` bytes of a number, big-endian. -/
def bytes : ℕ → ℕ → List ℕ
  | 0, _ => []
  | k + 1, n => bytes k (n / 256) ++ [n % 256]

/-- The message, a one bit, zeros, and the number of bits. -/
def pad (message : List ℕ) : List ℕ :=
  message ++ 0x80 :: (List.replicate ((119 - message.length % 64) % 64) 0 ++ bytes 8 (8 * message.length))

def words : List ℕ → List ℕ
  | a :: b :: c :: d :: l => (((a * 256 + b) * 256 + c) * 256 + d) :: words l
  | _ => []

def Hash.hex (s : Hash) : List Char :=
  [s.a, s.b, s.c, s.d, s.e, s.f, s.g, s.h].flatMap (Text.hexDigits 8)

end Sha256

open Sha256

/-- The digest of a text. -/
@[irreducible] def sha256 (text : String) : String :=
  let padded := pad (text.toList.flatMap utf8)
  String.ofList (compressAll (padded.length / 64) (words padded) Hash.initial).hex

/-- The digest of some bytes. -/
def sha256Bytes (message : List ℕ) : String :=
  let padded := pad message
  String.ofList (compressAll (padded.length / 64) (words padded) Hash.initial).hex

theorem sha256_eq (text : String) : sha256 text = sha256Bytes (text.toList.flatMap utf8) := by
  rw [sha256, sha256Bytes]

theorem isSha256Hex_sha256 (text : String) : Text.isSha256Hex (sha256 text) = true := by
  rw [sha256]
  generalize compressAll _ _ Hash.initial = s
  have hlength : s.hex.length = 64 := by simp [Hash.hex, Text.length_hexDigits]
  have hdigits : ∀ c ∈ s.hex, ('0' ≤ c ∧ c ≤ '9') ∨ ('a' ≤ c ∧ c ≤ 'f') := by
    intro c hc
    obtain ⟨n, -, hn⟩ := List.mem_flatMap.1 hc
    exact Text.hexDigits_range hn
  simp only [Text.isSha256Hex, String.toList_ofList, hlength, decide_true, Bool.true_and,
    List.all_eq_true]
  intro c hc
  simpa using hdigits c hc

/-- The digest of no bytes. -/
example : sha256 "" = "e3b0c44298fc1c149afbf4c8996fb92427ae41e4649b934ca495991b7852b855" := by
  decide +kernel
