import Spotlight.Text.Bytes

/-!
# SHA-256

The digest by which the history knows the content of a file.

* `Digest.padded` — a message filled up to whole blocks;
* `Digest.schedule`, `Digest.compress` — one block;
* `Digest.sha256` — the digest of a message in hexadecimal.
-/

namespace Spotlight.Digest

/-- The eight words of a state. -/
structure Words where
  (a b c d e f g h : UInt32)
deriving DecidableEq, Repr

/-- The state before the first block. -/
def initial : Words :=
  ⟨0x6a09e667, 0xbb67ae85, 0x3c6ef372, 0xa54ff53a, 0x510e527f, 0x9b05688c, 0x1f83d9ab, 0x5be0cd19⟩

/-- The constants of the sixty-four rounds. -/
def constants : List UInt32 :=
  [0x428a2f98, 0x71374491, 0xb5c0fbcf, 0xe9b5dba5, 0x3956c25b, 0x59f111f1, 0x923f82a4, 0xab1c5ed5,
   0xd807aa98, 0x12835b01, 0x243185be, 0x550c7dc3, 0x72be5d74, 0x80deb1fe, 0x9bdc06a7, 0xc19bf174,
   0xe49b69c1, 0xefbe4786, 0x0fc19dc6, 0x240ca1cc, 0x2de92c6f, 0x4a7484aa, 0x5cb0a9dc, 0x76f988da,
   0x983e5152, 0xa831c66d, 0xb00327c8, 0xbf597fc7, 0xc6e00bf3, 0xd5a79147, 0x06ca6351, 0x14292967,
   0x27b70a85, 0x2e1b2138, 0x4d2c6dfc, 0x53380d13, 0x650a7354, 0x766a0abb, 0x81c2c92e, 0x92722c85,
   0xa2bfe8a1, 0xa81a664b, 0xc24b8b70, 0xc76c51a3, 0xd192e819, 0xd6990624, 0xf40e3585, 0x106aa070,
   0x19a4c116, 0x1e376c08, 0x2748774c, 0x34b0bcb5, 0x391c0cb3, 0x4ed8aa4a, 0x5b9cca4f, 0x682e6ff3,
   0x748f82ee, 0x78a5636f, 0x84c87814, 0x8cc70208, 0x90befffa, 0xa4506ceb, 0xbef9a3f7, 0xc67178f2]

/-- The word turned right by `n` bits. -/
def rotate (x n : UInt32) : UInt32 := (x >>> n) ||| (x <<< (32 - n))

/-- The four bytes of a word, the highest first. -/
def wordBytes (x : UInt32) : Bytes :=
  [(x >>> 24).toUInt8, (x >>> 16).toUInt8, (x >>> 8).toUInt8, x.toUInt8]

/-- The words of a text, four bytes each. -/
def words : Bytes → List UInt32
  | a :: b :: c :: d :: s =>
    ((a.toUInt32 <<< 24) ||| (b.toUInt32 <<< 16) ||| (c.toUInt32 <<< 8) ||| d.toUInt32) :: words s
  | _ => []

/-- The message filled up to whole blocks of sixty-four bytes: one bit, zeros and its length in
bits. -/
def padded (s : Bytes) : Bytes :=
  let zeros := (119 - s.length % 64) % 64
  s ++ 0x80 :: List.replicate zeros 0 ++
    wordBytes (s.length * 8 / 0x100000000).toUInt32 ++ wordBytes (s.length * 8).toUInt32

/-- Adds `n` words to a schedule that is given with the last word first. -/
def extend : (n : Nat) → List UInt32 → List UInt32
  | 0, ws => ws
  | n + 1, ws =>
    let w (i : Nat) := ws.getD (i - 1) 0
    let s₀ := rotate (w 15) 7 ^^^ rotate (w 15) 18 ^^^ (w 15 >>> 3)
    let s₁ := rotate (w 2) 17 ^^^ rotate (w 2) 19 ^^^ (w 2 >>> 10)
    extend n ((w 16 + s₀ + w 7 + s₁) :: ws)

/-- The words of the sixty-four rounds for a block of sixteen words. -/
def schedule (block : List UInt32) : List UInt32 := (extend 48 block.reverse).reverse

/-- One round. -/
def round (v : Words) : UInt32 × UInt32 → Words
  | (k, w) =>
    let s₁ := rotate v.e 6 ^^^ rotate v.e 11 ^^^ rotate v.e 25
    let choice := (v.e &&& v.f) ^^^ ((~~~ v.e) &&& v.g)
    let t₁ := v.h + s₁ + choice + k + w
    let s₀ := rotate v.a 2 ^^^ rotate v.a 13 ^^^ rotate v.a 22
    let majority := (v.a &&& v.b) ^^^ (v.a &&& v.c) ^^^ (v.b &&& v.c)
    ⟨t₁ + (s₀ + majority), v.a, v.b, v.c, v.d + t₁, v.e, v.f, v.g⟩

/-- The state after one block. -/
def compress (v : Words) (block : List UInt32) : Words :=
  let u := (constants.zip (schedule block)).foldl round v
  ⟨v.a + u.a, v.b + u.b, v.c + u.c, v.d + u.d, v.e + u.e, v.f + u.f, v.g + u.g, v.h + u.h⟩

/-- The state after `n` blocks of sixteen words. -/
def absorb : (n : Nat) → Words → List UInt32 → Words
  | 0, v, _ => v
  | n + 1, v, ws => absorb n (compress v (ws.take 16)) (ws.drop 16)

/-- The digest of a message, in hexadecimal. -/
def sha256 (s : Bytes) : Bytes :=
  let ws := words (padded s)
  let v := absorb (ws.length / 16) initial ws
  Bytes.toHex ([v.a, v.b, v.c, v.d, v.e, v.f, v.g, v.h].flatMap wordBytes)

end Spotlight.Digest
