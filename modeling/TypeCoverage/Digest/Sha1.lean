import TypeCoverage.Text.Basic

/-!
# SHA-1

The Secure Hash Algorithm with 160 bits of output, on byte lists, and its lowercase hexadecimal
form. A content digest that was not asked for is the empty text, which no real digest equals.
-/

set_option autoImplicit false

namespace TypeCoverage.Sha1

/-- A 32-bit word turned left by `n` bits. -/
def rotate (n : UInt32) (w : UInt32) : UInt32 := (w <<< n) ||| (w >>> (32 - n))

structure State where
  a : UInt32
  b : UInt32
  c : UInt32
  d : UInt32
  e : UInt32
  deriving DecidableEq, Repr

/-- The chaining words before the first block. -/
def State.initial : State :=
  ⟨0x67452301, 0xEFCDAB89, 0x98BADCFE, 0x10325476, 0xC3D2E1F0⟩

/-! ## Padding and blocks -/

/-- The `count` low-order bytes of a number, the most significant first. -/
def bigEndian : Nat → Nat → Bytes
  | 0, _ => []
  | count + 1, n => UInt8.ofNat (n / Nat.pow 256 count) :: bigEndian count n

/-- The message with a one bit, zeros up to eight bytes short of a whole block, and its length
in bits. -/
def padded (bs : Bytes) : Bytes :=
  bs ++ 0x80 :: List.replicate ((119 - bs.length % 64) % 64) 0
    ++ bigEndian 8 (8 * bs.length)

/-- Each four bytes as one word, the most significant byte first. -/
def words : Bytes → List UInt32
  | b₁ :: b₂ :: b₃ :: b₄ :: bs =>
    ((b₁.toUInt32 <<< 24) ||| (b₂.toUInt32 <<< 16) ||| (b₃.toUInt32 <<< 8) ||| b₄.toUInt32)
      :: words bs
  | _ => []

/-! ## Compression -/

/-- The first `n` words of the schedule that begins with the given sixteen. -/
def schedule : Nat → List UInt32 → List UInt32
  | 0, _ => []
  | _ + 1, [] => []
  | n + 1, w :: ws =>
    let next := rotate 1 ((ws[12]?.getD 0) ^^^ (ws[7]?.getD 0) ^^^ (ws[1]?.getD 0) ^^^ w)
    w :: schedule n (ws ++ [next])

/-- The mixing function and the constant of a round. -/
def mix (round : Nat) (s : State) : UInt32 × UInt32 :=
  if round < 20 then ((s.b &&& s.c) ||| (~~~s.b &&& s.d), 0x5A827999)
  else if round < 40 then (s.b ^^^ s.c ^^^ s.d, 0x6ED9EBA1)
  else if round < 60 then ((s.b &&& s.c) ||| (s.b &&& s.d) ||| (s.c &&& s.d), 0x8F1BBCDC)
  else (s.b ^^^ s.c ^^^ s.d, 0xCA62C1D6)

/-- The rounds from `round` on, one for each word. -/
def rounds : Nat → State → List UInt32 → State
  | _, s, [] => s
  | round, s, w :: ws =>
    let (f, k) := mix round s
    rounds (round + 1)
      ⟨rotate 5 s.a + f + s.e + k + w, s.a, rotate 30 s.b, s.c, s.d⟩ ws

/-- The chaining words after one more block of sixteen words. -/
def compress (s : State) (block : List UInt32) : State :=
  let t := rounds 0 s (schedule 80 block)
  ⟨s.a + t.a, s.b + t.b, s.c + t.c, s.d + t.d, s.e + t.e⟩

/-- The chaining words after `count` more blocks. -/
def absorb : Nat → State → List UInt32 → State
  | 0, s, _ => s
  | count + 1, s, ws => absorb count (compress s (ws.take 16)) (ws.drop 16)

/-! ## Digests -/

def hexWord (w : UInt32) : Text :=
  (bigEndian 4 w.toNat).flatMap fun b =>
    [Nat.digitChar (b.toNat / 16), Nat.digitChar (b.toNat % 16)]

/-- The digest of a byte string as forty hexadecimal digits. -/
def hex (bs : Bytes) : Text :=
  let ws := words (padded bs)
  let s := absorb (ws.length / 16) State.initial ws
  hexWord s.a ++ hexWord s.b ++ hexWord s.c ++ hexWord s.d ++ hexWord s.e

end TypeCoverage.Sha1

namespace TypeCoverage

/-- The digest that identifies a content, or the empty text when none is wanted. -/
def contentDigest (content : Bytes) (wanted : Bool) : Text :=
  if wanted then Sha1.hex content else []

end TypeCoverage
