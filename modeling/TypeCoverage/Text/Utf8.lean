import TypeCoverage.Text.Basic

/-!
# UTF-8

Encoding, strict decoding and lossy decoding. Decoding cuts a byte string into well-formed
characters and ill-formed runs, where a run is the longest start of a character that its next
byte breaks off, or a single byte that starts none. Strict decoding refuses any such run and
lossy decoding puts U+FFFD in its place.
-/

set_option autoImplicit false

namespace TypeCoverage.Utf8

/-! ## Encoding -/

/-- The one to four bytes of a character. -/
def encodeChar (c : Char) : Bytes :=
  let n := c.toNat
  if n < 0x80 then [UInt8.ofNat n]
  else if n < 0x800 then [UInt8.ofNat (0xC0 + n / 0x40), UInt8.ofNat (0x80 + n % 0x40)]
  else if n < 0x10000 then
    [UInt8.ofNat (0xE0 + n / 0x1000), UInt8.ofNat (0x80 + n / 0x40 % 0x40),
      UInt8.ofNat (0x80 + n % 0x40)]
  else
    [UInt8.ofNat (0xF0 + n / 0x40000), UInt8.ofNat (0x80 + n / 0x1000 % 0x40),
      UInt8.ofNat (0x80 + n / 0x40 % 0x40), UInt8.ofNat (0x80 + n % 0x40)]

def encode (s : Text) : Bytes := s.flatMap encodeChar

/-! ## Decoding -/

/-- What stands at the head of a byte string: a character, or an ill-formed run. -/
inductive Lead where
  | char (c : Char) (width : Nat)
  | illFormed (width : Nat)
  deriving DecidableEq, Repr

/-- The number of bytes at the head. -/
def Lead.width : Lead → Nat
  | .char _ w => w
  | .illFormed w => w

/-- The character at the head, if it is well formed. -/
def Lead.char? : Lead → Option Char
  | .char c _ => some c
  | .illFormed _ => none

/-- A byte that continues a character. -/
def isTail (b : UInt8) : Bool := 0x80 ≤ b.toNat && b.toNat ≤ 0xBF

/-- The values that may follow the first byte of a character of several bytes. They keep out
overlong forms, surrogates and code points above U+10FFFF. -/
def secondRange (first : Nat) : Nat × Nat :=
  if first = 0xE0 then (0xA0, 0xBF)
  else if first = 0xED then (0x80, 0x9F)
  else if first = 0xF0 then (0x90, 0xBF)
  else if first = 0xF4 then (0x80, 0x8F)
  else (0x80, 0xBF)

/-- Whether `b` may follow the first byte of a character of several bytes. -/
def isSecond (first : Nat) (b : UInt8) : Bool :=
  (secondRange first).1 ≤ b.toNat && b.toNat ≤ (secondRange first).2

/-- What stands at the head of the byte string `b :: rest`. -/
def lead (b : UInt8) (rest : Bytes) : Lead :=
  let n := b.toNat
  if n < 0x80 then .char (Char.ofNat n) 1
  else if n < 0xC2 then .illFormed 1
  else if n < 0xE0 then
    match rest with
    | b₂ :: _ =>
      if isSecond n b₂ then .char (Char.ofNat ((n - 0xC0) * 0x40 + (b₂.toNat - 0x80))) 2
      else .illFormed 1
    | [] => .illFormed 1
  else if n < 0xF0 then
    match rest with
    | b₂ :: rest₂ =>
      if isSecond n b₂ then
        match rest₂ with
        | b₃ :: _ =>
          if isTail b₃ then
            .char (Char.ofNat ((n - 0xE0) * 0x1000 + (b₂.toNat - 0x80) * 0x40
              + (b₃.toNat - 0x80))) 3
          else .illFormed 2
        | [] => .illFormed 2
      else .illFormed 1
    | [] => .illFormed 1
  else if n < 0xF5 then
    match rest with
    | b₂ :: rest₂ =>
      if isSecond n b₂ then
        match rest₂ with
        | b₃ :: rest₃ =>
          if isTail b₃ then
            match rest₃ with
            | b₄ :: _ =>
              if isTail b₄ then
                .char (Char.ofNat ((n - 0xF0) * 0x40000 + (b₂.toNat - 0x80) * 0x1000
                  + (b₃.toNat - 0x80) * 0x40 + (b₄.toNat - 0x80))) 4
              else .illFormed 3
            | [] => .illFormed 3
          else .illFormed 2
        | [] => .illFormed 2
      else .illFormed 1
    | [] => .illFormed 1
  else .illFormed 1

/-- The characters and ill-formed runs of a byte string, after its first `skip` bytes. -/
def cut : Nat → Bytes → List (Option Char)
  | _, [] => []
  | skip + 1, _ :: bs => cut skip bs
  | 0, b :: bs => (lead b bs).char? :: cut ((lead b bs).width - 1) bs

/-- The text of a well-formed byte string. -/
def decode? (bs : Bytes) : Option Text := (cut 0 bs).mapM id

/-- The text of a byte string with U+FFFD for each ill-formed run. -/
def decodeLossy (bs : Bytes) : Text := (cut 0 bs).map (·.getD '\uFFFD')

/-- The number of bytes before the first ill-formed run of a byte string, after its first
`skip` bytes. -/
def soundLength : Nat → Bytes → Nat
  | _, [] => 0
  | skip + 1, _ :: bs => soundLength skip bs
  | 0, b :: bs =>
    match lead b bs with
    | .char _ width => width + soundLength (width - 1) bs
    | .illFormed _ => 0

/-! ## Small facts -/

theorem encodeChar_ne_nil (c : Char) : encodeChar c ≠ [] := by
  unfold encodeChar
  simp only
  split
  · simp
  · split
    · simp
    · split <;> simp

theorem cut_drop (n : Nat) (bs : Bytes) : cut n bs = cut 0 (bs.drop n) := by
  induction bs generalizing n with
  | nil => cases n <;> simp [cut]
  | cons b bs ih =>
    cases n with
    | zero => rfl
    | succ n => simp [cut, ih]

end TypeCoverage.Utf8
