import KubeArmor.Go.Basic

/-!
# `unicode/utf8` and `unicode/utf16`, as `encoding/json` uses them

A Go string is a byte sequence with no promise of being UTF-8. `encoding/json` reads it rune by
rune with `utf8.DecodeRune`, which returns `(RuneError, 1)` at every byte that starts no valid
sequence, and writes runes back with `utf8.EncodeRune`. Runes are naturals here: every rune these
functions see is non-negative.

`DecodeRune` looks up the lead byte in its `first` table, which gives the sequence length and
which `acceptRanges` entry bounds the second byte; the later bytes are plain continuation bytes.
The masks and shifts that assemble a rune are written as the arithmetic they compute.

A loop that advances by the decoded size is written with a skip count: `f (k + 1) (_ :: s)` is
`f k s`, so `f (size - 1) rest` continues after the rune that `b :: rest` starts. The recursion is
then structural and the functions evaluate by `decide`.
-/

namespace KubeArmor.Go

/-- `utf8.RuneError`, U+FFFD. -/
def runeError : Nat := 0xFFFD

/-- The `first` and `acceptRanges` tables for a lead byte of a multi-byte sequence: the
sequence's length and the bounds of its second byte; `none` for a byte that leads none. -/
def leadInfo (b : Nat) : Option (Nat × Nat × Nat) :=
  if b < 0xC2 then none
  else if b < 0xE0 then some (2, 0x80, 0xBF)
  else if b = 0xE0 then some (3, 0xA0, 0xBF)
  else if b = 0xED then some (3, 0x80, 0x9F)
  else if b < 0xF0 then some (3, 0x80, 0xBF)
  else if b = 0xF0 then some (4, 0x90, 0xBF)
  else if b < 0xF4 then some (4, 0x80, 0xBF)
  else if b = 0xF4 then some (4, 0x80, 0x8F)
  else none

/-- A continuation byte, between `locb` and `hicb`. -/
def isCont (b : UInt8) : Bool := 0x80 ≤ b.toNat && b.toNat ≤ 0xBF

/-- `utf8.DecodeRune p`: the rune `p` starts with and its size in bytes. -/
def decodeRune : List UInt8 → Nat × Nat
  | [] => (runeError, 0)
  | b0 :: rest =>
    if b0.toNat < 0x80 then (b0.toNat, 1)
    else
      match leadInfo b0.toNat, rest with
      | some (2, lo, hi), b1 :: _ =>
        if lo ≤ b1.toNat ∧ b1.toNat ≤ hi then (b0.toNat % 32 * 64 + b1.toNat % 64, 2)
        else (runeError, 1)
      | some (3, lo, hi), b1 :: b2 :: _ =>
        if lo ≤ b1.toNat ∧ b1.toNat ≤ hi ∧ isCont b2 then
          (b0.toNat % 16 * 4096 + b1.toNat % 64 * 64 + b2.toNat % 64, 3)
        else (runeError, 1)
      | some (4, lo, hi), b1 :: b2 :: b3 :: _ =>
        if lo ≤ b1.toNat ∧ b1.toNat ≤ hi ∧ isCont b2 ∧ isCont b3 then
          (b0.toNat % 8 * 262144 + b1.toNat % 64 * 4096 + b2.toNat % 64 * 64 + b3.toNat % 64, 4)
        else (runeError, 1)
      | _, _ => (runeError, 1)

/-- `utf8.EncodeRune`: a surrogate or a rune past U+10FFFF is written as `RuneError`. -/
def encodeRune (r : Nat) : List UInt8 :=
  if r < 0x80 then [UInt8.ofNat r]
  else if r < 0x800 then [UInt8.ofNat (0xC0 + r / 64), UInt8.ofNat (0x80 + r % 64)]
  else
    let r := if 0x10FFFF < r ∨ (0xD800 ≤ r ∧ r ≤ 0xDFFF) then runeError else r
    if r < 0x10000 then
      [UInt8.ofNat (0xE0 + r / 4096), UInt8.ofNat (0x80 + r / 64 % 64), UInt8.ofNat (0x80 + r % 64)]
    else
      [UInt8.ofNat (0xF0 + r / 262144), UInt8.ofNat (0x80 + r / 4096 % 64),
        UInt8.ofNat (0x80 + r / 64 % 64), UInt8.ofNat (0x80 + r % 64)]

/-- Whether `DecodeRune` found no valid sequence at the head. -/
def isBadRune (d : Nat × Nat) : Bool := d.1 == runeError && d.2 == 1

/-- `string([]rune(s))` from the `k`-th byte on: every valid sequence kept, every byte that starts
none replaced by the encoding of U+FFFD. It is what `json.Unmarshal` makes of a string's bytes. -/
def toValidFrom : Nat → List UInt8 → List UInt8
  | _, [] => []
  | k + 1, _ :: rest => toValidFrom k rest
  | 0, b :: rest =>
    let d := decodeRune (b :: rest)
    encodeRune d.1 ++ toValidFrom (d.2 - 1) rest

/-- `string([]rune(s))`. -/
def toValidUtf8 (s : GoString) : GoString := toValidFrom 0 s

/-- `utf8.Valid` from the `k`-th byte on. -/
def validFrom : Nat → List UInt8 → Bool
  | _, [] => true
  | k + 1, _ :: rest => validFrom k rest
  | 0, b :: rest =>
    let d := decodeRune (b :: rest)
    !isBadRune d && validFrom (d.2 - 1) rest

/-- `utf8.Valid`: the bytes are a sequence of valid UTF-8 encodings. -/
def utf8Valid (s : GoString) : Bool := validFrom 0 s

/-- `utf16.IsSurrogate`. -/
def isSurrogate (r : Nat) : Bool := 0xD800 ≤ r && r < 0xE000

/-- `utf16.DecodeRune`: the rune a surrogate pair stands for, `U+FFFD` for any other pair. -/
def decodeSurrogates (r1 r2 : Nat) : Nat :=
  if 0xD800 ≤ r1 ∧ r1 < 0xDC00 ∧ 0xDC00 ≤ r2 ∧ r2 < 0xE000 then
    (r1 - 0xD800) * 1024 + (r2 - 0xDC00) + 0x10000
  else runeError

end KubeArmor.Go
