import KubeArmor.Go.Utf8

/-!
# `encoding/json` on strings, integers and flat objects

`json.Marshal` writes a string with `encodeState.string`, HTML escaping on: the bytes `"` and `\`
and the control bytes are escaped, and so are `<`, `>` and `&`; a byte that starts no valid UTF-8
sequence becomes `\ufffd`, and U+2028 and U+2029 become `\u2028` and `\u2029`. Every other valid
sequence is copied. An integer is written in decimal (`strconv.AppendInt`).

`json.Unmarshal` first checks the whole text with its scanner and then decodes it. Here the two
run together: `unquoteFrom` reads a string literal's body as the scanner delimits it and decodes
it as `unquoteBytes` does, `none` being the scanner's syntax error. `unquoteBytes` copies a body
with no escape and valid UTF-8 unchanged; its general loop, modelled here, gives the same bytes on
such a body. The decoder coerces the body to valid UTF-8: an invalid byte becomes U+FFFD.

Objects are read to the depth `tp.Log` needs: members whose values are strings, numbers, `true`,
`false` or `null`. A member value that is itself an object or an array is refused here, where Go
skips it under an unknown key and reports a type error under a known one.
-/

namespace KubeArmor.Go

/-! ## Encoding -/

/-- `hex`: the digit written for a nibble in a `\u` escape. -/
def hexDigit (n : Nat) : UInt8 := if n < 10 then UInt8.ofNat (48 + n) else UInt8.ofNat (87 + n)

/-- `htmlSafeSet[b]` for an ASCII byte: printable and none of `"`, `\`, `<`, `>`, `&`. -/
def htmlSafe (b : UInt8) : Bool :=
  0x20 ≤ b.toNat && b != 34 && b != 92 && b != 60 && b != 62 && b != 38

/-- The escape `encodeState.string` writes for an ASCII byte outside `htmlSafeSet`. -/
def escapeAscii (b : UInt8) : List UInt8 :=
  if b = 92 ∨ b = 34 then [92, b]
  else if b = 10 then [92, 110]
  else if b = 13 then [92, 114]
  else if b = 9 then [92, 116]
  else [92, 117, 48, 48, hexDigit (b.toNat / 16), hexDigit (b.toNat % 16)]

/-- What `encodeState.string` writes for `s` from its `k`-th byte on, between the quotes. -/
def quoteFrom : Nat → List UInt8 → List UInt8
  | _, [] => []
  | k + 1, _ :: rest => quoteFrom k rest
  | 0, b :: rest =>
    if b.toNat < 0x80 then
      (if htmlSafe b then [b] else escapeAscii b) ++ quoteFrom 0 rest
    else
      let d := decodeRune (b :: rest)
      if isBadRune d then [92, 117, 102, 102, 102, 100] ++ quoteFrom 0 rest
      else if d.1 = 0x2028 ∨ d.1 = 0x2029 then
        [92, 117, 50, 48, 50, hexDigit (d.1 % 16)] ++ quoteFrom (d.2 - 1) rest
      else (b :: rest).take d.2 ++ quoteFrom (d.2 - 1) rest

/-- `encodeState.string`: the string literal `json.Marshal` writes for `s`. -/
def quote (s : GoString) : List UInt8 := 34 :: quoteFrom 0 s ++ [34]

/-! ## String literals -/

/-- The value of a hexadecimal digit, as `getu4` reads it. -/
def hexVal (c : UInt8) : Option Nat :=
  if 48 ≤ c.toNat ∧ c.toNat ≤ 57 then some (c.toNat - 48)
  else if 97 ≤ c.toNat ∧ c.toNat ≤ 102 then some (c.toNat - 87)
  else if 65 ≤ c.toNat ∧ c.toNat ≤ 70 then some (c.toNat - 55)
  else none

/-- `getu4`: the code unit of a `\uXXXX` escape at the head of `s`. -/
def getu4 : List UInt8 → Option Nat
  | 92 :: 117 :: a :: b :: c :: d :: _ => do
    let a ← hexVal a
    let b ← hexVal b
    let c ← hexVal c
    let d ← hexVal d
    pure (((a * 16 + b) * 16 + c) * 16 + d)
  | _ => none

/-- The byte a one-letter escape stands for: `\"`, `\\`, `\/`, `\b`, `\f`, `\n`, `\r`, `\t`. -/
def simpleEscape (c : UInt8) : Option UInt8 :=
  if c = 34 ∨ c = 92 ∨ c = 47 then some c
  else if c = 98 then some 8
  else if c = 102 then some 12
  else if c = 110 then some 10
  else if c = 114 then some 13
  else if c = 116 then some 9
  else none

/-- Puts `p` before the bytes a decoding step returns. -/
def prepend (p : List UInt8) : Option (GoString × List UInt8) → Option (GoString × List UInt8) :=
  Option.map fun r => (p ++ r.1, r.2)

/-- A string literal's body from its `k`-th byte on: the decoded bytes, and what follows the
closing quote. A `\u` escape of a high surrogate followed by one of a low surrogate is one rune;
any other surrogate becomes U+FFFD. -/
def unquoteFrom : Nat → List UInt8 → Option (GoString × List UInt8)
  | _, [] => none
  | k + 1, _ :: rest => unquoteFrom k rest
  | 0, 34 :: rest => some ([], rest)
  | 0, 92 :: 117 :: rest =>
    match getu4 (92 :: 117 :: rest) with
    | none => none
    | some rr =>
      if isSurrogate rr then
        let dec := ((getu4 (rest.drop 4)).map (decodeSurrogates rr)).getD runeError
        if dec ≠ runeError then prepend (encodeRune dec) (unquoteFrom 10 rest)
        else prepend (encodeRune runeError) (unquoteFrom 4 rest)
      else prepend (encodeRune rr) (unquoteFrom 4 rest)
  | 0, 92 :: c :: rest =>
    match simpleEscape c with
    | some b => prepend [b] (unquoteFrom 0 rest)
    | none => none
  | 0, [92] => none
  | 0, b :: rest =>
    if b.toNat < 0x20 then none
    else if b.toNat < 0x80 then prepend [b] (unquoteFrom 0 rest)
    else
      let d := decodeRune (b :: rest)
      prepend (encodeRune d.1) (unquoteFrom (d.2 - 1) rest)

/-! ## Numbers -/

/-- An ASCII digit. -/
def isDigit (b : UInt8) : Bool := 48 ≤ b.toNat && b.toNat ≤ 57

/-- A non-empty run of digits at the head of `s`, and the rest. -/
def scanDigits (s : List UInt8) : Option (List UInt8 × List UInt8) :=
  if (s.takeWhile isDigit).isEmpty then none else some (s.takeWhile isDigit, s.dropWhile isDigit)

/-- The integer part of a number literal: `0`, or a digit `1`-`9` and more digits. -/
def scanInt : List UInt8 → Option (List UInt8 × List UInt8)
  | 48 :: s => some ([48], s)
  | s => scanDigits s

/-- The fraction of a number literal, if any: `.` and digits. -/
def scanFrac : List UInt8 → Option (List UInt8 × List UInt8)
  | 46 :: s => (scanDigits s).map fun r => (46 :: r.1, r.2)
  | s => some ([], s)

/-- The exponent of a number literal, if any: `e` or `E`, a sign, digits. -/
def scanExp : List UInt8 → Option (List UInt8 × List UInt8)
  | e :: s =>
    if e = 101 ∨ e = 69 then
      match s with
      | 43 :: s => (scanDigits s).map fun r => (e :: 43 :: r.1, r.2)
      | 45 :: s => (scanDigits s).map fun r => (e :: 45 :: r.1, r.2)
      | s => (scanDigits s).map fun r => (e :: r.1, r.2)
    else some ([], e :: s)
  | [] => some ([], [])

/-- A number literal at the head of `s`, as the scanner delimits it: its bytes and the rest. -/
def scanNumber (s : List UInt8) : Option (List UInt8 × List UInt8) := do
  let (sign, s) : List UInt8 × List UInt8 := match s with
    | 45 :: s => ([45], s)
    | s => ([], s)
  let (int, s) ← scanInt s
  let (frac, s) ← scanFrac s
  let (exp, s) ← scanExp s
  pure (sign ++ int ++ frac ++ exp, s)

/-- The value of a non-empty run of digits. -/
def digitsValue (s : List UInt8) : Option Nat :=
  if s ≠ [] ∧ s.all isDigit then some (s.foldl (fun n d => n * 10 + (d.toNat - 48)) 0) else none

/-- `strconv.ParseInt(s, 10, 64)` followed by `OverflowInt` on an `int32` field: the value when
`s` is a decimal integer in the `int32` range, from `-2^31` to `2^31 - 1`. -/
def parseInt32 (s : List UInt8) : Option (BitVec 32) := do
  let v : Int ← match s with
    | 45 :: ds => (digitsValue ds).map fun n => -(n : Int)
    | 43 :: ds => (digitsValue ds).map fun n => (n : Int)
    | ds => (digitsValue ds).map fun n => (n : Int)
  if -2147483648 ≤ v ∧ v < 2147483648 then some (BitVec.ofInt 32 v) else none

/-! ## Objects -/

/-- A member's value as the decoder meets it: a string's decoded bytes, a number literal's bytes,
`true` or `false`, or `null`. -/
inductive Value where
  | string (s : GoString)
  | number (lit : List UInt8)
  | bool (b : Bool)
  | null
  deriving DecidableEq, Repr

/-- JSON whitespace. -/
def isSpace (b : UInt8) : Bool := b == 32 || b == 9 || b == 10 || b == 13

/-- Drops leading whitespace. -/
def skipSpace (s : List UInt8) : List UInt8 := s.dropWhile isSpace

/-- What follows `word` in `s`, when `s` starts with it. -/
def afterWord (word s : List UInt8) : Option (List UInt8) :=
  if s.take word.length = word then some (s.drop word.length) else none

/-- A member's value at the head of `s`, and the rest. The scanner decides by the first byte: a
quote, `t`, `f` and `n` begin a string and the three literals, and anything else a number. -/
def parseValue : List UInt8 → Option (Value × List UInt8)
  | [] => none
  | c :: s =>
    if c = 34 then (unquoteFrom 0 s).map fun r => (.string r.1, r.2)
    else if c = 116 then (afterWord (lit "rue") s).map fun s => (.bool true, s)
    else if c = 102 then (afterWord (lit "alse") s).map fun s => (.bool false, s)
    else if c = 110 then (afterWord (lit "ull") s).map fun s => (.null, s)
    else (scanNumber (c :: s)).map fun r => (.number r.1, r.2)

/-- The byte `b` after optional whitespace, and what follows it. -/
def expect (b : UInt8) (s : List UInt8) : Option (List UInt8) :=
  match skipSpace s with
  | c :: s => if c = b then some s else none
  | [] => none

/-- One member at the head of `s`: its key and value, and what follows the value. -/
def parseMember (s : List UInt8) : Option ((GoString × Value) × List UInt8) := do
  let s ← expect 34 s
  let (key, s) ← unquoteFrom 0 s
  let s ← expect 58 s
  let (v, s) ← parseValue (skipSpace s)
  pure ((key, v), s)

/-- The members of an object after its `{`, up to and past its `}`, at most `fuel` of them. -/
def parseMembers : Nat → List UInt8 → Option (List (GoString × Value) × List UInt8)
  | 0, _ => none
  | fuel + 1, s => do
    let (m, s) ← parseMember s
    match skipSpace s with
    | 44 :: s => (parseMembers fuel s).map fun r => (m :: r.1, r.2)
    | 125 :: s => some ([m], s)
    | _ => none

/-- An object's members in order, and what follows it. Every member takes at least one byte, so
the input's length is fuel enough. -/
def parseObject (s : List UInt8) : Option (List (GoString × Value) × List UInt8) := do
  let s ← expect 123 s
  match skipSpace s with
  | 125 :: s => some ([], s)
  | s => parseMembers s.length s

/-! ## Field names -/

/-- `b & caseMask`: the byte with the ASCII lower-case bit cleared. -/
def caseMask (b : UInt8) : UInt8 := b &&& 0xDF

/-- `simpleLetterEqualFold`. -/
def simpleLetterEqualFold (s t : List UInt8) : Bool :=
  s.length == t.length && (s.zip t).all fun p => caseMask p.1 == caseMask p.2

/-- `equalFoldRight`: the name `s` against the key `t`, ASCII letters matched in either case, the
Kelvin sign U+212A matched by `k` and the long s U+017F by `s`. -/
def equalFoldRight : List UInt8 → List UInt8 → Bool
  | [], t => t.isEmpty
  | _ :: _, [] => false
  | sb :: s, tb :: t =>
    if tb.toNat < 0x80 then
      (sb == tb || (65 ≤ (caseMask sb).toNat && (caseMask sb).toNat ≤ 90 &&
        caseMask sb == caseMask tb)) && equalFoldRight s t
    else
      let d := decodeRune (tb :: t)
      (if sb == 115 || sb == 83 then d.1 == 0x17F
        else if sb == 107 || sb == 75 then d.1 == 0x212A else false) &&
      equalFoldRight s (t.drop (d.2 - 1))

/-- `foldFunc(name)(name, key)` for a name of ASCII letters: `equalFoldRight` when the name holds
a `k` or an `s`, `simpleLetterEqualFold` otherwise. -/
def foldEqual (name key : List UInt8) : Bool :=
  if name.any (fun b => caseMask b == 75 || caseMask b == 83) then equalFoldRight name key
  else simpleLetterEqualFold name key

end KubeArmor.Go
