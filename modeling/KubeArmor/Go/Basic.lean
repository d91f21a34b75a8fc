import Mathlib.Data.List.Basic

/-!
# Go strings and the runtime operations the agent applies to them

A Go `string` is an immutable sequence of bytes with no encoding enforced: a file name taken from
a kernel event may hold any byte, valid UTF-8 or not. The model keeps that. `GoString` is a list of
bytes, and a string literal of the source stands for its UTF-8 bytes (`lit`).

The operations are the ones the log builder calls: `strconv.Itoa` and the `%d` verb (`itoa`),
`bytes.IndexByte` (`indexByte`), and the slice expression `s[:i]` (`sliceTo`), which panics when
`i` is out of range. A panic is `none`.
-/

namespace KubeArmor.Go

/-- A Go `string`: its bytes. -/
abbrev GoString := List UInt8

/-- The bytes of a Go string literal (Go source text is UTF-8). -/
def lit (s : String) : GoString := s.toUTF8.data.toList

/-- The decimal digits of `n`, most significant first, found by at most `fuel` divisions by ten
(the loop of `formatBits`). -/
def decimalDigits : Nat → Nat → GoString
  | 0, _ => []
  | fuel + 1, n =>
    (if n < 10 then [] else decimalDigits fuel (n / 10)) ++ [UInt8.ofNat (48 + n % 10)]

/-- The decimal digits of a natural number, most significant first; `0` prints as `"0"`. -/
def decimal (n : Nat) : GoString := decimalDigits (n + 1) n

/-- `strconv.Itoa`, and the `%d` verb of `fmt.Sprintf`: a minus sign, then the digits of the
magnitude. -/
def itoa (n : Int) : GoString :=
  if n < 0 then lit "-" ++ decimal n.natAbs else decimal n.natAbs

/-- `bytes.IndexByte(b, c)`: the index of the first `c` in `b`, or `-1` when there is none. -/
def indexByte : List UInt8 → UInt8 → Int
  | [], _ => -1
  | b :: s, c => if b = c then 0 else if indexByte s c < 0 then -1 else indexByte s c + 1

/-- The slice expression `s[:i]` on an array or slice: a runtime panic unless `0 ≤ i ≤ len(s)`. -/
def sliceTo {α : Type} (s : List α) (i : Int) : Option (List α) :=
  if 0 ≤ i ∧ i ≤ s.length then some (s.take i.toNat) else none

/-! ## Laws of the runtime operations -/

theorem indexByte_of_not_mem {s : List UInt8} {c : UInt8} (h : c ∉ s) : indexByte s c = -1 := by
  induction s with
  | nil => rfl
  | cons b s ih =>
    simp only [List.mem_cons, not_or] at h
    simp [indexByte, Ne.symm h.1, ih h.2]

/-- When `c` occurs, `IndexByte` is the length of the prefix before its first occurrence. -/
theorem indexByte_of_mem {s : List UInt8} {c : UInt8} (h : c ∈ s) :
    indexByte s c = (s.takeWhile (· ≠ c)).length := by
  induction s with
  | nil => cases h
  | cons b s ih =>
    by_cases hb : b = c
    · simp [indexByte, hb]
    · have hs : c ∈ s := (List.mem_cons.mp h).resolve_left (Ne.symm hb)
      have hnn : ¬ indexByte s c < 0 := by rw [ih hs]; omega
      rw [indexByte, if_neg hb, if_neg hnn, ih hs, List.takeWhile_cons_of_pos (by simpa using hb)]
      simp

/-- Slicing up to the first `c` keeps the bytes before it. -/
theorem sliceTo_indexByte_of_mem {s : List UInt8} {c : UInt8} (h : c ∈ s) :
    sliceTo s (indexByte s c) = some (s.takeWhile (· ≠ c)) := by
  have hle : (s.takeWhile (· ≠ c)).length ≤ s.length := (List.takeWhile_sublist _).length_le
  rw [indexByte_of_mem h, sliceTo, if_pos (by omega), Int.toNat_ofNat]
  congr 1
  calc s.take (s.takeWhile (· ≠ c)).length
      = (s.takeWhile (· ≠ c) ++ s.dropWhile (· ≠ c)).take (s.takeWhile (· ≠ c)).length := by
        rw [List.takeWhile_append_dropWhile]
    _ = s.takeWhile (· ≠ c) := List.take_left' rfl

/-- Slicing up to an absent byte panics: `IndexByte` is `-1`. -/
theorem sliceTo_indexByte_of_not_mem {s : List UInt8} {c : UInt8} (h : c ∉ s) :
    sliceTo s (indexByte s c) = none := by
  rw [indexByte_of_not_mem h, sliceTo, if_neg (by omega)]

end KubeArmor.Go
