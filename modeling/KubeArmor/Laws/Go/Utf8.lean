import KubeArmor.Go.Utf8

/-!
# Laws of the UTF-8 codec

A valid multi-byte sequence is read and written back unchanged: `DecodeRune` reads only the bytes
of the sequence it reports, and `EncodeRune` of the rune it returns gives those bytes again
(`decodeRune_multi`). The bytes of such a sequence are all at least `0x80`. From these,
`string([]rune(s))` leaves a valid UTF-8 string as it is (`toValidUtf8_of_valid`).
-/

namespace KubeArmor.Go

/-- A byte is the byte of its value. -/
@[simp] theorem ofNat_toNat_byte (b : UInt8) : UInt8.ofNat b.toNat = b := by
  cases b; simp [UInt8.ofNat, UInt8.toNat]

@[simp] theorem isCont_iff (b : UInt8) : isCont b = true ↔ 0x80 ≤ b.toNat ∧ b.toNat ≤ 0xBF := by
  simp [isCont]

theorem isBadRune_runeError : isBadRune (runeError, 1) = true := rfl

/-- What the lead-byte tables say about a byte that leads a sequence. -/
theorem leadInfo_spec {b n lo hi : Nat} (h : leadInfo b = some (n, lo, hi)) :
    0xC2 ≤ b ∧ b ≤ 0xF4 ∧ 0x80 ≤ lo ∧ hi ≤ 0xBF ∧
    (n = 2 ∧ b < 0xE0 ∨ n = 3 ∧ 0xE0 ≤ b ∧ b < 0xF0 ∨ n = 4 ∧ 0xF0 ≤ b) ∧
    (b = 0xE0 → lo = 0xA0) ∧ (b = 0xED → hi = 0x9F) ∧ (b = 0xF0 → lo = 0x90) ∧
    (b = 0xF4 → hi = 0x8F) := by
  have row : ∀ {n' lo' hi' : Nat}, some (n', lo', hi') = some (n, lo, hi) →
      n = n' ∧ lo = lo' ∧ hi = hi' := by
    intro _ _ _ e; cases e; exact ⟨rfl, rfl, rfl⟩
  unfold leadInfo at h
  by_cases h1 : b < 0xC2
  · simp [h1] at h
  rw [if_neg h1] at h
  by_cases h2 : b < 0xE0
  · rw [if_pos h2] at h; obtain ⟨rfl, rfl, rfl⟩ := row h; omega
  rw [if_neg h2] at h
  by_cases h3 : b = 0xE0
  · rw [if_pos h3] at h; obtain ⟨rfl, rfl, rfl⟩ := row h; omega
  rw [if_neg h3] at h
  by_cases h4 : b = 0xED
  · rw [if_pos h4] at h; obtain ⟨rfl, rfl, rfl⟩ := row h; omega
  rw [if_neg h4] at h
  by_cases h5 : b < 0xF0
  · rw [if_pos h5] at h; obtain ⟨rfl, rfl, rfl⟩ := row h; omega
  rw [if_neg h5] at h
  by_cases h6 : b = 0xF0
  · rw [if_pos h6] at h; obtain ⟨rfl, rfl, rfl⟩ := row h; omega
  rw [if_neg h6] at h
  by_cases h7 : b < 0xF4
  · rw [if_pos h7] at h; obtain ⟨rfl, rfl, rfl⟩ := row h; omega
  rw [if_neg h7] at h
  by_cases h8 : b = 0xF4
  · rw [if_pos h8] at h; obtain ⟨rfl, rfl, rfl⟩ := row h; omega
  simp [h8] at h

/-! ## `EncodeRune` by range -/

theorem encodeRune_two_bytes {r : Nat} (h : 0x80 ≤ r ∧ r < 0x800) :
    encodeRune r = [UInt8.ofNat (0xC0 + r / 64), UInt8.ofNat (0x80 + r % 64)] := by
  rw [encodeRune, if_neg (by omega), if_pos h.2]

theorem encodeRune_three_bytes {r : Nat} (h : 0x800 ≤ r ∧ r < 0x10000 ∧ ¬(0xD800 ≤ r ∧ r ≤ 0xDFFF)) :
    encodeRune r = [UInt8.ofNat (0xE0 + r / 4096), UInt8.ofNat (0x80 + r / 64 % 64),
      UInt8.ofNat (0x80 + r % 64)] := by
  have hs : ¬ (0x10FFFF < r ∨ (0xD800 ≤ r ∧ r ≤ 0xDFFF)) := by omega
  simp only [encodeRune, if_neg hs]
  rw [if_neg (by omega), if_neg (by omega), if_pos h.2.1]

theorem encodeRune_four_bytes {r : Nat} (h : 0x10000 ≤ r ∧ r ≤ 0x10FFFF) :
    encodeRune r = [UInt8.ofNat (0xF0 + r / 262144), UInt8.ofNat (0x80 + r / 4096 % 64),
      UInt8.ofNat (0x80 + r / 64 % 64), UInt8.ofNat (0x80 + r % 64)] := by
  have hs : ¬ (0x10FFFF < r ∨ (0xD800 ≤ r ∧ r ≤ 0xDFFF)) := by omega
  simp only [encodeRune, if_neg hs]
  rw [if_neg (by omega), if_neg (by omega), if_neg (by omega)]

@[simp] theorem decodeRune_ascii {b : UInt8} (rest : List UInt8) (h : b.toNat < 0x80) :
    decodeRune (b :: rest) = (b.toNat, 1) := by
  simp [decodeRune, h]

theorem encodeRune_ascii {b : UInt8} (h : b.toNat < 0x80) : encodeRune b.toNat = [b] := by
  simp [encodeRune, h]

@[simp] theorem encodeRune_runeError : encodeRune runeError = [0xEF, 0xBF, 0xBD] := by decide

/-! ## Valid sequences -/

/-- What a valid sequence of `n` bytes is: its bytes, the rune read from them (whatever follows),
the same bytes written back, and every byte at least `0x80`. -/
def ValidSeq (pre : List UInt8) (d : Nat × Nat) : Prop :=
  2 ≤ pre.length ∧ pre.length = d.2 ∧ encodeRune d.1 = pre ∧
    (∀ Y, decodeRune (pre ++ Y) = d) ∧ ∀ x ∈ pre, 0x80 ≤ x.toNat

/-- A two-byte sequence: a lead byte `C2`-`DF` and a continuation byte. -/
theorem validSeq_two {b b1 : UInt8} (hb : 0xC2 ≤ b.toNat ∧ b.toNat < 0xE0)
    (h1 : 0x80 ≤ b1.toNat ∧ b1.toNat ≤ 0xBF)
    (hd : ∀ Y, decodeRune (b :: b1 :: Y) = (b.toNat % 32 * 64 + b1.toNat % 64, 2)) :
    ValidSeq [b, b1] (b.toNat % 32 * 64 + b1.toNat % 64, 2) := by
  refine ⟨le_refl _, rfl, ?_, hd, ?_⟩
  · generalize hr : b.toNat % 32 * 64 + b1.toNat % 64 = r
    rw [encodeRune_two_bytes (by omega), show 0xC0 + r / 64 = b.toNat by omega,
      show 0x80 + r % 64 = b1.toNat by omega]
    simp
  · simp only [List.mem_cons, List.mem_singleton, List.not_mem_nil, or_false]
    rintro x (rfl | rfl) <;> omega

/-- A three-byte sequence: the bounds on the second byte after `E0` and `ED` keep the rune at or
above U+0800 and off the surrogates. -/
theorem validSeq_three {b b1 b2 : UInt8} (hb : 0xE0 ≤ b.toNat ∧ b.toNat < 0xF0)
    (h1 : 0x80 ≤ b1.toNat ∧ b1.toNat ≤ 0xBF) (h2 : 0x80 ≤ b2.toNat ∧ b2.toNat ≤ 0xBF)
    (he0 : b.toNat = 0xE0 → 0xA0 ≤ b1.toNat) (hed : b.toNat = 0xED → b1.toNat ≤ 0x9F)
    (hd : ∀ Y, decodeRune (b :: b1 :: b2 :: Y) =
      (b.toNat % 16 * 4096 + b1.toNat % 64 * 64 + b2.toNat % 64, 3)) :
    ValidSeq [b, b1, b2] (b.toNat % 16 * 4096 + b1.toNat % 64 * 64 + b2.toNat % 64, 3) := by
  refine ⟨by simp, rfl, ?_, hd, ?_⟩
  · generalize hr : b.toNat % 16 * 4096 + b1.toNat % 64 * 64 + b2.toNat % 64 = r
    rw [encodeRune_three_bytes (by omega), show 0xE0 + r / 4096 = b.toNat by omega,
      show 0x80 + r / 64 % 64 = b1.toNat by omega, show 0x80 + r % 64 = b2.toNat by omega]
    simp
  · simp only [List.mem_cons, List.mem_singleton, List.not_mem_nil, or_false]
    rintro x (rfl | rfl | rfl) <;> omega

/-- A four-byte sequence: the bounds on the second byte after `F0` and `F4` keep the rune between
U+10000 and U+10FFFF. -/
theorem validSeq_four {b b1 b2 b3 : UInt8} (hb : 0xF0 ≤ b.toNat ∧ b.toNat ≤ 0xF4)
    (h1 : 0x80 ≤ b1.toNat ∧ b1.toNat ≤ 0xBF) (h2 : 0x80 ≤ b2.toNat ∧ b2.toNat ≤ 0xBF)
    (h3 : 0x80 ≤ b3.toNat ∧ b3.toNat ≤ 0xBF)
    (hf0 : b.toNat = 0xF0 → 0x90 ≤ b1.toNat) (hf4 : b.toNat = 0xF4 → b1.toNat ≤ 0x8F)
    (hd : ∀ Y, decodeRune (b :: b1 :: b2 :: b3 :: Y) =
      (b.toNat % 8 * 262144 + b1.toNat % 64 * 4096 + b2.toNat % 64 * 64 + b3.toNat % 64, 4)) :
    ValidSeq [b, b1, b2, b3]
      (b.toNat % 8 * 262144 + b1.toNat % 64 * 4096 + b2.toNat % 64 * 64 + b3.toNat % 64, 4) := by
  refine ⟨by simp, rfl, ?_, hd, ?_⟩
  · generalize hr : b.toNat % 8 * 262144 + b1.toNat % 64 * 4096 + b2.toNat % 64 * 64 +
      b3.toNat % 64 = r
    rw [encodeRune_four_bytes (by omega), show 0xF0 + r / 262144 = b.toNat by omega,
      show 0x80 + r / 4096 % 64 = b1.toNat by omega, show 0x80 + r / 64 % 64 = b2.toNat by omega,
      show 0x80 + r % 64 = b3.toNat by omega]
    simp
  · simp only [List.mem_cons, List.mem_singleton, List.not_mem_nil, or_false]
    rintro x (rfl | rfl | rfl | rfl) <;> omega

/-- **A valid multi-byte sequence reads and writes back unchanged.** When `DecodeRune` finds a
valid sequence at a byte of at least `0x80`, the sequence is a prefix of the input, reading it
needs nothing after it, and `EncodeRune` gives its bytes again. -/
theorem decodeRune_multi {b : UInt8} {rest : List UInt8} (hb : 0x80 ≤ b.toNat)
    (hv : isBadRune (decodeRune (b :: rest)) = false) :
    ∃ pre suf, b :: rest = pre ++ suf ∧ ValidSeq pre (decodeRune (b :: rest)) := by
  have hnb : ¬ b.toNat < 0x80 := by omega
  have bad : decodeRune (b :: rest) ≠ (runeError, 1) := fun h => by
    rw [h, isBadRune_runeError] at hv; cases hv
  rcases hl : leadInfo b.toNat with _ | ⟨n, lo, hi⟩
  · exact absurd (by simp only [decodeRune, if_neg hnb, hl]) bad
  obtain ⟨hb0, hb1, hlo, hhi, hn, he0, hed, hf0, hf4⟩ := leadInfo_spec hl
  rcases hn with ⟨rfl, hb2⟩ | ⟨rfl, hb2, hb3⟩ | ⟨rfl, hb2⟩
  · rcases rest with _ | ⟨b1, t⟩
    · exact absurd (by simp only [decodeRune, if_neg hnb, hl]) bad
    by_cases hc : lo ≤ b1.toNat ∧ b1.toNat ≤ hi
    · have hd : ∀ Y, decodeRune (b :: b1 :: Y) = (b.toNat % 32 * 64 + b1.toNat % 64, 2) := by
        intro Y; simp only [decodeRune, if_neg hnb, hl, if_pos hc]
      exact ⟨[b, b1], t, rfl, hd t ▸ validSeq_two (by omega) (by omega) hd⟩
    · exact absurd (by simp only [decodeRune, if_neg hnb, hl, if_neg hc]) bad
  · rcases rest with _ | ⟨b1, _ | ⟨b2, t⟩⟩
    · exact absurd (by simp only [decodeRune, if_neg hnb, hl]) bad
    · exact absurd (by simp only [decodeRune, if_neg hnb, hl]) bad
    by_cases hc : lo ≤ b1.toNat ∧ b1.toNat ≤ hi ∧ isCont b2
    · have hd : ∀ Y, decodeRune (b :: b1 :: b2 :: Y) =
          (b.toNat % 16 * 4096 + b1.toNat % 64 * 64 + b2.toNat % 64, 3) := by
        intro Y; simp only [decodeRune, if_neg hnb, hl, if_pos hc]
      have h2 := (isCont_iff b2).mp hc.2.2
      exact ⟨[b, b1, b2], t, rfl, hd t ▸ validSeq_three (by omega) (by omega) h2 (by omega)
        (by omega) hd⟩
    · exact absurd (by simp only [decodeRune, if_neg hnb, hl, if_neg hc]) bad
  · rcases rest with _ | ⟨b1, _ | ⟨b2, _ | ⟨b3, t⟩⟩⟩
    · exact absurd (by simp only [decodeRune, if_neg hnb, hl]) bad
    · exact absurd (by simp only [decodeRune, if_neg hnb, hl]) bad
    · exact absurd (by simp only [decodeRune, if_neg hnb, hl]) bad
    by_cases hc : lo ≤ b1.toNat ∧ b1.toNat ≤ hi ∧ isCont b2 ∧ isCont b3
    · have hd : ∀ Y, decodeRune (b :: b1 :: b2 :: b3 :: Y) =
          (b.toNat % 8 * 262144 + b1.toNat % 64 * 4096 + b2.toNat % 64 * 64 + b3.toNat % 64, 4) := by
        intro Y; simp only [decodeRune, if_neg hnb, hl, if_pos hc]
      have h2 := (isCont_iff b2).mp hc.2.2.1
      have h3 := (isCont_iff b3).mp hc.2.2.2
      exact ⟨[b, b1, b2, b3], t, rfl, hd t ▸ validSeq_four (by omega) (by omega) h2 h3 (by omega)
        (by omega) hd⟩
    · exact absurd (by simp only [decodeRune, if_neg hnb, hl, if_neg hc]) bad

/-- What follows a sequence that starts the list. -/
theorem drop_of_cons_eq_append {b : UInt8} {rest pre suf : List UInt8}
    (h : b :: rest = pre ++ suf) (hl : 1 ≤ pre.length) : rest.drop (pre.length - 1) = suf := by
  cases pre with
  | nil => simp at hl
  | cons c pre =>
    obtain ⟨-, rfl⟩ := List.cons_eq_cons.mp (h.trans (List.cons_append _ _ _))
    simp

/-- **`string([]rune(s))` keeps valid UTF-8.** -/
theorem toValidFrom_of_valid (k : Nat) (s : List UInt8) (h : validFrom k s = true) :
    toValidFrom k s = s.drop k := by
  induction k, s using toValidFrom.induct with
  | case1 k => simp [toValidFrom]
  | case2 k x rest ih => simpa [toValidFrom] using ih (by simpa [validFrom] using h)
  | case3 b rest d ih =>
    simp only [validFrom, Bool.and_eq_true, Bool.not_eq_true'] at h
    rw [toValidFrom, ih h.2, List.drop_zero]
    by_cases hb : b.toNat < 0x80
    · simp [d, hb, encodeRune_ascii hb]
    · obtain ⟨pre, suf, he, hv⟩ := decodeRune_multi (by omega) h.1
      rw [hv.2.2.1, ← hv.2.1, drop_of_cons_eq_append he (by have := hv.1; omega), he]

theorem toValidUtf8_of_valid {s : GoString} (h : utf8Valid s = true) : toValidUtf8 s = s :=
  toValidFrom_of_valid 0 s h

end KubeArmor.Go
