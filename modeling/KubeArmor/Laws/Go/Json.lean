import KubeArmor.Laws.Go.Utf8
import KubeArmor.Go.Json

/-!
# Laws of `encoding/json` on strings and integers

**String round trip** (`unquoteFrom_quoteFrom`): the literal `json.Marshal` writes for `s`, read
back by `json.Unmarshal`, gives `string([]rune(s))`: `s` itself when it is valid UTF-8, and `s`
with each byte that starts no valid sequence replaced by U+FFFD otherwise. The proof follows the
encoder's loop: each escape it writes is read back as the byte or rune it stands for, and each
valid sequence it copies is decoded and written back unchanged.

**No line break** (`newline_not_mem_quote`): the literal holds no `\n` byte, as every control
byte is escaped and every copied sequence lies above ASCII.

**Integer round trip** (`parseInt32_itoa`): the decimal text of an `int32` parses back to it,
and read as a member's value it is a number (`parseValue_itoa`).
-/

namespace KubeArmor.Go

/-! ## Decoding steps -/

@[simp] theorem unquoteFrom_succ (k : Nat) (x : UInt8) (rest : List UInt8) :
    unquoteFrom (k + 1) (x :: rest) = unquoteFrom k rest := rfl

theorem unquoteFrom_skip (l Y : List UInt8) : unquoteFrom l.length (l ++ Y) = unquoteFrom 0 Y := by
  induction l with
  | nil => rfl
  | cons x l ih => exact ih

theorem unquoteFrom_plain {b : UInt8} (Y : List UInt8) (h : 0x20 ≤ b.toNat ∧ b.toNat < 0x80)
    (h34 : b ≠ 34) (h92 : b ≠ 92) : unquoteFrom 0 (b :: Y) = prepend [b] (unquoteFrom 0 Y) := by
  simp [unquoteFrom, h34, h92, show ¬ b.toNat < 32 by omega, h.2]

theorem unquoteFrom_nonascii {b : UInt8} (Y : List UInt8) (h : 0x80 ≤ b.toNat) :
    unquoteFrom 0 (b :: Y) =
      prepend (encodeRune (decodeRune (b :: Y)).1) (unquoteFrom ((decodeRune (b :: Y)).2 - 1) Y) := by
  have h34 : b ≠ 34 := fun e => by subst e; exact absurd h (by decide)
  have h92 : b ≠ 92 := fun e => by subst e; exact absurd h (by decide)
  simp [unquoteFrom, h34, h92, show ¬ b.toNat < 32 by omega, show ¬ b.toNat < 128 by omega]

theorem unquoteFrom_escape {c b : UInt8} (Y : List UInt8) (hc : c ≠ 117) (h : simpleEscape c = some b) :
    unquoteFrom 0 (92 :: c :: Y) = prepend [b] (unquoteFrom 0 Y) := by
  simp [unquoteFrom, hc, h]

theorem hexVal_hexDigit : ∀ n < 16, hexVal (hexDigit n) = some n := by decide

/-- A `\u` escape of a code unit that is no surrogate stands for that rune. -/
theorem unquoteFrom_u4 (v : Nat) (Y : List UInt8) (hv : v < 0x10000) (hs : isSurrogate v = false) :
    unquoteFrom 0 ([92, 117, hexDigit (v / 4096), hexDigit (v / 256 % 16), hexDigit (v / 16 % 16),
      hexDigit (v % 16)] ++ Y) = prepend (encodeRune v) (unquoteFrom 0 Y) := by
  have hg : getu4 (92 :: 117 :: hexDigit (v / 4096) :: hexDigit (v / 256 % 16) ::
      hexDigit (v / 16 % 16) :: hexDigit (v % 16) :: Y) = some v := by
    simp only [getu4, hexVal_hexDigit _ (show v / 4096 < 16 by omega),
      hexVal_hexDigit _ (show v / 256 % 16 < 16 by omega), hexVal_hexDigit _ (show v / 16 % 16 < 16 by omega),
      hexVal_hexDigit _ (show v % 16 < 16 by omega)]
    simp only [Option.bind_eq_bind, Option.some_bind, Option.pure_def, Option.some.injEq]
    omega
  simp only [List.cons_append, List.nil_append]
  simp only [unquoteFrom, hg, hs]
  rfl

theorem htmlSafe_spec {b : UInt8} (h : htmlSafe b = true) : 0x20 ≤ b.toNat ∧ b ≠ 34 ∧ b ≠ 92 := by
  simp only [htmlSafe, Bool.and_eq_true, decide_eq_true_eq, bne_iff_ne, ne_eq] at h
  exact ⟨h.1.1.1.1.1, h.1.1.1.1.2, h.1.1.1.2⟩

theorem unquoteFrom_escapeAscii {b : UInt8} (Y : List UInt8) (h : b.toNat < 0x80) :
    unquoteFrom 0 (escapeAscii b ++ Y) = prepend [b] (unquoteFrom 0 Y) := by
  unfold escapeAscii
  split_ifs with h1 h2 h3 h4
  · rcases h1 with rfl | rfl <;> exact unquoteFrom_escape Y (by decide) (by decide)
  · subst h2; exact unquoteFrom_escape Y (by decide) (by decide)
  · subst h3; exact unquoteFrom_escape Y (by decide) (by decide)
  · subst h4; exact unquoteFrom_escape Y (by decide) (by decide)
  · have hu := unquoteFrom_u4 b.toNat Y (by omega) (by simp [isSurrogate]; omega)
    rw [show b.toNat / 4096 = 0 by omega, show b.toNat / 256 % 16 = 0 by omega,
      show b.toNat / 16 % 16 = b.toNat / 16 by omega, encodeRune_ascii h] at hu
    exact hu

@[simp] theorem quoteFrom_succ (k : Nat) (x : UInt8) (rest : List UInt8) :
    quoteFrom (k + 1) (x :: rest) = quoteFrom k rest := rfl

@[simp] theorem toValidFrom_succ (k : Nat) (x : UInt8) (rest : List UInt8) :
    toValidFrom (k + 1) (x :: rest) = toValidFrom k rest := rfl

theorem isBadRune_iff {d : Nat × Nat} : isBadRune d = true ↔ d = (runeError, 1) := by
  obtain ⟨r, n⟩ := d
  simp [isBadRune]

/-- **A quoted string reads back as its valid-UTF-8 form.** -/
theorem unquoteFrom_quoteFrom (k : Nat) (s Y : List UInt8) :
    unquoteFrom 0 (quoteFrom k s ++ 34 :: Y) = some (toValidFrom k s, Y) := by
  induction k, s using quoteFrom.induct with
  | case1 k => cases k <;> rfl
  | case2 k x rest ih => exact ih
  | case3 b rest hb ih =>
    rw [quoteFrom, if_pos hb, List.append_assoc, toValidFrom]
    simp only [decodeRune_ascii rest hb, encodeRune_ascii hb, Nat.sub_self]
    split
    · next hs =>
      obtain ⟨h20, h34, h92⟩ := htmlSafe_spec hs
      rw [List.singleton_append, unquoteFrom_plain _ ⟨h20, hb⟩ h34 h92, ih]; rfl
    · rw [unquoteFrom_escapeAscii _ hb, ih]; rfl
  | case4 b rest hb d hbad ih =>
    have hd : decodeRune (b :: rest) = (runeError, 1) := isBadRune_iff.mp hbad
    rw [quoteFrom, if_neg hb]
    simp only [hd, isBadRune_runeError, if_true, List.append_assoc, toValidFrom, Nat.sub_self]
    have hu := unquoteFrom_u4 runeError (quoteFrom 0 rest ++ 34 :: Y) (by decide) (by decide)
    rw [show [hexDigit (runeError / 4096), hexDigit (runeError / 256 % 16),
      hexDigit (runeError / 16 % 16), hexDigit (runeError % 16)] = [102, 102, 102, 100] by decide] at hu
    rw [hu, ih]; rfl
  | case5 b rest hb d hbad h28 ih =>
    have hbad' : isBadRune (decodeRune (b :: rest)) = false := by simpa using hbad
    have h28' : (decodeRune (b :: rest)).1 = 0x2028 ∨ (decodeRune (b :: rest)).1 = 0x2029 := h28
    rw [quoteFrom, if_neg hb]
    simp only [hbad', h28', if_true, Bool.false_eq_true, if_false, List.append_assoc, toValidFrom]
    have hu := unquoteFrom_u4 (decodeRune (b :: rest)).1 (quoteFrom ((decodeRune (b :: rest)).2 - 1) rest ++ 34 :: Y)
      (by omega) (by simp [isSurrogate]; omega)
    rw [show (decodeRune (b :: rest)).1 / 4096 = 2 by omega, show (decodeRune (b :: rest)).1 / 256 % 16 = 0 by omega,
      show (decodeRune (b :: rest)).1 / 16 % 16 = 2 by omega] at hu
    rw [show [92, 117, 50, 48, 50, hexDigit ((decodeRune (b :: rest)).1 % 16)] =
      [92, 117, hexDigit 2, hexDigit 0, hexDigit 2, hexDigit ((decodeRune (b :: rest)).1 % 16)] from rfl, hu, ih]
    rfl
  | case6 b rest hb d hbad h28 ih =>
    replace ih : unquoteFrom 0 (quoteFrom ((decodeRune (b :: rest)).2 - 1) rest ++ 34 :: Y) =
      some (toValidFrom ((decodeRune (b :: rest)).2 - 1) rest, Y) := ih
    have hbad' : isBadRune (decodeRune (b :: rest)) = false := by simpa using hbad
    have h28' : ¬((decodeRune (b :: rest)).1 = 0x2028 ∨ (decodeRune (b :: rest)).1 = 0x2029) := h28
    rw [quoteFrom, if_neg hb]
    simp only [hbad', h28', Bool.false_eq_true, if_false, List.append_assoc, toValidFrom]
    obtain ⟨pre, suf, he, hv⟩ := decodeRune_multi (by omega) hbad'
    obtain ⟨hlen2, hlen, henc, hdec, -⟩ := hv
    obtain ⟨c, pre', rfl⟩ : ∃ c pre', pre = c :: pre' := List.exists_cons_of_ne_nil (by rintro rfl; simp at hlen2)
    obtain ⟨rfl, rfl⟩ := List.cons_eq_cons.mp (he.trans (List.cons_append _ _ _))
    generalize decodeRune (b :: (pre' ++ suf)) = e at hlen henc hdec ih ⊢
    have htake : (b :: (pre' ++ suf)).take e.2 = b :: pre' := by
      rw [← hlen, ← List.cons_append, List.take_left]
    have hskip : e.2 - 1 = pre'.length := by rw [← hlen]; rfl
    rw [htake, List.cons_append, unquoteFrom_nonascii _ (by omega), ← List.cons_append, hdec,
      hskip, unquoteFrom_skip, ← hskip, ih, henc]
    rfl

/-! ## No line break -/

theorem hexDigit_ne_newline : ∀ n < 16, hexDigit n ≠ 10 := by decide

theorem newline_not_mem_escapeAscii (b : UInt8) : (10 : UInt8) ∉ escapeAscii b := by
  have hb := b.toNat_lt_size
  have h1 := hexDigit_ne_newline (b.toNat / 16) (by simp [UInt8.size] at hb; omega)
  have h2 := hexDigit_ne_newline (b.toNat % 16) (by omega)
  unfold escapeAscii
  split_ifs with h
  · rcases h with rfl | rfl <;> decide
  all_goals simp [h1.symm, h2.symm]

/-- **No line break.** The body `encodeState.string` writes holds no `\n` byte. -/
theorem newline_not_mem_quoteFrom (k : Nat) (s : List UInt8) : (10 : UInt8) ∉ quoteFrom k s := by
  induction k, s using quoteFrom.induct with
  | case1 k => cases k <;> simp [quoteFrom]
  | case2 k x rest ih => exact ih
  | case3 b rest hb ih =>
    rw [quoteFrom, if_pos hb, List.mem_append, not_or]
    refine ⟨?_, ih⟩
    split
    · next hs =>
      have := (htmlSafe_spec hs).1
      simp only [List.mem_singleton]
      rintro rfl
      exact absurd this (by decide)
    · exact newline_not_mem_escapeAscii b
  | case4 b rest hb d hbad ih =>
    have hbad' : isBadRune (decodeRune (b :: rest)) = true := hbad
    rw [quoteFrom, if_neg hb]
    simp only [hbad', if_true, List.mem_append, not_or]
    exact ⟨by decide, ih⟩
  | case5 b rest hb d hbad h28 ih =>
    have hbad' : isBadRune (decodeRune (b :: rest)) = false := by simpa using hbad
    have h28' : (decodeRune (b :: rest)).1 = 0x2028 ∨ (decodeRune (b :: rest)).1 = 0x2029 := h28
    rw [quoteFrom, if_neg hb]
    simp only [hbad', h28', Bool.false_eq_true, if_false, if_true, List.mem_append, not_or]
    have := hexDigit_ne_newline ((decodeRune (b :: rest)).1 % 16) (by omega)
    exact ⟨by simp [this.symm], ih⟩
  | case6 b rest hb d hbad h28 ih =>
    have hbad' : isBadRune (decodeRune (b :: rest)) = false := by simpa using hbad
    have h28' : ¬((decodeRune (b :: rest)).1 = 0x2028 ∨ (decodeRune (b :: rest)).1 = 0x2029) := h28
    rw [quoteFrom, if_neg hb]
    simp only [hbad', h28', Bool.false_eq_true, if_false, List.mem_append, not_or]
    refine ⟨fun h => ?_, ih⟩
    obtain ⟨pre, suf, he, _, hlen, -, -, hge⟩ := decodeRune_multi (by omega) hbad'
    rw [← hlen, he, List.take_left] at h
    exact absurd (hge _ h) (by decide)

theorem newline_not_mem_quote (s : GoString) : (10 : UInt8) ∉ quote s := by
  simp [quote, newline_not_mem_quoteFrom]

/-! ## Integers -/

theorem toNat_digitByte (n : Nat) : (UInt8.ofNat (48 + n % 10)).toNat = 48 + n % 10 :=
  UInt8.toNat_ofNat_of_lt (by unfold UInt8.size; omega)

theorem decimalDigits_isDigit (fuel n : Nat) : ∀ b ∈ decimalDigits fuel n, isDigit b = true := by
  induction fuel generalizing n with
  | zero => simp [decimalDigits]
  | succ f ih =>
    intro b hb
    simp only [decimalDigits, List.mem_append, List.mem_singleton] at hb
    rcases hb with hb | rfl
    · split at hb
      · simp at hb
      · exact ih _ b hb
    · simp only [isDigit, toNat_digitByte, Bool.and_eq_true, decide_eq_true_eq]; omega

theorem decimalDigits_value (fuel n : Nat) (h : n < fuel) :
    (decimalDigits fuel n).foldl (fun a d => a * 10 + (d.toNat - 48)) 0 = n := by
  induction fuel generalizing n with
  | zero => omega
  | succ f ih =>
    simp only [decimalDigits, List.foldl_append, List.foldl_cons, List.foldl_nil, toNat_digitByte]
    split
    · simp; omega
    · rw [ih _ (by omega)]; omega

theorem decimalDigits_head (fuel n : Nat) (h : n < fuel) :
    ∃ d ds, decimalDigits fuel n = d :: ds ∧ (n = 0 → ds = []) ∧ (0 < n → d ≠ 48) := by
  induction fuel generalizing n with
  | zero => omega
  | succ f ih =>
    simp only [decimalDigits]
    split
    · next hn =>
      refine ⟨_, [], rfl, fun _ => rfl, fun hpos he => ?_⟩
      have := congrArg UInt8.toNat he
      rw [toNat_digitByte, show (48 : UInt8).toNat = 48 from rfl] at this
      omega
    · next hn =>
      obtain ⟨d, ds, hds, -, hd⟩ := ih (n / 10) (by omega)
      exact ⟨d, ds ++ _, by rw [hds, List.cons_append], by omega, fun _ => hd (by omega)⟩

/-- A byte that can follow a number: no digit, `.`, `e` or `E`. -/
def EndsNumber (c : UInt8) : Prop := isDigit c = false ∧ c ≠ 46 ∧ c ≠ 101 ∧ c ≠ 69

theorem scanDigits_append {ds : List UInt8} (c : UInt8) (rest : List UInt8) (hne : ds ≠ [])
    (hds : ∀ b ∈ ds, isDigit b = true) (hc : isDigit c = false) :
    scanDigits (ds ++ c :: rest) = some (ds, c :: rest) := by
  have ht : (ds ++ c :: rest).takeWhile isDigit = ds := by
    rw [List.takeWhile_append_of_pos hds, List.takeWhile_cons_of_neg (by simp [hc]), List.append_nil]
  rw [scanDigits, ht, List.dropWhile_append_of_pos hds, List.dropWhile_cons_of_neg (by simp [hc])]
  simp [hne]

theorem scanNumber_decimal (n : Nat) {c : UInt8} (rest : List UInt8) (hc : EndsNumber c) :
    scanNumber (decimal n ++ c :: rest) = some (decimal n, c :: rest) ∧
      scanNumber (45 :: decimal n ++ c :: rest) = some (45 :: decimal n, c :: rest) := by
  obtain ⟨hd, h46, h101, h69⟩ := hc
  have hfrac : scanFrac (c :: rest) = some ([], c :: rest) := by simp [scanFrac, h46]
  have hexp : scanExp (c :: rest) = some ([], c :: rest) := by simp [scanExp, h101, h69]
  have hint : scanInt (decimal n ++ c :: rest) = some (decimal n, c :: rest) := by
    obtain ⟨d, ds, hds, h0, hpos⟩ := decimalDigits_head (n + 1) n (by omega)
    rcases Nat.eq_zero_or_pos n with rfl | hn
    · rfl
    · rw [decimal, hds, List.cons_append, scanInt]
      · rw [← List.cons_append, ← hds, scanDigits_append c rest (by simp [hds])
          (decimalDigits_isDigit _ _) hd]
      · exact fun _ h => hpos hn (List.cons.inj h).1
  have hsign : ∀ d ds, decimal n = d :: ds → d ≠ 45 := by
    rintro d ds h rfl
    exact absurd (decimalDigits_isDigit (n + 1) n 45 (by rw [← decimal, h]; simp)) (by decide)
  constructor
  · obtain ⟨d, ds, hds, -, -⟩ := decimalDigits_head (n + 1) n (by omega)
    have hd45 := hsign d ds hds
    rw [← decimal] at hds
    rw [hds] at hint ⊢
    simp only [List.cons_append] at hint
    simp [scanNumber, hd45, hint, hfrac, hexp]
  · simp [scanNumber, hint, hfrac, hexp]

theorem decimal_ne_nil (n : Nat) : decimal n ≠ [] := by
  obtain ⟨d, ds, hds, -, -⟩ := decimalDigits_head (n + 1) n (by omega)
  simp [decimal, hds]

theorem digitsValue_decimal (n : Nat) : digitsValue (decimal n) = some n := by
  rw [digitsValue, if_pos ⟨decimal_ne_nil n, List.all_eq_true.mpr (decimalDigits_isDigit _ _)⟩,
    decimal, decimalDigits_value _ _ (by omega)]

theorem lit_minus : lit "-" = [45] := rfl

/-- The text of a negative `int32`: a minus sign and the digits. -/
theorem parseInt32_neg_decimal {i : Int} (h : -2147483648 ≤ i ∧ i < 2147483648) (hi : i < 0) :
    parseInt32 (45 :: decimal i.natAbs) = some (BitVec.ofInt 32 i) := by
  simp only [parseInt32, digitsValue_decimal, Option.pure_def, Option.map_some',
    Option.bind_eq_bind, Option.some_bind]
  rw [show -(i.natAbs : Int) = i by omega, if_pos h]

/-- The text of a non-negative `int32`: its digits, the first of them no sign. -/
theorem parseInt32_decimal {i : Int} (h : -2147483648 ≤ i ∧ i < 2147483648) (hi : ¬ i < 0) :
    parseInt32 (decimal i.natAbs) = some (BitVec.ofInt 32 i) := by
  obtain ⟨d, ds, hds, -, -⟩ := decimalDigits_head (i.natAbs + 1) i.natAbs (by omega)
  have hdig := decimalDigits_isDigit (i.natAbs + 1) i.natAbs d (by rw [hds]; simp)
  have h45 : d ≠ 45 := by rintro rfl; exact absurd hdig (by decide)
  have h43 : d ≠ 43 := by rintro rfl; exact absurd hdig (by decide)
  have hv := digitsValue_decimal i.natAbs
  rw [decimal, hds] at hv ⊢
  have hi' : ((i.natAbs : Nat) : Int) = i := Int.natAbs_of_nonneg (Int.not_lt.mp hi)
  simp [parseInt32, h45, h43, hv, hi', h]

/-- **Integer round trip.** -/
theorem parseInt32_itoa {i : Int} (h : -2147483648 ≤ i ∧ i < 2147483648) :
    parseInt32 (itoa i) = some (BitVec.ofInt 32 i) := by
  rw [itoa]
  split
  · exact parseInt32_neg_decimal h ‹_›
  · exact parseInt32_decimal h ‹_›

/-- An `int32` read back from its signed value is itself. -/
theorem ofInt_toInt_int32 (x : BitVec 32) : BitVec.ofInt 32 x.toInt = x := by
  apply BitVec.eq_of_toInt_eq
  rw [BitVec.toInt_ofInt, BitVec.toInt_eq_toNat_bmod, Int.bmod_bmod]

/-- The signed value of an `int32` lies in its range. -/
theorem toInt_int32_bounds (x : BitVec 32) : -2147483648 ≤ x.toInt ∧ x.toInt < 2147483648 := by
  have := x.isLt
  rw [BitVec.toInt_eq_toNat_cond]
  split <;> omega

theorem newline_not_mem_itoa (i : Int) : (10 : UInt8) ∉ itoa i := by
  have hd : (10 : UInt8) ∉ decimal i.natAbs := fun h => absurd
    (decimalDigits_isDigit _ _ _ h) (by decide)
  unfold itoa
  split
  · simpa [lit_minus] using hd
  · exact hd

/-! ## Values inside an object -/

/-- Every byte above the space is no whitespace. -/
theorem isSpace_eq_false {b : UInt8} (h : 0x21 ≤ b.toNat) : isSpace b = false := by
  simp only [isSpace, Bool.or_eq_false_iff, beq_eq_false_iff_ne, ne_eq]
  refine ⟨⟨⟨?_, ?_⟩, ?_⟩, ?_⟩ <;> rintro rfl <;> exact absurd h (by decide)

@[simp] theorem skipSpace_cons {b : UInt8} (s : List UInt8) (h : isSpace b = false) :
    skipSpace (b :: s) = b :: s := by
  simp [skipSpace, List.dropWhile, h]

theorem expect_cons {b : UInt8} (s : List UInt8) (h : isSpace b = false) :
    expect b (b :: s) = some s := by
  simp [expect, h]

/-- A run of plain bytes followed by a quote reads back as itself. -/
theorem unquoteFrom_plain_append (s Y : List UInt8)
    (hs : ∀ b ∈ s, 0x20 ≤ b.toNat ∧ b.toNat < 0x80 ∧ b ≠ 34 ∧ b ≠ 92) :
    unquoteFrom 0 (s ++ 34 :: Y) = some (s, Y) := by
  induction s with
  | nil => rfl
  | cons b s ih =>
    obtain ⟨h1, h2, h3, h4⟩ := hs b (List.mem_cons_self _ _)
    rw [List.cons_append, unquoteFrom_plain _ ⟨h1, h2⟩ h3 h4,
      ih fun x hx => hs x (List.mem_cons_of_mem _ hx)]
    rfl

theorem itoa_head (i : Int) : ∃ d ds, itoa i = d :: ds ∧ (d = 45 ∨ isDigit d = true) := by
  unfold itoa
  split
  · exact ⟨45, _, rfl, .inl rfl⟩
  · obtain ⟨d, ds, hds, -, -⟩ := decimalDigits_head (i.natAbs + 1) i.natAbs (by omega)
    exact ⟨d, ds, hds, .inr (decimalDigits_isDigit _ _ d (by rw [hds]; simp))⟩

theorem scanNumber_itoa (i : Int) {c : UInt8} (rest : List UInt8) (hc : EndsNumber c) :
    scanNumber (itoa i ++ c :: rest) = some (itoa i, c :: rest) := by
  unfold itoa
  split
  · exact (scanNumber_decimal i.natAbs rest hc).2
  · exact (scanNumber_decimal i.natAbs rest hc).1

/-- A value that starts with none of a quote, `t`, `f` and `n` is read as a number. -/
theorem parseValue_number {d : UInt8} (s : List UInt8)
    (hd : d ≠ 34 ∧ d ≠ 116 ∧ d ≠ 102 ∧ d ≠ 110) :
    parseValue (d :: s) = (scanNumber (d :: s)).map fun r => (.number r.1, r.2) := by
  simp only [parseValue, if_neg hd.1, if_neg hd.2.1, if_neg hd.2.2.1, if_neg hd.2.2.2]

theorem parseValue_itoa (i : Int) {c : UInt8} (rest : List UInt8) (hc : EndsNumber c) :
    parseValue (skipSpace (itoa i ++ c :: rest)) = some (.number (itoa i), c :: rest) := by
  obtain ⟨d, ds, hds, hd⟩ := itoa_head i
  have hs : isSpace d = false := by
    apply isSpace_eq_false
    rcases hd with rfl | hd
    · decide
    · simp [isDigit] at hd; omega
  have hn : d ≠ 34 ∧ d ≠ 116 ∧ d ≠ 102 ∧ d ≠ 110 := by
    rcases hd with rfl | hd
    · decide
    · refine ⟨?_, ?_, ?_, ?_⟩ <;> rintro rfl <;> exact absurd hd (by decide)
  rw [hds, List.cons_append, skipSpace_cons _ hs, parseValue_number _ hn, ← List.cons_append, ← hds,
    scanNumber_itoa i rest hc]
  rfl

end KubeArmor.Go
