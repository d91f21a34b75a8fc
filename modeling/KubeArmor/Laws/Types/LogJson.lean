import KubeArmor.Laws.Go.Json
import KubeArmor.Types.LogJson

/-!
# Laws of `tp.Log` through `json.Marshal` and `json.Unmarshal`

**Log round trip** (`unmarshalLog_marshalLog`): the decoder reads the text the encoder writes for
`l` back as `l` with each string field as `string([]rune(s))`; the integer fields and every valid
UTF-8 string come back as they were, and a field `omitempty` dropped comes back as the zero log
has it, which is its value. The proof follows the text: the object parses to the kept fields' keys
and decoded values in order (`parseObject_marshalLog`), each key names its own field
(`fieldOfKey_key`), and storing the members in turn sets exactly the kept fields
(`Log.get_foldl_set`).

**One line per log** (`newline_not_mem_marshalLog`): the text holds no newline byte.
-/

namespace KubeArmor.Types

open KubeArmor.Go

/-! ## Fields -/

theorem LogField.mem_all (f : LogField) : f ∈ LogField.all := by cases f <;> decide

/-- Every field name is plain ASCII: no quote, no backslash, no control byte. -/
theorem LogField.key_plain (f : LogField) :
    ∀ b ∈ f.key, 0x21 ≤ b.toNat ∧ b.toNat < 0x80 ∧ b ≠ 34 ∧ b ≠ 92 := by
  cases f <;> decide

theorem fieldOfKey_key (f : LogField) : fieldOfKey f.key = some f := by
  cases f <;> rfl

/-- Every `omitempty` field is a string. -/
theorem LogField.isInt_of_omitEmpty {g : LogField} (h : g.omitEmpty = true) : g.isInt = false := by
  revert h
  cases g <;> decide

/-- A field is an integer exactly when its value is one. -/
theorem Log.isInt_get (l : Log) (g : LogField) :
    g.isInt = match l.get g with | .string _ => false | .int32 _ => true := by
  cases g <;> rfl

theorem Log.get_default (g : LogField) :
    ({} : Log).get g = if g.isInt then .int32 0 else .string [] := by
  cases g <;> rfl

theorem Log.get_toValidUtf8 (l : Log) (f : LogField) : l.toValidUtf8.get f = (l.get f).toValid := by
  cases f <;> rfl

/-- A log is determined by its fields. -/
theorem Log.ext_get {a b : Log} (h : ∀ f, a.get f = b.get f) : a = b := by
  cases a; cases b
  simp only [Log.mk.injEq]
  open FieldValue in
  exact ⟨string.inj (h .updatedTime), string.inj (h .hostName), string.inj (h .namespaceName),
    string.inj (h .podName), string.inj (h .containerID), string.inj (h .containerName),
    int32.inj (h .hostPID), int32.inj (h .ppid), int32.inj (h .pid), int32.inj (h .uid),
    string.inj (h .policyName), string.inj (h .severity), string.inj (h .tags),
    string.inj (h .message), string.inj (h .type), string.inj (h .source),
    string.inj (h .operation), string.inj (h .resource), string.inj (h .data),
    string.inj (h .action), string.inj (h .result)⟩

/-- Setting a field to another log's value of it changes that field alone. -/
theorem Log.get_set_get (l src : Log) (f g : LogField) :
    (l.set f (src.get f)).get g = if f = g then src.get g else l.get g := by
  cases f <;> cases g <;> rfl

/-- Copying the fields `ks` of `src` into `acc` leaves the others as `acc` has them. -/
theorem Log.get_foldl_set (src acc : Log) (ks : List LogField) (g : LogField) :
    (ks.foldl (fun a f => a.set f (src.get f)) acc).get g =
      if g ∈ ks then src.get g else acc.get g := by
  induction ks generalizing acc with
  | nil => simp
  | cons f fs ih =>
    rw [List.foldl_cons, ih, Log.get_set_get]
    by_cases hfg : f = g
    · subst hfg; simp
    · simp [hfg, Ne.symm hfg]

/-! ## The encoder's text -/

/-- Whether `structEncoder` writes field `f` of `l`: `omitempty` drops an empty value. -/
def kept (l : Log) (f : LogField) : Bool := !(f.omitEmpty && (l.get f).isEmpty)

/-- The text `structEncoder` writes for field `f` of `l` when it keeps the field. -/
def memberText (l : Log) (f : LogField) : List UInt8 := 34 :: f.key ++ [34, 58] ++ (l.get f).encode

theorem filterMap_member (l : Log) (fs : List LogField) :
    fs.filterMap (member l) = (fs.filter (kept l)).map (memberText l) := by
  induction fs with
  | nil => rfl
  | cons f fs ih =>
    rw [List.filterMap_cons, List.filter_cons, ih]
    cases ho : f.omitEmpty <;> cases he : (l.get f).isEmpty <;>
      simp [member, kept, ho, he, memberText]

theorem marshalLog_brace (l : Log) : ∃ t, marshalLog l = 123 :: t := by
  unfold marshalLog
  cases LogField.all.filterMap (member l) with
  | nil => exact ⟨[125], rfl⟩
  | cons m ms => exact ⟨_, rfl⟩

theorem length_encodeMembers (ts : List (List UInt8)) : ts.length < (encodeMembers 44 ts).length := by
  induction ts with
  | nil => simp [encodeMembers]
  | cons t ts ih => simp [encodeMembers]; omega

/-! ## Parsing the text -/

/-- The value a member's text decodes to. -/
def FieldValue.decoded : FieldValue → Value
  | .string s => .string (toValidUtf8 s)
  | .int32 v => .number (itoa v.toInt)

theorem endsNumber_of {c : UInt8} (hc : c = 44 ∨ c = 125) : EndsNumber c := by
  rcases hc with rfl | rfl <;> exact ⟨by decide, by decide, by decide, by decide⟩

/-- A member `structEncoder` writes reads back as the field's name and decoded value. -/
theorem parseMember_member (l : Log) (f : LogField) {c : UInt8} (X : List UInt8)
    (hc : c = 44 ∨ c = 125) :
    parseMember (memberText l f ++ c :: X) = some ((f.key, (l.get f).decoded), c :: X) := by
  have hval : parseValue (skipSpace ((l.get f).encode ++ c :: X)) =
      some ((l.get f).decoded, c :: X) := by
    cases l.get f with
    | string s =>
      simp only [FieldValue.encode, quote, List.cons_append, List.append_assoc,
        List.singleton_append]
      rw [skipSpace_cons _ (by decide)]
      simp only [parseValue, unquoteFrom_quoteFrom]
      rfl
    | int32 v => exact parseValue_itoa _ X (endsNumber_of hc)
  have hkey := unquoteFrom_plain_append f.key (58 :: ((l.get f).encode ++ c :: X))
    fun b hb => let h := LogField.key_plain f b hb; ⟨by omega, h.2.1, h.2.2⟩
  simp only [memberText, parseMember, List.cons_append, List.append_assoc, List.singleton_append,
    List.nil_append, expect_cons _ (show isSpace 34 = false by decide), Option.bind_eq_bind,
    Option.some_bind, hkey, expect_cons _ (show isSpace 58 = false by decide), hval,
    Option.pure_def]

/-- The members after the first, each behind its comma, read back in order up to the `}`. -/
theorem parseMembers_memberText (l : Log) (f : LogField) (fs : List LogField) (fuel : Nat)
    (h : fs.length < fuel) :
    parseMembers fuel (memberText l f ++ encodeMembers 44 (fs.map (memberText l))) =
      some ((f :: fs).map fun g => (g.key, (l.get g).decoded), []) := by
  induction fs generalizing f fuel with
  | nil =>
    obtain ⟨k, rfl⟩ : ∃ k, fuel = k + 1 := ⟨fuel - 1, by simp at h; omega⟩
    simp only [List.map_nil, encodeMembers, if_neg (show (44 : UInt8) ≠ 123 by decide), parseMembers]
    rw [parseMember_member l f [] (.inr rfl)]
    rfl
  | cons g gs ih =>
    obtain ⟨k, rfl⟩ : ∃ k, fuel = k + 1 := ⟨fuel - 1, by simp at h; omega⟩
    simp only [List.map_cons, encodeMembers, parseMembers, List.cons_append]
    rw [parseMember_member l f _ (.inl rfl)]
    simp only [Option.bind_eq_bind, Option.some_bind, skipSpace_cons _ (show isSpace 44 = false by decide)]
    rw [ih g k (by simp at h; omega)]
    rfl

theorem parseObject_marshalLog (l : Log) :
    parseObject (marshalLog l) =
      some ((LogField.all.filter (kept l)).map fun g => (g.key, (l.get g).decoded), []) := by
  rw [marshalLog, filterMap_member]
  generalize LogField.all.filter (kept l) = ks
  cases ks with
  | nil => rfl
  | cons f fs =>
    obtain ⟨t, ht⟩ : ∃ t, memberText l f = 34 :: t :=
      ⟨f.key ++ [34, 58] ++ (l.get f).encode, by simp [memberText]⟩
    have hlen := length_encodeMembers (fs.map (memberText l))
    simp only [List.map_cons, encodeMembers, List.cons_append, parseObject,
      expect_cons _ (show isSpace 123 = false by decide), Option.bind_eq_bind, Option.some_bind]
    rw [ht, List.cons_append, skipSpace_cons _ (by decide)]
    change parseMembers (34 :: (t ++ _)).length (34 :: (t ++ _)) = _
    rw [← List.cons_append, ← ht, parseMembers_memberText l f fs _ ?_]
    · rfl
    · simp only [List.length_map, List.length_append] at hlen ⊢
      omega

/-! ## Storing the members -/

/-- A member's decoded value is stored as the field's value read back. -/
theorem storeValue_decoded (acc l : Log) (g : LogField) :
    storeValue acc g (l.get g).decoded = some (acc.set g (l.toValidUtf8.get g)) := by
  rw [Log.get_toValidUtf8]
  have hk := Log.isInt_get l g
  cases hv : l.get g with
  | string s => rw [hv] at hk; simp [storeValue, FieldValue.decoded, FieldValue.toValid, hk]
  | int32 v =>
    rw [hv] at hk
    simp [storeValue, FieldValue.decoded, FieldValue.toValid, hk,
      parseInt32_itoa (toInt_int32_bounds v), ofInt_toInt_int32]

theorem storeMembers_decoded (l : Log) (ks : List LogField) (acc : Log) :
    storeMembers (ks.map fun g => (g.key, (l.get g).decoded)) acc =
      some (ks.foldl (fun a g => a.set g (l.toValidUtf8.get g)) acc) := by
  induction ks generalizing acc with
  | nil => rfl
  | cons g gs ih =>
    simp only [List.map_cons, storeMembers, fieldOfKey_key, storeValue_decoded, Option.some_bind,
      ih, List.foldl_cons]

/-- A field `omitempty` drops reads back as the zero log has it. -/
theorem get_toValidUtf8_of_not_kept {l : Log} {g : LogField} (h : kept l g = false) :
    l.toValidUtf8.get g = ({} : Log).get g := by
  simp only [kept, Bool.not_eq_false', Bool.and_eq_true] at h
  have hk := Log.isInt_get l g
  rw [LogField.isInt_of_omitEmpty h.1] at hk
  rw [Log.get_toValidUtf8, Log.get_default, LogField.isInt_of_omitEmpty h.1]
  have he := h.2
  cases hv : l.get g with
  | string s => rw [hv] at he; simp_all [FieldValue.isEmpty, FieldValue.toValid]; rfl
  | int32 v => rw [hv] at hk; simp at hk

/-! ## Round trip -/

theorem unmarshalLog_brace (t : List UInt8) :
    unmarshalLog (123 :: t) = match parseObject (123 :: t) with
      | some (ms, s) => if skipSpace s = [] then storeMembers ms {} else none
      | none => none := rfl

/-- **Log round trip.** `json.Unmarshal` of what `json.Marshal` writes gives the log back, each
string as `string([]rune(s))`. -/
theorem unmarshalLog_marshalLog (l : Log) : unmarshalLog (marshalLog l) = some l.toValidUtf8 := by
  obtain ⟨t, ht⟩ := marshalLog_brace l
  have hp := parseObject_marshalLog l
  rw [ht] at hp
  rw [ht, unmarshalLog_brace, hp]
  dsimp only
  rw [if_pos (show skipSpace [] = [] from rfl), storeMembers_decoded]
  congr 1
  refine Log.ext_get fun g => ?_
  rw [Log.get_foldl_set]
  split
  · rfl
  · rename_i hg
    rw [List.mem_filter, not_and] at hg
    exact (get_toValidUtf8_of_not_kept (by simpa using hg (LogField.mem_all g))).symm

/-! ## Valid UTF-8 -/

/-- The value is an integer, or a string that is valid UTF-8. -/
def FieldValue.validUtf8 : FieldValue → Bool
  | .string s => utf8Valid s
  | .int32 _ => true

/-- Every string field of the log is valid UTF-8. -/
def Log.validUtf8 (l : Log) : Bool := LogField.all.all fun f => (l.get f).validUtf8

/-- A log whose strings are valid UTF-8 reads back as itself. -/
theorem Log.toValidUtf8_of_validUtf8 {l : Log} (h : l.validUtf8 = true) : l.toValidUtf8 = l :=
  Log.ext_get fun f => by
    have hf := List.all_eq_true.mp h f (LogField.mem_all f)
    rw [Log.get_toValidUtf8]
    cases hv : l.get f with
    | string s => rw [hv] at hf; exact congrArg _ (toValidUtf8_of_valid hf)
    | int32 v => rfl

/-! ## No line break -/

theorem newline_not_mem_memberText (l : Log) (f : LogField) : (10 : UInt8) ∉ memberText l f := by
  have hk : (10 : UInt8) ∉ f.key := fun h => absurd (LogField.key_plain f 10 h).1 (by decide)
  have hv : (10 : UInt8) ∉ (l.get f).encode := by
    cases l.get f with
    | string s => exact newline_not_mem_quote s
    | int32 v => exact newline_not_mem_itoa _
  simp [memberText, hk, hv]

theorem newline_not_mem_encodeMembers {next : UInt8} (hn : next ≠ 10) (ms : List (List UInt8))
    (hms : ∀ m ∈ ms, (10 : UInt8) ∉ m) : (10 : UInt8) ∉ encodeMembers next ms := by
  induction ms generalizing next with
  | nil => unfold encodeMembers; split <;> simp [Ne.symm hn]
  | cons m ms ih =>
    simp only [encodeMembers, List.cons_append, List.mem_cons, List.mem_append, not_or]
    exact ⟨Ne.symm hn, hms m (List.mem_cons_self _ _),
      ih (by decide) fun m' hm' => hms m' (List.mem_cons_of_mem _ hm')⟩

/-- **One line per log.** The text `json.Marshal` writes for a log holds no newline byte. -/
theorem newline_not_mem_marshalLog (l : Log) : (10 : UInt8) ∉ marshalLog l := by
  rw [marshalLog, filterMap_member]
  exact newline_not_mem_encodeMembers (by decide) _ fun m hm => by
    obtain ⟨f, -, rfl⟩ := List.mem_map.mp hm
    exact newline_not_mem_memberText l f

end KubeArmor.Types
