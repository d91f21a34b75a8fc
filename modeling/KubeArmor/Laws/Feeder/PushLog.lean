import KubeArmor.Feeder.PushLog
import KubeArmor.Laws.Types.LogJson
import KubeArmor.Laws.Monitor.Logs
import KubeArmor.Laws.Machine
import Mathlib.Data.List.Nodup

/-!
# Laws of `PushLog` and of its goroutines

**One call** (`pushLog_sink_record`): the line `PushLog` writes for a log it emits holds no newline
byte and decodes to the log with each string as `string([]rune(s))`, and the `pb.Log` it appends
carries every field of the log unchanged. The sink and the queue carry the same record when the
log's strings are valid UTF-8, and differ where they are not (`pushLog_invalid_resource`).

**Every schedule** (`Pushes.run_inv`): whatever order the scheduler runs the goroutines in, each
line of the sink and each entry of `LogQueue` is the one its goroutine computed, written once,
and present exactly when that goroutine has got past the step that produces it.

**Order** (`pushes_fifo_of_returned_before_spawn`): the queue and the sink only grow at their
ends, so a goroutine that has returned before another is spawned comes first in both. Nothing
orders two goroutines that overlap: `pushes_overtake` runs two `open`s of one process, and the
second event's log is queued first while the sink has them in event order.
-/

namespace KubeArmor.Feeder

open KubeArmor.Go KubeArmor.Types KubeArmor.Monitor

/-! ## One call -/

/-- The guard on the six optional strings changes nothing: an empty string is `""` already. -/
theorem copyNonEmpty_eq (s : GoString) : copyNonEmpty s = s := by
  unfold copyNonEmpty
  split
  · rfl
  · cases s <;> simp_all

/-- The `pb.Log` carries every field of the log. -/
@[simp] theorem toPbLog_toLog (c : GoString) (l : Log) : (toPbLog c l).toLog = l := by
  simp [toPbLog, PbLog.toLog, copyNonEmpty_eq]

theorem pushLog_eq_some {fd : Feeder} {arg : Log} {out : PushOut} (h : pushLog fd arg = some out) :
    (fd.updateMatchedPolicy arg).updatedTime ≠ [] ∧
      out = ⟨sinkText fd (fd.updateMatchedPolicy arg),
        toPbLog fd.clusterName (fd.updateMatchedPolicy arg)⟩ := by
  dsimp only [pushLog] at h
  split at h
  · cases h
  · exact ⟨‹_›, (Option.some.inj h).symm⟩

theorem sinkText_eq_some {fd : Feeder} {l : Log} {text : List UInt8} (h : sinkText fd l = some text) :
    text = marshalLog l := by
  unfold sinkText at h
  split at h
  · exact (Option.some.inj h).symm
  · split at h
    · exact (Option.some.inj h).symm
    · cases h

/-- **What one `PushLog` call writes and appends.** For a log `PushLog` emits, the sink's text holds
no newline and decodes to the matched log with each string as `string([]rune(s))`, and the
appended `pb.Log` is the matched log with the feeder's cluster name; when the log's strings are
valid UTF-8 the text decodes to exactly the fields of the `pb.Log`. -/
theorem pushLog_sink_record {fd : Feeder} {arg : Log} {out : PushOut} {text : List UInt8}
    (h : pushLog fd arg = some out) (ht : out.text = some text) :
    (fd.updateMatchedPolicy arg).updatedTime ≠ [] ∧ (10 : UInt8) ∉ text ∧
      unmarshalLog text = some (fd.updateMatchedPolicy arg).toValidUtf8 ∧
      out.pbLog.toLog = fd.updateMatchedPolicy arg ∧ out.pbLog.clusterName = fd.clusterName ∧
      ((fd.updateMatchedPolicy arg).validUtf8 = true → unmarshalLog text = some out.pbLog.toLog) := by
  obtain ⟨hu, rfl⟩ := pushLog_eq_some h
  obtain rfl := sinkText_eq_some ht
  refine ⟨hu, newline_not_mem_marshalLog _, unmarshalLog_marshalLog _, toPbLog_toLog _ _, rfl,
    fun hv => ?_⟩
  rw [unmarshalLog_marshalLog, Log.toValidUtf8_of_validUtf8 hv, toPbLog_toLog]

/-- A feeder writing to stdout, in no cluster, whose policy matcher keeps a log as it is. -/
def stdoutFeeder : Feeder := ⟨lit "stdout", [], id⟩

/-- A log of an `open` whose file name is the single byte 0xFF. -/
def invalidResourceLog : Log :=
  { updatedTime := lit "2021-06-01T00:00:00Z", hostName := lit "node-1",
    operation := lit "File", resource := [0xFF], result := lit "Passed" }

/-- `PushLog` on the log with the file name 0xFF: it writes a line and appends a `pb.Log`. -/
theorem pushLog_sink_record_stdout :
    (stdoutFeeder.updateMatchedPolicy invalidResourceLog).updatedTime ≠ [] ∧
      (10 : UInt8) ∉ marshalLog invalidResourceLog :=
  let h := @pushLog_sink_record stdoutFeeder invalidResourceLog
    ⟨some (marshalLog invalidResourceLog), toPbLog [] invalidResourceLog⟩ _ rfl rfl
  ⟨h.1, h.2.1⟩

/-- The log with the file name 0xFF reads back from its line with `Resource` U+FFFD, while the
queued `pb.Log` keeps the byte 0xFF. -/
theorem pushLog_invalid_resource :
    pushLog stdoutFeeder invalidResourceLog =
        some ⟨some (marshalLog invalidResourceLog), toPbLog [] invalidResourceLog⟩ ∧
      unmarshalLog (marshalLog invalidResourceLog) =
        some { invalidResourceLog with resource := [0xEF, 0xBF, 0xBD] } ∧
      (toPbLog [] invalidResourceLog).resource = [0xFF] :=
  ⟨rfl, by rw [unmarshalLog_marshalLog]; rfl, rfl⟩

/-! ## Two `open`s of one process -/

/-- `cat`'s `open` received twice, at two clock readings: two events of one process. -/
def twoCatOpens : List Received :=
  [⟨catOpen, lit "2021-06-01T00:00:01Z", .inOrder⟩, ⟨catOpen, lit "2021-06-01T00:00:02Z", .inOrder⟩]

/-- The logs `UpdateLogs` hands to `PushLog` for them, in the order received. -/
def twoCatLogs : List Log := (updateLogs Syscalls.amd64 noTables feederMonitor twoCatOpens).1

/-- A feeder with no local sink, in no cluster, whose policy matcher keeps a log as it is. -/
def quietFeeder : Feeder := ⟨lit "none", [], id⟩

/-- The goroutine for the first `open` run to its end, with no local sink. -/
def firstReturned : Pushes :=
  ((Pushes.init twoCatLogs).run quietFeeder [.spawn, .step 0, .step 0]).getD (.init [])

/-- Then the goroutine for the second `open` spawned and run to its end. -/
def bothReturned : Pushes :=
  (firstReturned.run quietFeeder [.spawn, .step 1, .step 1]).getD (.init [])

/-! ## Every schedule -/

/-- The line a goroutine has written, by where it is: none before its first step. -/
def written (fd : Feeder) : Option (Log × Pc) → Option (List UInt8)
  | some (log, .appending _) | some (log, .done) => (pushLog fd log).bind PushOut.text
  | _ => none

/-- The `pb.Log` a goroutine has appended, by where it is: none before it returns. -/
def queued (fd : Feeder) : Option (Log × Pc) → Option PbLog
  | some (log, .done) => (pushLog fd log).map PushOut.pbLog
  | _ => none

/-- What holds in every state a schedule reaches from `Pushes.init logs`. -/
structure Pushes.Inv (fd : Feeder) (logs : List Log) (s : Pushes) : Prop where
  /-- The goroutines were spawned for the first logs, in order; the rest are pending. -/
  args : s.goroutines.map Prod.fst ++ s.pending = logs
  /-- A goroutine about to append holds its own call's `pb.Log`. -/
  appending : ∀ (i : Nat) log pb, s.goroutines[i]? = some (log, Pc.appending pb) →
    (pushLog fd log).map PushOut.pbLog = some pb
  /-- The sink holds exactly the lines the goroutines have written. -/
  sink_iff : ∀ (i : Nat) t, (i, t) ∈ s.sink ↔ written fd s.goroutines[i]? = some t
  /-- `LogQueue` holds exactly the `pb.Log`s of the goroutines that have returned. -/
  queue_iff : ∀ (i : Nat) pb, (i, pb) ∈ s.logQueue ↔ queued fd s.goroutines[i]? = some pb
  /-- No goroutine writes twice. -/
  sink_nodup : (s.sink.map Prod.fst).Nodup
  /-- No goroutine appends twice. -/
  queue_nodup : (s.logQueue.map Prod.fst).Nodup

theorem Pushes.inv_init (fd : Feeder) (logs : List Log) : (Pushes.init logs).Inv fd logs := by
  refine ⟨rfl, ?_, ?_, ?_, List.nodup_nil, List.nodup_nil⟩ <;> simp [Pushes.init, written, queued]

/-- **What a scheduling decision can do.** -/
theorem Pushes.apply_cases {fd : Feeder} {s s' : Pushes} {a : PushAction}
    (h : s.apply fd a = some s') :
    (∃ log rest, a = .spawn ∧ s.pending = log :: rest ∧
      s' = { s with pending := rest, goroutines := s.goroutines ++ [(log, .start)] }) ∨
    (∃ i log, a = .step i ∧ s.goroutines[i]? = some (log, .start) ∧ pushLog fd log = none ∧
      s' = { s with goroutines := s.goroutines.set i (log, .done) }) ∨
    (∃ i log out, a = .step i ∧ s.goroutines[i]? = some (log, .start) ∧ pushLog fd log = some out ∧
      s' = { s with goroutines := s.goroutines.set i (log, .appending out.pbLog)
                    sink := s.sink ++ (out.text.map fun t => (i, t)).toList }) ∨
    (∃ i log pb, a = .step i ∧ s.goroutines[i]? = some (log, .appending pb) ∧
      s' = { s with goroutines := s.goroutines.set i (log, .done)
                    logQueue := s.logQueue ++ [(i, pb)] }) := by
  cases a with
  | spawn =>
    simp only [Pushes.apply] at h
    split at h
    · cases h
    · exact .inl ⟨_, _, rfl, ‹_›, (Option.some.inj h).symm⟩
  | step i =>
    simp only [Pushes.apply] at h
    split at h
    · rename_i log hg
      split at h
      · exact .inr (.inl ⟨i, log, rfl, hg, ‹_›, (Option.some.inj h).symm⟩)
      · exact .inr (.inr (.inl ⟨i, log, _, rfl, hg, ‹_›, (Option.some.inj h).symm⟩))
    · exact .inr (.inr (.inr ⟨i, _, _, rfl, ‹_›, (Option.some.inj h).symm⟩))
    · cases h
    · cases h

/-- Setting an entry of the table changes that entry alone. -/
theorem getElem?_set_of_eq_some {gs : List (Log × Pc)} {i j : Nat} {g x : Log × Pc}
    (h : gs[i]? = some g) : (gs.set i x)[j]? = if i = j then some x else gs[j]? := by
  simp only [List.getElem?_set, (List.getElem?_eq_some_iff.mp h).1, if_true]

/-- Moving a goroutine on keeps its argument. -/
theorem map_fst_set {gs : List (Log × Pc)} {i : Nat} {log : Log} {pc pc' : Pc}
    (h : gs[i]? = some (log, pc)) : (gs.set i (log, pc')).map Prod.fst = gs.map Prod.fst := by
  apply List.ext_getElem?
  intro j
  rw [List.getElem?_map, List.getElem?_map, getElem?_set_of_eq_some h]
  split
  · subst_vars; rw [h]; rfl
  · rfl

/-- Appending an index not yet present keeps the indices distinct. -/
theorem nodup_append_index {α : Type} {l : List (Nat × α)} {i : Nat} {x : Option α}
    (hl : (l.map Prod.fst).Nodup) (hi : ∀ a, (i, a) ∉ l) :
    ((l ++ (x.map fun a => (i, a)).toList).map Prod.fst).Nodup := by
  cases x with
  | none => simpa using hl
  | some a =>
    rw [List.map_append, List.nodup_append]
    refine ⟨hl, List.nodup_singleton _, ?_⟩
    simp only [Option.map_some', Option.toList_some, List.map_cons, List.map_nil,
      List.disjoint_singleton, List.mem_map, not_exists, not_and]
    rintro ⟨j, b⟩ hjb rfl
    exact hi b hjb

namespace Pushes

variable {fd : Feeder} {logs : List Log} {s : Pushes}

theorem inv_spawn (hs : s.Inv fd logs) {log : Log} {rest : List Log}
    (hp : s.pending = log :: rest) :
    Pushes.Inv fd logs { s with pending := rest, goroutines := s.goroutines ++ [(log, .start)] } := by
  /- The new goroutine has not stepped: every view of the table is as before. -/
  have view : ∀ j : Nat, (s.goroutines ++ [(log, Pc.start)])[j]? = s.goroutines[j]? ∨
      ((s.goroutines ++ [(log, Pc.start)])[j]? = some (log, Pc.start) ∧ s.goroutines[j]? = none) := by
    intro j
    rw [List.getElem?_append]
    split
    · exact .inl rfl
    · rw [List.getElem?_eq_none (l := s.goroutines) (by omega)]
      cases j - s.goroutines.length with
      | zero => exact .inr ⟨rfl, rfl⟩
      | succ k => exact .inl rfl
  refine ⟨?_, fun j l pb h => ?_, fun j t => ?_, fun j pb => ?_, hs.sink_nodup, hs.queue_nodup⟩
  · simp [← hs.args, hp]
  · rcases view j with hv | ⟨hv, -⟩ <;> rw [hv] at h
    · exact hs.appending j l pb h
    · cases h
  · rcases view j with hv | ⟨hv, hn⟩ <;> rw [hv, hs.sink_iff]
    rw [hn]; rfl
  · rcases view j with hv | ⟨hv, hn⟩ <;> rw [hv, hs.queue_iff]
    rw [hn]; rfl

theorem inv_return (hs : s.Inv fd logs) {i : Nat} {log : Log}
    (hg : s.goroutines[i]? = some (log, .start)) (hn : pushLog fd log = none) :
    Pushes.Inv fd logs { s with goroutines := s.goroutines.set i (log, .done) } := by
  /- A goroutine that returns early writes and appends nothing, as before its step. -/
  refine ⟨?_, fun j l pb h => ?_, fun j t => ?_, fun j pb => ?_, hs.sink_nodup, hs.queue_nodup⟩
  · simp only [map_fst_set hg, hs.args]
  · dsimp only at h
    rw [getElem?_set_of_eq_some hg] at h
    split at h
    · cases h
    · exact hs.appending j l pb h
  · dsimp only
    rw [getElem?_set_of_eq_some hg, hs.sink_iff]
    split
    · subst_vars; simp [hg, written, hn]
    · rfl
  · dsimp only
    rw [getElem?_set_of_eq_some hg, hs.queue_iff]
    split
    · subst_vars; simp [hg, queued, hn]
    · rfl

theorem inv_write (hs : s.Inv fd logs) {i : Nat} {log : Log} {out : PushOut}
    (hg : s.goroutines[i]? = some (log, .start)) (ho : pushLog fd log = some out) :
    Pushes.Inv fd logs { s with goroutines := s.goroutines.set i (log, .appending out.pbLog)
                                sink := s.sink ++ (out.text.map fun t => (i, t)).toList } := by
  /- Goroutine `i` writes its call's text, if any, and holds its call's `pb.Log`. -/
  refine ⟨?_, fun j l pb h => ?_, fun j t => ?_, fun j pb => ?_, ?_, hs.queue_nodup⟩
  · simp only [map_fst_set hg, hs.args]
  · dsimp only at h
    rw [getElem?_set_of_eq_some hg] at h
    split at h
    · simp only [Option.some.injEq, Prod.mk.injEq, Pc.appending.injEq] at h
      obtain ⟨rfl, rfl⟩ := h
      simp [ho]
    · exact hs.appending j l pb h
  · dsimp only
    rw [getElem?_set_of_eq_some hg, List.mem_append, hs.sink_iff]
    split
    · subst_vars
      simp only [hg, written, ho, Option.some_bind]
      cases out.text <;> simp [eq_comm]
    · cases out.text <;> simp [Ne.symm ‹i ≠ j›]
  · dsimp only
    rw [getElem?_set_of_eq_some hg, hs.queue_iff]
    split
    · subst_vars; simp [hg, queued]
    · rfl
  · refine nodup_append_index hs.sink_nodup fun a ha => ?_
    simpa [hg, written] using (hs.sink_iff i a).mp ha

theorem inv_append (hs : s.Inv fd logs) {i : Nat} {log : Log} {pb : PbLog}
    (hg : s.goroutines[i]? = some (log, .appending pb)) :
    Pushes.Inv fd logs { s with goroutines := s.goroutines.set i (log, .done)
                                logQueue := s.logQueue ++ [(i, pb)] } := by
  /- Goroutine `i` appends the `pb.Log` it holds, and keeps the line it wrote. -/
  have hpb := hs.appending i log pb hg
  refine ⟨?_, fun j l pb' h => ?_, fun j t => ?_, fun j p => ?_, hs.sink_nodup, ?_⟩
  · simp only [map_fst_set hg, hs.args]
  · dsimp only at h
    rw [getElem?_set_of_eq_some hg] at h
    split at h
    · cases h
    · exact hs.appending j l pb' h
  · dsimp only
    rw [getElem?_set_of_eq_some hg, hs.sink_iff]
    split
    · subst_vars; rw [hg]; rfl
    · rfl
  · dsimp only
    rw [getElem?_set_of_eq_some hg, List.mem_append, hs.queue_iff]
    split
    · subst_vars; simp [hg, queued, hpb, eq_comm]
    · simp [Ne.symm ‹i ≠ j›]
  · refine nodup_append_index (x := some pb) hs.queue_nodup fun a ha => ?_
    simpa [hg, queued] using (hs.queue_iff i a).mp ha

/-- **A scheduling decision keeps the invariant.** -/
theorem inv_apply (hs : s.Inv fd logs) {a : PushAction} {s' : Pushes}
    (h : s.apply fd a = some s') : s'.Inv fd logs := by
  rcases apply_cases h with ⟨log, rest, -, hp, rfl⟩ | ⟨i, log, -, hg, hn, rfl⟩ |
    ⟨i, log, out, -, hg, ho, rfl⟩ | ⟨i, log, pb, -, hg, rfl⟩
  · exact inv_spawn hs hp
  · exact inv_return hs hg hn
  · exact inv_write hs hg ho
  · exact inv_append hs hg

/-- **Every schedule keeps the invariant.** -/
theorem run_inv {acts : List PushAction} (h : (Pushes.init logs).run fd acts = some s) :
    s.Inv fd logs :=
  Machine.run_invariant (fun hs h₁ => inv_apply hs h₁) (inv_init fd logs) h

/-! ## Order -/

/-- A scheduling decision only appends to the queue and to the sink. -/
theorem apply_grows {a : PushAction} {s' : Pushes} (h : s.apply fd a = some s') :
    s.logQueue <+: s'.logQueue ∧ s.sink <+: s'.sink := by
  rcases apply_cases h with ⟨-, -, -, -, rfl⟩ | ⟨-, -, -, -, -, rfl⟩ | ⟨-, -, -, -, -, -, rfl⟩ |
    ⟨-, -, -, -, -, rfl⟩
  · exact ⟨List.prefix_refl _, List.prefix_refl _⟩
  · exact ⟨List.prefix_refl _, List.prefix_refl _⟩
  · exact ⟨List.prefix_refl _, List.prefix_append _ _⟩
  · exact ⟨List.prefix_append _ _, List.prefix_refl _⟩

/-- A schedule only appends to the queue and to the sink. -/
theorem run_grows {acts : List PushAction} {s' : Pushes} (h : s.run fd acts = some s') :
    s.logQueue <+: s'.logQueue ∧ s.sink <+: s'.sink :=
  @Machine.run_invariant _ _ (Pushes.apply fd)
    (fun t => s.logQueue <+: t.logQueue ∧ s.sink <+: t.sink)
    (fun hg h₁ => ⟨hg.1.trans (apply_grows h₁).1, hg.2.trans (apply_grows h₁).2⟩) _ _ _
    ⟨List.prefix_refl _, List.prefix_refl _⟩ h

/-- Nothing of a goroutine not yet spawned is in the queue or the sink. -/
theorem not_mem_of_unspawned (hs : s.Inv fd logs) {j : Nat} (hj : s.goroutines.length ≤ j) :
    (∀ pb, (j, pb) ∉ s.logQueue) ∧ ∀ t, (j, t) ∉ s.sink := by
  have hn : s.goroutines[j]? = none := List.getElem?_eq_none hj
  exact ⟨fun pb h => by simpa [hn, queued] using (hs.queue_iff j pb).mp h,
    fun t h => by simpa [hn, written] using (hs.sink_iff j t).mp h⟩

end Pushes

/-- **First returned, first queued.** If the `PushLog` call for an earlier event has returned
before the goroutine for a later event is spawned, then in every later state the earlier log
comes before the later one in `LogQueue`, and its line before the later one's in the sink. -/
theorem pushes_fifo_of_returned_before_spawn {fd : Feeder} {logs : List Log}
    {pre post : List PushAction} {s₁ s : Pushes}
    (h₁ : (Pushes.init logs).run fd pre = some s₁) (h₂ : s₁.run fd post = some s)
    {i j : Nat} {log : Log} {out : PushOut}
    (hi : s₁.goroutines[i]? = some (log, .done)) (ho : pushLog fd log = some out)
    (hj : s₁.goroutines.length ≤ j) :
    (∀ pb, (j, pb) ∈ s.logQueue →
      ∃ q₁ q₂, s.logQueue = q₁ ++ q₂ ∧ (i, out.pbLog) ∈ q₁ ∧ (j, pb) ∈ q₂) ∧
    (∀ t tᵢ, out.text = some tᵢ → (j, t) ∈ s.sink →
      ∃ w₁ w₂, s.sink = w₁ ++ w₂ ∧ (i, tᵢ) ∈ w₁ ∧ (j, t) ∈ w₂) := by
  have hs₁ := Pushes.run_inv h₁
  obtain ⟨⟨q₂, hq⟩, ⟨w₂, hw⟩⟩ := Pushes.run_grows h₂
  obtain ⟨hjq, hjw⟩ := Pushes.not_mem_of_unspawned hs₁ hj
  refine ⟨fun pb hpb => ⟨_, q₂, hq.symm, ?_, ?_⟩, fun t tᵢ ht hjt => ⟨_, w₂, hw.symm, ?_, ?_⟩⟩
  · exact (hs₁.queue_iff i _).mpr (by simp [hi, queued, ho])
  · rw [← hq, List.mem_append] at hpb
    exact hpb.resolve_left (hjq pb)
  · exact (hs₁.sink_iff i _).mpr (by simp [hi, written, ho, ht])
  · rw [← hw, List.mem_append] at hjt
    exact hjt.resolve_left (hjw t)

/-- The first goroutine returns before the second is spawned: its log is queued first. -/
theorem pushes_fifo_sequential :
    ∃ q₁ q₂, bothReturned.logQueue = q₁ ++ q₂ ∧ (0, toPbLog [] (twoCatLogs.getD 0 {})) ∈ q₁ ∧
      (1, toPbLog [] (twoCatLogs.getD 1 {})) ∈ q₂ :=
  (@pushes_fifo_of_returned_before_spawn quietFeeder twoCatLogs [.spawn, .step 0, .step 0]
    [.spawn, .step 1, .step 1] firstReturned bothReturned (by decide) (by decide) 0 1
    (twoCatLogs.getD 0 {}) ⟨none, toPbLog [] (twoCatLogs.getD 0 {})⟩ (by decide) (by decide)
    (by decide)).1 _ (by decide)

/-- **The later event's log overtakes.** `UpdateLogs` spawns the goroutines for two `open`s of one
process in event order; the scheduler runs the first one's write, then the second goroutine to its
end, then the first one's append. `LogQueue` then holds the second event's log before the first's,
while the sink has their lines in event order. -/
theorem pushes_overtake :
    twoCatLogs.map Log.updatedTime = [lit "2021-06-01T00:00:01Z", lit "2021-06-01T00:00:02Z"] ∧
      ((Pushes.init twoCatLogs).run stdoutFeeder
          [.spawn, .spawn, .step 0, .step 1, .step 1, .step 0]).map
        (fun s => (s.logQueue.map fun e => (e.1, e.2.updatedTime), s.sink.map Prod.fst)) =
        some ([(1, lit "2021-06-01T00:00:02Z"), (0, lit "2021-06-01T00:00:01Z")], [0, 1]) :=
  ⟨rfl, rfl⟩

/-! ## What the goroutines leave behind -/

/-- **Every log once.** When `UpdateLogs` has handed over every log and every goroutine has
returned, the appends to `LogQueue` (`Pushes.logQueue`, the history of every append; the
`WatchLogs` handlers, which `Pipeline` adds, pop the queue itself) are exactly one entry for each
log `PushLog` emits, the `pb.Log` its call builds, and nothing else; the sink holds exactly one line
for each such log when the feeder has a sink. -/
theorem pushes_quiescent_once {fd : Feeder} {logs : List Log} {acts : List PushAction}
    {s : Pushes} (h : (Pushes.init logs).run fd acts = some s) (hp : s.pending = [])
    (hd : ∀ g ∈ s.goroutines, g.2 = .done) :
    (s.logQueue.map Prod.fst).Nodup ∧ (s.sink.map Prod.fst).Nodup ∧
      (∀ i pb, (i, pb) ∈ s.logQueue ↔ (logs[i]?.bind (pushLog fd)).map PushOut.pbLog = some pb) ∧
      ∀ i t, (i, t) ∈ s.sink ↔ (logs[i]?.bind (pushLog fd)).bind PushOut.text = some t := by
  have hs := Pushes.run_inv h
  have hargs : s.goroutines.map Prod.fst = logs := by simpa [hp] using hs.args
  /- Every goroutine has returned: its entry is `(logs[i], done)`. -/
  have hview : ∀ i : Nat, s.goroutines[i]? = logs[i]?.map fun log => (log, Pc.done) := by
    intro i
    rw [← hargs, List.getElem?_map]
    cases hg : s.goroutines[i]? with
    | none => rfl
    | some g =>
      obtain ⟨log, pc⟩ := g
      have hpc : pc = .done := hd _ (List.mem_iff_getElem?.mpr ⟨i, hg⟩)
      simp [hpc]
  refine ⟨hs.queue_nodup, hs.sink_nodup, fun i pb => ?_, fun i t => ?_⟩
  · rw [hs.queue_iff, hview]
    cases logs[i]? <;> simp [queued]
  · rw [hs.sink_iff, hview]
    cases logs[i]? <;> simp [written]

/-- Both `open`s run to their ends: the first one's `pb.Log` is in the queue. -/
theorem pushes_quiescent_once_cat :
    (0, toPbLog [] (twoCatLogs.getD 0 {})) ∈ bothReturned.logQueue :=
  ((@pushes_quiescent_once quietFeeder twoCatLogs
    [.spawn, .step 0, .step 0, .spawn, .step 1, .step 1] bothReturned (by decide) (by decide)
    (by decide)).2.2.1 0 _).mpr (by decide)

/-- **The sink and the queue carry one record.** In every state of every schedule, a goroutine's
line in the sink has no newline and decodes to the fields of its entry in `LogQueue`, each string
as `string([]rune(s))`, and the entry carries the feeder's cluster name. -/
theorem pushes_sink_matches_queue {fd : Feeder} {logs : List Log} {acts : List PushAction}
    {s : Pushes} (h : (Pushes.init logs).run fd acts = some s) {i : Nat} {t : List UInt8}
    {pb : PbLog} (ht : (i, t) ∈ s.sink) (hq : (i, pb) ∈ s.logQueue) :
    (10 : UInt8) ∉ t ∧ unmarshalLog t = some pb.toLog.toValidUtf8 ∧
      pb.clusterName = fd.clusterName := by
  have hs := Pushes.run_inv h
  have ht' := (hs.sink_iff i t).mp ht
  have hq' := (hs.queue_iff i pb).mp hq
  cases hg : s.goroutines[i]? with
  | none => simp [hg, queued] at hq'
  | some g =>
    obtain ⟨log, pc⟩ := g
    cases pc with
    | start => simp [hg, queued] at hq'
    | appending => simp [hg, queued] at hq'
    | done =>
      simp only [hg, queued, written, Option.map_eq_some', Option.bind_eq_some] at ht' hq'
      obtain ⟨out, ho, rfl⟩ := hq'
      obtain ⟨out', ho', hto⟩ := ht'
      obtain rfl : out = out' := Option.some.inj (ho.symm.trans ho')
      obtain ⟨-, hnl, hdec, hpb, hcl, -⟩ := pushLog_sink_record ho hto
      exact ⟨hnl, by rw [hdec, hpb], hcl⟩

/-- The log with the file name 0xFF, written and queued by one goroutine: its line decodes to the
queued fields with U+FFFD for the byte. -/
theorem pushes_sink_matches_queue_invalid :
    unmarshalLog (marshalLog invalidResourceLog) =
      some (toPbLog [] invalidResourceLog).toLog.toValidUtf8 :=
  (@pushes_sink_matches_queue stdoutFeeder [invalidResourceLog] [.spawn, .step 0, .step 0]
    ⟨[], [(invalidResourceLog, .done)], [(0, marshalLog invalidResourceLog)],
      [(0, toPbLog [] invalidResourceLog)]⟩ rfl 0 _ _ (List.mem_singleton_self _)
    (List.mem_singleton_self _)).2.1

end KubeArmor.Feeder
