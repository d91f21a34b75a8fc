import KubeArmor.Laws.Feeder.Service
import KubeArmor.Feeder.Messages

/-!
# Laws of the message plane

Whatever a `WatchMessages` stream is sent was pushed by one of the six diagnostics calls, each
message at most once and in the order the calls appended them, and every such message is stamped
with the feeder's cluster, the host, and one of the three levels (`messages_delivered`). The
stream's filter plays no part: `WatchMessages` sends to every entry of its snapshot.
-/

namespace KubeArmor.Feeder

open KubeArmor.Go KubeArmor.Types

variable {β : Type} {sprintf : GoString → List β → GoString} {fd : Feeder} {host : Host}

/-- Every call pushes at one of the three levels, stamped with the feeder's cluster name and the
host's name and address. -/
theorem msgCall_stamped (now : GoString) (c : MsgCall β) :
    (c.pbMessage sprintf fd host now).level ∈ [lit "INFO", lit "DEBUG", lit "ERROR"] ∧
    (c.pbMessage sprintf fd host now).clusterName = fd.clusterName ∧
    (c.pbMessage sprintf fd host now).hostName = host.hostName ∧
    (c.pbMessage sprintf fd host now).hostIP = host.hostIP := by
  cases c <;> simp [MsgCall.pbMessage, print, printf, debug, debugf, err, errf, pushAt, pushAtf,
    pushMessage]

/-- A handler step of the message plane is a step of the service, and not a push. -/
theorem MsgAction.apply_handler {s s' : Service (Nat × PbMessage)}
    {a : ServiceAction (Nat × PbMessage)}
    (h : MsgAction.apply sprintf fd host s (.handler a) = some s') :
    (∀ x, a ≠ .push x) ∧ s.apply msgPlaneAdmits a = some s' := by
  have ha : ∀ x, a ≠ .push x := by rintro x rfl; cases h
  cases a <;> first | exact ⟨ha, h⟩ | exact absurd rfl (ha _)

variable (sprintf fd host) in
/-- What the message plane keeps: the service on its own is reachable, `MsgQueue`'s appends are
numbered in order, and each is the message of a call. -/
structure MsgInv (s : Service (Nat × PbMessage)) : Prop where
  service : s.Reachable msgPlaneAdmits
  order : s.appended.map Prod.fst = List.range s.appended.length
  stamped : ∀ e ∈ s.appended,
    ∃ (now : GoString) (c : MsgCall β), e.2 = c.pbMessage sprintf fd host now

theorem MsgInv.apply {s s' : Service (Nat × PbMessage)} (hs : MsgInv sprintf fd host s)
    {a : MsgAction β} (h : MsgAction.apply sprintf fd host s a = some s') :
    MsgInv sprintf fd host s' := by
  cases a with
  | call now c =>
    replace h : s.apply msgPlaneAdmits
        (.push (s.appended.length, c.pbMessage sprintf fd host now)) = some s' := h
    obtain ⟨-, rfl⟩ := Service.apply_push h
    refine ⟨hs.service.step h, by simp [List.range_succ, hs.order], fun e he => ?_⟩
    rcases List.mem_append.mp he with he | he
    · exact hs.stamped e he
    · exact ⟨now, c, by rw [List.mem_singleton.mp he]⟩
  | handler a =>
    obtain ⟨ha, h⟩ := MsgAction.apply_handler h
    have e := Service.appended_of_apply h ha
    exact ⟨hs.service.step h, e ▸ hs.order, e ▸ hs.stamped⟩

theorem MsgReachable.inv {s : Service (Nat × PbMessage)} (h : MsgReachable sprintf fd host s) :
    MsgInv sprintf fd host s :=
  Machine.Reachable.invariant h ⟨.init, rfl, nofun⟩ fun hs ha => hs.apply ha

/-- **What a `WatchMessages` stream is sent was pushed by the diagnostics calls, once each, in
order.** In every state reached by any interleaving of calls of `Print`, `Printf`, `Debug`,
`Debugf`, `Err` and `Errf` with the statement-level `WatchMessages` handlers, every stream,
whatever its filter, was sent a subsequence of what the calls appended to `MsgQueue`, in append
order and each at most once; and each message it was sent is at level `"INFO"`, `"DEBUG"` or
`"ERROR"` and carries the feeder's cluster name and the host's name and address. -/
theorem messages_delivered {s : Service (Nat × PbMessage)} (h : MsgReachable sprintf fd host s)
    (u : GoString) :
    (s.sentTo u).Sublist s.appended ∧ ((s.sentTo u).map Prod.fst).Pairwise (· < ·) ∧
    ∀ e ∈ s.sentTo u, e.2.level ∈ [lit "INFO", lit "DEBUG", lit "ERROR"] ∧
      e.2.clusterName = fd.clusterName ∧ e.2.hostName = host.hostName ∧
      e.2.hostIP = host.hostIP := by
  have hi := h.inv
  have hsub := hi.service.sentTo_sublist u
  refine ⟨hsub, (List.pairwise_lt_range _).sublist (hi.order ▸ hsub.map _), fun e he => ?_⟩
  obtain ⟨now, c, hc⟩ := hi.stamped e (hsub.subset he)
  rw [hc]
  exact msgCall_stamped now c

/-- Stream `a` registers with a filter `WatchLogs` would not know, `Err` is called, and `a`'s
handler drains `MsgQueue`. -/
def errDeliveryRun : List (MsgAction Nat) :=
  [.handler (.watch (lit "a") (lit "junk")), .call (lit "now") (.err (lit "boom")),
    .handler (.check (lit "a")), .handler (.lock (lit "a")),
    .handler (.snapshot [⟨lit "a", lit "junk"⟩]), .handler .pop, .handler .send, .handler .send]

/-- Where `errDeliveryRun` leaves the message plane, with `Sprintf` keeping the format. -/
def errDelivered : Service (Nat × PbMessage) :=
  (MsgAction.run (fun m _ => m) ⟨lit "none", [], id⟩ ⟨[], []⟩ (Service.init _) errDeliveryRun).getD
    (Service.init _)

/-- `a` was sent the `ERROR` message, once, in append order. -/
theorem messages_delivered_err :
    (errDelivered.sentTo (lit "a")).Sublist errDelivered.appended ∧
      ((errDelivered.sentTo (lit "a")).map Prod.fst).Pairwise (· < ·) :=
  let h := messages_delivered (Machine.reachable_of_run (show MsgAction.run (fun m _ => m)
    ⟨lit "none", [], id⟩ ⟨[], []⟩ (Service.init _) errDeliveryRun = some errDelivered
    by decide)) (lit "a")
  ⟨h.1, h.2.1⟩

end KubeArmor.Feeder
