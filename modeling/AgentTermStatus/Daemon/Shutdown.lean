import AgentTermStatus.Daemon.System
import AgentTermStatus.Wire.RoundTrip

namespace AgentTermStatus

open Lib

/-!
# Is an accepted event ever lost?

A payload is accepted when its send into the channel succeeds.  When the broker leaves its loop for
the shutdown flag it ingests what it has received, but not what still waits in the channel, and
until its receiver is dropped the handlers go on sending.  So what waits then is lost, and so is
what is sent afterwards; nothing else ever is (`no_event_lost_iff`).

The other way to leave the loop, when the server and all its handlers are gone, loses nothing.
-/

/-! ### Accounts of a run -/

/-- The payloads whose send has succeeded. -/
def sentPayloads (out : List SystemOutput) : List (List UInt8) :=
  out.filterMap fun
    | .sent payload => some payload
    | .broker _     => none

/-- What the broker task emitted. -/
def brokerOutputs (out : List SystemOutput) : List BrokerOutput :=
  out.filterMap fun
    | .sent _   => none
    | .broker o => some o

@[simp] theorem sentPayloads_nil : sentPayloads [] = [] := rfl
@[simp] theorem sentPayloads_sent (payload : List UInt8) :
    sentPayloads [.sent payload] = [payload] := rfl
@[simp] theorem brokerOutputs_nil : brokerOutputs [] = [] := rfl
@[simp] theorem brokerOutputs_sent (payload : List UInt8) :
    brokerOutputs [.sent payload] = [] := rfl

@[simp] theorem sentPayloads_append (xs ys : List SystemOutput) :
    sentPayloads (xs ++ ys) = sentPayloads xs ++ sentPayloads ys := List.filterMap_append ..

@[simp] theorem brokerOutputs_append (xs ys : List SystemOutput) :
    brokerOutputs (xs ++ ys) = brokerOutputs xs ++ brokerOutputs ys := List.filterMap_append ..

@[simp] theorem sentPayloads_broker (out : List BrokerOutput) :
    sentPayloads (out.map .broker) = [] := by
  simp [sentPayloads]

@[simp] theorem brokerOutputs_broker (out : List BrokerOutput) :
    brokerOutputs (out.map .broker) = out := by
  rw [brokerOutputs, List.filterMap_map]
  exact List.filterMap_some

/-- The events the state engine has ingested. -/
def ingestedBy (out : List SystemOutput) : List NormalizedEvent :=
  ingestedEvents (brokerOutputs out)

/-- Every accepted payload that decodes has been ingested, each as often as it was accepted. -/
def Delivered (decode : List UInt8 → Option NormalizedEvent) (out : List SystemOutput) : Prop :=
  ((sentPayloads out).filterMap decode).Perm (ingestedBy out)

section
variable (decode : List UInt8 → Option NormalizedEvent)

/-- Nothing that decodes is among the payloads. -/
def Undecodable (payloads : List (List UInt8)) : Prop := ∀ p ∈ payloads, decode p = none

/-- The step loses nothing: nothing that decodes waits in the channel when the broker leaves its
    loop for the shutdown flag, and nothing that decodes is sent afterwards. -/
def LosesNothing (s : System) (a : SystemAction) : Prop :=
  (∀ now sessions, a = .brokerShutdown now sessions → s.task.phase = .looping →
    s.shutdown = true → Undecodable decode s.channel.queue) ∧
  (∀ i payload, a = .send i → s.task.phase = .stopping →
    s.handlers[i]? = some (.sending payload) → s.channel.queue.length < eventChannelCapacity →
    decode payload = none)

/-- The invariant of a run: the channel's account, what the broker has made of the payloads it
    received, and when the receiver is gone. -/
structure Account (out : List SystemOutput) (s : System) (received waiting : List (List UInt8)) :
    Prop where
  channel : Ledger (sentPayloads out) received waiting s.channel
  task : s.task.Keeps (received.filterMap decode) (ingestedBy out)
  closed : s.channel.closed = true ↔ s.task.phase = .returned

/-- Outside the broker's loop, all is delivered if nothing that decodes was left behind. -/
theorem Account.delivered_iff {decode : List UInt8 → Option NormalizedEvent}
    {out : List SystemOutput} {s : System} {received waiting : List (List UInt8)}
    (h : Account decode out s received waiting) (hphase : s.task.phase ≠ .looping) :
    Delivered decode out ↔ Undecodable decode waiting := by
  have hdone := h.task.done hphase
  rw [Delivered, h.channel.fifo, List.filterMap_append]
  refine ⟨fun hperm => ?_, fun hnone => ?_⟩
  · -- both sides have the same length, so nothing was left behind
    have hlength := hperm.length_eq
    rw [List.length_append, hdone.length_eq] at hlength
    have hnil : waiting.filterMap decode = [] := List.length_eq_zero_iff.mp (by omega)
    exact List.filterMap_eq_nil_iff.mp hnil
  · rw [List.filterMap_eq_nil_iff.mpr hnone, List.append_nil]
    exact hdone

/-- What is to be shown: outside the broker's loop, all is delivered. -/
def DeliveredOnceStopped (out : List SystemOutput) (s : System) : Prop :=
  s.task.phase ≠ .looping → Delivered decode out

end

variable {decode : List UInt8 → Option NormalizedEvent}

/-- The account of a run that has not begun. -/
theorem account_start (maxConnections : Nat) :
    Account decode [] (System.start maxConnections) [] [] where
  channel := Ledger.new _ _
  task := BrokerTask.keeps_start StateEngine.new
  closed := by simp [System.start, Channel.new, BrokerTask.start]

/-- The account goes on, and what is to be shown holds after the step exactly when it held before
    and the step loses nothing. -/
def Accounted (decode : List UInt8 → Option NormalizedEvent) (out : List SystemOutput) (s : System)
    (a : SystemAction) (s' : System) (out' : List SystemOutput) : Prop :=
  (∃ received waiting, Account decode (out ++ out') s' received waiting) ∧
    (DeliveredOnceStopped decode (out ++ out') s' ↔
      DeliveredOnceStopped decode out s ∧ LosesNothing decode s a)

section
variable {out : List SystemOutput} {s : System} {received waiting : List (List UInt8)}

theorem losesNothing_of_ne {a : SystemAction} (hsend : ∀ i, a ≠ .send i)
    (hstop : ∀ now sessions, a ≠ .brokerShutdown now sessions) : LosesNothing decode s a :=
  ⟨fun now sessions h => absurd h (hstop now sessions), fun i _ h => absurd h (hsend i)⟩

/-- The channel is open until the broker returns. -/
theorem Account.isOpen (h : Account decode out s received waiting)
    (hphase : s.task.phase ≠ .returned) : s.channel.closed = false := by
  rw [Bool.eq_false_iff, ne_eq, h.closed]
  exact hphase

/-- A quiet action loses nothing. -/
theorem Account.losesNothing (h : Account decode out s received waiting) {a : SystemAction}
    (ha : a.Quiet s) : LosesNothing decode s a := by
  refine ⟨fun now sessions heq hphase hshutdown => ?_,
    fun i payload heq hphase hhandler hroom => ?_⟩
  · exact absurd ⟨hphase, hshutdown⟩ (ha.noStop now sessions heq)
  · -- the channel is open while the broker stops, so the send would succeed
    have hopen := h.isOpen (by simp [hphase])
    obtain ⟨c, hc⟩ := Channel.exists_trySend hopen hroom payload
    exact absurd hc (ha.noSend i payload c heq hhandler)

/-- A step inside the loop that emits only what the broker does. -/
theorem accounted_looping {a : SystemAction} {s' : System} {out' : List SystemOutput}
    {received' waiting' : List (List UInt8)}
    (h : Account decode (out ++ out') s' received' waiting') (hphase : s.task.phase = .looping)
    (hphase' : s'.task.phase = .looping) (hlose : LosesNothing decode s a) :
    Accounted decode out s a s' out' :=
  ⟨⟨received', waiting', h⟩, fun _ => ⟨fun hne => absurd hphase hne, hlose⟩,
    fun _ hne => absurd hphase' hne⟩

/-- What a step of the broker task does to the account, if it leaves the channel alone. -/
theorem Account.runTask (h : Account decode out s received waiting)
    {r : BrokerTask × List BrokerOutput}
    (htask : r.1.Keeps (received.filterMap decode) (ingestedBy out ++ ingestedEvents r.2))
    (hphase : s.task.phase = .looping) (hphase' : r.1.phase ≠ .returned) :
    Account decode (out ++ (s.runTask r).2) (s.runTask r).1 received waiting where
  channel := by
    show Ledger (sentPayloads (out ++ r.2.map .broker)) received waiting s.channel
    rw [sentPayloads_append, sentPayloads_broker, List.append_nil]
    exact h.channel
  task := by
    show r.1.Keeps _ (ingestedEvents (brokerOutputs (out ++ r.2.map .broker)))
    rw [brokerOutputs_append, brokerOutputs_broker, ingestedEvents_append]
    exact htask
  closed := by
    show s.channel.closed = true ↔ r.1.phase = .returned
    rw [h.closed, hphase]
    simp [hphase']

/-! ### Steps -/

/-- Nothing happens to the channel and the broker task. -/
theorem Account.stay (h : Account decode out s received waiting) {a : SystemAction} {s' : System}
    (hchannel : s'.channel = s.channel) (htask : s'.task = s.task) (hquiet : a.Quiet s) :
    Accounted decode out s a s' [] := by
  rw [Accounted, List.append_nil]
  refine ⟨⟨received, waiting, ?_⟩, ?_⟩
  · exact ⟨hchannel ▸ h.channel, htask ▸ h.task, by rw [hchannel, htask]; exact h.closed⟩
  · rw [DeliveredOnceStopped, DeliveredOnceStopped, htask]
    exact ⟨fun hq => ⟨hq, h.losesNothing hquiet⟩, And.left⟩

/-- A payload that is sent waits behind the others. -/
theorem Account.afterSend (h : Account decode out s received waiting) {payload : List UInt8}
    {s' : System} (hsend : s.channel.trySend payload = .ok s'.channel) (htask : s'.task = s.task) :
    Account decode (out ++ [.sent payload]) s' received (waiting ++ [payload]) where
  channel := by
    rw [sentPayloads_append, sentPayloads_sent]
    exact h.channel.trySend hsend
  task := by
    rw [ingestedBy, brokerOutputs_append, brokerOutputs_sent, List.append_nil, htask]
    exact h.task
  closed := by
    obtain ⟨hwasOpen, hisOpen, -⟩ := Channel.of_trySend hsend
    rw [hisOpen, htask, ← h.closed, hwasOpen]

/-- While the broker stops, a send that succeeds loses its payload if that decodes. -/
theorem losesNothing_send_iff {i : Nat} {payload : List UInt8}
    {c : Channel (List UInt8) eventChannelCapacity} (hphase : s.task.phase = .stopping)
    (hhandler : s.handlers[i]? = some (.sending payload))
    (hsend : s.channel.trySend payload = .ok c) :
    LosesNothing decode s (.send i) ↔ decode payload = none := by
  refine ⟨fun hl => ?_, fun hnone => ⟨by simp, ?_⟩⟩
  · exact hl.2 i payload rfl hphase hhandler (Channel.room_of_trySend hsend)
  · rintro _ payload' ⟨rfl⟩ - hhandler' -
    obtain rfl : payload = payload' := by simpa [hhandler] using hhandler'
    exact hnone

/-- A payload is sent. -/
theorem Account.sent (h : Account decode out s received waiting) {i : Nat} {payload : List UInt8}
    {s' : System} (hhandler : s.handlers[i]? = some (.sending payload))
    (hsend : s.channel.trySend payload = .ok s'.channel) (htask : s'.task = s.task) :
    Accounted decode out s (.send i) s' [.sent payload] := by
  have hnext := h.afterSend hsend htask
  -- in the loop the broker may still receive it; afterwards it is left behind
  cases hphase : s.task.phase with
  | looping =>
    refine accounted_looping hnext hphase (htask ▸ hphase) ⟨by simp, ?_⟩
    intro _ _ _ hstopping
    rw [hphase] at hstopping
    exact absurd hstopping (by simp)
  | stopping =>
    have hbefore := h.delivered_iff (by simp [hphase])
    have hafter := hnext.delivered_iff (by simp [htask, hphase])
    refine ⟨⟨_, _, hnext⟩, ?_⟩
    rw [losesNothing_send_iff hphase hhandler hsend, DeliveredOnceStopped, DeliveredOnceStopped,
      htask, hafter, hbefore]
    simp [Undecodable, hphase, or_imp, forall_and]
  | returned =>
    obtain ⟨hwasOpen, -⟩ := Channel.of_trySend hsend
    rw [h.closed.mpr hphase] at hwasOpen
    exact absurd hwasOpen (by simp)

/-- A payload is received. -/
theorem Account.receive (h : Account decode out s received waiting) {raw : List UInt8}
    {channel : Channel (List UInt8) eventChannelCapacity} (hphase : s.task.phase = .looping)
    (hrecv : s.channel.recv = some (raw, channel)) (now : DateTime) (sessions : List String) :
    Accounted decode out s (.recv now sessions)
      { s with channel, task := s.task.receive decode raw } [] := by
  obtain ⟨rest, rfl, hledger⟩ := h.channel.recv (h.isOpen (by simp [hphase])) hrecv
  have hnext : Account decode (out ++ [])
      { s with channel, task := s.task.receive decode raw } (received ++ [raw]) rest := by
    rw [List.append_nil]
    refine ⟨hledger, ?_, ?_⟩
    · rw [List.filterMap_append]
      have hraw : [raw].filterMap decode = (decode raw).toList := by
        cases hd : decode raw <;> simp [hd]
      rw [hraw]
      exact h.task.receive hphase raw
    · show channel.closed = true ↔ (s.task.receive decode raw).phase = .returned
      rw [(Channel.of_recv hrecv).1, BrokerTask.receive_phase, h.closed]
  exact accounted_looping hnext hphase (by simp [hphase]) (losesNothing_of_ne (by simp) (by simp))

/-- The broker leaves its loop: all is delivered exactly if nothing that decodes waits. -/
theorem Account.finished (h : Account decode out s received waiting)
    (hphase : s.task.phase = .looping) (now : DateTime) {sessions : List String}
    (hsessions : Enumerates sessions s.task.broker.pending) {a : SystemAction}
    (hlose : LosesNothing decode s a ↔ Undecodable decode waiting) :
    Accounted decode out s a (s.runTask (s.task.finish now sessions)).1
      (s.runTask (s.task.finish now sessions)).2 := by
  have hnext := h.runTask (h.task.finished now hsessions) hphase (by simp)
  have hafter := hnext.delivered_iff (by simp [System.runTask])
  refine ⟨⟨_, _, hnext⟩, ?_⟩
  rw [hlose, DeliveredOnceStopped, DeliveredOnceStopped, hafter]
  simp [System.runTask, hphase]

/-- The broker returns, and drops its receiver. -/
theorem Account.returned (h : Account decode out s received waiting)
    (hphase : s.task.phase = .stopping) :
    Accounted decode out s .brokerReturn
      { s with channel := s.channel.close, task := { s.task with phase := .returned } } [] := by
  have hlose : LosesNothing decode s .brokerReturn := losesNothing_of_ne (by simp) (by simp)
  rw [Accounted, List.append_nil]
  refine ⟨⟨received, waiting, h.channel.close, ⟨h.task.buffered, fun _ => ?_⟩,
    by simp [Channel.close]⟩, ?_⟩
  · exact h.task.done (by simp [hphase])
  · rw [DeliveredOnceStopped, DeliveredOnceStopped]
    simp [hphase, hlose]

/-- **Step lemma.** Every step keeps the account, and keeps what is to be shown exactly if it loses
    nothing. -/
theorem Account.step (h : Account decode out s received waiting) {a : SystemAction}
    (ha : a.Possible s) :
    Accounted decode out s a (systemStep decode s a).1 (systemStep decode s a).2 := by
  have hmove := systemStep_move decode s a
  generalize (systemStep decode s a).1 = s' at hmove ⊢
  generalize (systemStep decode s a).2 = out' at hmove ⊢
  cases hmove with
  | stay _ hchannel htask hquiet => exact h.stay hchannel htask hquiet
  | sent i payload _ hhandler hsend htask => exact h.sent hhandler hsend htask
  | received now sessions raw channel hphase hrecv => exact h.receive hphase hrecv now sessions
  | drained now sessions hphase =>
    have htask := h.task.drained now ha
    exact accounted_looping (h.runTask htask hphase (by simp [hphase])) hphase hphase
      (losesNothing_of_ne (by simp) (by simp))
  | checked now order hphase =>
    have htask := h.task.checkTtls now order
    exact accounted_looping (h.runTask htask hphase (by simp [hphase])) hphase hphase
      (losesNothing_of_ne (by simp) (by simp))
  | stopped now sessions hphase hshutdown =>
    refine h.finished hphase now ha ?_
    rw [← h.channel.waits (h.isOpen (by simp [hphase]))]
    exact ⟨fun hl => hl.1 now sessions rfl hphase hshutdown,
      fun hnone => ⟨fun _ _ _ _ _ => hnone, by simp⟩⟩
  | ended now sessions hphase hrecv hgone =>
    -- nothing waits, and nobody is left to send
    have hnil : waiting = [] := by
      rw [← h.channel.waits (h.isOpen (by simp [hphase])), ← Channel.recv_eq_none_iff, hrecv]
    refine h.finished hphase now ha ?_
    simp [hnil, Undecodable, losesNothing_of_ne]
  | returned hphase => exact h.returned hphase

end

/-- **When nothing is lost.**  In every run of the daemon's tasks, with any interleaving of the
    connections, the server, the broker and the shutdown signal, after which the broker has
    returned: every payload whose send succeeded and that decodes as an event has been ingested,
    each as often as it was sent, if and only if no step loses anything: nothing that decodes waits
    in the channel when the broker leaves its loop for the shutdown flag, and nothing that decodes
    is sent from then on until its receiver is dropped. -/
theorem no_event_lost_iff (decode : List UInt8 → Option NormalizedEvent) (maxConnections : Nat)
    (ops : List SystemAction) (hrun : SystemRun decode (System.start maxConnections) ops)
    (hreturned : (exec (systemStep decode) (System.start maxConnections) ops).task.phase =
      .returned) :
    Delivered decode (trace (systemStep decode) (System.start maxConnections) ops) ↔
      Along (systemStep decode) (LosesNothing decode) (System.start maxConnections) ops := by
  -- the account is what every step keeps
  let Accountable (out : List SystemOutput) (s : System) :=
    ∃ received waiting, Account decode out s received waiting
  have hstep : ∀ out s a, a.Possible s → Accountable out s →
      Accounted decode out s a (systemStep decode s a).1 (systemStep decode s a).2 := by
    rintro out s a ha ⟨received, waiting, h⟩
    exact h.step ha
  have haccount : Accountable [] (System.start maxConnections) :=
    ⟨[], [], account_start maxConnections⟩
  have hiff := Along.trace_iff Accountable (DeliveredOnceStopped decode) hstep hrun haccount
  have hstart : DeliveredOnceStopped decode [] (System.start maxConnections) :=
    fun hne => absurd rfl hne
  rw [List.nil_append, DeliveredOnceStopped, hreturned] at hiff
  simpa [hstart] using hiff

/-! ### Two runs -/

/-- A client's payload is accepted and received before the broker sees the shutdown flag. -/
def gracefulRun (payload : List UInt8) : List SystemAction :=
  [.accept, .read 0 (.ready (.ok (some payload))), .send 0, .recv 0 [], .signal,
    .brokerShutdown 0 ["s"], .brokerReturn]

/-- A client's payload is accepted, but the broker sees the shutdown flag first. -/
def hastyRun (payload : List UInt8) : List SystemAction :=
  [.accept, .read 0 (.ready (.ok (some payload))), .send 0, .signal, .brokerShutdown 0 [],
    .brokerReturn]

theorem decodePayload_epoch :
    decodePayload epochForms (encodePayload epochForms epochEvent) = some epochEvent :=
  decodePayload_encodePayload (oneEventForms_readsBack _ _ _) fun k v h => by
    simp [epochEvent, NormalizedEvent.bare] at h

/-- The payload that was received in time is ingested. -/
theorem no_event_lost_graceful :
    Delivered (decodePayload epochForms)
      (trace (systemStep (decodePayload epochForms)) (System.start 64)
        (gracefulRun (encodePayload epochForms epochEvent))) := by
  generalize hp : encodePayload epochForms epochEvent = p
  have hdecode : decodePayload epochForms p = some epochEvent := hp ▸ decodePayload_epoch
  generalize decodePayload epochForms = decode at hdecode ⊢
  -- the broker task after it has received the payload
  have hreceive : (BrokerTask.start (Broker.new StateEngine.new)).receive decode p =
      { broker :=
          { stateEngine := StateEngine.new
            pending := (∅ : FiniteMap String _).insert "s" [((0 : DateTime), epochEvent)] }
        sessionInfo := (∅ : SessionTerminal).insert "s" (none, none)
        phase := .looping } := by
    rw [BrokerTask.receive, Broker.bufferEvent, hdecode]
    rfl
  have hempty : Enumerates [] (∅ : FiniteMap String (List (DateTime × NormalizedEvent))) := by
    decide
  have hrun : SystemRun decode (System.start 64) (gracefulRun p) := by
    refine ⟨trivial, trivial, trivial, hempty, trivial, ?_, trivial, trivial⟩
    show Enumerates ["s"] ((BrokerTask.start _).receive decode p).broker.pending
    rw [hreceive]
    decide
  have hreturned : (exec (systemStep decode) (System.start 64) (gracefulRun p)).task.phase =
      .returned := by
    show (exec (systemStep decode)
      { System.start 64 with
        handlers := [.reading], task := (BrokerTask.start _).receive decode p }
      [.signal, .brokerShutdown 0 ["s"], .brokerReturn]).task.phase = _
    rw [hreceive]
    rfl
  refine (no_event_lost_iff decode 64 (gracefulRun p) hrun hreturned).mpr ?_
  refine ⟨losesNothing_of_ne (by simp) (by simp), losesNothing_of_ne (by simp) (by simp),
    ⟨by simp, ?_⟩, losesNothing_of_ne (by simp) (by simp), losesNothing_of_ne (by simp) (by simp),
    ⟨?_, by simp⟩, losesNothing_of_ne (by simp) (by simp), trivial⟩
  · intro i payload _ hphase
    exact absurd (show BrokerPhase.looping = .stopping from hphase) (by simp)
  · intro now sessions _ _ _
    show Undecodable decode []
    simp [Undecodable]

/-- **An accepted event is lost.** -/
theorem not_delivered_hasty :
    let payload := encodePayload epochForms epochEvent
    let decode := decodePayload epochForms
    SystemRun decode (System.start 64) (hastyRun payload) ∧
    (exec (systemStep decode) (System.start 64) (hastyRun payload)).task.phase = .returned ∧
    decode payload = some epochEvent ∧
    sentPayloads (trace (systemStep decode) (System.start 64) (hastyRun payload)) = [payload] ∧
    ingestedBy (trace (systemStep decode) (System.start 64) (hastyRun payload)) = [] ∧
    ¬ Delivered decode (trace (systemStep decode) (System.start 64) (hastyRun payload)) := by
  intro payload decode
  have hsent : sentPayloads (trace (systemStep decode) (System.start 64) (hastyRun payload)) =
    [payload] := rfl
  have hingested : ingestedBy (trace (systemStep decode) (System.start 64) (hastyRun payload)) =
    [] := rfl
  have hdecode : decode payload = some epochEvent := decodePayload_epoch
  have hempty : Enumerates [] (∅ : FiniteMap String (List (DateTime × NormalizedEvent))) := by
    decide
  refine ⟨⟨trivial, trivial, trivial, trivial, hempty, trivial, trivial⟩, rfl, hdecode, hsent,
    hingested, ?_⟩
  · rw [Delivered, hsent, hingested]
    simp [hdecode]

end AgentTermStatus
