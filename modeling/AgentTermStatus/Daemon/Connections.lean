import AgentTermStatus.Daemon.Shutdown

namespace AgentTermStatus

open Lib

/-!
# Connections, from the bytes of a client to the ingestion

`System` leaves open what a read gives.  Here every connection comes with all the bytes its client
will ever write, and each of its reads takes the next frame off them, so a run shows what the daemon
makes of its clients' bytes.

* `systemStep_handlerMove` — what a step can do to the handlers;
* `ServedWithin`, `connections_bounded` — how many connections are served at a time, and what a
  handler waits for that cannot send its payload;
* `sent_le_room` — in a run no more payloads are sent than there was room for and are received;
* `Flow` — the account of one connection: the frames of its stream were accepted, wait in the
  handler, or are still unread, in this order;
* `Flows.step` — every step keeps the accounts, and a calm one leaves nothing behind;
* `frames_delivered` — what is ingested comes out of the clients' frames.
-/

/-! ### What a step does to the handlers -/

/-- What a step can do to the handlers, with the payloads whose send succeeds. -/
inductive HandlerMove (s : System) : SystemAction → List Handler → List (List UInt8) → Prop
  /-- The handlers are left alone. -/
  | stay (a : SystemAction) : HandlerMove s a s.handlers []
  /-- A connection is accepted. -/
  | accepted (hserver : s.server = .accepting) (hroom : s.served < s.maxConnections) :
      HandlerMove s .accept (s.handlers ++ [.reading]) []
  /-- A read is over. -/
  | read (i : Nat) (outcome : ReadOutcome) (h : s.handlers[i]? = some .reading) :
      HandlerMove s (.read i outcome) (s.handlers.set i outcome.next) []
  /-- A payload is sent. -/
  | sent (i : Nat) (payload : List UInt8) (h : s.handlers[i]? = some (.sending payload)) :
      HandlerMove s (.send i) (s.handlers.set i .reading) [payload]
  /-- A payload is not sent, for its receiver is gone. -/
  | refused (i : Nat) (payload : List UInt8) (h : s.handlers[i]? = some (.sending payload))
      (hclosed : s.channel.closed = true) :
      HandlerMove s (.send i) (s.handlers.set i .finished) []
  /-- A handler is aborted. -/
  | aborted (i : Nat) (hserver : s.server = .returned) :
      HandlerMove s (.abort i) (s.handlers.set i .finished) []

section
variable (decode : List UInt8 → Option NormalizedEvent)

/-- **What a step does to the handlers.** -/
theorem systemStep_handlerMove (s : System) (a : SystemAction) :
    HandlerMove s a (systemStep decode s a).1.handlers
      (sentPayloads (systemStep decode s a).2) := by
  cases a with
  | accept =>
    simp only [systemStep]
    split
    · next h => exact .accepted h.1 h.2
    · exact .stay _
  | read i outcome =>
    simp only [systemStep]
    split
    · next h => exact .read i outcome h
    · exact .stay _
  | send i =>
    simp only [systemStep]
    split
    · next payload h =>
      split
      · exact .sent i payload h
      · next hsend => exact .refused i payload h (Channel.closed_of_trySend hsend)
      · exact .stay _
    · exact .stay _
  | abort i =>
    simp only [systemStep]
    split
    · next h => exact .aborted i h
    · exact .stay _
  | brokerShutdown now sessions =>
    simp only [systemStep]
    split
    · rw [System.runTask, sentPayloads_broker]
      exact .stay _
    · exact .stay _
  | recv now sessions =>
    simp only [systemStep]
    split
    · split
      · exact .stay _
      · split
        · rw [System.runTask, sentPayloads_broker]
          exact .stay _
        · exact .stay _
    · exact .stay _
  | drainTick now sessions =>
    simp only [systemStep]
    split
    · rw [System.runTask, sentPayloads_broker]
      exact .stay _
    · exact .stay _
  | ttlTick now order =>
    simp only [systemStep]
    split
    · rw [System.runTask, sentPayloads_broker]
      exact .stay _
    · exact .stay _
  | signal => exact .stay _
  | serverShutdown =>
    simp only [systemStep]
    split <;> exact .stay _
  | joined =>
    simp only [systemStep]
    split <;> exact .stay _
  | graceElapsed =>
    simp only [systemStep]
    split <;> exact .stay _
  | brokerReturn =>
    simp only [systemStep]
    split <;> exact .stay _

/-! ### A daemon that serves -/

/-- The daemon is serving, and has not been asked to stop. -/
structure System.Serves (s : System) : Prop where
  shutdown : s.shutdown = false
  server : s.server = .accepting
  phase : s.task.phase = .looping

/-- The daemon serves after its start. -/
theorem System.serves_start (maxConnections : Nat) : (System.start maxConnections).Serves :=
  ⟨rfl, rfl, rfl⟩

/-- **Step lemma.** The daemon serves on. -/
theorem System.Serves.step {s : System} (h : s.Serves) {a : SystemAction} (ha : a ≠ .signal) :
    (systemStep decode s a).1.Serves := by
  obtain ⟨hshutdown, hserver, hphase⟩ := h
  cases a with
  | signal => exact absurd rfl ha
  | accept =>
    simp only [systemStep]
    split <;> exact ⟨hshutdown, hserver, hphase⟩
  | serverShutdown =>
    simp only [systemStep, if_neg (show ¬ (s.server = .accepting ∧ s.shutdown = true) by
      simp [hshutdown])]
    exact ⟨hshutdown, hserver, hphase⟩
  | joined =>
    simp only [systemStep, hserver]
    exact ⟨hshutdown, hserver, hphase⟩
  | graceElapsed =>
    simp only [systemStep, hserver]
    exact ⟨hshutdown, hserver, hphase⟩
  | read i outcome =>
    simp only [systemStep]
    split <;> exact ⟨hshutdown, hserver, hphase⟩
  | send i =>
    simp only [systemStep]
    repeat' split
    all_goals exact ⟨hshutdown, hserver, hphase⟩
  | abort i =>
    simp only [systemStep, hserver]
    exact ⟨hshutdown, hserver, hphase⟩
  | brokerShutdown now sessions =>
    simp only [systemStep, if_neg (show ¬ (s.task.phase = .looping ∧ s.shutdown = true) by
      simp [hshutdown])]
    exact ⟨hshutdown, hserver, hphase⟩
  | recv now sessions =>
    simp only [systemStep, if_pos hphase]
    split
    · exact ⟨hshutdown, hserver, by rw [BrokerTask.receive_phase]; exact hphase⟩
    · -- the server has not returned, so there are senders
      rw [if_neg fun hgone : s.sendersGone => absurd (hserver.symm.trans hgone.1) (by simp)]
      exact ⟨hshutdown, hserver, hphase⟩
  | drainTick now sessions =>
    simp only [systemStep, if_pos hphase]
    exact ⟨hshutdown, hserver, hphase⟩
  | ttlTick now order =>
    simp only [systemStep, if_pos hphase]
    exact ⟨hshutdown, hserver, hphase⟩
  | brokerReturn =>
    simp only [systemStep, hphase]
    exact ⟨hshutdown, hserver, hphase⟩

/-! ### How many connections are served -/

/-- Putting a handler in the place of one that was running keeps the connections within the
    limit. -/
theorem countP_set_le {hs : List Handler} {i : Nat} {h h' : Handler} (hi : hs[i]? = some h)
    (hrun : h ≠ .finished) :
    (hs.set i h').countP (fun h => h ≠ .finished) ≤ hs.countP fun h => h ≠ .finished := by
  obtain ⟨hlt, hget⟩ := List.getElem?_eq_some_iff.mp hi
  have hpos : 0 < hs.countP fun h => h ≠ .finished :=
    List.countP_pos_iff.mpr ⟨h, List.mem_of_getElem? hi, by simpa using hrun⟩
  rw [List.countP_set hlt, hget]
  simp only [ne_eq, hrun, not_false_eq_true, decide_true, if_true] at hpos ⊢
  split <;> omega

/-- A handler that finishes frees its permit. -/
theorem countP_set_finished_le (hs : List Handler) (i : Nat) :
    (hs.set i .finished).countP (fun h => h ≠ .finished) ≤
      hs.countP fun h => h ≠ .finished := by
  by_cases hlt : i < hs.length
  · rw [List.countP_set hlt]
    simp only [ne_eq, not_true_eq_false, decide_false, Bool.false_eq_true, if_false]
    omega
  · rw [List.set_eq_of_length_le (Nat.le_of_not_lt hlt)]

/-- No more connections are served than may be. -/
def ServedWithin (s : System) : Prop := s.served ≤ s.maxConnections

/-- No step changes the limit. -/
theorem systemStep_maxConnections (s : System) (a : SystemAction) :
    (systemStep decode s a).1.maxConnections = s.maxConnections := by
  cases a <;> simp only [systemStep] <;> repeat' split
  all_goals rfl

/-- **Step lemma.** Every step keeps within the limit. -/
theorem ServedWithin.step {s : System} (h : ServedWithin s) (a : SystemAction) :
    ServedWithin (systemStep decode s a).1 := by
  have hmove := systemStep_handlerMove decode s a
  rw [ServedWithin, systemStep_maxConnections, System.served]
  generalize (systemStep decode s a).1.handlers = hs at hmove ⊢
  generalize sentPayloads (systemStep decode s a).2 = sent at hmove
  cases hmove with
  | stay => exact h
  | accepted hserver hroom =>
    rw [List.countP_append]
    exact hroom
  | read i outcome hi => exact (countP_set_le hi (by simp)).trans h
  | sent i payload hi => exact (countP_set_le hi (by simp)).trans h
  | refused i payload hi => exact (countP_set_le hi (by simp)).trans h
  | aborted i => exact (countP_set_finished_le _ i).trans h

/-! ### A handler that waits -/

/-- The step is one of the broker. -/
def SystemAction.OfBroker : SystemAction → Prop
  | .brokerShutdown _ _ | .recv _ _ | .drainTick _ _ | .ttlTick _ _ | .brokerReturn => True
  | _ => False

/-- The step is a receipt of the broker. -/
def SystemAction.isRecv : SystemAction → Bool
  | .recv _ _ => true
  | _         => false

/-- As many payloads can be sent before the broker receives. -/
def System.room (s : System) : Nat :=
  if s.channel.closed then 0 else eventChannelCapacity - s.channel.queue.length

/-- **Step lemma.** A send takes room, and only a receipt makes any. -/
theorem sent_add_room_le (s : System) (a : SystemAction) :
    (sentPayloads (systemStep decode s a).2).length + (systemStep decode s a).1.room ≤
      s.room + if a.isRecv then 1 else 0 := by
  have hmove := systemStep_move decode s a
  generalize (systemStep decode s a).1 = s' at hmove ⊢
  generalize (systemStep decode s a).2 = out at hmove ⊢
  -- what the broker does apart from the channel neither sends nor makes room
  have hbroker : ∀ r : BrokerTask × List BrokerOutput,
      (sentPayloads (s.runTask r).2).length + (s.runTask r).1.room ≤
        s.room + if a.isRecv then 1 else 0 := by
    intro r
    rw [System.runTask, sentPayloads_broker, List.length_nil, Nat.zero_add]
    exact Nat.le_add_right _ _
  cases hmove with
  | stay _ hchannel =>
    rw [sentPayloads_nil, List.length_nil, Nat.zero_add, System.room, hchannel]
    exact Nat.le_add_right _ _
  | sent i payload _ hhandler hsend =>
    obtain ⟨hopen, hopen', hqueue⟩ := Channel.of_trySend hsend
    have hroom := Channel.room_of_trySend hsend
    simp only [sentPayloads_sent, System.room, hopen, hopen', hqueue, List.length_append,
      List.length_singleton, Bool.false_eq_true, if_false, SystemAction.isRecv]
    omega
  | received now sessions raw channel hphase hrecv =>
    obtain ⟨hclosed, hqueue⟩ := Channel.of_recv hrecv
    simp only [sentPayloads_nil, System.room, hclosed, hqueue, List.length_cons, List.length_nil,
      SystemAction.isRecv, if_true]
    split <;> omega
  | drained => exact hbroker _
  | checked => exact hbroker _
  | stopped => exact hbroker _
  | ended => exact hbroker _
  | returned => simp [System.room, Channel.close]

/-- **Run lemma.** In any run no more payloads are sent than there was room for at its beginning and
    the broker has received. -/
theorem sent_le_room (s : System) (ops : List SystemAction) :
    (sentPayloads (trace (systemStep decode) s ops)).length ≤
      s.room + ops.countP SystemAction.isRecv := by
  induction ops generalizing s with
  | nil => exact Nat.zero_le _
  | cons a ops ih =>
    have hstep := sent_add_room_le decode s a
    have hrest := ih (systemStep decode s a).1
    rw [trace_cons, sentPayloads_append, List.length_append, List.countP_cons]
    omega

/-- After some steps of the daemon the handler's send is over. -/
def SendEnds (s : System) (i : Nat) (steps : List SystemAction) : Prop :=
  SystemRun decode s (steps ++ [.send i]) ∧
    ((exec (systemStep decode) s (steps ++ [.send i])).handlers[i]? = some .reading ∨
      (exec (systemStep decode) s (steps ++ [.send i])).handlers[i]? = some .finished)

variable {decode}

/-- Setting a handler that is there. -/
theorem getElem?_setHandler {s : System} {i : Nat} {h h' : Handler} (hi : s.handlers[i]? = some h) :
    (s.setHandler i h').handlers[i]? = some h' := by
  obtain ⟨hlt, -⟩ := List.getElem?_eq_some_iff.mp hi
  show (s.handlers.set i h')[i]? = _
  rw [List.getElem?_set_self hlt]

/-- With a receiver and room, the send is over. -/
theorem send_ends_of_room {s : System} {i : Nat} {payload : List UInt8}
    (hi : s.handlers[i]? = some (.sending payload)) (hopen : s.channel.closed = false)
    (hroom : s.channel.queue.length < eventChannelCapacity) :
    (systemStep decode s (.send i)).1.handlers[i]? = some .reading := by
  obtain ⟨c, hc⟩ := Channel.exists_trySend hopen hroom payload
  simp only [systemStep, hi, hc]
  exact getElem?_setHandler hi

/-- Without a receiver, the send is over. -/
theorem send_ends_of_closed {s : System} {i : Nat} {payload : List UInt8}
    (hi : s.handlers[i]? = some (.sending payload)) (hclosed : s.channel.closed = true) :
    (systemStep decode s (.send i)).1.handlers[i]? = some .finished := by
  have hsend : s.channel.trySend payload = .error .closed := by
    rw [Channel.trySend, if_pos hclosed]
  simp only [systemStep, hi, hsend]
  exact getElem?_setHandler hi

/-- **No send is stuck.** While the broker is in its loop, one receipt makes room; when it is past
    it, its return ends the send. -/
theorem Account.send_ends {out : List SystemOutput} {s : System}
    {received waiting : List (List UInt8)} (h : Account decode out s received waiting) {i : Nat}
    {payload : List UInt8} (hi : s.handlers[i]? = some (.sending payload)) :
    ∃ steps, steps.length ≤ 1 ∧ (∀ a ∈ steps, a.OfBroker) ∧ SendEnds decode s i steps := by
  cases hphase : s.task.phase with
  | returned =>
    have hclosed : s.channel.closed = true := h.closed.mpr hphase
    exact ⟨[], by simp, by simp, ⟨trivial, trivial⟩, Or.inr (send_ends_of_closed hi hclosed)⟩
  | stopping =>
    refine ⟨[.brokerReturn], by simp, by simp [SystemAction.OfBroker],
      ⟨trivial, trivial, trivial⟩, Or.inr ?_⟩
    have hstep : (systemStep decode s .brokerReturn).1 =
        { s with channel := s.channel.close, task := { s.task with phase := .returned } } := by
      simp only [systemStep, if_pos hphase]
    show (systemStep decode (systemStep decode s .brokerReturn).1 (.send i)).1.handlers[i]? = _
    rw [hstep]
    exact send_ends_of_closed hi rfl
  | looping =>
    have hopen : s.channel.closed = false := h.isOpen (by simp [hphase])
    by_cases hroom : s.channel.queue.length < eventChannelCapacity
    · exact ⟨[], by simp, by simp, ⟨trivial, trivial⟩,
        Or.inl (send_ends_of_room hi hopen hroom)⟩
    · -- the channel is full, so the broker has something to receive
      cases hrecv : s.channel.recv with
      | none =>
        have hempty := (Channel.recv_eq_none_iff _).mp hrecv
        rw [hempty] at hroom
        exact absurd hroom (by decide)
      | some r =>
        obtain ⟨raw, channel⟩ := r
        obtain ⟨hclosed, hqueue⟩ := Channel.of_recv hrecv
        have hstep : (systemStep decode s (.recv 0 s.task.broker.pending.keys)).1 =
            { s with channel, task := s.task.receive decode raw } := by
          simp only [systemStep, if_pos hphase, hrecv]
        have hbounded := s.channel.bounded
        rw [hqueue, List.length_cons] at hbounded
        refine ⟨[.recv 0 s.task.broker.pending.keys], by simp, by simp [SystemAction.OfBroker],
          ⟨Enumerates.keys _, trivial, trivial⟩, Or.inl ?_⟩
        show (systemStep decode (systemStep decode s _).1 (.send i)).1.handlers[i]? = _
        rw [hstep]
        exact send_ends_of_room hi (hclosed.trans hopen) hbounded

/-- Every run has an account. -/
theorem account_run {maxConnections : Nat} {ops : List SystemAction}
    (hrun : SystemRun decode (System.start maxConnections) ops) :
    ∃ received waiting, Account decode
      (trace (systemStep decode) (System.start maxConnections) ops)
      (exec (systemStep decode) (System.start maxConnections) ops) received waiting := by
  have hstep : ∀ out s a, a.Possible s →
      (∃ received waiting, Account decode out s received waiting) →
      ∃ received waiting, Account decode (out ++ (systemStep decode s a).2)
        (systemStep decode s a).1 received waiting := by
    rintro out s a ha ⟨received, waiting, h⟩
    exact (h.step ha).1
  have hstart : ∃ received waiting,
      Account decode [] (System.start maxConnections) received waiting :=
    ⟨[], [], account_start maxConnections⟩
  simpa using Along.trace_inv
    (fun out s => ∃ received waiting, Account decode out s received waiting) hstep hrun hstart

end

/-! ### Clients -/

/-- A connection: all that its client will ever write, and what is still unread of it. -/
structure Connection where
  written : Reader
  unread : Reader

/-- The payloads of the frames of a stream. -/
def framesOf (r : Reader) : List (List UInt8) := (readFrames r).1

/-- The daemon with the connections it has accepted. -/
structure Serving where
  system : System
  connections : List Connection

/-- A step of the daemon, of which a connection and a read bring the client with them. -/
inductive ServingAction
  /-- A client connects, and is accepted if there is a permit. -/
  | connect (stream : Reader)
  /-- A handler's read of a frame is over. -/
  | readNext (i : Nat)
  /-- A handler's read has taken too long. -/
  | elapse (i : Nat)
  /-- Any other step. -/
  | step (a : SystemAction)

/-- What the tasks do that matters to others; a send comes with its connection. -/
inductive ServingOutput
  | sent (i : Nat) (payload : List UInt8)
  | broker (o : BrokerOutput)

/-- The output without its connection. -/
def ServingOutput.forget : ServingOutput → SystemOutput
  | .sent _ payload => .sent payload
  | .broker o       => .broker o

/-- The output of the connection `i`. -/
def SystemOutput.ofConnection (i : Nat) : SystemOutput → ServingOutput
  | .sent payload => .sent i payload
  | .broker o     => .broker o

@[simp] theorem forget_ofConnection (i : Nat) (o : SystemOutput) :
    (o.ofConnection i).forget = o := by
  cases o <;> rfl

namespace ServingAction

/-- The step of the daemon that an action is. -/
def toSystem (s : Serving) : ServingAction → SystemAction
  | .connect _   => .accept
  | .readNext i =>
      .read i (.ready ((s.connections[i]?).elim (.ok none) fun c => (readFrame c.unread).2))
  | .elapse i    => .read i .elapsed
  | .step a      => a

/-- The connection whose handler sends, if one does. -/
def connection : ServingAction → Nat
  | .step (.send i) => i
  | _               => 0

/-- The connections after an action. -/
def connections (s : Serving) : ServingAction → List Connection
  | .connect stream =>
    if s.system.server = .accepting ∧ s.system.served < s.system.maxConnections then
      s.connections ++ [⟨stream, stream⟩]
    else s.connections
  | .readNext i =>
    if s.system.handlers[i]? = some .reading then
      s.connections.modify i fun c => { c with unread := (readFrame c.unread).1 }
    else s.connections
  | _ => s.connections

/-- A step that neither accepts nor reads is possible when the daemon's is. -/
def Possible (s : Serving) : ServingAction → Prop
  | .step .accept     => False
  | .step (.read _ _) => False
  | .step a           => a.Possible s.system
  | _                 => True

/-- An action by which nothing is given up: no read takes too long, and nobody asks to stop. -/
def Calm : ServingAction → Prop
  | .elapse _     => False
  | .step .signal => False
  | _             => True

end ServingAction

/-- The daemon after its start. -/
def Serving.start (maxConnections : Nat) : Serving := ⟨System.start maxConnections, []⟩

/-- One step of the daemon with its clients. -/
def servingStep (decode : List UInt8 → Option NormalizedEvent) (s : Serving) (a : ServingAction) :
    Serving × List ServingOutput :=
  let r := systemStep decode s.system (a.toSystem s)
  ({ system := r.1, connections := a.connections s },
    r.2.map (SystemOutput.ofConnection a.connection))

/-- A run of the daemon with its clients. -/
abbrev ServingRun (decode : List UInt8 → Option NormalizedEvent) (s : Serving)
    (ops : List ServingAction) : Prop :=
  Along (servingStep decode) (fun s a => a.Possible s) s ops

/-- What was accepted, each payload with its connection. -/
def acceptedBy (out : List ServingOutput) : List (Nat × List UInt8) :=
  out.filterMap fun
    | .sent i payload => some (i, payload)
    | .broker _       => none

/-- The payloads that were accepted from one connection. -/
def acceptedFrom (i : Nat) (out : List ServingOutput) : List (List UInt8) :=
  ((acceptedBy out).filter fun x => x.1 = i).map Prod.snd

@[simp] theorem acceptedBy_append (xs ys : List ServingOutput) :
    acceptedBy (xs ++ ys) = acceptedBy xs ++ acceptedBy ys := List.filterMap_append ..

@[simp] theorem acceptedFrom_append (i : Nat) (xs ys : List ServingOutput) :
    acceptedFrom i (xs ++ ys) = acceptedFrom i xs ++ acceptedFrom i ys := by
  simp [acceptedFrom]

/-- Without their connections these are the payloads whose send has succeeded. -/
theorem map_snd_acceptedBy (out : List ServingOutput) :
    (acceptedBy out).map Prod.snd = sentPayloads (out.map ServingOutput.forget) := by
  rw [acceptedBy, sentPayloads, List.map_filterMap, List.filterMap_map]
  refine List.filterMap_congr fun o _ => ?_
  cases o <;> rfl

/-- The sends of one step, with its connection. -/
theorem acceptedBy_ofConnection (i : Nat) (out : List SystemOutput) :
    acceptedBy (out.map (SystemOutput.ofConnection i)) =
      (sentPayloads out).map fun p => (i, p) := by
  rw [acceptedBy, sentPayloads, List.map_filterMap, List.filterMap_map]
  refine List.filterMap_congr fun o _ => ?_
  cases o <;> rfl

/-! ### The account of a connection -/

/-- The payloads of a connection that its handler has still to send. -/
def Connection.left (c : Connection) : Handler → List (List UInt8)
  | .reading         => framesOf c.unread
  | .sending payload => payload :: framesOf c.unread
  | .finished        => []

/-- The frames of a connection's stream were accepted, wait in its handler, or are unread, in this
    order.  A handler that has finished may have left a rest behind, unless the account is
    `whole`. -/
def Flow (whole : Prop) (accepted : List (List UInt8)) (c : Connection) (h : Handler) : Prop :=
  accepted ++ c.left h <+: framesOf c.written ∧
    (whole ∨ h ≠ .finished → framesOf c.written = accepted ++ c.left h)

section
variable {whole : Prop} {accepted : List (List UInt8)} {c : Connection}

/-- The account of a handler that goes on. -/
theorem flow_of_eq {h : Handler} (heq : framesOf c.written = accepted ++ c.left h) :
    Flow whole accepted c h := ⟨⟨[], by rw [heq, List.append_nil]⟩, fun _ => heq⟩

/-- What was accepted from a connection, its client has written. -/
theorem Flow.isPrefix {h : Handler} (hflow : Flow whole accepted c h) :
    accepted <+: framesOf c.written := (List.prefix_append _ _).trans hflow.1

/-- A handler may give up unless the account is whole. -/
theorem Flow.giveUp {h : Handler} (hflow : Flow whole accepted c h) (hcutoff : ¬ whole) :
    Flow whole accepted c .finished := by
  refine ⟨?_, fun hor => absurd hor (by simp [hcutoff])⟩
  show accepted ++ [] <+: _
  rw [List.append_nil]
  exact hflow.isPrefix

/-- A read takes the next frame off the stream, or finishes the handler when there is none. -/
theorem Flow.read (hflow : Flow whole accepted c .reading) :
    Flow whole accepted { c with unread := (readFrame c.unread).1 }
      (ReadOutcome.ready (readFrame c.unread).2).next := by
  have heq : framesOf c.written = accepted ++ framesOf c.unread := hflow.2 (.inr (by simp))
  have hframes : framesOf c.unread = (readFrames c.unread).1 := rfl
  refine flow_of_eq ?_
  rw [readFrames] at hframes
  split at hframes
  · next h =>
    rw [h]
    exact heq.trans (congrArg (accepted ++ ·) hframes)
  · next h =>
    rw [h]
    exact heq.trans (congrArg (accepted ++ ·) hframes)
  · next r payload h =>
    rw [h]
    exact heq.trans (congrArg (accepted ++ ·) hframes)

/-- The payload in the handler is the next frame that is accepted. -/
theorem Flow.send {payload : List UInt8} (hflow : Flow whole accepted c (.sending payload)) :
    Flow whole (accepted ++ [payload]) c .reading := by
  have heq : framesOf c.written = accepted ++ payload :: framesOf c.unread :=
    hflow.2 (.inr (by simp))
  refine flow_of_eq ?_
  rw [heq, List.append_assoc]
  rfl

end

/-- The account of all connections, each with its handler. -/
structure Flows (whole : Prop) (out : List ServingOutput) (handlers : List Handler)
    (connections : List Connection) : Prop where
  length_eq : connections.length = handlers.length
  known : ∀ x ∈ acceptedBy out, x.1 < connections.length
  flow : ∀ i c h, connections[i]? = some c → handlers[i]? = some h →
    Flow whole (acceptedFrom i out) c h

/-- There are no connections at first. -/
theorem flows_nil (whole : Prop) : Flows whole [] [] [] where
  length_eq := rfl
  known := by simp [acceptedBy]
  flow i c h hc := by simp at hc

section
variable {whole : Prop} {out : List ServingOutput} {handlers : List Handler}
  {connections : List Connection}

/-- What the broker does is no account of a connection. -/
theorem Flows.quiet (h : Flows whole out handlers connections) {out' : List ServingOutput}
    (hout : acceptedBy out' = []) : Flows whole (out ++ out') handlers connections where
  length_eq := h.length_eq
  known := by
    rw [acceptedBy_append, hout, List.append_nil]
    exact h.known
  flow i c hd hc hh := by
    have hnone : acceptedFrom i out' = [] := by rw [acceptedFrom, hout]; rfl
    rw [acceptedFrom_append, hnone, List.append_nil]
    exact h.flow i c hd hc hh

/-- Nothing was accepted from a connection that does not exist yet. -/
theorem Flows.acceptedFrom_new (h : Flows whole out handlers connections) {i : Nat}
    (hi : connections.length ≤ i) : acceptedFrom i out = [] := by
  rw [acceptedFrom, List.filter_eq_nil_iff.mpr fun x hx => ?_, List.map_nil]
  have hlt := h.known x hx
  simp only [decide_eq_true_eq]
  omega

/-- **Step lemma.** A client connects. -/
theorem Flows.connect (h : Flows whole out handlers connections) (stream : Reader) :
    Flows whole out (handlers ++ [.reading]) (connections ++ [⟨stream, stream⟩]) where
  length_eq := by simp [h.length_eq]
  known x hx := by
    have hlt := h.known x hx
    rw [List.length_append]
    omega
  flow i c hd hc hh := by
    rw [List.getElem?_append] at hc hh
    rw [← h.length_eq] at hh
    split at hc
    · next hlt =>
      rw [if_pos hlt] at hh
      exact h.flow i c hd hc hh
    · next hge =>
      rw [if_neg hge] at hh
      rw [h.acceptedFrom_new (Nat.le_of_not_lt hge)]
      obtain rfl : c = ⟨stream, stream⟩ := List.mem_singleton.mp (List.mem_of_getElem? hc)
      obtain rfl : hd = .reading := List.mem_singleton.mp (List.mem_of_getElem? hh)
      exact flow_of_eq rfl

/-- **Step lemma.** A handler moves on, and its connection is read on or not. -/
theorem Flows.setHandler (h : Flows whole out handlers connections) {i : Nat} (hd : Handler)
    (f : Connection → Connection)
    (hflow : ∀ c, connections[i]? = some c → Flow whole (acceptedFrom i out) (f c) hd) :
    Flows whole out (handlers.set i hd) (connections.modify i f) where
  length_eq := by rw [List.length_modify, List.length_set, h.length_eq]
  known := by simpa using h.known
  flow j c hd' hc hh := by
    rw [List.getElem?_modify] at hc
    rw [List.getElem?_set] at hh
    by_cases hij : i = j
    · subst hij
      rw [if_pos rfl] at hh
      simp only [if_true, Option.map_eq_map, Option.map_eq_some_iff] at hc
      obtain ⟨c', hc', rfl⟩ := hc
      split at hh
      · obtain rfl := Option.some.inj hh
        exact hflow c' hc'
      · exact absurd hh (by simp)
    · rw [if_neg hij] at hh
      simp only [if_neg hij, Option.map_eq_map, Option.map_id_fun', id_eq] at hc
      exact h.flow j c hd' hc hh

/-- **Step lemma.** A handler gives up. -/
theorem Flows.finish (h : Flows whole out handlers connections) (hcutoff : ¬ whole) (i : Nat) :
    Flows whole out (handlers.set i .finished) connections := by
  have hset := h.setHandler (i := i) .finished id fun c hc => ?_
  · rwa [List.modify_id] at hset
  · by_cases hlt : i < handlers.length
    · exact (h.flow i c _ hc (List.getElem?_eq_getElem hlt)).giveUp hcutoff
    · obtain ⟨hlt', -⟩ := List.getElem?_eq_some_iff.mp hc
      exact absurd (h.length_eq ▸ hlt') hlt

/-- **Step lemma.** The payload in a handler is accepted. -/
theorem Flows.send (h : Flows whole out handlers connections) {i : Nat} {payload : List UInt8}
    (hi : handlers[i]? = some (.sending payload)) {out' : List ServingOutput}
    (hout : acceptedBy out' = [(i, payload)]) :
    Flows whole (out ++ out') (handlers.set i .reading) connections := by
  have hfrom : ∀ j, acceptedFrom j out' = if i = j then [payload] else [] := by
    intro j
    rw [acceptedFrom, hout]
    by_cases hij : i = j <;> simp [hij]
  obtain ⟨hlt, -⟩ := List.getElem?_eq_some_iff.mp hi
  refine ⟨by rw [List.length_set, h.length_eq], fun x hx => ?_, fun j c hd hc hh => ?_⟩
  · rw [acceptedBy_append, hout, List.mem_append, List.mem_singleton] at hx
    rcases hx with hx | rfl
    · exact h.known x hx
    · exact h.length_eq ▸ hlt
  · rw [acceptedFrom_append, hfrom]
    rw [List.getElem?_set] at hh
    by_cases hij : i = j
    · subst hij
      rw [if_pos rfl, if_pos hlt] at hh
      obtain rfl := Option.some.inj hh
      rw [if_pos rfl]
      exact (h.flow i c _ hc hi).send
    · rw [if_neg hij] at hh ⊢
      rw [List.append_nil]
      exact h.flow j c hd hc hh

end

section
variable {decode : List UInt8 → Option NormalizedEvent} {whole : Prop} {out : List ServingOutput}
  {s : Serving}

/-- Nothing is given up in the step: the daemon serves, and the step is calm. -/
structure ServingAction.KeepsAll (s : Serving) (a : ServingAction) : Prop where
  serves : s.system.Serves
  isOpen : s.system.channel.closed = false
  calm : a.Calm

/-- A read that no handler waits for does nothing. -/
theorem systemStep_read_of_ne {s : System} {i : Nat} (h : s.handlers[i]? ≠ some .reading)
    (outcome : ReadOutcome) : systemStep decode s (.read i outcome) = (s, []) := by
  simp only [systemStep]

/-- **Step lemma.** Every step keeps the account of the connections, a whole one if nothing is given
    up in it. -/
theorem Flows.step (h : Flows whole out s.system.handlers s.connections) {a : ServingAction}
    (ha : a.Possible s) (hwhole : whole → a.KeepsAll s) :
    Flows whole (out ++ (servingStep decode s a).2) (servingStep decode s a).1.system.handlers
      (servingStep decode s a).1.connections := by
  cases a with
  | connect stream =>
    by_cases hroom : s.system.server = .accepting ∧ s.system.served < s.system.maxConnections
    · simpa [servingStep, ServingAction.toSystem, ServingAction.connections, systemStep, hroom]
        using h.connect stream
    · simpa [servingStep, ServingAction.toSystem, ServingAction.connections, systemStep, hroom]
        using h
  | readNext i =>
    by_cases hreading : s.system.handlers[i]? = some .reading
    · -- there is a connection for every handler
      obtain ⟨hlt, -⟩ := List.getElem?_eq_some_iff.mp hreading
      obtain ⟨c, hc⟩ : ∃ c, s.connections[i]? = some c :=
        ⟨_, List.getElem?_eq_getElem (h.length_eq ▸ hlt)⟩
      have hread := h.setHandler (i := i) (ReadOutcome.ready (readFrame c.unread).2).next
        (fun c => { c with unread := (readFrame c.unread).1 }) fun c' hc' => ?_
      · simpa [servingStep, ServingAction.toSystem, ServingAction.connections, systemStep, hreading,
          hc, System.setHandler] using hread
      · obtain rfl := Option.some.inj (hc.symm.trans hc')
        exact (h.flow i c .reading hc hreading).read
    · simpa [servingStep, ServingAction.toSystem, ServingAction.connections,
        systemStep_read_of_ne hreading, hreading] using h
  | elapse i =>
    have hcutoff : ¬ whole := fun hw => (hwhole hw).calm
    by_cases hreading : s.system.handlers[i]? = some .reading
    · simpa [servingStep, ServingAction.toSystem, ServingAction.connections, systemStep, hreading,
        System.setHandler, ReadOutcome.next] using h.finish hcutoff i
    · simpa [servingStep, ServingAction.toSystem, ServingAction.connections,
        systemStep_read_of_ne hreading] using h
  | step a =>
    have hmove := systemStep_handlerMove decode s.system a
    have hout : acceptedBy (servingStep decode s (.step a)).2 =
        (sentPayloads (systemStep decode s.system a).2).map
          fun p => ((ServingAction.step a).connection, p) := acceptedBy_ofConnection _ _
    show Flows _ _ (systemStep decode s.system a).1.handlers s.connections
    generalize (systemStep decode s.system a).1.handlers = handlers at hmove ⊢
    generalize sentPayloads (systemStep decode s.system a).2 = sent at hmove hout
    cases hmove with
    | stay => exact h.quiet hout
    | accepted => exact absurd ha id
    | read => exact absurd ha id
    | sent i payload hi => exact h.send hi hout
    | refused i payload hi hclosed =>
      have hcutoff : ¬ whole := fun hw => by simp [(hwhole hw).isOpen] at hclosed
      exact (h.finish hcutoff i).quiet hout
    | aborted i hserver =>
      have hcutoff : ¬ whole := fun hw => by simp [(hwhole hw).serves.server] at hserver
      exact (h.finish hcutoff i).quiet hout

/-! ### From the bytes of the clients to the ingestions -/

/-- What is possible with the clients is possible without them. -/
theorem ServingAction.Possible.toSystem {a : ServingAction} (ha : a.Possible s) :
    (a.toSystem s).Possible s.system := by
  cases a with
  | connect => trivial
  | readNext => trivial
  | elapse => trivial
  | step a => cases a <;> first | exact ha | trivial

/-- The step without the clients emits the same. -/
theorem servingStep_forget (a : ServingAction) :
    (servingStep decode s a).2.map ServingOutput.forget =
      (systemStep decode s.system (a.toSystem s)).2 := by
  show ((systemStep decode s.system (a.toSystem s)).2.map _).map _ = _
  rw [List.map_map]
  exact List.map_id'' (forget_ofConnection _) _

/-- A daemon that serves has an open channel. -/
theorem Account.isOpen_of_serves {out : List SystemOutput} {s : System}
    {received waiting : List (List UInt8)} (h : Account decode out s received waiting)
    (hserves : s.Serves) : s.channel.closed = false :=
  h.isOpen (by simp [hserves.phase])

/-- A calm action is no signal. -/
theorem ServingAction.Calm.toSystem_ne {a : ServingAction} (ha : a.Calm) :
    a.toSystem s ≠ .signal := by
  cases a with
  | step a =>
    rintro rfl
    exact ha
  | connect => exact SystemAction.noConfusion
  | readNext => exact SystemAction.noConfusion
  | elapse => exact SystemAction.noConfusion

/-- **Run lemma.** Every run keeps the accounts, of the connections and of the channel; in a run of
    calm steps those of the connections are whole, and the daemon serves on. -/
theorem flows_run (whole : Prop) {maxConnections : Nat} {ops : List ServingAction}
    (hrun : ServingRun decode (Serving.start maxConnections) ops)
    (hcalm : whole → ∀ a ∈ ops, a.Calm) :
    let s := exec (servingStep decode) (Serving.start maxConnections) ops
    let out := trace (servingStep decode) (Serving.start maxConnections) ops
    Flows whole out s.system.handlers s.connections ∧ (whole → s.system.Serves) ∧
      ∃ received waiting, Account decode (out.map ServingOutput.forget) s.system received
        waiting := by
  let Accounts (out : List ServingOutput) (s : Serving) :=
    Flows whole out s.system.handlers s.connections ∧ (whole → s.system.Serves) ∧
      ∃ received waiting, Account decode (out.map ServingOutput.forget) s.system received waiting
  have hstep : ∀ out s (a : ServingAction), a.Possible s ∧ (whole → a.Calm) → Accounts out s →
      Accounts (out ++ (servingStep decode s a).2) (servingStep decode s a).1 := by
    rintro out s a ⟨ha, hcalm⟩ ⟨hflows, hserves, received, waiting, haccount⟩
    refine ⟨hflows.step ha fun hw => ⟨hserves hw, ?_, hcalm hw⟩, fun hw => ?_, ?_⟩
    · exact haccount.isOpen_of_serves (hserves hw)
    · exact (hserves hw).step decode (hcalm hw).toSystem_ne
    · rw [List.map_append, servingStep_forget]
      exact (haccount.step ha.toSystem).1
  have hstart : Accounts [] (Serving.start maxConnections) :=
    ⟨flows_nil whole, fun _ => System.serves_start _, [], [], account_start maxConnections⟩
  simpa using Along.trace_inv Accounts hstep (hrun.and_of_mem fun a ha hw => hcalm hw a ha) hstart

/-- What is ingested was accepted, as often at most. -/
theorem Account.ingested_subperm {out : List SystemOutput} {s : System}
    {received waiting : List (List UInt8)} (h : Account decode out s received waiting) :
    (ingestedBy out).Subperm ((sentPayloads out).filterMap decode) := by
  obtain ⟨buffered, -, hperm⟩ := h.task.buffered
  have hsub : (ingestedBy out).Subperm (received.filterMap decode) :=
    (List.sublist_append_left _ _).subperm.trans hperm.symm.subperm
  refine hsub.trans ?_
  rw [h.channel.fifo, List.filterMap_append]
  exact (List.sublist_append_left _ _).subperm

/-- What was accepted from all connections is part of what their clients have written. -/
theorem Flows.accepted_subperm {handlers : List Handler} {connections : List Connection}
    (h : Flows whole out handlers connections) :
    ((acceptedBy out).map Prod.snd).Subperm
      (connections.flatMap fun c => framesOf c.written) := by
  -- connection by connection
  have hparts := (perm_flatMap_filter Prod.fst h.known).map Prod.snd
  rw [List.map_flatMap] at hparts
  refine hparts.subperm.trans (List.Sublist.subperm (sublist_flatMap_range fun i c hc => ?_))
  obtain ⟨hlt, -⟩ := List.getElem?_eq_some_iff.mp hc
  have hhandler := List.getElem?_eq_getElem (h.length_eq ▸ hlt)
  exact (h.flow i c _ hc hhandler).isPrefix.sublist

/-- What is ingested, the clients have framed, as often at least. -/
theorem ingested_subperm_framed {maxConnections : Nat} {ops : List ServingAction}
    (hrun : ServingRun decode (Serving.start maxConnections) ops) :
    (ingestedBy ((trace (servingStep decode) (Serving.start maxConnections) ops).map
        ServingOutput.forget)).Subperm
      (((exec (servingStep decode) (Serving.start maxConnections) ops).connections.flatMap
        fun c => framesOf c.written).filterMap decode) := by
  obtain ⟨hflows, -, received, waiting, haccount⟩ := flows_run False hrun False.elim
  refine haccount.ingested_subperm.trans ?_
  rw [← map_snd_acceptedBy]
  obtain ⟨part, hperm, hsub⟩ := hflows.accepted_subperm
  exact (hperm.symm.filterMap decode).subperm.trans (hsub.filterMap decode).subperm

/-- **Nothing is invented, repeated or reordered.** In every run of the daemon with its clients:
    what was accepted from a connection is the beginning of the payloads its client has framed, all
    that was read of it if its handler reads on; and the events that are ingested are among those
    that the frames of the clients decode to, none more often than it was framed. -/
theorem frames_delivered (decode : List UInt8 → Option NormalizedEvent) (maxConnections : Nat)
    (ops : List ServingAction) (hrun : ServingRun decode (Serving.start maxConnections) ops) :
    let s := exec (servingStep decode) (Serving.start maxConnections) ops
    let out := trace (servingStep decode) (Serving.start maxConnections) ops
    (∀ i c, s.connections[i]? = some c →
      acceptedFrom i out <+: framesOf c.written ∧
      (s.system.handlers[i]? = some .reading →
        framesOf c.written = acceptedFrom i out ++ framesOf c.unread)) ∧
    (ingestedBy (out.map ServingOutput.forget)).Subperm
      ((s.connections.flatMap fun c => framesOf c.written).filterMap decode) := by
  intro s out
  obtain ⟨hflows, -⟩ := flows_run False hrun False.elim
  refine ⟨fun i c hc => ⟨?_, fun hreading => ?_⟩, ingested_subperm_framed hrun⟩
  · obtain ⟨hlt, -⟩ := List.getElem?_eq_some_iff.mp hc
    have hhandler := List.getElem?_eq_getElem (hflows.length_eq ▸ hlt)
    exact (hflows.flow i c _ hc hhandler).isPrefix
  · exact (hflows.flow i c _ hc hreading).2 (.inr (by simp))

/-- A client that writes two frames and a piece of a third one. -/
def chattyClient : Reader where
  bytes := frameOf [1, 2] ++ frameOf [3] ++ [0, 0]
  atEnd := .unexpectedEof

/-- Its first payload is accepted, the second one waits in the handler. -/
theorem frames_delivered_chatty :
    let ops : List ServingAction :=
      [.connect chattyClient, .readNext 0, .step (.send 0), .readNext 0]
    let s := exec (servingStep fun _ => none) (Serving.start 1) ops
    let out := trace (servingStep fun _ => none) (Serving.start 1) ops
    (∀ i c, s.connections[i]? = some c →
      acceptedFrom i out <+: framesOf c.written ∧
      (s.system.handlers[i]? = some .reading →
        framesOf c.written = acceptedFrom i out ++ framesOf c.unread)) ∧
    (ingestedBy (out.map ServingOutput.forget)).Subperm
      ((s.connections.flatMap fun c => framesOf c.written).filterMap fun _ => none) :=
  frames_delivered (fun _ => none) 1
    [.connect chattyClient, .readNext 0, .step (.send 0), .readNext 0]
    ⟨trivial, trivial, trivial, trivial, trivial⟩

end

end AgentTermStatus
