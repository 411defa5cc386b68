import AgentTermStatus.Daemon.Connections
import AgentTermStatus.Cli.HookCommands
import AgentTermStatus.Wire.RoundTrip

namespace AgentTermStatus

open Lib

/-!
# From the command line to the state engine

`frames_delivered` says what can never be ingested.  As long as nobody asks the daemon to stop and
no client is silent for too long (`ServingAction.Calm`), nothing is lost on the way either: all that
the clients have framed was ingested, or is buffered, in the channel, in a handler or unread.

* `events_conserved` — this balance;
* `IngestCall` — a client that is a run of `ats ingest`, with the event it sends, if any;
* `ingests_delivered` — what the daemon ingests of such clients.
-/

/-! ### On the way -/

/-- The payloads on the way to the broker. -/
def Serving.inTransit (s : Serving) : List (List UInt8) :=
  s.system.channel.queue ++
    (List.zipWith Connection.left s.connections s.system.handlers).flatten

section
variable {decode : List UInt8 → Option NormalizedEvent} {out : List ServingOutput}

/-- What the clients have framed was accepted or is left. -/
theorem Flows.frames_perm {handlers : List Handler} {connections : List Connection}
    (h : Flows True out handlers connections) :
    (connections.flatMap fun c => framesOf c.written).Perm
      ((acceptedBy out).map Prod.snd ++
        (List.zipWith Connection.left connections handlers).flatten) := by
  let leftAt (i : Nat) := ((List.zipWith Connection.left connections handlers)[i]?).getD []
  -- connection by connection
  have hwritten : (connections.flatMap fun c => framesOf c.written) =
      (List.range connections.length).flatMap fun i => acceptedFrom i out ++ leftAt i := by
    refine flatMap_eq_flatMap_range fun i c hc => ?_
    obtain ⟨hlt, -⟩ := List.getElem?_eq_some_iff.mp hc
    obtain ⟨hd, hhandler⟩ : ∃ hd, handlers[i]? = some hd :=
      ⟨_, List.getElem?_eq_getElem (h.length_eq ▸ hlt)⟩
    have hleft : leftAt i = c.left hd := by
      simp only [leftAt, List.getElem?_zipWith, hc, hhandler, Option.getD_some]
    rw [hleft]
    exact (h.flow i c _ hc hhandler).2 (.inl trivial)
  have hlength : (List.zipWith Connection.left connections handlers).length =
      connections.length := by
    rw [List.length_zipWith, h.length_eq, Nat.min_self]
  have hleft : (List.zipWith Connection.left connections handlers).flatten =
      (List.range connections.length).flatMap leftAt := by
    rw [← List.flatMap_id, ← hlength]
    refine flatMap_eq_flatMap_range fun i xs hxs => ?_
    simp only [leftAt, hxs, Option.getD_some, id]
  have haccepted := (perm_flatMap_filter Prod.fst h.known).map Prod.snd
  rw [List.map_flatMap] at haccepted
  rw [hwritten, hleft]
  exact (List.flatMap_append_perm _ _ _).symm.trans (haccepted.symm.append_right _)

/-- **The balance of a run.** -/
theorem conserved_run {maxConnections : Nat} {ops : List ServingAction}
    (hrun : ServingRun decode (Serving.start maxConnections) ops) (hcalm : ∀ a ∈ ops, a.Calm) :
    let s := exec (servingStep decode) (Serving.start maxConnections) ops
    let out := trace (servingStep decode) (Serving.start maxConnections) ops
    ∃ buffered, s.system.task.broker.Holds buffered ∧
      ((s.connections.flatMap fun c => framesOf c.written).filterMap decode).Perm
        (ingestedBy (out.map ServingOutput.forget) ++
          (buffered ++ s.inTransit.filterMap decode)) := by
  intro s out
  obtain ⟨hflows, hserves, received, waiting, haccount⟩ := flows_run True hrun fun _ => hcalm
  obtain ⟨buffered, hholds, hperm⟩ := haccount.task.buffered
  -- what was accepted was received by the broker or waits in the channel
  have hfifo : (acceptedBy out).map Prod.snd = received ++ s.system.channel.queue := by
    rw [map_snd_acceptedBy, haccount.channel.fifo,
      haccount.channel.waits (haccount.isOpen_of_serves (hserves trivial))]
  refine ⟨buffered, hholds, (hflows.frames_perm.filterMap decode).trans ?_⟩
  rw [hfifo, Serving.inTransit]
  simp only [List.filterMap_append, List.append_assoc]
  rw [← List.append_assoc (ingestedBy _)]
  exact hperm.append_right _

end

/-- **Nothing is lost on the way.** In every run of the daemon and its clients in which no read
    takes too long and nobody asks the daemon to stop: the events that the clients have framed on
    the connections that were accepted are, each as often as it was framed, those that were
    ingested, those that are buffered, and those that are on the way. -/
theorem events_conserved (decode : List UInt8 → Option NormalizedEvent) (maxConnections : Nat)
    (ops : List ServingAction) (hrun : ServingRun decode (Serving.start maxConnections) ops)
    (hcalm : ∀ a ∈ ops, a.Calm) :
    let s := exec (servingStep decode) (Serving.start maxConnections) ops
    let out := trace (servingStep decode) (Serving.start maxConnections) ops
    ∃ buffered, s.system.task.broker.Holds buffered ∧
      ((s.connections.flatMap fun c => framesOf c.written).filterMap decode).Perm
        (ingestedBy (out.map ServingOutput.forget) ++
          (buffered ++ s.inTransit.filterMap decode)) :=
  conserved_run hrun hcalm

/-- The first frame of a client waits in its handler, the second one is unread. -/
theorem events_conserved_chatty :
    let ops : List ServingAction := [.connect chattyClient, .readNext 0]
    let s := exec (servingStep fun _ => some epochEvent) (Serving.start 1) ops
    let out := trace (servingStep fun _ => some epochEvent) (Serving.start 1) ops
    ∃ buffered, s.system.task.broker.Holds buffered ∧
      ((s.connections.flatMap fun c => framesOf c.written).filterMap
          fun _ => some epochEvent).Perm
        (ingestedBy (out.map ServingOutput.forget) ++
          (buffered ++ s.inTransit.filterMap fun _ => some epochEvent)) :=
  events_conserved (fun _ => some epochEvent) 1 [.connect chattyClient, .readNext 0]
    ⟨trivial, trivial, trivial⟩ (by simp [ServingAction.Calm])

/-! ### Runs of `ats ingest` -/

/-- A run of `ats ingest` that reaches the daemon. -/
structure IngestCall where
  newEventId : Uuid
  provider : String
  stdin : List UInt8

/-- The event that is sent, unless its text is too long for a frame. -/
def IngestCall.event (F : TextForms) (call : IngestCall) : Option NormalizedEvent :=
  ((readValue F call.stdin).bind (buildEvent F call.newEventId call.provider)).filter fun e =>
    (encodePayload F e).length ≤ maxFrameBytes.toNat

/-- What is written on the connection. -/
def IngestCall.wire (F : TextForms) (call : IngestCall) : List UInt8 :=
  (runIngest F bufferWriter call.newEventId call.provider (some []) call.stdin).getD []

section
variable {F : TextForms}

/-- What is written is the frame of the event, or nothing. -/
theorem IngestCall.wire_eq (call : IngestCall) :
    call.wire F = ((call.event F).map fun e => frameOf (encodePayload F e)).getD [] := by
  unfold wire event runIngest
  cases readValue F call.stdin with
  | none => rfl
  | some value =>
    simp only [Option.bind_some]
    cases buildEvent F call.newEventId call.provider value with
    | none => rfl
    | some e =>
      rw [Option.filter_some]
      show (writeFrameTo bufferWriter [] (encodePayload F e)).1 = _
      by_cases hfits : (encodePayload F e).length ≤ maxFrameBytes.toNat
      · rw [writeFrameTo_buffer [] hfits, if_pos (decide_eq_true hfits)]
        rfl
      · rw [writeFrameTo, if_pos (Nat.lt_of_not_le hfits), if_neg (by simpa using hfits)]
        rfl

/-- The text of an event that is sent decodes to it. -/
theorem IngestCall.decode_event {call : IngestCall} {e : NormalizedEvent}
    (h : call.event F = some e) (hF : F.ReadsBack e) :
    (encodePayload F e).length ≤ maxFrameBytes.toNat ∧
      decodePayload F (encodePayload F e) = some e := by
  obtain ⟨hbuild, hfits⟩ := Option.filter_eq_some_iff.mp h
  obtain ⟨value, hvalue, hbuild⟩ := Option.bind_eq_some_iff.mp hbuild
  obtain ⟨doc, hdoc, rfl⟩ := Option.map_eq_some_iff.mp hvalue
  obtain ⟨raw, -, hread⟩ := Option.bind_eq_some_iff.mp hdoc
  obtain ⟨parsed, -, hlimit⟩ := Option.bind_eq_some_iff.mp hread
  obtain ⟨hdepth, hparsed⟩ := Option.ite_none_right_eq_some.mp hlimit
  obtain rfl := Option.some.inj hparsed
  obtain ⟨decoded, hdecode, rfl⟩ := Option.map_eq_some_iff.mp hbuild
  -- what was read was not nested too deeply, so neither is what is sent
  have hshallow : Shallow decoded :=
    shallow_of_decodeEvent (lt_of_le_of_lt (Json.depth_canonical_le parsed) hdepth) hdecode
  exact ⟨of_decide_eq_true hfits, decodePayload_encodePayload hF hshallow⟩

/-- There is no frame in an empty stream. -/
theorem framesOf_empty (k : TransportErrorKind) : framesOf ⟨[], k⟩ = [] := by
  rw [framesOf, readFrames]
  cases k <;> rfl

/-- There is a frame in the beginning of its bytes only if they are all there. -/
theorem framesOf_cut (p : Payload) {bytes : List UInt8} (h : bytes <+: frameOf p.val)
    (k : TransportErrorKind) :
    framesOf ⟨bytes, k⟩ = if bytes = frameOf p.val then [p.val] else [] := by
  by_cases hall : bytes = frameOf p.val
  · have hone := readFrames_frame p [] k
    rw [List.append_nil] at hone
    have hrest : (readFrames ⟨[], k⟩).1 = [] := framesOf_empty k
    rw [if_pos hall, hall, framesOf, hone, hrest]
  · rw [if_neg hall, framesOf, readFrames]
    split
    · rfl
    · rfl
    · next r payload hread =>
      -- the stream would start with a whole frame, which can only be that of the payload
      obtain ⟨hfits, -, hbytes⟩ := frameOf_of_readFrame hread
      obtain ⟨more, hmore⟩ := h
      have hframe := readFrame_frameOf p [] k
      rw [List.append_nil, ← hmore, hbytes, List.append_assoc,
        readFrame_frameOf ⟨payload, hfits⟩] at hframe
      have hnil : r.bytes ++ more = [] := congrArg Reader.bytes (Prod.mk.inj hframe).1
      rw [(List.append_eq_nil_iff.mp hnil).2, List.append_nil] at hmore
      exact absurd hmore hall

/-- The client of a connection is a run of `ats ingest`, which may have been cut off. -/
def Connection.ServesCall (F : TextForms) (c : Connection) (call : IngestCall) : Prop :=
  c.written.bytes <+: call.wire F

/-- The events framed on a connection: that of the run, unless it was cut off. -/
theorem events_of_call {c : Connection} {call : IngestCall} (hclient : c.ServesCall F call)
    (hF : ∀ e ∈ call.event F, F.ReadsBack e) :
    (framesOf c.written).filterMap (decodePayload F) =
      if c.written.bytes = call.wire F then (call.event F).toList else [] := by
  obtain ⟨⟨bytes, k⟩, unread⟩ := c
  have hcut : bytes <+: call.wire F := hclient
  show (framesOf ⟨bytes, k⟩).filterMap (decodePayload F) = if bytes = _ then _ else _
  rw [call.wire_eq] at hcut ⊢
  cases hevent : call.event F with
  | none =>
    rw [hevent] at hcut
    obtain rfl : bytes = [] := List.prefix_nil.mp hcut
    rw [framesOf_empty]
    exact (ite_self _).symm
  | some e =>
    rw [hevent] at hcut
    obtain ⟨hfits, hdecode⟩ := IngestCall.decode_event hevent (hF e hevent)
    rw [framesOf_cut ⟨encodePayload F e, hfits⟩ hcut k]
    show List.filterMap _ (if bytes = frameOf (encodePayload F e) then _ else _) =
      if bytes = frameOf (encodePayload F e) then _ else _
    split
    · rw [List.filterMap_cons, hdecode]
      rfl
    · rfl

/-- The events framed on some connections are among those of their runs, and all of those if no
    run was cut off. -/
theorem events_of_calls {connections : List Connection} {calls : List IngestCall}
    (hclients : List.Forall₂ (Connection.ServesCall F) connections calls)
    (hF : ∀ call ∈ calls, ∀ e ∈ call.event F, F.ReadsBack e) :
    ((connections.flatMap fun c => framesOf c.written).filterMap (decodePayload F)).Sublist
        (calls.filterMap (IngestCall.event F)) ∧
      (List.Forall₂ (fun c call => c.written.bytes = call.wire F) connections calls →
        (connections.flatMap fun c => framesOf c.written).filterMap (decodePayload F) =
          calls.filterMap (IngestCall.event F)) := by
  induction hclients with
  | nil => exact ⟨List.Sublist.refl _, fun _ => rfl⟩
  | @cons c call connections calls hclient _ ih =>
    rw [List.forall_mem_cons] at hF
    obtain ⟨hsub, heq⟩ := ih hF.2
    have hcons : (call :: calls).filterMap (IngestCall.event F) =
        (call.event F).toList ++ calls.filterMap (IngestCall.event F) := by
      rw [List.filterMap_cons]
      cases call.event F <;> rfl
    rw [List.flatMap_cons, List.filterMap_append, events_of_call hclient hF.1, hcons]
    refine ⟨List.Sublist.append ?_ hsub, fun hwhole => ?_⟩
    · split
      · exact List.Sublist.refl _
      · exact List.nil_sublist _
    · obtain ⟨hfirst, hrest⟩ := List.forall₂_cons.mp hwhole
      rw [if_pos hfirst, heq hrest]

end

/-- **From the command line to the state engine.** Let the clients be runs of `ats ingest`, some of
    them cut off, and the text forms read back the events they send.  Whatever the daemon's tasks
    do, the events it ingests are among those the runs send, none more often than it was sent.  If
    no run is cut off, no read takes too long and nobody asks the daemon to stop, each event that
    was sent has been ingested, is buffered or is on the way, as often as it was sent. -/
theorem ingests_delivered (F : TextForms) (maxConnections : Nat) (ops : List ServingAction)
    (hrun : ServingRun (decodePayload F) (Serving.start maxConnections) ops)
    (calls : List IngestCall)
    (hclients : List.Forall₂ (Connection.ServesCall F)
      (exec (servingStep (decodePayload F)) (Serving.start maxConnections) ops).connections calls)
    (hF : ∀ call ∈ calls, ∀ e ∈ call.event F, F.ReadsBack e) :
    let s := exec (servingStep (decodePayload F)) (Serving.start maxConnections) ops
    let out := trace (servingStep (decodePayload F)) (Serving.start maxConnections) ops
    (ingestedBy (out.map ServingOutput.forget)).Subperm
      (calls.filterMap (IngestCall.event F)) ∧
    ((∀ a ∈ ops, a.Calm) →
      List.Forall₂ (fun c call => c.written.bytes = call.wire F) s.connections calls →
      ∃ buffered, s.system.task.broker.Holds buffered ∧
        (calls.filterMap (IngestCall.event F)).Perm
          (ingestedBy (out.map ServingOutput.forget) ++
            (buffered ++ s.inTransit.filterMap (decodePayload F)))) := by
  intro s out
  obtain ⟨hsub, hwhole⟩ := events_of_calls hclients hF
  refine ⟨(ingested_subperm_framed hrun).trans hsub.subperm, fun hcalm hall => ?_⟩
  rw [← hwhole hall]
  exact conserved_run hrun hcalm

/-- A run of the command that finds an event on standard input. -/
def epochCall : IngestCall where
  newEventId := 7
  provider := "test"
  stdin := encodePayload epochForms epochEvent

/-- It sends the event. -/
theorem event_epochCall : epochCall.event epochForms = some epochEvent := by
  have hstdin : epochCall.stdin = textBytes (epochEventText ++ "\x7b\x7d\x7d") := by decide +kernel
  have hread : readValue epochForms epochCall.stdin =
      some (encodeEvent epochForms epochEvent).value := by
    have hdoc := readDocument_encodePayload (F := epochForms) (e := epochEvent)
      (oneEventForms_readsBack _ _ _) fun k v h => by simp [epochEvent, NormalizedEvent.bare] at h
    rw [readValue, hstdin, readToString_textBytes (by decide +kernel), Option.bind_some, ← hstdin]
    exact congrArg _ hdoc
  have hfits : (encodePayload epochForms epochEvent).length ≤ maxFrameBytes.toNat := by
    decide +kernel
  rw [IngestCall.event, hread, Option.bind_some]
  show Option.filter _ (some epochEvent) = _
  rw [Option.filter_some, if_pos (decide_eq_true hfits)]

/-- Its event is read, and waits for the broker. -/
theorem ingests_delivered_epoch :
    let ops : List ServingAction :=
      [.connect ⟨epochCall.wire epochForms, .unexpectedEof⟩, .readNext 0]
    let s := exec (servingStep (decodePayload epochForms)) (Serving.start 1) ops
    let out := trace (servingStep (decodePayload epochForms)) (Serving.start 1) ops
    ∃ buffered, s.system.task.broker.Holds buffered ∧
      [epochEvent].Perm (ingestedBy (out.map ServingOutput.forget) ++
        (buffered ++ s.inTransit.filterMap (decodePayload epochForms))) := by
  -- the bytes of the stream play no part in the steps
  generalize hstream : Reader.mk (epochCall.wire epochForms) .unexpectedEof = stream
  have hbytes : stream.bytes = epochCall.wire epochForms := by rw [← hstream]
  intro ops s out
  have hsent : [epochCall].filterMap (IngestCall.event epochForms) = [epochEvent] := by
    rw [List.filterMap_cons, event_epochCall]
    rfl
  have hcalm : ∀ a ∈ ops, a.Calm := by simp [ops, ServingAction.Calm]
  have hclient : Connection.ServesCall epochForms ⟨stream, (readFrame stream).1⟩ epochCall := by
    rw [Connection.ServesCall, hbytes]
  rw [← hsent]
  refine (ingests_delivered epochForms 1 ops ⟨trivial, trivial, trivial⟩ [epochCall]
    (.cons hclient .nil) fun call hcall e he => ?_).2 hcalm (.cons hbytes .nil)
  obtain rfl := List.mem_singleton.mp hcall
  obtain rfl : epochEvent = e := Option.some.inj (event_epochCall.symm.trans he)
  exact oneEventForms_readsBack _ _ _

end AgentTermStatus
