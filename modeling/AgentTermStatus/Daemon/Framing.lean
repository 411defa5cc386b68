import AgentTermStatus.Lib.FrameCode

namespace AgentTermStatus

open Lib

/-!
# Length-prefixed framing

A frame is the length of its payload, in four bytes with the highest first, and the payload,
of at most `maxFrameBytes` bytes.  A reader is what a stream still holds and the failure of a
read past its end; `readFrame` reads one frame and `readFrames` reads on as a connection
handler does, until there is nothing to read or something is wrong.

`wire_format` characterizes what `readFrames` makes of every finite stream: the only way to
cut it into frames and a rest that starts with no frame; and it says what the two writers
emit.
-/

/-- Maximum event size in bytes (64 KiB). -/
def maxFrameBytes : UInt32 := 65536

/-- Kind of a transport error. -/
inductive TransportErrorKind
  /-- The stream ended in the middle of a read. -/
  | unexpectedEof
  | other
  deriving DecidableEq

/-- Framing failure: carries sizes, never payload bytes. -/
inductive FrameError
  /-- The declared frame length exceeds `maxFrameBytes`. -/
  | oversized (declared : UInt32)
  /-- Underlying transport error (including truncated frames). -/
  | io (kind : TransportErrorKind)
  deriving DecidableEq

/-! ### Lengths -/

/-- The four bytes of a length, the highest first. -/
def toBeBytes (n : UInt32) : List UInt8 :=
  [.ofNat (n.toNat / 16777216), .ofNat (n.toNat / 65536), .ofNat (n.toNat / 256), .ofNat n.toNat]

/-- The length that some bytes, the highest first, stand for. -/
def fromBeBytes (bytes : List UInt8) : UInt32 :=
  .ofNat (bytes.foldl (fun n b => n * 256 + b.toNat) 0)

@[simp] theorem toBeBytes_length (n : UInt32) : (toBeBytes n).length = 4 := rfl

@[simp] theorem fromBeBytes_toBeBytes (n : UInt32) : fromBeBytes (toBeBytes n) = n := by
  have hn := n.toNat_lt
  apply UInt32.toNat_inj.mp
  simp only [fromBeBytes, toBeBytes, List.foldl_cons, List.foldl_nil, UInt32.toNat_ofNat',
    UInt8.toNat_ofNat']
  omega

/-- Four bytes are the bytes of the length they stand for. -/
theorem toBeBytes_fromBeBytes {header : List UInt8} (h : header.length = 4) :
    toBeBytes (fromBeBytes header) = header := by
  match header, h with
  | [a, b, c, d], _ =>
    have ha := a.toNat_lt
    have hb := b.toNat_lt
    have hc := c.toNat_lt
    have hd := d.toNat_lt
    simp only [toBeBytes, fromBeBytes, List.foldl_cons, List.foldl_nil, UInt32.toNat_ofNat',
      List.cons.injEq, and_true, ← UInt8.toNat_inj, UInt8.toNat_ofNat']
    omega

/-! ### Reading -/

/-- A stream being read: the bytes it still holds, and how a read past them fails. -/
structure Reader where
  bytes : List UInt8
  atEnd : TransportErrorKind

/-- Reads exactly `n` bytes. -/
def Reader.readExact (r : Reader) (n : Nat) : Reader × Except TransportErrorKind (List UInt8) :=
  if n ≤ r.bytes.length then ({ r with bytes := r.bytes.drop n }, .ok (r.bytes.take n))
  else ({ r with bytes := [] }, .error r.atEnd)

/-- Reads one frame; `none` if the stream ends in the header. -/
def readFrame (r : Reader) : Reader × Except FrameError (Option (List UInt8)) :=
  match r.readExact 4 with
  -- a peer that hangs up between two frames, or in a header, is no failure
  | (r, .error .unexpectedEof) => (r, .ok none)
  | (r, .error e) => (r, .error (.io e))
  | (r, .ok header) =>
    let declared := fromBeBytes header
    if declared > maxFrameBytes then (r, .error (.oversized declared))
    else
      match r.readExact declared.toNat with
      | (r, .error e)    => (r, .error (.io e))
      | (r, .ok payload) => (r, .ok (some payload))

/-- Reading what the stream starts with. -/
theorem readExact_append (xs rest : List UInt8) (k : TransportErrorKind) :
    Reader.readExact ⟨xs ++ rest, k⟩ xs.length = (⟨rest, k⟩, .ok xs) := by
  rw [Reader.readExact, if_pos (by simp)]
  simp

/-- A stream holds less than a header, or starts with one. -/
theorem header_cases (b : List UInt8) : b.length < 4 ∨ ∃ d rest, b = toBeBytes d ++ rest := by
  by_cases hlen : b.length < 4
  · exact Or.inl hlen
  · refine Or.inr ⟨fromBeBytes (b.take 4), b.drop 4, ?_⟩
    rw [toBeBytes_fromBeBytes (by rw [List.length_take]; omega), List.take_append_drop]

/-- Without a whole header there is no frame. -/
theorem readFrame_short {b : List UInt8} (h : b.length < 4) :
    readFrame ⟨b, .unexpectedEof⟩ = (⟨[], .unexpectedEof⟩, .ok none) := by
  rw [readFrame, Reader.readExact, if_neg (by simpa using h)]

/-- What becomes of a header `d`: it is refused, its payload is read, or is missing. -/
theorem readFrame_header (d : UInt32) (rest : List UInt8) (k : TransportErrorKind) :
    readFrame ⟨toBeBytes d ++ rest, k⟩ =
      if maxFrameBytes < d then (⟨rest, k⟩, .error (.oversized d))
      else if d.toNat ≤ rest.length then
        (⟨rest.drop d.toNat, k⟩, .ok (some (rest.take d.toNat)))
      else (⟨[], k⟩, .error (.io k)) := by
  have hheader := readExact_append (toBeBytes d) rest k
  rw [toBeBytes_length] at hheader
  rw [readFrame, hheader]
  simp only [fromBeBytes_toBeBytes, gt_iff_lt]
  by_cases hbig : maxFrameBytes < d
  · rw [if_pos hbig, if_pos hbig]
  · rw [if_neg hbig, if_neg hbig, Reader.readExact]
    by_cases hlen : d.toNat ≤ rest.length
    · rw [if_pos hlen, if_pos hlen]
    · rw [if_neg hlen, if_neg hlen]

/-- What was read as a frame: a header that is not too large, and the payload it declares. -/
theorem readFrame_eq_some {b : List UInt8} {k : TransportErrorKind} {r : Reader}
    {payload : List UInt8} (h : readFrame ⟨b, k⟩ = (r, .ok (some payload))) :
    ∃ d rest, b = toBeBytes d ++ rest ∧ ¬ maxFrameBytes < d ∧ d.toNat ≤ rest.length ∧
      r = ⟨rest.drop d.toNat, k⟩ ∧ payload = rest.take d.toNat := by
  rcases header_cases b with hlen | ⟨d, rest, rfl⟩
  · rw [readFrame, Reader.readExact, if_neg (by simpa using hlen)] at h
    cases k <;> simp at h
  · rw [readFrame_header] at h
    split at h
    · simp at h
    · next hbig =>
      split at h
      · next hlen =>
        obtain ⟨hr, hpayload⟩ := Prod.mk.inj h
        exact ⟨d, rest, rfl, hbig, hlen, hr.symm, (Option.some.inj (Except.ok.inj hpayload)).symm⟩
      · simp at h

/-- A frame that was read is taken off the stream. -/
theorem readFrame_lt {r r' : Reader} {payload : List UInt8}
    (h : readFrame r = (r', .ok (some payload))) : r'.bytes.length < r.bytes.length := by
  obtain ⟨d, rest, hb, -, -, rfl, -⟩ := readFrame_eq_some h
  rw [hb]
  simp only [List.length_append, List.length_drop, toBeBytes_length]
  omega

/-- Reads frames until there is none or one fails: the payloads, and the failure. -/
def readFrames (r : Reader) : List (List UInt8) × Option FrameError :=
  match _h : readFrame r with
  | (_, .error e) => ([], some e)
  | (_, .ok none) => ([], none)
  | (r', .ok (some payload)) => (payload :: (readFrames r').1, (readFrames r').2)
termination_by r.bytes.length
decreasing_by all_goals exact readFrame_lt _h

/-! ### Writing -/

/-- A sink for bytes: how it takes bytes, and how it flushes. -/
structure Writer (ω : Type) where
  writeAll : ω → List UInt8 → ω × Except TransportErrorKind Unit
  flush : ω → ω × Except TransportErrorKind Unit

/-- A length as 32 bits, saturating. -/
def saturatedLength (n : Nat) : UInt32 := if n < 4294967296 then .ofNat n else 4294967295

/-- Writes one frame: the length, the payload, and a flush; refuses oversized payloads. -/
def writeFrameTo {ω : Type} (W : Writer ω) (w : ω) (payload : List UInt8) :
    ω × Except FrameError Unit :=
  if payload.length > maxFrameBytes.toNat then
    (w, .error (.oversized (saturatedLength payload.length)))
  else
    let len := UInt32.ofNat payload.length
    match W.writeAll w (toBeBytes len) with
    | (w, .error e) => (w, .error (.io e))
    | (w, .ok ()) =>
      match W.writeAll w payload with
      | (w, .error e) => (w, .error (.io e))
      | (w, .ok ()) =>
        match W.flush w with
        | (w, .error e) => (w, .error (.io e))
        | (w, .ok ())   => (w, .ok ())

/-- Writes one frame to an asynchronous sink. -/
def writeFrame {ω : Type} (W : Writer ω) (w : ω) (payload : List UInt8) :
    ω × Except FrameError Unit := writeFrameTo W w payload

/-- Synchronous variant of `writeFrame`. -/
def writeFrameSync {ω : Type} (W : Writer ω) (w : ω) (payload : List UInt8) :
    ω × Except FrameError Unit := writeFrameTo W w payload

/-- A sink that keeps everything it is given. -/
def bufferWriter : Writer (List UInt8) where
  writeAll out bytes := (out ++ bytes, .ok ())
  flush out := (out, .ok ())

/-! ### Frames as a self-delimiting code -/

/-- The frame of a payload. -/
def frameOf (payload : List UInt8) : List UInt8 :=
  toBeBytes (.ofNat payload.length) ++ payload

/-- A payload that fits into a frame. -/
abbrev Payload := { payload : List UInt8 // payload.length ≤ maxFrameBytes.toNat }

theorem Payload.length_toNat (p : Payload) : (UInt32.ofNat p.val.length).toNat = p.val.length := by
  have hp : p.val.length ≤ 65536 := p.property
  rw [UInt32.toNat_ofNat']
  omega

theorem Payload.length_le (p : Payload) : ¬ maxFrameBytes < UInt32.ofNat p.val.length := by
  rw [UInt32.lt_iff_toNat_lt, p.length_toNat]
  exact Nat.not_lt.mpr p.property

/-- A frame is read back, whatever follows it. -/
theorem readFrame_frameOf (p : Payload) (r : List UInt8) (k : TransportErrorKind) :
    readFrame ⟨frameOf p.val ++ r, k⟩ = (⟨r, k⟩, .ok (some p.val)) := by
  rw [frameOf, List.append_assoc, readFrame_header, if_neg p.length_le, p.length_toNat,
    if_pos (by simp), List.drop_left, List.take_left]

/-- What is read as a frame is one. -/
theorem frameOf_of_readFrame {b : List UInt8} {k : TransportErrorKind} {r : Reader}
    {payload : List UInt8} (h : readFrame ⟨b, k⟩ = (r, .ok (some payload))) :
    payload.length ≤ maxFrameBytes.toNat ∧ r.atEnd = k ∧ b = frameOf payload ++ r.bytes := by
  obtain ⟨d, rest, rfl, hbig, hlen, rfl, rfl⟩ := readFrame_eq_some h
  have htake : (rest.take d.toNat).length = d.toNat := List.length_take_of_le hlen
  refine ⟨?_, rfl, ?_⟩
  · rw [htake]
    exact UInt32.le_iff_toNat_le.mp (UInt32.not_lt.mp hbig)
  · rw [frameOf, htake, UInt32.ofNat_toNat, List.append_assoc, List.take_append_drop]

/-- Frames of payloads that fit, as a self-delimiting code. -/
def frameCode : FrameCode Payload UInt8 where
  enc p := frameOf p.val
  next b :=
    match h : readFrame ⟨b, .unexpectedEof⟩ with
    | (r, .ok (some payload)) => some (⟨payload, (frameOf_of_readFrame h).1⟩, r.bytes)
    | _ => none
  next_enc p r := by
    have hread := readFrame_frameOf p r .unexpectedEof
    split
    · next r' payload h =>
      obtain ⟨rfl, hpayload⟩ := Prod.mk.inj (h.symm.trans hread)
      obtain rfl := Option.some.inj (Except.ok.inj hpayload)
      rfl
    · next h => exact absurd hread (h _ _)
  eq_of_next := by
    intro b p r h
    split at h
    · next r' payload hread =>
      obtain ⟨rfl, rfl⟩ := Prod.mk.inj (Option.some.inj h)
      exact (frameOf_of_readFrame hread).2.2
    · simp at h
  enc_ne_nil p := by simp [frameOf, toBeBytes]

/-- A payload that fits is written as its frame. -/
theorem writeFrameTo_buffer (out : List UInt8) {payload : List UInt8}
    (h : payload.length ≤ maxFrameBytes.toNat) :
    writeFrameTo bufferWriter out payload = (out ++ frameOf payload, .ok ()) := by
  rw [writeFrameTo, if_neg (Nat.not_lt.mpr h)]
  simp [bufferWriter, frameOf]

/-! ### The frames of a stream -/

/-- `payloads` and `rest` are what a stream is made of: the frames of payloads that fit, and a
    rest that does not start with such a frame. -/
structure IsFraming (stream : List UInt8) (payloads : List (List UInt8)) (rest : List UInt8) :
    Prop where
  stream_eq : stream = payloads.flatMap frameOf ++ rest
  fits : ∀ p ∈ payloads, p.length ≤ maxFrameBytes.toNat
  no_frame : ∀ p : List UInt8, p.length ≤ maxFrameBytes.toNat → ¬ frameOf p <+: rest

/-- Nothing more is read exactly if the stream does not start with the frame of a payload that
    fits. -/
theorem frameCode_next_eq_none_iff (b : List UInt8) :
    frameCode.next b = none ↔
      ∀ p : List UInt8, p.length ≤ maxFrameBytes.toNat → ¬ frameOf p <+: b := by
  rw [frameCode.next_eq_none_iff]
  exact ⟨fun h p hp => h ⟨p, hp⟩, fun h p => h p.val p.property⟩

/-- What `split` cuts is the one framing of the stream. -/
theorem isFraming_iff_split (b : List UInt8) (ps : List (List UInt8)) (r : List UInt8) :
    IsFraming b ps r ↔
      ps = (frameCode.split b).1.map Subtype.val ∧ r = (frameCode.split b).2 := by
  have hflat : ∀ as : List Payload, frameCode.encAll as = (as.map Subtype.val).flatMap frameOf :=
    fun as => by rw [List.flatMap_map]; rfl
  refine ⟨?_, ?_⟩
  · rintro ⟨hcut, hfits, hrest⟩
    -- payloads that fit are values of the code
    obtain ⟨as, rfl⟩ : ∃ as : List Payload, as.map Subtype.val = ps :=
      ⟨ps.attachWith _ hfits, List.attachWith_map_subtype_val hfits⟩
    have hsplit : frameCode.split (frameCode.encAll as ++ r) = (as, r) :=
      frameCode.split_unique ((frameCode_next_eq_none_iff r).mpr hrest)
    rw [hflat, ← hcut] at hsplit
    rw [hsplit]
    exact ⟨rfl, rfl⟩
  · rintro ⟨rfl, rfl⟩
    obtain ⟨hcut, hend⟩ := frameCode.split_spec b
    refine ⟨by rw [← hflat]; exact hcut, ?_, (frameCode_next_eq_none_iff _).mp hend⟩
    intro p hp
    obtain ⟨a, -, rfl⟩ := List.mem_map.mp hp
    exact a.property

/-- Reading on after a frame. -/
theorem readFrames_frame (p : Payload) (r : List UInt8) (k : TransportErrorKind) :
    readFrames ⟨frameOf p.val ++ r, k⟩ =
      (p.val :: (readFrames ⟨r, k⟩).1, (readFrames ⟨r, k⟩).2) := by
  rw [readFrames]
  split
  · next h => simp [readFrame_frameOf] at h
  · next h => simp [readFrame_frameOf] at h
  · next h =>
    rw [readFrame_frameOf] at h
    obtain ⟨rfl, hpayload⟩ := Prod.mk.inj h
    obtain rfl := Option.some.inj (Except.ok.inj hpayload)
    rfl

/-- Reading stops at the first failure. -/
theorem readFrames_error {r r' : Reader} {e : FrameError} (h : readFrame r = (r', .error e)) :
    readFrames r = ([], some e) := by
  rw [readFrames]
  split <;> simp_all

/-- Reading stops where the stream does not start with a frame: in silence if not even a header
    is left, else with the failure of that header. -/
theorem readFrames_rest {r : List UInt8} (h : frameCode.next r = none) :
    (readFrames ⟨r, .unexpectedEof⟩).1 = [] ∧
      ((r.length < 4 ∧ (readFrames ⟨r, .unexpectedEof⟩).2 = none) ∨
        ∃ d rest, r = toBeBytes d ++ rest ∧
          ((maxFrameBytes < d ∧ (readFrames ⟨r, .unexpectedEof⟩).2 = some (.oversized d)) ∨
            (d ≤ maxFrameBytes ∧ rest.length < d.toNat ∧
              (readFrames ⟨r, .unexpectedEof⟩).2 = some (.io .unexpectedEof)))) := by
  rcases header_cases r with hlen | ⟨d, rest, rfl⟩
  · rw [readFrames, readFrame_short hlen]
    exact ⟨rfl, Or.inl ⟨hlen, rfl⟩⟩
  · have hread := readFrame_header d rest .unexpectedEof
    by_cases hbig : maxFrameBytes < d
    · rw [if_pos hbig] at hread
      have hstop := readFrames_error hread
      exact ⟨by rw [hstop], Or.inr ⟨d, rest, rfl, Or.inl ⟨hbig, by rw [hstop]⟩⟩⟩
    · rw [if_neg hbig] at hread
      -- a header within the cap and a whole payload would be a frame
      have hlen : ¬ d.toNat ≤ rest.length := by
        intro hlen
        rw [if_pos hlen] at hread
        obtain ⟨hfits, -, hframe⟩ := frameOf_of_readFrame hread
        exact (frameCode_next_eq_none_iff _).mp h _ hfits ⟨_, hframe.symm⟩
      rw [if_neg hlen] at hread
      have hstop := readFrames_error hread
      exact ⟨by rw [hstop], Or.inr ⟨d, rest, rfl, Or.inr
        ⟨UInt32.not_lt.mp hbig, Nat.not_le.mp hlen, by rw [hstop]⟩⟩⟩

/-- The stream of a framing is read as its payloads, and then as its rest. -/
theorem readFrames_framing {b r : List UInt8} {ps : List (List UInt8)} (h : IsFraming b ps r) :
    readFrames ⟨b, .unexpectedEof⟩ = (ps, (readFrames ⟨r, .unexpectedEof⟩).2) := by
  obtain ⟨rfl, hfits, hrest⟩ := h
  have hnone := (frameCode_next_eq_none_iff r).mpr hrest
  induction ps with
  | nil => exact Prod.ext (readFrames_rest hnone).1 rfl
  | cons p ps ih =>
    have hp : p.length ≤ maxFrameBytes.toNat := hfits p (by simp)
    have htail := ih fun q hq => hfits q (by simp [hq])
    rw [List.flatMap_cons, List.append_assoc]
    -- the first frame is read off, the rest by induction
    have hframe := readFrames_frame ⟨p, hp⟩ (ps.flatMap frameOf ++ r) .unexpectedEof
    rw [hframe, htail]

/-! ### The wire format -/

/-- The header at the start of a stream is its first four bytes. -/
theorem header_unique {d d' : UInt32} {rest : List UInt8}
    (h : toBeBytes d' <+: toBeBytes d ++ rest) : d' = d := by
  obtain ⟨rest', heq⟩ := h
  have hbytes : toBeBytes d' = toBeBytes d := (List.append_inj heq rfl).1
  rw [← fromBeBytes_toBeBytes d', hbytes, fromBeBytes_toBeBytes]

/-- How reading ends, told from what is left of the stream. -/
theorem readFrames_ending {r : List UInt8} (h : frameCode.next r = none) :
    ((readFrames ⟨r, .unexpectedEof⟩).2 = none ↔ r.length < 4) ∧
    (∀ d, (readFrames ⟨r, .unexpectedEof⟩).2 = some (.oversized d) ↔
      maxFrameBytes < d ∧ toBeBytes d <+: r) ∧
    (∀ kind, (readFrames ⟨r, .unexpectedEof⟩).2 = some (.io kind) ↔
      kind = .unexpectedEof ∧ ∃ d body, r = toBeBytes d ++ body ∧ d ≤ maxFrameBytes ∧
        body.length < d.toNat) := by
  obtain ⟨-, ⟨hlen, hend⟩ | ⟨d, rest, rfl, ⟨hbig, hend⟩ | ⟨hcap, hlen, hend⟩⟩⟩ := readFrames_rest h
  · -- less than a header starts with no header
    have hno : ∀ d, ¬ toBeBytes d <+: r := by
      intro d hd
      have hle := hd.length_le
      rw [toBeBytes_length] at hle
      omega
    rw [hend]
    refine ⟨by simp [hlen], fun d => by simp [hno d], fun kind => ?_⟩
    refine ⟨by simp, ?_⟩
    rintro ⟨-, d, body, rfl, -⟩
    exact absurd (List.prefix_append _ _) (hno d)
  -- a header over the cap is left
  · rw [hend]
    refine ⟨by simp, fun d' => ?_, fun kind => ?_⟩
    · rw [Option.some.injEq, FrameError.oversized.injEq]
      refine ⟨?_, fun hd' => (header_unique hd'.2).symm⟩
      rintro rfl
      exact ⟨hbig, List.prefix_append _ _⟩
    · refine ⟨by simp, ?_⟩
      rintro ⟨-, d', body, heq, hcap, -⟩
      have hd : d' = d := header_unique (by rw [heq]; exact List.prefix_append _ _)
      rw [hd] at hcap
      exact absurd hbig (UInt32.not_lt.mpr hcap)
  -- a header within the cap is left, and less than it declares
  · rw [hend]
    refine ⟨by simp, fun d' => ?_, fun kind => ?_⟩
    · refine ⟨by simp, ?_⟩
      rintro ⟨hbig, hd'⟩
      rw [header_unique hd'] at hbig
      exact absurd hbig (UInt32.not_lt.mpr hcap)
    · rw [Option.some.injEq, FrameError.io.injEq]
      refine ⟨fun hk => ⟨hk.symm, d, rest, rfl, hcap, hlen⟩, fun hk => hk.1.symm⟩

/-- **The wire format.**  Every finite stream has exactly one framing, and reading frames until
    there is none or one fails gives its payloads.  Reading ends in silence exactly if less than
    a header is left, with `oversized d` exactly if a header `d` over the cap is left, and with a
    transport error exactly if a header is left that is followed by fewer bytes than it declares.
    Both writers emit the frame of a payload that fits, and nothing for any other payload. -/
theorem wire_format :
    (∀ stream : List UInt8, ∃ payloads rest,
      IsFraming stream payloads rest ∧
      (∀ payloads' rest', IsFraming stream payloads' rest' →
        payloads' = payloads ∧ rest' = rest) ∧
      (readFrames ⟨stream, .unexpectedEof⟩).1 = payloads ∧
      ((readFrames ⟨stream, .unexpectedEof⟩).2 = none ↔ rest.length < 4) ∧
      (∀ d, (readFrames ⟨stream, .unexpectedEof⟩).2 = some (.oversized d) ↔
        maxFrameBytes < d ∧ toBeBytes d <+: rest) ∧
      (∀ kind, (readFrames ⟨stream, .unexpectedEof⟩).2 = some (.io kind) ↔
        kind = .unexpectedEof ∧ ∃ d body, rest = toBeBytes d ++ body ∧ d ≤ maxFrameBytes ∧
          body.length < d.toNat)) ∧
    (∀ out payload : List UInt8, payload.length ≤ maxFrameBytes.toNat →
      writeFrame bufferWriter out payload = (out ++ frameOf payload, .ok ()) ∧
      writeFrameSync bufferWriter out payload = (out ++ frameOf payload, .ok ())) ∧
    (∀ (ω : Type) (W : Writer ω) (w : ω) (payload : List UInt8),
      maxFrameBytes.toNat < payload.length →
      writeFrame W w payload = (w, .error (.oversized (saturatedLength payload.length))) ∧
      writeFrameSync W w payload =
        (w, .error (.oversized (saturatedLength payload.length)))) := by
  refine ⟨fun stream => ?_, fun out payload hfits => ?_, fun ω W w payload hbig => ?_⟩
  -- the framing is the one that `split` cuts
  · have hframing := (isFraming_iff_split stream _ _).mpr ⟨rfl, rfl⟩
    have hread := readFrames_framing hframing
    refine ⟨_, _, hframing, fun payloads rest h => (isFraming_iff_split _ _ _).mp h, ?_⟩
    rw [hread]
    exact ⟨rfl, readFrames_ending (frameCode.split_spec stream).2⟩
  · exact ⟨writeFrameTo_buffer out hfits, writeFrameTo_buffer out hfits⟩
  · have hrefuse : writeFrameTo W w payload =
        (w, .error (.oversized (saturatedLength payload.length))) := if_pos hbig
    exact ⟨hrefuse, hrefuse⟩

end AgentTermStatus
