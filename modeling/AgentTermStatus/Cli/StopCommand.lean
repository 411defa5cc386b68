import AgentTermStatus.Daemon.MutualExclusion

namespace AgentTermStatus

open Lib

/-!
# Stopping the daemon

`ats daemon stop` reads the PID file and sends the process in it a signal; when there is none, it
removes the file.  Its system calls fall between those of the processes that acquire and drop the
guard, and of other calls of the command (`controlStep`).

* `ControlInv.step` — what a call has learned from the file stays true: that the file names the
  pid, so that no other process can claim it, and that nobody claims one that it takes for stale;
* `stop_keeps_exclusive` — so unless the path is taken over between its read and its removal, a call
  never gets in the way of the guard, and of a file that is held it signals the holder (of a stale
  one, whoever has its pid by now);
* `not_exclusive_takenOver` — the takeover.
-/

/-! ### The command, one system call at a time -/

/-- Why the command fails. -/
inductive StopError
  /-- The file cannot be read, or the signal cannot be sent. -/
  | io
  /-- "malformed PID file". -/
  | malformed
  deriving DecidableEq

/-- Where a call of the command is. -/
inductive StopPhase
  | ready
  /-- Has found a file and is about to read it. -/
  | reading
  /-- Has read the pid in the file `i` and is about to send it a signal. -/
  | signalling (pid : Int) (i : Inode)
  /-- Takes the file `i` for stale and is about to remove what is at the path. -/
  | removing (i : Inode)
  | finished (result : Except StopError Unit)

/-- A system call of the command. -/
inductive StopAction
  | look
  | read
  | signal
  | remove
  /-- The next system call fails for a reason of its own. -/
  | ioError
  deriving DecidableEq

/-- The processes and the file system, with the calls of the command. -/
structure Control where
  host : Host
  stops : Nat → StopPhase

/-- A step of a process, or of a call of the command. -/
inductive ControlAction
  | process (p : Pid) (a : Action)
  | stop (c : Nat) (a : StopAction)

namespace Control

/-- The call goes on. -/
def goto (s : Control) (c : Nat) (ph : StopPhase) : Control :=
  { s with stops := Function.update s.stops c ph }

/-- What a call makes of the file `i` it has read. -/
def judge (s : Control) (i : Inode) : StopPhase :=
  match s.host.contents i with
  | none      => .finished (.error .io)
  | some text =>
    match parseI32 (trim text) with
    | none     => .finished (.error .malformed)
    | some pid => if pid ≤ 0 then .removing i else .signalling pid i

/-- One step of a call: the state after it, and the pids that are sent a signal. -/
def stopStep (s : Control) (c : Nat) : StopAction → Control × List Int
  | .look =>
    match s.stops c with
    | .ready =>
      match s.host.path with
      | none   => (s.goto c (.finished (.ok ())), [])
      | some _ => (s.goto c .reading, [])
    | _ => (s, [])
  | .read =>
    match s.stops c with
    | .reading =>
      match s.host.path with
      | none   => (s.goto c (.finished (.error .io)), [])
      | some i => (s.goto c (s.judge i), [])
    | _ => (s, [])
  | .signal =>
    match s.stops c with
    | .signalling pid i =>
      if s.host.processAlive pid then (s.goto c (.finished (.ok ())), [pid])
      else (s.goto c (.removing i), [])
    | _ => (s, [])
  | .remove =>
    match s.stops c with
    | .removing _ => ({ s with host := s.host.removePath }.goto c (.finished (.ok ())), [])
    | _ => (s, [])
  | .ioError =>
    match s.stops c with
    | .reading | .signalling _ _ => (s.goto c (.finished (.error .io)), [])
    -- a file that cannot be looked for or removed is no failure
    | .ready | .removing _ => (s.goto c (.finished (.ok ())), [])
    | _ => (s, [])

end Control

/-- One step. -/
def controlStep (s : Control) : ControlAction → Control × List Int
  | .process p a => ({ s with host := (pidStep s.host (p, a)).1 }, [])
  | .stop c a    => s.stopStep c a

/-- No call of the command is under way. -/
def Control.start (host : Host) : Control := ⟨host, fun _ => .ready⟩

/-- The file a call takes for stale. -/
def StopPhase.stale : StopPhase → Option Inode
  | .removing i => some i
  | _           => none

/-- No process races for the guard, and what a call removes is the file it has read. -/
def Undisturbed (s : Control) : ControlAction → Prop
  | .process p a => RaceFree s.host (p, a)
  | .stop c a    => a = .remove → ∀ j ∈ (s.stops c).stale, ∀ i ∈ s.host.path, i = j

instance (s : Control) : (op : ControlAction) → Decidable (Undisturbed s op)
  | .process p a => inferInstanceAs (Decidable (RaceFree s.host (p, a)))
  | .stop _ _    => inferInstanceAs (Decidable (_ → _))

/-! ### What a call has learned -/

/-- The file names a process. -/
def NamesPid (s : Host) (i : Inode) (pid : Int) : Prop :=
  ∃ text, s.contents i = some text ∧ parseI32 (trim text) = some pid

/-- What a call knows of the file it has read, and of the processes that claim it. -/
def StopPhase.Knows (s : Host) : StopPhase → Prop
  | .signalling pid i =>
    0 < pid ∧ i < s.next ∧ NamesPid s i pid ∧ ∀ q, (s.phase q).claim = some i → (q : Int) = pid
  | .removing i       => i < s.next ∧ ∀ q, (s.phase q).claim ≠ some i
  | _                 => True

/-- What a step of a call can do. -/
inductive StopMove (s : Control) (c : Nat) : StopAction → Control × List Int → Prop
  | stay (a : StopAction) : StopMove s c a (s, [])
  /-- The call goes on to where it knows nothing. -/
  | away (a : StopAction) (ph : StopPhase) (hknows : ∀ host, ph.Knows host) :
      StopMove s c a (s.goto c ph, [])
  | judge (i : Inode) (hpath : s.host.path = some i) :
      StopMove s c .read (s.goto c (s.judge i), [])
  | signal (pid : Int) (i : Inode) (hph : s.stops c = .signalling pid i) :
      StopMove s c .signal (s.goto c (.finished (.ok ())), [pid])
  | signalDead (pid : Int) (i : Inode) (hph : s.stops c = .signalling pid i)
      (hdead : s.host.processAlive pid = false) : StopMove s c .signal (s.goto c (.removing i), [])
  | remove (i : Inode) (hph : s.stops c = .removing i) :
      StopMove s c .remove
        ({ s with host := s.host.removePath }.goto c (.finished (.ok ())), [])

/-- **What a step can do.** -/
theorem stopStep_move (s : Control) (c : Nat) (a : StopAction) :
    StopMove s c a (s.stopStep c a) := by
  -- one case a system call; a call that is not about to make it stays where it is
  cases a with
  | look =>
    simp only [Control.stopStep]
    split
    · split <;> exact .away _ _ fun _ => trivial
    · exact .stay _
  | read =>
    simp only [Control.stopStep]
    split
    · split
      · exact .away _ _ fun _ => trivial
      · next i hpath => exact .judge i hpath
    · exact .stay _
  | signal =>
    simp only [Control.stopStep]
    split
    · next pid i hph =>
      split
      · exact .signal pid i hph
      · next hdead => exact .signalDead pid i hph (by simpa using hdead)
    · exact .stay _
  | remove =>
    simp only [Control.stopStep]
    split
    · next i hph => exact .remove i hph
    · exact .stay _
  | ioError =>
    simp only [Control.stopStep]
    split
    · exact .away _ _ fun _ => trivial
    · exact .away _ _ fun _ => trivial
    · exact .away _ _ fun _ => trivial
    · exact .away _ _ fun _ => trivial
    · exact .stay _

/-- A file that is being written is blank. -/
def Blank (s : Host) : Prop := ∀ p i, s.phase p = .writing i → s.contents i = some ""

/-- The invariant of the runs. -/
structure ControlInv (s : Control) : Prop where
  orderly : Orderly s.host
  blank : Blank s.host
  knows : ∀ c, (s.stops c).Knows s.host

section
variable {s : Host}

/-- A step of a process claims no file that was there before it. -/
theorem claim_of_pidStep (s : Host) (op : Pid × Action) :
    s.next ≤ (pidStep s op).1.next ∧
    ∀ q i, i < s.next → ((pidStep s op).1.phase q).claim = some i → (s.phase q).claim = some i := by
  obtain ⟨p, a⟩ := op
  have hmove := pidStep_move s p a
  generalize (pidStep s (p, a)).1 = s' at hmove ⊢
  have hgoto : ∀ {s : Host} {ph : Phase},
      (∀ i, ph.claim = some i → (s.phase p).claim = some i) →
      ∀ q i, ((s.goto p ph).phase q).claim = some i → (s.phase q).claim = some i := by
    intro s ph hph q i hq
    rcases goto_claim hq with ⟨rfl, hnew⟩ | ⟨-, hold⟩
    · exact hph i hnew
    · exact hold
  cases hmove with
  | stay => exact ⟨le_rfl, fun q i _ hq => hq⟩
  | away _ ph hclaim => exact ⟨le_rfl, fun q i _ => hgoto (by simp [hclaim]) q i⟩
  | failWrite _ i text hph =>
    exact ⟨le_rfl, fun q j _ hq => hgoto (s := s.setContents i text) (by simp [Phase.claim]) q j hq⟩
  | create n hph hpath =>
    refine ⟨Nat.le_succ _, fun q i hi hq => ?_⟩
    -- the file that is claimed is a new one
    rcases goto_claim (s := s) hq with ⟨-, hnew⟩ | ⟨-, hold⟩
    · obtain rfl := Option.some.inj hnew
      exact absurd hi (lt_irrefl _)
    · exact hold
  | write i hph =>
    refine ⟨le_rfl, fun q j _ hq => hgoto (s := s.setContents i (toString p)) ?_ q j hq⟩
    intro j hj
    show (s.phase p).claim = some j
    rw [hph]
    exact hj
  | readOther => exact ⟨le_rfl, fun q i _ => hgoto (by simp [Phase.claim]) q i⟩
  | readStale => exact ⟨le_rfl, fun q i _ => hgoto (by simp [Phase.claim]) q i⟩
  | probeDead => exact ⟨le_rfl, fun q i _ => hgoto (by simp [Phase.claim]) q i⟩
  | unlink n j ph hph hclaim =>
    exact ⟨le_rfl, fun q i _ hq => hgoto (s := s.removePath) (by simp [hclaim]) q i hq⟩
  | drop j hph =>
    exact ⟨le_rfl, fun q i _ hq => hgoto (s := s.removePath) (by simp [Phase.claim]) q i hq⟩

/-- A process that moves on to write to a file finds it blank. -/
theorem Blank.goto (h : Blank s) (p : Pid) {ph : Phase}
    (hph : ∀ i, ph = .writing i → s.contents i = some "") : Blank (s.goto p ph) := by
  intro q i hq
  simp only [Host.goto, Function.update_apply] at hq
  split at hq
  · exact hph i hq
  · exact h q i hq

/-- At most one process writes to a file, so when it is done no file has to be blank. -/
theorem Claims.blank_of_written (hclaims : Claims s) {p : Pid} {i : Inode}
    (hwriting : s.phase p = .writing i) (text : String) {ph : Phase} (hph : ∀ j, ph ≠ .writing j) :
    Blank ((s.setContents i text).goto p ph) := by
  intro q j hq
  simp only [Host.goto, Host.setContents, Function.update_apply] at hq
  split at hq
  · exact absurd hq (hph j)
  · next hqp =>
    have heq := (hclaims.unique (p := q) (q := p) (i := j) (j := i) (by rw [hq]; rfl)
      (by rw [hwriting]; rfl)).1
    exact absurd heq hqp

/-- **Step lemma.** A file that is being written stays blank until its process has written. -/
theorem Blank.step (h : Blank s) (hclaims : Claims s) (op : Pid × Action) :
    Blank (pidStep s op).1 := by
  obtain ⟨p, a⟩ := op
  have hmove := pidStep_move s p a
  generalize (pidStep s (p, a)).1 = s' at hmove ⊢
  cases hmove with
  | stay => exact h
  | away _ ph hclaim =>
    refine h.goto p ?_
    rintro i rfl
    simp [Phase.claim] at hclaim
  | failWrite _ i text hph => exact hclaims.blank_of_written hph text (by simp)
  | create n hph hpath =>
    intro q i hq
    simp only [Host.createFile, Function.update_apply] at hq
    split at hq
    · obtain rfl : s.next = i := by simpa using hq
      exact Function.update_self _ _ _
    · -- nobody else claims anything, as nothing was at the path
      have hpath' := (hclaims q i (by rw [hq]; rfl)).1
      rw [hpath] at hpath'
      exact absurd hpath' (by simp)
  | write i hph => exact hclaims.blank_of_written hph (toString p) (by simp)
  | readOther => exact h.goto p (by simp)
  | readStale => exact h.goto p (by simp)
  | probeDead => exact h.goto p (by simp)
  | unlink n j ph hph hclaim =>
    refine Blank.goto (s := s.removePath) h p ?_
    rintro i rfl
    simp [Phase.claim] at hclaim
  | drop j hph => exact Blank.goto (s := s.removePath) h p (by simp)

/-- A blank file names no process. -/
theorem not_namesPid_of_blank {i : Inode} (hblank : s.contents i = some "") (pid : Int) :
    ¬ NamesPid s i pid := by
  rintro ⟨text, htext, hparse⟩
  obtain rfl := Option.some.inj (htext.symm.trans hblank)
  have hnone : parseI32 (trim "") = none := by decide
  exact absurd (hnone.symm.trans hparse) (by simp)

/-- **Step lemma.** A file that names a process is not written again. -/
theorem NamesPid.step {i : Inode} {pid : Int} (h : NamesPid s i pid) (hblank : Blank s)
    (hi : i < s.next) (op : Pid × Action) : NamesPid (pidStep s op).1 i pid := by
  obtain ⟨p, a⟩ := op
  have hmove := pidStep_move s p a
  generalize (pidStep s (p, a)).1 = s' at hmove ⊢
  -- what is written to is blank, and what is created is new
  have hset : ∀ {j : Inode}, s.phase p = .writing j → ∀ text ph,
      NamesPid ((s.setContents j text).goto p ph) i pid := by
    intro j hj text ph
    have hne : i ≠ j := by
      rintro rfl
      exact not_namesPid_of_blank (hblank p i hj) pid h
    simpa [NamesPid, Host.goto, Host.setContents, Function.update_of_ne hne] using h
  cases hmove with
  | failWrite _ j text hph => exact hset hph text _
  | write j hph => exact hset hph _ _
  | create n hph hpath =>
    simpa [NamesPid, Host.goto, Host.createFile, Function.update_of_ne hi.ne] using h
  | _ => exact h

/-- What a call knows stays true when no old file is claimed anew, and none that names a process is
    written again. -/
theorem StopPhase.Knows.mono {s' : Host} {ph : StopPhase} (h : ph.Knows s)
    (hnext : s.next ≤ s'.next)
    (hle : ∀ q i, i < s.next → (s'.phase q).claim = some i → (s.phase q).claim = some i)
    (hnames : ∀ i pid, i < s.next → NamesPid s i pid → NamesPid s' i pid) :
    ph.Knows s' := by
  cases ph with
  | signalling pid i =>
    obtain ⟨hpos, hi, hnamed, hq⟩ := h
    refine ⟨hpos, hi.trans_le hnext, hnames i pid hi hnamed, fun q hclaim => ?_⟩
    exact hq q (hle q i hi hclaim)
  | removing i =>
    obtain ⟨hi, hq⟩ := h
    exact ⟨hi.trans_le hnext, fun q hclaim => hq q (hle q i hi hclaim)⟩
  | _ => trivial

/-- What is read in the file at the path, when it is a pid: nobody else can claim the file.  A file
    that is still to be written is blank, and no pid. -/
theorem Orderly.claim_of_parse (h : Orderly s) (hblank : Blank s) {i : Inode} {text : String}
    {pid : Int} (hpath : s.path = some i) (htext : s.contents i = some text)
    (hparse : parseI32 (trim text) = some pid) (q : Pid) (hq : (s.phase q).claim = some i) :
    (q : Int) = pid := by
  have hwritten : ∀ q ∈ s.creator i, s.phase q ≠ .writing i := fun q _ hwriting =>
    not_namesPid_of_blank (hblank q i hwriting) pid ⟨text, htext, hparse⟩
  exact Option.some.inj ((h.knows_of_read hpath htext hwritten q hq).symm.trans hparse)

/-- A process that claims a file lives. -/
theorem Orderly.alive_of_claim (h : Orderly s) {q : Pid} {i : Inode}
    (hq : (s.phase q).claim = some i) : 0 < (q : Int) ∧ s.processAlive q = true := by
  have hlive : s.phase q ≠ .dead := by
    intro hdead
    simp [hdead, Phase.claim] at hq
  have hpos := (h.valid q hlive).1
  exact ⟨Int.natCast_pos.mpr hpos, by simp [Host.processAlive, hlive, hpos]⟩

/-- What a call makes of the file at the path is true. -/
theorem Control.judge_knows {s : Control} (h : ControlInv s) {i : Inode}
    (hpath : s.host.path = some i) : (s.judge i).Knows s.host := by
  have hi := h.orderly.files i hpath
  unfold Control.judge
  split
  · trivial
  · next text htext =>
    split
    · trivial
    · next pid hparse =>
      have hclaim := h.orderly.claim_of_parse h.blank hpath htext hparse
      split
      · next hneg =>
        refine ⟨hi, fun q hq => ?_⟩
        have hpos := (h.orderly.alive_of_claim hq).1
        rw [hclaim q hq] at hpos
        exact absurd hneg (not_le.mpr hpos)
      · next hpos => exact ⟨not_le.mp hpos, hi, ⟨text, htext, hparse⟩, hclaim⟩

end

/-! ### The runs -/

section
variable {s : Control}

/-- A call that goes on keeps the invariant, if what it knows is true. -/
theorem ControlInv.goto (h : ControlInv s) (c : Nat) {ph : StopPhase} (hph : ph.Knows s.host) :
    ControlInv (s.goto c ph) := by
  refine ⟨h.orderly, h.blank, fun d => ?_⟩
  show (Function.update s.stops c ph d).Knows s.host
  rw [Function.update_apply]
  split
  · exact hph
  · exact h.knows d

/-- Removing a file that nobody claims. -/
theorem ControlInv.removePath (h : ControlInv s) {i : Inode}
    (hfree : ∀ q, (s.host.phase q).claim ≠ some i) (hpath : ∀ j ∈ s.host.path, j = i) :
    ControlInv { s with host := s.host.removePath } := by
  refine ⟨h.orderly.removePath fun q j hq => ?_, h.blank, fun c => ?_⟩
  · -- what is claimed is at the path, so it would be this file
    obtain rfl := hpath j (h.orderly.claims q j hq).1
    exact absurd hq (hfree q)
  · exact (h.knows c).mono le_rfl (fun _ _ _ hq => hq) fun _ _ _ hnamed => hnamed

/-- **Step lemma.** The invariant survives every step of a process and of a call. -/
theorem ControlInv.step (h : ControlInv s) (op : ControlAction) (hop : Undisturbed s op) :
    ControlInv (controlStep s op).1 := by
  cases op with
  | process p a =>
    obtain ⟨hnext, hle⟩ := claim_of_pidStep s.host (p, a)
    exact ⟨h.orderly.step _ hop, h.blank.step h.orderly.claims _,
      fun c => (h.knows c).mono hnext hle fun i pid hi hnamed => hnamed.step h.blank hi _⟩
  | stop c a =>
    have hmove := stopStep_move s c a
    show ControlInv (s.stopStep c a).1
    generalize s.stopStep c a = r at hmove ⊢
    cases hmove with
    | stay => exact h
    | away _ ph hknows => exact h.goto c (hknows _)
    | judge i hpath => exact h.goto c (Control.judge_knows h hpath)
    | signal pid i hph => exact h.goto c trivial
    | signalDead pid i hph hdead =>
      -- the process that could claim the file would live
      have hknows := h.knows c
      rw [hph] at hknows
      obtain ⟨-, hi, -, hclaim⟩ := hknows
      refine h.goto c ⟨hi, fun q hq => ?_⟩
      have halive := (h.orderly.alive_of_claim hq).2
      rw [hclaim q hq, hdead] at halive
      exact absurd halive (by simp)
    | remove i hph =>
      have hknows := h.knows c
      rw [hph] at hknows
      exact (h.removePath hknows.2 (hop rfl i (by rw [hph]; rfl))).goto c trivial

/-- Before anybody acquires or stops. -/
theorem Initial.controlInv {host : Host} (h : Initial host) : ControlInv (Control.start host) where
  orderly := h.orderly
  blank := by
    intro p i hp
    rcases h.phases p with hdead | ⟨hidle, -⟩
    · simp [Control.start, hdead] at hp
    · simp [Control.start, hidle] at hp
  knows := fun _ => trivial

/-- The invariant holds at every point of a run. -/
theorem controlInv_run {host : Host} (h : Initial host) {ops : List ControlAction}
    (hrun : Along controlStep Undisturbed (Control.start host) ops) :
    ControlInv (exec controlStep (Control.start host) ops) :=
  hrun.exec_inv ControlInv (fun _ op hop h => h.step op hop) h.controlInv

/-- A call that finds a held file signals its holder. -/
theorem ControlInv.signals_holder (h : ControlInv s) {p : Pid} {i : Inode}
    (hp : s.host.phase p = .holding i) {c : Nat} (hc : s.stops c = .ready) :
    trace controlStep s [.stop c .look, .stop c .read, .stop c .signal] = [(p : Int)] := by
  have hclaim : (s.host.phase p).claim = some i := by rw [hp]; rfl
  have hpath := (h.orderly.claims p i hclaim).1
  have htext := h.orderly.named p i hp
  obtain ⟨hpos, halive⟩ := h.orderly.alive_of_claim hclaim
  have hparse := parseI32_toString (h.orderly.valid p (by simp [hp])).2
  have hlook : controlStep s (.stop c .look) = (s.goto c .reading, []) := by
    simp [controlStep, Control.stopStep, hc, hpath]
  have hjudge : (s.goto c .reading).judge i = .signalling p i := by
    show s.judge i = _
    simp only [Control.judge, htext]
    rw [hparse]
    exact if_neg (not_le.mpr hpos)
  have hread : controlStep (s.goto c .reading) (.stop c .read) =
      ((s.goto c .reading).goto c (.signalling p i), []) := by
    rw [← hjudge]
    simp [controlStep, Control.stopStep, Control.goto, hpath]
  have hsignal : (controlStep ((s.goto c .reading).goto c (.signalling p i))
      (.stop c .signal)).2 = [(p : Int)] := by
    simp [controlStep, Control.stopStep, Control.goto, halive]
  simp [hlook, hread, hsignal]

/-- Only a pid that a call has learned from the file is sent a signal. -/
theorem stopStep_signals (s : Control) (op : ControlAction) :
    ∀ pid ∈ (controlStep s op).2, ∃ c i, s.stops c = .signalling pid i := by
  intro pid hpid
  cases op with
  | process p a => simp [controlStep] at hpid
  | stop c a =>
    have hmove := stopStep_move s c a
    have hpid : pid ∈ (s.stopStep c a).2 := hpid
    generalize s.stopStep c a = r at hmove hpid
    cases hmove with
    | signal pid' i hph =>
      obtain rfl := List.mem_singleton.mp hpid
      exact ⟨c, i, hph⟩
    | _ => simp at hpid

/-- No group of processes is ever sent a signal. -/
theorem signals_positive {host : Host} (h : Initial host) {ops : List ControlAction}
    (hrun : Along controlStep Undisturbed (Control.start host) ops) :
    ∀ pid ∈ trace controlStep (Control.start host) ops, 0 < pid := by
  have hstart : ControlInv (Control.start host) ∧ ∀ pid ∈ ([] : List Int), 0 < pid :=
    ⟨h.controlInv, by simp⟩
  have hinv := hrun.trace_inv (fun out s => ControlInv s ∧ ∀ pid ∈ out, 0 < pid) ?_ hstart
  · rw [List.nil_append] at hinv
    exact hinv.2
  · refine fun out s op hop hs => ⟨hs.1.step op hop, fun pid hpid => ?_⟩
    rcases List.mem_append.mp hpid with hold | hnew
    · exact hs.2 pid hold
    · obtain ⟨c, i, hph⟩ := stopStep_signals s op pid hnew
      have hknows := hs.1.knows c
      rw [hph] at hknows
      exact hknows.1

/-- What holds while calls stop the daemon. -/
structure StopSafe (s : Control) : Prop where
  exclusive : Exclusive s.host
  /-- The held file is at the path and names its holder. -/
  held : ∀ p i, s.host.phase p = .holding i →
    s.host.path = some i ∧ s.host.contents i = some (toString p)
  /-- A call is about to signal the pid in the file it has read, and only the process with that pid
      can be at work on the file.  When none is, the pid may by now be that of any process. -/
  addressed : ∀ c pid i, s.stops c = .signalling pid i →
    NamesPid s.host i pid ∧ ∀ q, (s.host.phase q).claim = some i → (q : Int) = pid
  /-- A new call signals the holder. -/
  reached : ∀ p i, s.host.phase p = .holding i → ∀ c, s.stops c = .ready →
    trace controlStep s [.stop c .look, .stop c .read, .stop c .signal] = [(p : Int)]

/-- The invariant is enough. -/
theorem ControlInv.stopSafe (h : ControlInv s) : StopSafe s where
  exclusive := h.orderly.claims.exclusive
  held := by
    intro p i hp
    have hclaim : (s.host.phase p).claim = some i := by
      rw [hp]
      rfl
    exact ⟨(h.orderly.claims p i hclaim).1, h.orderly.named p i hp⟩
  addressed := by
    intro c pid i hph
    have hknows := h.knows c
    rw [hph] at hknows
    exact hknows.2.2
  reached := fun _ _ hp _ hc => h.signals_holder hp hc

/-- **Stopping keeps the guard exclusive.** Processes acquire and drop the guard while calls of the
    command read the file, send signals and remove what they take for stale.  If no process races,
    and what a call removes is the file it has read, then at every point at most one process holds
    the guard, its file is at the path, and a new call signals it; a call that is about to send a
    signal sends it to the pid in the file it has read, and if a process is at work on that file, it
    is the one with this pid; and no signal ever goes to a group of processes. -/
theorem stop_keeps_exclusive (host : Host) (hhost : Initial host) (ops : List ControlAction)
    (hrun : Along controlStep Undisturbed (Control.start host) ops) :
    (∀ ops', ops' <+: ops → StopSafe (exec controlStep (Control.start host) ops')) ∧
    ∀ pid ∈ trace controlStep (Control.start host) ops, 0 < pid :=
  ⟨fun _ hprefix => (controlInv_run hhost (hrun.of_isPrefix hprefix)).stopSafe,
    signals_positive hhost hrun⟩

/-- The holder is signalled and drops the guard; a second process acquires it, while another call
    has looked before and finds the second one. -/
theorem stop_keeps_exclusive_restart :
    StopSafe (exec controlStep (Control.start twoProcesses)
      [.process 1 .start, .process 1 .create, .process 1 .write, .stop 0 .look, .stop 1 .look,
        .stop 0 .read, .stop 0 .signal, .process 1 .drop, .process 2 .start, .process 2 .create,
        .process 2 .write, .stop 1 .read]) :=
  (stop_keeps_exclusive twoProcesses initial_twoProcesses _ (by decide)).1 _ (List.prefix_refl _)

/-! ### The takeover -/

/-- A killed process leaves its file.  A call reads it and finds the process dead; before it
    removes the file, a second process has taken the path over. -/
def takenOver : List ControlAction :=
  [.process 1 .start, .process 1 .create, .process 1 .write, .process 1 .die, .stop 0 .look,
    .stop 0 .read, .stop 0 .signal, .process 2 .start, .process 2 .create, .process 2 .read,
    .process 2 .probe, .process 2 .unlink, .process 2 .create, .process 2 .write,
    .stop 0 .remove, .process 1 .spawn, .process 1 .start, .process 1 .create,
    .process 1 .write]

/-- Two processes hold the guard. -/
theorem not_exclusive_takenOver :
    (exec controlStep (Control.start twoProcesses) takenOver).host.phase 1 = .holding 2 ∧
    (exec controlStep (Control.start twoProcesses) takenOver).host.phase 2 = .holding 1 := by
  decide

end

end AgentTermStatus
