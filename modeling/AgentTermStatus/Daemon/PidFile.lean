import AgentTermStatus.Lib.Run
import AgentTermStatus.Lib.Text
import Mathlib.Data.Set.Function
import Mathlib.Logic.Function.Basic

namespace AgentTermStatus

open Lib

/-!
# The PID file, one system call at a time

Processes acquire and drop the guard of one PID file.  Every system call of
`PidFile::acquire` and of the guard's drop is a step of its own, so any interleaving of any
number of processes is a run of `pidStep`; a step that is not the process's next one does
nothing.  Processes may be killed at any point, and their pids used again.

A file keeps its identity (`Inode`) when the path is taken over by another one, and its
creator, which no process can see.
-/

/-- A process id. -/
abbrev Pid := Nat

/-- A file, as opposed to its path. -/
abbrev Inode := Nat

/-- Attempts to create the file before giving up. -/
def maxAttempts : Nat := 3

/-- Kinds of I/O errors that end an acquisition. -/
inductive IoErrorKind
  /-- The file is not UTF-8. -/
  | invalidData
  /-- "PID file contention: another process keeps recreating it". -/
  | wouldBlock
  /-- A system call failed for another reason. -/
  | other
  deriving DecidableEq

/-- PID file acquisition failure. -/
inductive PidFileError
  /-- Another daemon instance owns the PID file. -/
  | alreadyRunning (pid : Int)
  /-- Filesystem error while reading or writing the PID file. -/
  | io (kind : IoErrorKind)
  deriving DecidableEq

/-- Where a process is. -/
inductive Phase
  /-- There is no process with this pid. -/
  | dead
  /-- Neither acquiring nor holding. -/
  | idle
  /-- About to create the file exclusively, in attempt `n`. -/
  | creating (n : Nat)
  /-- Has created the file and is about to write its pid to it. -/
  | writing (i : Inode)
  /-- Has found a file and is about to read it. -/
  | reading (n : Nat)
  /-- Has read another pid in the file `i` and is about to ask if that process lives. -/
  | probing (n : Nat) (pid : Int) (i : Inode)
  /-- Takes the file `i` for stale and is about to remove what is at the path. -/
  | unlinking (n : Nat) (i : Inode)
  /-- Holds the guard, having created the file `i`. -/
  | holding (i : Inode)
  deriving DecidableEq

/-- The processes and the file system. -/
structure Host where
  phase : Pid → Phase
  /-- The file at the path of the PID file. -/
  path : Option Inode
  /-- The text of a file, if it is UTF-8. -/
  contents : Inode → Option String
  /-- The process that created a file, if it did so in this run. -/
  creator : Inode → Option Pid
  /-- The next file to be created. -/
  next : Inode

/-- A system call of a process, or what becomes of the process. -/
inductive Action
  | spawn
  | die
  | start
  | create
  | write
  | read
  | probe
  | unlink
  | drop
  /-- The next system call fails for a reason of its own; a failing write may have written
      some characters. -/
  | ioError (written : Nat)
  deriving DecidableEq

/-- A pid a process can have. -/
def validPid (p : Pid) : Prop := 0 < p ∧ p < 2 ^ 31

instance (p : Pid) : Decidable (validPid p) := inferInstanceAs (Decidable (_ ∧ _))

namespace Host

/-- Does the pid refer to a live process? -/
def processAlive (s : Host) (pid : Int) : Bool := 0 < pid ∧ s.phase pid.toNat ≠ .dead

/-- The process moves on. -/
def goto (s : Host) (p : Pid) (ph : Phase) : Host :=
  { s with phase := Function.update s.phase p ph }

/-- The file `i` has a new text. -/
def setContents (s : Host) (i : Inode) (text : String) : Host :=
  { s with contents := Function.update s.contents i (some text) }

/-- The process has created a new file, without a text yet, at the path. -/
def createFile (s : Host) (p : Pid) : Host where
  phase := Function.update s.phase p (.writing s.next)
  path := some s.next
  contents := Function.update s.contents s.next (some "")
  creator := Function.update s.creator s.next (some p)
  next := s.next + 1

/-- Nothing is at the path any more. -/
def removePath (s : Host) : Host := { s with path := none }

/-- The acquisition fails. -/
def fail (s : Host) (p : Pid) (e : PidFileError) : Host × List (Pid × Except PidFileError Unit) :=
  (s.goto p .idle, [(p, .error e)])

/-- The next attempt, if there is one left. -/
def retry (s : Host) (p : Pid) (n : Nat) : Host × List (Pid × Except PidFileError Unit) :=
  if n + 1 < maxAttempts then (s.goto p (.creating (n + 1)), [])
  else s.fail p (.io .wouldBlock)

/-- What the process makes of the file `i` it has read. -/
def judge (s : Host) (p : Pid) (n : Nat) (i : Inode) :
    Host × List (Pid × Except PidFileError Unit) :=
  match s.contents i with
  | none      => s.fail p (.io .invalidData)
  | some text =>
    match parseI32 (trim text) with
    | some pid =>
        if pid ≠ p then (s.goto p (.probing n pid i), [])
        else (s.goto p (.unlinking n i), [])
    | none => (s.goto p (.unlinking n i), [])

/-- One step of a process: the host after it, and the acquisition it ends, with its
    result. -/
def step (s : Host) (p : Pid) : Action → Host × List (Pid × Except PidFileError Unit)
  | .die => (s.goto p .dead, [])
  | .spawn => if s.phase p = .dead ∧ validPid p then (s.goto p .idle, []) else (s, [])
  | .start => if s.phase p = .idle then (s.goto p (.creating 0), []) else (s, [])
  | .create =>
    match s.phase p with
    | .creating n =>
      match s.path with
      | some _ => (s.goto p (.reading n), [])
      | none   => (s.createFile p, [])
    | _ => (s, [])
  | .write =>
    match s.phase p with
    | .writing i => ((s.setContents i (toString p)).goto p (.holding i), [(p, .ok ())])
    | _ => (s, [])
  | .read =>
    match s.phase p with
    | .reading n =>
      match s.path with
      | none   => s.retry p n
      | some i => s.judge p n i
    | _ => (s, [])
  | .probe =>
    match s.phase p with
    | .probing n pid i =>
        if s.processAlive pid then s.fail p (.alreadyRunning pid)
        else (s.goto p (.unlinking n i), [])
    | _ => (s, [])
  | .unlink =>
    match s.phase p with
    | .unlinking n _ => s.removePath.retry p n
    | _ => (s, [])
  | .drop =>
    match s.phase p with
    | .holding _ => (s.removePath.goto p .idle, [])
    | _ => (s, [])
  | .ioError written =>
    match s.phase p with
    | .creating _ | .reading _ | .unlinking _ _ => s.fail p (.io .other)
    | .writing i =>
        (s.setContents i (String.ofList ((toString p).toList.take written))).fail p (.io .other)
    | .holding _ => (s.goto p .idle, [])
    | _ => (s, [])

end Host

/-- The step function of the runs of a host. -/
def pidStep (s : Host) (op : Pid × Action) : Host × List (Pid × Except PidFileError Unit) :=
  s.step op.1 op.2

/-! ### What a step can do -/

/-- The file a process has created and is writing or holding. -/
def Phase.claim : Phase → Option Inode
  | .writing i => some i
  | .holding i => some i
  | _          => none

/-- The file a process has read and may take for stale. -/
def Phase.suspect : Phase → Option Inode
  | .probing _ _ i => some i
  | .unlinking _ i => some i
  | _              => none

/-- The file a process takes for stale. -/
def Phase.stale : Phase → Option Inode
  | .unlinking _ i => some i
  | _              => none

/-- What a step of the process `p` can do to the host. -/
inductive Move (s : Host) (p : Pid) : Action → Host → Prop
  | stay (a : Action) : Move s p a s
  /-- The process moves to a phase that involves no file. -/
  | away (a : Action) (ph : Phase) (hclaim : ph.claim = none) (hsuspect : ph.suspect = none)
      (hvalid : ph ≠ .dead → s.phase p ≠ .dead ∨ validPid p) : Move s p a (s.goto p ph)
  | failWrite (a : Action) (i : Inode) (text : String) (hph : s.phase p = .writing i) :
      Move s p a ((s.setContents i text).goto p .idle)
  | create (n : Nat) (hph : s.phase p = .creating n) (hpath : s.path = none) :
      Move s p .create (s.createFile p)
  | write (i : Inode) (hph : s.phase p = .writing i) :
      Move s p .write ((s.setContents i (toString p)).goto p (.holding i))
  /-- The file at the path names another process. -/
  | readOther (n : Nat) (i : Inode) (text : String) (pid : Int) (hph : s.phase p = .reading n)
      (hpath : s.path = some i) (htext : s.contents i = some text)
      (hparse : parseI32 (trim text) = some pid) :
      Move s p .read (s.goto p (.probing n pid i))
  /-- The file at the path names no other process. -/
  | readStale (n : Nat) (i : Inode) (text : String) (hph : s.phase p = .reading n)
      (hpath : s.path = some i) (htext : s.contents i = some text)
      (hparse : ∀ pid ∈ parseI32 (trim text), pid = p) :
      Move s p .read (s.goto p (.unlinking n i))
  | probeDead (n : Nat) (pid : Int) (i : Inode) (hph : s.phase p = .probing n pid i)
      (hdead : s.processAlive pid = false) : Move s p .probe (s.goto p (.unlinking n i))
  | unlink (n : Nat) (i : Inode) (ph : Phase) (hph : s.phase p = .unlinking n i)
      (hclaim : ph.claim = none) (hsuspect : ph.suspect = none) :
      Move s p .unlink (s.removePath.goto p ph)
  | drop (i : Inode) (hph : s.phase p = .holding i) :
      Move s p .drop (s.removePath.goto p .idle)

section
variable {s : Host} {p : Pid}

/-- A failing acquisition involves no file. -/
theorem Move.fail (a : Action) (e : PidFileError) (hph : s.phase p ≠ .dead) :
    Move s p a (s.fail p e).1 :=
  .away a .idle rfl rfl fun _ => Or.inl hph

/-- The next attempt involves no file yet. -/
theorem Host.retry_fst (s : Host) (p : Pid) (n : Nat) :
    ∃ ph, (s.retry p n).1 = s.goto p ph ∧ ph.claim = none ∧ ph.suspect = none := by
  unfold Host.retry
  split <;> exact ⟨_, rfl, rfl, rfl⟩

/-- **What a step can do.** -/
theorem pidStep_move (s : Host) (p : Pid) (a : Action) : Move s p a (pidStep s (p, a)).1 := by
  show Move s p a (s.step p a).1
  -- one case a system call; a process that is not about to make it stays where it is
  cases a with
  | die => exact .away _ .dead rfl rfl (fun h => absurd rfl h)
  | spawn =>
    simp only [Host.step]
    split
    · next h => exact .away _ .idle rfl rfl fun _ => Or.inr h.2
    · exact .stay _
  | start =>
    simp only [Host.step]
    split
    · next h => exact .away _ _ rfl rfl fun _ => Or.inl (by simp [h])
    · exact .stay _
  | create =>
    simp only [Host.step]
    split
    · next n hph =>
      split
      · exact .away _ _ rfl rfl fun _ => Or.inl (by simp [hph])
      · next hpath => exact .create n hph hpath
    · exact .stay _
  | write =>
    simp only [Host.step]
    split
    · next i hph => exact .write i hph
    · exact .stay _
  | read =>
    simp only [Host.step]
    split
    · next n hph =>
      have halive : s.phase p ≠ .dead := by simp [hph]
      split
      · -- the file vanished between the create and the read
        obtain ⟨ph, heq, hclaim, hsuspect⟩ := s.retry_fst p n
        rw [heq]
        exact .away _ ph hclaim hsuspect fun _ => Or.inl halive
      · next i hpath =>
        unfold Host.judge
        split
        · exact .fail _ _ halive
        · next text htext =>
          split
          · next pid hparse =>
            split
            · exact .readOther n i text pid hph hpath htext hparse
            · next heq =>
              -- the own pid counts as stale
              refine .readStale n i text hph hpath htext fun pid' hpid' => ?_
              obtain rfl := Option.some.inj (hparse.symm.trans hpid')
              exact not_not.mp heq
          · next hparse =>
            exact .readStale n i text hph hpath htext fun pid hpid => by simp [hparse] at hpid
    · exact .stay _
  | probe =>
    simp only [Host.step]
    split
    · next n pid i hph =>
      split
      · exact .fail _ _ (by simp [hph])
      · next hdead => exact .probeDead n pid i hph (by simpa using hdead)
    · exact .stay _
  | unlink =>
    simp only [Host.step]
    split
    · next n i hph =>
      obtain ⟨ph, heq, hclaim, hsuspect⟩ := s.removePath.retry_fst p n
      rw [heq]
      exact .unlink n i ph hph hclaim hsuspect
    · exact .stay _
  | drop =>
    simp only [Host.step]
    split
    · next i hph => exact .drop i hph
    · exact .stay _
  | ioError written =>
    simp only [Host.step]
    split
    · next hph => exact .fail _ _ (by simp [hph])
    · next hph => exact .fail _ _ (by simp [hph])
    · next hph => exact .fail _ _ (by simp [hph])
    · next i hph => exact .failWrite _ i _ hph
    · next hph => exact .away _ .idle rfl rfl fun _ => Or.inl (by simp [hph])
    · exact .stay _

end

end AgentTermStatus
