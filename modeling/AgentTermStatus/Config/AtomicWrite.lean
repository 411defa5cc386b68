import AgentTermStatus.Lib.Disk
import AgentTermStatus.Lib.Run
import Mathlib.Data.List.TakeWhile

namespace AgentTermStatus

open Lib

/-!
# Writing a file in one piece

`atomic_write` (`crates/ats-config/src/atomic.rs`), and the same steps at the end of `install_hooks`
and `uninstall_hooks` (`crates/ats-provider-claude/src/install.rs`): the content goes to a temporary
file in the same directory, is synced, and the file is renamed to the target; before that the target
is copied to a backup, which is removed in the end.

A writer is modelled system call by system call, each of which may fail.  Any number of writers run
at the same time; any of them may be killed, the system writes back entries and files when it likes,
and power may be lost.

* `WriteStage`, `FileWriter.step` — a writer, and what a system call does to it;
* `writeStep` — writers of one target on one disk;
* `writer_step_move` — what a system call of a writer can do.
-/

/-! ### Names -/

/-- What stands before the last dot of a name. -/
def beforeLastDot (name : List Char) : List Char :=
  (name.reverse.dropWhile (· ≠ '.')).tail.reverse

/-- The name of a file without its extension; a dot at the start does not begin one. -/
def fileStem (name : List Char) : List Char :=
  if '.' ∈ name ∧ beforeLastDot name ≠ [] then beforeLastDot name else name

/-- A name with another extension. -/
def withExtension (name ext : String) : String :=
  String.ofList (fileStem name.toList ++ '.' :: ext.toList)

/-- Who writes; the two keep their backups under different names. -/
inductive SafeWrite
  /-- `atomic_write`, for the configuration. -/
  | atomicWrite
  /-- `install_hooks` and `uninstall_hooks`, for the settings. -/
  | hooks

/-- The extension of a backup. -/
def SafeWrite.extension : SafeWrite → String
  | .atomicWrite => "yaml.bak"
  | .hooks       => "json.bak"

/-- The name of the backup. -/
def backupName (kind : SafeWrite) (target : String) : String := withExtension target kind.extension

/-- A name as temporary files have: six letters and digits behind `.tmp`. -/
def isTempName (name : String) : Bool :=
  name.toList.take 4 == ".tmp".toList && (name.toList.drop 4).length == 6 &&
    (name.toList.drop 4).all Char.isAlphanum

/-- A name is its stem, or that and an extension without a dot. -/
theorem eq_fileStem (name : List Char) :
    name = fileStem name ∨ ∃ ext, '.' ∉ ext ∧ name = fileStem name ++ '.' :: ext := by
  unfold fileStem
  split
  · next h =>
    refine Or.inr ⟨(name.reverse.takeWhile (· ≠ '.')).reverse, ?_, ?_⟩
    · intro hmem
      have := List.mem_takeWhile_imp (List.mem_reverse.mp hmem)
      simp at this
    · -- what is dropped from the end starts with the last dot
      have hdrop : ∃ rest, name.reverse.dropWhile (· ≠ '.') = '.' :: rest := by
        cases hd : name.reverse.dropWhile (· ≠ '.') with
        | nil =>
          rw [List.dropWhile_eq_nil_iff] at hd
          exact absurd (hd '.' (List.mem_reverse.mpr h.1)) (by simp)
        | cons c rest =>
          have hc := List.head?_dropWhile_not (· ≠ '.') name.reverse
          rw [hd] at hc
          exact ⟨rest, by rw [show c = '.' by simpa using hc]⟩
      obtain ⟨rest, hrest⟩ := hdrop
      have hsplit := List.takeWhile_append_dropWhile (p := (· ≠ '.')) (l := name.reverse)
      rw [hrest] at hsplit
      have hrev := congrArg List.reverse hsplit
      rw [beforeLastDot, hrest, List.tail_cons]
      simpa using hrev.symm
  · exact Or.inl rfl

/-- The name of a backup, letter by letter. -/
theorem toList_backupName (kind : SafeWrite) (target : String) :
    (backupName kind target).toList = fileStem target.toList ++ '.' :: kind.extension.toList := by
  simp [backupName, withExtension]

/-- The extension of a backup has a dot in it. -/
theorem SafeWrite.dot_mem_extension (kind : SafeWrite) : '.' ∈ kind.extension.toList := by
  cases kind <;> decide

/-- The backup is not the target. -/
theorem backupName_ne (kind : SafeWrite) (target : String) : backupName kind target ≠ target := by
  intro h
  have hlist := toList_backupName kind target
  rw [h] at hlist
  rcases eq_fileStem target.toList with heq | ⟨ext, hext, heq⟩
  · have hlen := congrArg List.length hlist
    rw [← heq, List.length_append] at hlen
    exact absurd hlen (by simp)
  · -- an extension has no dot
    have hsame := List.append_cancel_left (hlist.symm.trans heq)
    obtain rfl := List.tail_eq_of_cons_eq hsame
    exact hext kind.dot_mem_extension

/-- The backup is not a temporary file. -/
theorem isTempName_backupName (kind : SafeWrite) (target : String) :
    isTempName (backupName kind target) = false := by
  by_contra h
  simp only [isTempName, Bool.not_eq_false, Bool.and_eq_true, beq_iff_eq] at h
  obtain ⟨⟨htake, hdrop⟩, -⟩ := h
  rw [toList_backupName] at htake hdrop
  -- the length leaves one letter for the stem, and the next one differs
  have hext : kind.extension.toList.length = 8 := by cases kind <;> decide
  have hone : (fileStem target.toList).length = 1 := by
    rw [List.length_drop, List.length_append, List.length_cons, hext] at hdrop
    omega
  obtain ⟨c, hc⟩ := List.length_eq_one_iff.mp hone
  rw [hc] at htake
  exact absurd htake (by simp)

/-- A temporary file has another name than a file that is none. -/
theorem ne_of_isTempName {t name : String} (ht : isTempName t = true)
    (hname : isTempName name = false) : t ≠ name := by
  rintro rfl
  rw [ht] at hname
  exact absurd hname (by simp)

/-! ### A writer -/

/-- What `atomic_write` fails with. -/
inductive AtomicWriteError
  | io (e : String)
  /-- The temporary file could not be renamed to the target. -/
  | tempFile (e : String)
  deriving DecidableEq

/-- Where a writer is: the system call it makes next. -/
inductive WriteStage
  | createDirs
  | checkExists
  | openOriginal
  | openBackup (original : Nat)
  | copying (original backup : Nat) (offset : Nat)
  | newTemp
  /-- What is left of the content is to be written to the temporary file. -/
  | writing (temp : String) (file : Nat) (rest : List UInt8)
  | syncing (temp : String) (file : Nat)
  | persisting (temp : String) (file : Nat)
  | removeBackup
  /-- The writer has failed, and its temporary file is dropped. -/
  | dropping (temp : String) (file : Nat) (error : AtomicWriteError)
  | returned (result : Except AtomicWriteError Unit)
  | killed

/-- A call of `atomic_write`. -/
structure FileWriter where
  content : List UInt8
  stage : WriteStage

/-- How a system call ends. -/
inductive CallOutcome
  | done
  /-- So many bytes are written. -/
  | moved (n : Nat)
  /-- A temporary file is made under the name. -/
  | made (name : String)
  | failed (e : String)

/-- Some bytes written at an offset. -/
def writeAt (old : List UInt8) (offset : Nat) (bytes : List UInt8) : List UInt8 :=
  (old ++ List.replicate (offset - old.length) 0).take offset ++ bytes ++
    old.drop (offset + bytes.length)

namespace FileWriter

/-- The writer at another stage. -/
def goto (w : FileWriter) (stage : WriteStage) : FileWriter := { w with stage }

/-- One system call of a writer that ends in some way: the disk and the writer after it, and the
    content that it installs, if it does.  Outcomes that the call cannot have change nothing. -/
def step (kind : SafeWrite) (target : String) (d : Disk String UInt8) (w : FileWriter)
    (outcome : CallOutcome) : Disk String UInt8 × FileWriter × List (List UInt8) :=
  match w.stage, outcome with
  | .createDirs, .done     => (d, w.goto .checkExists, [])
  | .createDirs, .failed e => (d, w.goto (.returned (.error (.io e))), [])
  | .checkExists, .done =>
    (d, w.goto (if (d.dir target).isSome then .openOriginal else .newTemp), [])
  | .checkExists, .failed _ => (d, w.goto .newTemp, [])
  -- the copy: whatever becomes of it, the writer goes on
  | .openOriginal, .done =>
    match d.dir target with
    | some f => (d, w.goto (.openBackup f), [])
    | none   => (d, w.goto .newTemp, [])
  | .openOriginal, .failed _ => (d, w.goto .newTemp, [])
  | .openBackup f, .done =>
    match d.dir (backupName kind target) with
    | some b => (d.write b [], w.goto (.copying f b 0), [])
    | none   => (d.create (backupName kind target), w.goto (.copying f d.next 0), [])
  | .openBackup _, .failed _ => (d, w.goto .newTemp, [])
  | .copying f b offset, .moved n =>
    let bytes := ((d.data f).drop offset).take n
    if bytes.isEmpty then (d, w.goto .newTemp, [])
    else (d.write b (writeAt (d.data b) offset bytes), w.goto (.copying f b (offset + n)), [])
  | .copying _ _ _, .failed _ => (d, w.goto .newTemp, [])
  | .newTemp, .made name =>
    -- the file is made only where there is none of the name
    if isTempName name && (d.dir name).isNone then
      (d.create name, w.goto (.writing name d.next w.content), [])
    else (d, w, [])
  | .newTemp, .failed e => (d, w.goto (.returned (.error (.io e))), [])
  | .writing temp f [], _ => (d, w.goto (.syncing temp f), [])
  | .writing temp f _, .moved 0 =>
    (d, w.goto (.dropping temp f (.io "failed to write whole buffer")), [])
  | .writing temp f rest, .moved n =>
    (d.write f (d.data f ++ rest.take n), w.goto (.writing temp f (rest.drop n)), [])
  | .writing temp f _, .failed e  => (d, w.goto (.dropping temp f (.io e)), [])
  | .syncing temp f, .done        => (d.sync f, w.goto (.persisting temp f), [])
  | .syncing temp f, .failed e    => (d, w.goto (.dropping temp f (.io e)), [])
  | .persisting temp _, .done     => (d.rename temp target, w.goto .removeBackup, [w.content])
  | .persisting temp f, .failed e => (d, w.goto (.dropping temp f (.tempFile e)), [])
  | .removeBackup, .done     => (d.unlink (backupName kind target), w.goto (.returned (.ok ())), [])
  | .removeBackup, .failed _ => (d, w.goto (.returned (.ok ())), [])
  | .dropping temp _ e, .done     => (d.unlink temp, w.goto (.returned (.error e)), [])
  | .dropping _ _ e, .failed _    => (d, w.goto (.returned (.error e)), [])
  | _, _ => (d, w, [])

/-- The writer when its process ends: nothing, if it has not begun or has returned. -/
def kill (w : FileWriter) : FileWriter :=
  match w.stage with
  | .createDirs | .returned _ => w
  | _ => w.goto .killed

end FileWriter

/-! ### Writers on one disk -/

/-- A disk, and the writers of one target on it. -/
structure WriteSystem where
  disk : Disk String UInt8
  writer : Nat → FileWriter

/-- Writers that have not begun, each with its content. -/
def WriteSystem.start (d : Disk String UInt8) (contents : Nat → List UInt8) : WriteSystem where
  disk := d
  writer := fun k => ⟨contents k, .createDirs⟩

/-- What happens next. -/
inductive WriteStep
  /-- A system call of a writer. -/
  | call (k : Nat) (outcome : CallOutcome)
  | kill (k : Nat)
  /-- The system writes back an entry. -/
  | flushEntry (name : String)
  /-- The system writes back a file. -/
  | flushData (file : Nat)
  | powerLoss

/-- One step; emitted is what a writer installs. -/
def writeStep (kind : SafeWrite) (target : String) (s : WriteSystem) :
    WriteStep → WriteSystem × List (Nat × List UInt8)
  | .call k outcome =>
    let (disk, w, installed) := (s.writer k).step kind target s.disk outcome
    ({ disk, writer := Function.update s.writer k w }, installed.map fun content => (k, content))
  | .kill k => ({ s with writer := Function.update s.writer k (s.writer k).kill }, [])
  | .flushEntry name => ({ s with disk := s.disk.flushEntry name }, [])
  | .flushData file => ({ s with disk := s.disk.sync file }, [])
  | .powerLoss => ({ disk := s.disk.powerLoss, writer := fun k => (s.writer k).kill }, [])

/-! ### What writers have -/

/-- The temporary file of a writer: its name and the file. -/
def WriteStage.temp : WriteStage → Option (String × Nat)
  | .writing t f _ | .syncing t f | .persisting t f | .dropping t f _ => some (t, f)
  | _ => none

/-- The backup that a writer is copying to. -/
def WriteStage.backup : WriteStage → Option Nat
  | .copying _ b _ => some b
  | _ => none

/-- How much of the content the temporary file has, and when it has reached the disk. -/
def Written (d : Disk String UInt8) (content : List UInt8) : WriteStage → Prop
  | .writing _ f rest => d.data f ++ rest = content
  | .syncing _ f      => d.data f = content
  | .persisting _ f   => d.data f = content ∧ d.diskData f = content
  | _                 => True

/-- Has a writer installed its content?  A writer that was killed may have. -/
def WriteStage.hasInstalled : WriteStage → Option Bool
  | .removeBackup | .returned (.ok ()) => some true
  | .killed => none
  | _ => some false

/-- What a temporary file has is the same on another disk on which its content is. -/
theorem Written.frame {d d' : Disk String UInt8} {content : List UInt8} {stage : WriteStage}
    (h : Written d content stage)
    (hsame : ∀ t f, stage.temp = some (t, f) → d'.data f = d.data f ∧
      (d'.diskData f = d.diskData f ∨ d'.diskData f = d.data f)) :
    Written d' content stage := by
  cases stage with
  | writing t f rest =>
    show d'.data f ++ rest = content
    rw [(hsame t f rfl).1]
    exact h
  | syncing t f => exact (hsame t f rfl).1.trans h
  | persisting t f =>
    obtain ⟨hdata, hdisk⟩ := hsame t f rfl
    exact ⟨hdata.trans h.1, hdisk.elim (·.trans h.2) (·.trans h.1)⟩
  | _ => trivial

/-- A writer whose process has ended holds no files. -/
theorem FileWriter.kill_stage (w : FileWriter) :
    w.kill.stage.temp = none ∧ w.kill.stage.backup = none ∧
    (∀ d content, Written d content w.kill.stage) ∧ w.kill.content = w.content := by
  obtain ⟨content, stage⟩ := w
  cases stage <;> exact ⟨rfl, rfl, fun _ _ => trivial, rfl⟩

/-- What a writer whose process has ended has installed, it had installed before. -/
theorem FileWriter.hasInstalled_of_kill {w : FileWriter} {b : Bool}
    (h : w.kill.stage.hasInstalled = some b) : w.stage.hasInstalled = some b := by
  obtain ⟨content, stage⟩ := w
  cases stage with
  | createDirs => exact h
  | returned result => exact h
  | _ => exact absurd h (by simp [FileWriter.kill, FileWriter.goto, WriteStage.hasInstalled])

/-! ### What a system call of a writer does -/

/-- What a system call can do: the disk and the stage after it, and what is installed. -/
inductive WriterMove (kind : SafeWrite) (target : String) (d : Disk String UInt8) (w : FileWriter) :
    Disk String UInt8 → WriteStage → List (List UInt8) → Prop
  /-- The disk stays as it is, and the writer goes on with the files it has. -/
  | goto (stage : WriteStage) (htemp : ∀ x, stage.temp = some x → w.stage.temp = some x)
      (hbackup : ∀ b, stage.backup = some b → w.stage.backup = some b)
      (hwritten : Written d w.content w.stage → Written d w.content stage)
      (hinstalled : stage.hasInstalled = w.stage.hasInstalled) :
      WriterMove kind target d w d stage []
  | truncateBackup (original b : Nat) (hw : w.stage = .openBackup original)
      (hb : d.dir (backupName kind target) = some b) :
      WriterMove kind target d w (d.write b []) (.copying original b 0) []
  | createBackup (original : Nat) (hw : w.stage = .openBackup original) :
      WriterMove kind target d w (d.create (backupName kind target)) (.copying original d.next 0) []
  | copy (original b offset offset' : Nat) (content : List UInt8)
      (hw : w.stage = .copying original b offset) :
      WriterMove kind target d w (d.write b content) (.copying original b offset') []
  | makeTemp (name : String) (hw : w.stage = .newTemp) (hname : isTempName name = true)
      (hfree : d.dir name = none) :
      WriterMove kind target d w (d.create name) (.writing name d.next w.content) []
  | write (t : String) (f : Nat) (rest : List UInt8) (n : Nat) (hw : w.stage = .writing t f rest) :
      WriterMove kind target d w (d.write f (d.data f ++ rest.take n))
        (.writing t f (rest.drop n)) []
  | sync (t : String) (f : Nat) (hw : w.stage = .syncing t f) :
      WriterMove kind target d w (d.sync f) (.persisting t f) []
  | install (t : String) (f : Nat) (hw : w.stage = .persisting t f) :
      WriterMove kind target d w (d.rename t target) .removeBackup [w.content]
  | removeBackup (hw : w.stage = .removeBackup) :
      WriterMove kind target d w (d.unlink (backupName kind target)) (.returned (.ok ())) []
  | drop (t : String) (f : Nat) (e : AtomicWriteError) (hw : w.stage = .dropping t f e) :
      WriterMove kind target d w (d.unlink t) (.returned (.error e)) []

/-- The writer stays where it is. -/
theorem writerMove_stay (kind : SafeWrite) (target : String) (d : Disk String UInt8)
    (w : FileWriter) :
    WriterMove kind target d w d w.stage [] :=
  .goto w.stage (fun _ h => h) (fun _ h => h) id rfl

/-- **What a system call does.** -/
theorem writer_step_move (kind : SafeWrite) (target : String) (d : Disk String UInt8)
    (w : FileWriter) (outcome : CallOutcome) :
    ∃ d' stage installed, w.step kind target d outcome = (d', w.goto stage, installed) ∧
      WriterMove kind target d w d' stage installed := by
  obtain ⟨content, stage⟩ := w
  -- an outcome that the call cannot have, and a call that only takes the writer on
  have hstay : ∃ d' stage' installed, (d, (⟨content, stage⟩ : FileWriter), []) =
      (d', (⟨content, stage⟩ : FileWriter).goto stage', installed) ∧
      WriterMove kind target d ⟨content, stage⟩ d' stage' installed :=
    ⟨d, stage, [], rfl, writerMove_stay kind target d ⟨content, stage⟩⟩
  have hgoto : ∀ stage' : WriteStage, stage'.temp = none ∨ stage'.temp = stage.temp →
      stage'.backup = none → (Written d content stage → Written d content stage') →
      stage'.hasInstalled = stage.hasInstalled →
      ∃ d' stage'' installed, (d, (⟨content, stage⟩ : FileWriter).goto stage', []) =
        (d', (⟨content, stage⟩ : FileWriter).goto stage'', installed) ∧
        WriterMove kind target d ⟨content, stage⟩ d' stage'' installed := by
    intro stage' htemp hbackup hwritten hinstalled
    refine ⟨d, stage', [], rfl, .goto stage' (fun x hx => ?_) (fun b hb => ?_) hwritten hinstalled⟩
    · rcases htemp with hnone | hsame
      · rw [hnone] at hx
        exact absurd hx (by simp)
      · exact hsame ▸ hx
    · rw [hbackup] at hb
      exact absurd hb (by simp)
  cases stage with
  | createDirs =>
    cases outcome with
    | done => exact hgoto .checkExists (.inl rfl) rfl id rfl
    | failed e => exact hgoto (.returned (.error (.io e))) (.inl rfl) rfl id rfl
    | moved n => exact hstay
    | made name => exact hstay
  | checkExists =>
    cases outcome with
    | done =>
      unfold FileWriter.step
      dsimp only
      split
      · exact hgoto .openOriginal (.inl rfl) rfl id rfl
      · exact hgoto .newTemp (.inl rfl) rfl id rfl
    | failed e => exact hgoto .newTemp (.inl rfl) rfl id rfl
    | moved n => exact hstay
    | made name => exact hstay
  | openOriginal =>
    cases outcome with
    | done =>
      unfold FileWriter.step
      dsimp only
      split
      · next f _ => exact hgoto (.openBackup f) (.inl rfl) rfl id rfl
      · exact hgoto .newTemp (.inl rfl) rfl id rfl
    | failed e => exact hgoto .newTemp (.inl rfl) rfl id rfl
    | moved n => exact hstay
    | made name => exact hstay
  | openBackup original =>
    cases outcome with
    | done =>
      unfold FileWriter.step
      dsimp only
      split
      · next b hb => exact ⟨_, _, _, rfl, .truncateBackup original b rfl hb⟩
      · exact ⟨_, _, _, rfl, .createBackup original rfl⟩
    | failed e => exact hgoto .newTemp (.inl rfl) rfl id rfl
    | moved n => exact hstay
    | made name => exact hstay
  | copying original b offset =>
    cases outcome with
    | moved n =>
      unfold FileWriter.step
      dsimp only
      split
      · exact hgoto .newTemp (.inl rfl) rfl id rfl
      · exact ⟨_, _, _, rfl, .copy original b offset (offset + n) _ rfl⟩
    | failed e => exact hgoto .newTemp (.inl rfl) rfl id rfl
    | done => exact hstay
    | made name => exact hstay
  | newTemp =>
    cases outcome with
    | made name =>
      unfold FileWriter.step
      dsimp only
      split
      · next hfree =>
        rw [Bool.and_eq_true, Option.isNone_iff_eq_none] at hfree
        exact ⟨_, _, _, rfl, .makeTemp name rfl hfree.1 hfree.2⟩
      · exact hstay
    | failed e => exact hgoto (.returned (.error (.io e))) (.inl rfl) rfl id rfl
    | done => exact hstay
    | moved n => exact hstay
  | writing t f rest =>
    cases rest with
    | nil =>
      -- all is written
      refine hgoto (.syncing t f) (.inr rfl) rfl (fun h => ?_) rfl
      rw [Written, List.append_nil] at h
      exact h
    | cons b rest =>
      cases outcome with
      | moved n =>
        cases n with
        | zero => exact hgoto (.dropping t f _) (.inr rfl) rfl (fun _ => trivial) rfl
        | succ n => exact ⟨_, _, _, rfl, .write t f (b :: rest) (n + 1) rfl⟩
      | failed e => exact hgoto (.dropping t f (.io e)) (.inr rfl) rfl (fun _ => trivial) rfl
      | done => exact hstay
      | made name => exact hstay
  | syncing t f =>
    cases outcome with
    | done => exact ⟨_, _, _, rfl, .sync t f rfl⟩
    | failed e => exact hgoto (.dropping t f (.io e)) (.inr rfl) rfl (fun _ => trivial) rfl
    | moved n => exact hstay
    | made name => exact hstay
  | persisting t f =>
    cases outcome with
    | done => exact ⟨_, _, _, rfl, .install t f rfl⟩
    | failed e => exact hgoto (.dropping t f (.tempFile e)) (.inr rfl) rfl (fun _ => trivial) rfl
    | moved n => exact hstay
    | made name => exact hstay
  | removeBackup =>
    cases outcome with
    | done => exact ⟨_, _, _, rfl, .removeBackup rfl⟩
    | failed e => exact hgoto (.returned (.ok ())) (.inl rfl) rfl id rfl
    | moved n => exact hstay
    | made name => exact hstay
  | dropping t f e =>
    cases outcome with
    | done => exact ⟨_, _, _, rfl, .drop t f e rfl⟩
    | failed e' => exact hgoto (.returned (.error e)) (.inl rfl) rfl (fun _ => trivial) rfl
    | moved n => exact hstay
    | made name => exact hstay
  | returned result => cases outcome <;> exact hstay
  | killed => cases outcome <;> exact hstay

end AgentTermStatus
