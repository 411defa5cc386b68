import AgentTermStatus.Daemon.PidFile

namespace AgentTermStatus

open Lib

/-!
# Do two daemons ever own the PID file?

A process that creates the file owns it for as long as nobody else unlinks the path, since
the creation is exclusive.  What can go wrong is the removal of a stale file: it unlinks
whatever is at the path by then.  Every run in which it never removes a file that a live
process has created and not given up excludes (`exclusive_of_keepsClaimed`).

Two races lead there (`keepsClaimed_of_raceFree`): a file is read between its creation and
the write of its pid, and the path is taken over between the read and the unlink.
-/

/-- The guard excludes: at most one process holds it, and the file that dropping it would
    remove is one its process created. -/
structure Exclusive (s : Host) : Prop where
  oneHolder : ∀ p q i j, s.phase p = .holding i → s.phase q = .holding j → p = q
  ownFile : ∀ p i j, s.phase p = .holding i → s.path = some j → s.creator j = some p

/-- Nobody is acquiring or holding yet; there may be a file at the path. -/
structure Initial (s : Host) : Prop where
  phases : ∀ p, s.phase p = .dead ∨ s.phase p = .idle ∧ validPid p
  files : ∀ i ∈ s.path, i < s.next

/-- If the step removes a file as stale, no process is writing or holding that file. -/
def KeepsClaimed (s : Host) (op : Pid × Action) : Prop :=
  op.2 = .unlink → (s.phase op.1).stale.isSome →
    ∀ i ∈ s.path, ∀ q ∈ s.creator i, (s.phase q).claim ≠ some i

instance (s : Host) (op : Pid × Action) : Decidable (KeepsClaimed s op) :=
  inferInstanceAs (Decidable (_ → _ → _))

/-- Every file a process is writing or holding is at the path, and the process has created
    it. -/
def Claims (s : Host) : Prop :=
  ∀ p i, (s.phase p).claim = some i → s.path = some i ∧ s.creator i = some p

/-- If claimed files are at the path, the guard excludes. -/
theorem Claims.exclusive {s : Host} (h : Claims s) : Exclusive s where
  oneHolder := by
    intro p q i j hp hq
    obtain ⟨hpi, hci⟩ := h p i (by rw [hp]; rfl)
    obtain ⟨hpj, hcj⟩ := h q j (by rw [hq]; rfl)
    obtain rfl := Option.some.inj (hpi.symm.trans hpj)
    exact Option.some.inj (hci.symm.trans hcj)
  ownFile := by
    intro p i j hp hj
    obtain ⟨hpi, hci⟩ := h p i (by rw [hp]; rfl)
    obtain rfl := Option.some.inj (hpi.symm.trans hj)
    exact hci

/-- Nobody claims anything yet. -/
theorem Initial.claims {s : Host} (h : Initial s) : Claims s := by
  intro p i hp
  rcases h.phases p with hdead | ⟨hidle, -⟩
  · simp [hdead, Phase.claim] at hp
  · simp [hidle, Phase.claim] at hp

/-- A claim after a process moved on: its own new one, or an old one of another process. -/
theorem goto_claim {s : Host} {p q : Pid} {ph : Phase} {i : Inode}
    (h : ((s.goto p ph).phase q).claim = some i) :
    q = p ∧ ph.claim = some i ∨ q ≠ p ∧ (s.phase q).claim = some i := by
  unfold Host.goto at h
  simp only [Function.update_apply] at h
  by_cases hqp : q = p
  · exact Or.inl ⟨hqp, by simpa [hqp] using h⟩
  · exact Or.inr ⟨hqp, by simpa [hqp] using h⟩

/-- Claims survive a process that moves on without a new claim. -/
theorem Claims.goto {s : Host} (h : Claims s) (p : Pid) {ph : Phase}
    (hph : ∀ i, ph.claim = some i → (s.phase p).claim = some i) : Claims (s.goto p ph) := by
  intro q i hq
  rcases goto_claim hq with ⟨rfl, hnew⟩ | ⟨-, hold⟩
  · exact h q i (hph i hnew)
  · exact h q i hold

/-- Claims survive a change of a file's text. -/
theorem Claims.setContents {s : Host} (h : Claims s) (i : Inode) (text : String) :
    Claims (s.setContents i text) := h

/-- With a claimed file, its owner is the only one that claims anything. -/
theorem Claims.unique {s : Host} (h : Claims s) {p q : Pid} {i j : Inode}
    (hp : (s.phase p).claim = some i) (hq : (s.phase q).claim = some j) : p = q ∧ i = j := by
  obtain ⟨hpi, hci⟩ := h p i hp
  obtain ⟨hqj, hcj⟩ := h q j hq
  obtain rfl := Option.some.inj (hpi.symm.trans hqj)
  exact ⟨Option.some.inj (hci.symm.trans hcj), rfl⟩

/-- **Step lemma.** Claims survive every step that removes no claimed file as stale. -/
theorem Claims.step {s : Host} (h : Claims s) (op : Pid × Action) (hkeep : KeepsClaimed s op) :
    Claims (pidStep s op).1 := by
  obtain ⟨p, a⟩ := op
  have hmove := pidStep_move s p a
  generalize (pidStep s (p, a)).1 = s' at hmove ⊢
  cases hmove with
  | stay => exact h
  | away _ ph hclaim => exact h.goto p (by simp [hclaim])
  | failWrite _ i text hph => exact (h.setContents i text).goto p (by simp [Phase.claim])
  | create n hph hpath =>
    -- nothing was at the path, so the new claim is the only one
    intro q i hq
    rcases goto_claim (s := s) hq with ⟨rfl, hnew⟩ | ⟨-, hold⟩
    · obtain rfl := Option.some.inj hnew
      exact ⟨rfl, Function.update_self _ _ _⟩
    · have hpath' := (h q i hold).1
      rw [hpath] at hpath'
      exact absurd hpath' (by simp)
  | write i hph =>
    exact (h.setContents i _).goto p (by simp [Phase.claim, Host.setContents, hph])
  | readOther => exact h.goto p (by simp [Phase.claim])
  | readStale => exact h.goto p (by simp [Phase.claim])
  | probeDead => exact h.goto p (by simp [Phase.claim])
  | unlink n j ph hph hclaim =>
    intro q i hq
    rcases goto_claim hq with ⟨-, hnew⟩ | ⟨-, hold⟩
    · simp [hclaim] at hnew
    · obtain ⟨hpath, hcreator⟩ := h q i hold
      exact absurd hold (hkeep rfl (by simp [hph, Phase.stale]) i hpath q hcreator)
  | drop j hph =>
    -- the dropped file was the only one claimed
    intro q i hq
    rcases goto_claim hq with ⟨-, hnew⟩ | ⟨hqp, hold⟩
    · simp [Phase.claim] at hnew
    · exact absurd (h.unique hold (by rw [hph]; rfl)).1 hqp

/-- **When the guard excludes.** From any state in which nobody is acquiring or holding,
    with any file or none at the path, and for any interleaving of any processes: if no
    step removes as stale a file that a live process is writing or holding, then at every
    point at most one process holds the guard, and every drop would remove a file of the
    dropping process. -/
theorem exclusive_of_keepsClaimed (s : Host) (hs : Initial s) (ops : List (Pid × Action))
    (hrun : Along pidStep KeepsClaimed s ops) :
    ∀ p, p <+: ops → Exclusive (exec pidStep s p) := by
  rintro p ⟨rest, rfl⟩
  have hpre := ((along_append pidStep _ s p rest).mp hrun).1
  exact (hpre.exec_inv Claims (fun _ op hkeep h => h.step op hkeep) hs.claims).exclusive

/-! ### The races -/

/-- No file is read before its live creator has written to it, and nothing but the file
    read is removed as stale. -/
def RaceFree (s : Host) (op : Pid × Action) : Prop :=
  (op.2 = .read → ∀ i ∈ s.path, ∀ q ∈ s.creator i, s.phase q ≠ .writing i) ∧
  (op.2 = .unlink → ∀ j ∈ (s.phase op.1).stale, ∀ i ∈ s.path, i = j)

instance (s : Host) (op : Pid × Action) : Decidable (RaceFree s op) :=
  inferInstanceAs (Decidable (_ ∧ _))

/-- What a process that has read the file `i` knows of those who claim it: while it probes,
    that only the probed process can; when it unlinks, that nobody does. -/
def Phase.Knows (s : Host) : Phase → Prop
  | .probing _ pid i => ∀ q, (s.phase q).claim = some i → (q : Int) = pid
  | .unlinking _ i   => ∀ q, (s.phase q).claim ≠ some i
  | _                => True

/-- The invariant of runs without races. -/
structure Orderly (s : Host) : Prop where
  claims : Claims s
  /-- Files are created under new names. -/
  files : ∀ i ∈ s.path, i < s.next
  suspects : ∀ p, ∀ i ∈ (s.phase p).suspect, i < s.next
  /-- A held file names its holder. -/
  named : ∀ p i, s.phase p = .holding i → s.contents i = some (toString p)
  valid : ∀ p, s.phase p ≠ .dead → validPid p
  knows : ∀ p, (s.phase p).Knows s

/-- Before anybody acquires. -/
theorem Initial.orderly {s : Host} (h : Initial s) : Orderly s := by
  have hphase : ∀ p, s.phase p = .dead ∨ s.phase p = .idle :=
    fun p => (h.phases p).imp_right And.left
  refine ⟨h.claims, h.files, fun p i hi => ?_, fun p i hi => ?_, fun p hp => ?_, fun p => ?_⟩
  · rcases hphase p with hph | hph <;> simp [hph, Phase.suspect] at hi
  · rcases hphase p with hph | hph <;> simp [hph] at hi
  · exact ((h.phases p).resolve_left hp).2
  · rcases hphase p with hph | hph <;> simp [hph, Phase.Knows]

/-- What a process knows stays true when no claim is added. -/
theorem Phase.Knows.mono {s s' : Host} {ph : Phase} (h : ph.Knows s)
    (hle : ∀ q i, (s'.phase q).claim = some i → (s.phase q).claim = some i) : ph.Knows s' := by
  cases ph with
  | probing n pid i => exact fun q hq => h q (hle q i hq)
  | unlinking n i => exact fun q hq => h q (hle q i hq)
  | _ => trivial

/-- A process that suspects no file knows nothing. -/
theorem Phase.knows_of_suspect {s : Host} {ph : Phase} (h : ph.suspect = none) : ph.Knows s := by
  cases ph with
  | probing n pid i => simp [Phase.suspect] at h
  | unlinking n i => simp [Phase.suspect] at h
  | _ => trivial

/-- In a run without races, nothing claimed is removed as stale. -/
theorem Orderly.keepsClaimed {s : Host} (h : Orderly s) {op : Pid × Action}
    (hrace : RaceFree s op) : KeepsClaimed s op := by
  intro hunlink hstale i hi q _
  obtain ⟨j, hj⟩ := Option.isSome_iff_exists.mp hstale
  obtain rfl := hrace.2 hunlink j hj i hi
  have hknows := h.knows op.1
  cases hph : s.phase op.1 with
  | unlinking n k =>
    rw [hph] at hknows hj
    obtain rfl := Option.some.inj hj
    exact hknows q
  | _ => simp [hph, Phase.stale] at hj

/-- What holds of every process holds after one has moved on, if it holds of its new phase. -/
theorem forall_phase_update {phase : Pid → Phase} {p : Pid} {ph : Phase}
    (P : Pid → Phase → Prop) (hnew : P p ph) (hold : ∀ q, P q (phase q)) :
    ∀ q, P q (Function.update phase p ph q) :=
  (Function.forall_update_iff phase P).mpr ⟨hnew, fun q _ => hold q⟩

/-- Moving a process keeps the invariant if what its new phase asks for holds. -/
theorem Orderly.goto {s : Host} (h : Orderly s) (p : Pid) {ph : Phase}
    (hclaim : ∀ i, ph.claim = some i → (s.phase p).claim = some i)
    (hsuspect : ∀ i ∈ ph.suspect, i < s.next)
    (hnamed : ∀ i, ph = .holding i → s.contents i = some (toString p))
    (hvalid : ph ≠ .dead → validPid p) (hknows : ph.Knows s) : Orderly (s.goto p ph) := by
  -- no claim is added, so what anybody knows of the claims stays true
  have hle : ∀ q i, ((s.goto p ph).phase q).claim = some i → (s.phase q).claim = some i := by
    intro q i hq
    rcases goto_claim hq with ⟨rfl, hnew⟩ | ⟨-, hold⟩
    · exact hclaim i hnew
    · exact hold
  refine ⟨h.claims.goto p hclaim, h.files, ?_, ?_, ?_, ?_⟩
  · exact forall_phase_update (fun _ ph => ∀ i ∈ ph.suspect, i < s.next) hsuspect h.suspects
  · exact forall_phase_update (fun q ph => ∀ i, ph = .holding i →
      s.contents i = some (toString q)) hnamed h.named
  · exact forall_phase_update (fun q ph => ph ≠ .dead → validPid q) hvalid h.valid
  · exact forall_phase_update (fun _ ph' => ph'.Knows (s.goto p ph)) (hknows.mono hle)
      fun q => (h.knows q).mono hle

/-- Suspecting the file at the path keeps the invariant, as long as what it implies is known. -/
theorem Orderly.suspectPath {s : Host} (h : Orderly s) {p : Pid} {ph : Phase} {i : Inode}
    (hlive : s.phase p ≠ .dead) (hpath : s.path = some i) (hclaim : ph.claim = none)
    (hsuspect : ph.suspect = some i) (hknows : ph.Knows s) : Orderly (s.goto p ph) := by
  refine h.goto p (by simp [hclaim]) ?_ ?_ (fun _ => h.valid p hlive) hknows
  · intro j hj
    rw [hsuspect] at hj
    obtain rfl := Option.some.inj hj
    exact h.files _ hpath
  · rintro j rfl
    simp [Phase.claim] at hclaim

/-- Only its owner writes to a claimed file. -/
theorem Orderly.setContents {s : Host} (h : Orderly s) {p : Pid} {i : Inode}
    (hph : s.phase p = .writing i) (text : String) : Orderly (s.setContents i text) := by
  refine ⟨h.claims, h.files, h.suspects, fun q j hq => ?_, h.valid, h.knows⟩
  -- a holder would be the writing process itself
  have hq : s.phase q = .holding j := hq
  have heq := (h.claims.unique (p := q) (q := p) (i := j) (j := i) (by rw [hq]; rfl)
    (by rw [hph]; rfl)).1
  rw [heq, hph] at hq
  exact absurd hq (by simp)

/-- Removing the file at the path keeps the invariant if the claims survive it. -/
theorem Orderly.removePath {s : Host} (h : Orderly s) (hclaims : Claims s.removePath) :
    Orderly s.removePath :=
  ⟨hclaims, by simp [Host.removePath], h.suspects, h.named, h.valid, h.knows⟩

/-- Creating a file keeps the invariant if nobody claims one: the file is new, so nobody
    suspects it. -/
theorem Orderly.create {s : Host} (h : Orderly s) {p : Pid}
    (hclaims : Claims (s.createFile p)) (hvalid : validPid p)
    (hfree : ∀ q i, (s.phase q).claim ≠ some i) : Orderly (s.createFile p) := by
  -- the new claim is the only one, and it is on a file above everybody's suspicion
  have hnew : ∀ q i, i < s.next →
      (Function.update s.phase p (.writing s.next) q).claim ≠ some i := by
    intro q i hi hq
    rcases goto_claim (s := s) hq with ⟨-, hnew⟩ | ⟨-, hold⟩
    · obtain rfl := Option.some.inj hnew
      exact absurd hi (lt_irrefl _)
    · exact hfree q i hold
  refine ⟨hclaims, by simp [Host.createFile], ?_, ?_, ?_, ?_⟩
  · exact forall_phase_update (fun _ ph => ∀ i ∈ ph.suspect, i < s.next + 1)
      (by simp [Phase.suspect]) fun q i hi => Nat.lt_succ_of_lt (h.suspects q i hi)
  · exact forall_phase_update (fun q ph => ∀ i, ph = .holding i →
      Function.update s.contents s.next (some "") i = some (toString q))
      (by simp) fun q i hq => absurd (by rw [hq]; rfl) (hfree q i)
  · exact forall_phase_update (fun q ph => ph ≠ .dead → validPid q) (fun _ => hvalid) h.valid
  · refine forall_phase_update (fun _ ph => ph.Knows _) trivial fun q => ?_
    -- what a process suspects is older than the new file
    cases hph : s.phase q with
    | probing n pid i =>
      exact fun q' hq' => absurd hq' (hnew q' i (h.suspects q i (by rw [hph]; rfl)))
    | unlinking n i => exact fun q' => hnew q' i (h.suspects q i (by rw [hph]; rfl))
    | _ => trivial

/-- What a process learns by reading the file at the path, when its live creator has written
    to it: that the pid in it is the only one that can claim it. -/
theorem Orderly.knows_of_read {s : Host} (h : Orderly s) {i : Inode} {text : String}
    (hpath : s.path = some i) (htext : s.contents i = some text)
    (hwritten : ∀ q ∈ s.creator i, s.phase q ≠ .writing i) :
    ∀ q, (s.phase q).claim = some i → parseI32 (trim text) = some (q : Int) := by
  intro q hq
  have hcreator := (h.claims q i hq).2
  -- the owner is past its write, so the text is its pid
  have hholding : s.phase q = .holding i := by
    cases hph : s.phase q with
    | writing j =>
      rw [hph] at hq
      obtain rfl := Option.some.inj hq
      exact absurd hph (hwritten q hcreator)
    | holding j =>
      rw [hph] at hq
      rw [Option.some.inj hq]
    | _ => simp [hph, Phase.claim] at hq
  have hnamed := h.named q i hholding
  obtain rfl := Option.some.inj (htext.symm.trans hnamed)
  exact parseI32_toString (h.valid q (by simp [hholding])).2

/-- **Step lemma.** A step without a race keeps the invariant. -/
theorem Orderly.step {s : Host} (h : Orderly s) (op : Pid × Action) (hrace : RaceFree s op) :
    Orderly (pidStep s op).1 := by
  have hclaims := h.claims.step op (h.keepsClaimed hrace)
  obtain ⟨p, a⟩ := op
  have hmove := pidStep_move s p a
  generalize (pidStep s (p, a)).1 = s' at hmove hclaims ⊢
  cases hmove with
  | stay => exact h
  | away _ ph hclaim hsuspect hvalid =>
    refine h.goto p (by simp [hclaim]) (by simp [hsuspect]) ?_ ?_ ?_
    · rintro i rfl
      simp [Phase.claim] at hclaim
    · exact fun hne => (hvalid hne).elim (h.valid p) id
    · exact Phase.knows_of_suspect hsuspect
  | failWrite _ i text hph =>
    have hvalid : validPid p := h.valid p (by simp [hph])
    exact (h.setContents hph text).goto p (by simp [Phase.claim]) (by simp [Phase.suspect])
      (by simp) (fun _ => hvalid) trivial
  | create n hph hpath =>
    have hvalid : validPid p := h.valid p (by simp [hph])
    have hfree : ∀ q i, (s.phase q).claim ≠ some i := by
      intro q i hq
      have hpath' := (h.claims q i hq).1
      rw [hpath] at hpath'
      exact absurd hpath' (by simp)
    exact h.create hclaims hvalid hfree
  | write i hph =>
    have hvalid : validPid p := h.valid p (by simp [hph])
    refine (h.setContents hph (toString p)).goto p ?_ (by simp [Phase.suspect]) ?_
      (fun _ => hvalid) trivial
    · simp [Phase.claim, Host.setContents, hph]
    · intro j hj
      obtain rfl : i = j := by simpa using hj
      exact Function.update_self _ _ _
  | readOther n i text pid hph hpath htext hparse =>
    refine h.suspectPath (by simp [hph]) hpath rfl rfl fun q hq => ?_
    have hq' := h.knows_of_read hpath htext (hrace.1 rfl i hpath) q hq
    exact Option.some.inj (hq'.symm.trans hparse)
  | readStale n i text hph hpath htext hparse =>
    -- the only one that can claim the file is the reading process, which claims nothing
    refine h.suspectPath (by simp [hph]) hpath rfl rfl fun q hq => ?_
    have hqp : (q : Int) = p := hparse q (h.knows_of_read hpath htext (hrace.1 rfl i hpath) q hq)
    obtain rfl := Int.ofNat.inj hqp
    simp [hph, Phase.claim] at hq
  | probeDead n pid i hph hdead =>
    have hvalid : validPid p := h.valid p (by simp [hph])
    have hknows := h.knows p
    rw [hph] at hknows
    refine h.goto p (by simp [Phase.claim]) ?_ (by simp) (fun _ => hvalid) ?_
    · exact fun j hj => h.suspects p j (by rw [hph]; exact hj)
    · -- the probed process is dead, and a claiming one lives
      intro q hq
      have hpid : (q : Int) = pid := hknows q hq
      have hlive : s.phase q ≠ .dead := by
        intro hdead
        simp [hdead, Phase.claim] at hq
      have hpos := (h.valid q hlive).1
      rw [← hpid] at hdead
      simp [Host.processAlive, hlive, hpos] at hdead
  | unlink n j ph hph hclaim hsuspect =>
    have hvalid : validPid p := h.valid p (by simp [hph])
    refine (h.goto p (by simp [hclaim]) (by simp [hsuspect]) ?_ (fun _ => hvalid)
      (Phase.knows_of_suspect hsuspect)).removePath hclaims
    rintro i rfl
    simp [Phase.claim] at hclaim
  | drop i hph =>
    -- `hclaims` says that the removed file was the only one claimed
    have hvalid : validPid p := h.valid p (by simp [hph])
    have hidle : Orderly (s.goto p .idle) :=
      h.goto p (by simp [Phase.claim]) (by simp [Phase.suspect]) (by simp) (fun _ => hvalid)
        trivial
    exact hidle.removePath hclaims

/-- **Only the races matter.** A run without races removes nothing claimed. -/
theorem keepsClaimed_of_raceFree (s : Host) (hs : Initial s) (ops : List (Pid × Action))
    (hrun : Along pidStep RaceFree s ops) : Along pidStep KeepsClaimed s ops :=
  hrun.strengthen Orderly (fun _ op hrace h => h.step op hrace)
    (fun _ _ hrace h => h.keepsClaimed hrace) hs.orderly

/-- Two live processes, nothing at the path. -/
def twoProcesses : Host where
  phase := fun p => if p = 1 ∨ p = 2 then .idle else .dead
  path := none
  contents := fun _ => none
  creator := fun _ => none
  next := 0

theorem initial_twoProcesses : Initial twoProcesses where
  phases := by
    intro p
    by_cases hp : p = 1 ∨ p = 2
    · refine Or.inr ⟨if_pos hp, ?_⟩
      rcases hp with rfl | rfl <;> decide
    · exact Or.inl (if_neg hp)
  files := by simp [twoProcesses]

/-- One process has created the file and not written its pid yet; the other one reads the
    empty file, takes it for stale and removes it.  Both acquire the guard. -/
def emptyRead : List (Pid × Action) :=
  [(1, .start), (1, .create), (2, .start), (2, .create), (2, .read), (2, .unlink),
    (2, .create), (2, .write), (1, .write)]

/-- Two live processes can hold the guard at the same time. -/
theorem not_exclusive_emptyRead :
    ¬ ∀ (s : Host), Initial s → ∀ ops : List (Pid × Action), Exclusive (exec pidStep s ops) := by
  intro hall
  have h := (hall twoProcesses initial_twoProcesses emptyRead).oneHolder 1 2 0 1
    (by decide) (by decide)
  exact absurd h (by decide)

/-- A process that comes later finds the file written and is refused; when the first one has
    dropped the guard, it is admitted. -/
theorem exclusive_of_keepsClaimed_refused :
    Exclusive (exec pidStep twoProcesses
      [(1, .start), (1, .create), (1, .write), (2, .start), (2, .create), (2, .read),
        (2, .probe), (1, .drop), (2, .start), (2, .create), (2, .write)]) :=
  exclusive_of_keepsClaimed twoProcesses initial_twoProcesses _ (by decide) _
    (List.prefix_refl _)

end AgentTermStatus
