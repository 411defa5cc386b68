import AgentTermStatus.Lib.Access
import AgentTermStatus.Lib.Path
import AgentTermStatus.Lib.Run

namespace AgentTermStatus

open Lib

/-!
# Starting the daemon among other users

The daemon resolves its paths, makes the directory of its socket and its PID file, tightens it if it
is its own, and binds the socket; between two of its system calls other users may do whatever the
permissions let them (`startupStep`).

* `socketDir_resolve` — the socket and the PID file are in one directory;
* `StartupInv.step` — what each stage can rely on;
* `socket_never_exposed` — so nobody else ever reaches the socket, also between its creation and
  the restriction of its mode.
-/

/-! ### Paths -/

/-- The daemon's paths. -/
structure DaemonPaths where
  socketPath : List Char
  pidPath : List Char
  logsDir : List Char
  /-- The directory of the socket is the daemon's, not the system's. -/
  ownsParentDir : Bool

/-- `~/.local/state/agent-term-status`. -/
def stateDir (home : List Char) : List Char :=
  joinPath (joinPath (joinPath home ".local".toList) "state".toList) "agent-term-status".toList

/-- The paths, from the variable `XDG_RUNTIME_DIR` and the home directory. -/
def DaemonPaths.resolveWithEnv (runtimeDir home : Option (List Char)) : DaemonPaths :=
  let home := home.getD ".".toList
  match runtimeDir.filter (· ≠ []) with
  | some base =>
    { socketPath := joinPath base "agent-term-status.sock".toList
      pidPath := joinPath base "agent-term-status.pid".toList
      logsDir := joinPath (stateDir home) "logs".toList
      ownsParentDir := false }
  | none =>
    { socketPath := joinPath (stateDir home) "status.sock".toList
      pidPath := joinPath (stateDir home) "status.pid".toList
      logsDir := joinPath (stateDir home) "logs".toList
      ownsParentDir := true }

/-- The socket and the PID file are in one directory. -/
theorem socketDir_resolve (runtimeDir home : Option (List Char)) :
    parentPath (DaemonPaths.resolveWithEnv runtimeDir home).socketPath =
      parentPath (DaemonPaths.resolveWithEnv runtimeDir home).pidPath := by
  unfold DaemonPaths.resolveWithEnv
  split
  · exact parentPath_joinPath_congr _ (by decide) (by decide) (by decide) (by decide)
  · exact parentPath_joinPath_congr _ (by decide) (by decide) (by decide) (by decide)

/-- The directory is the system's exactly if the environment names one. -/
theorem ownsParentDir_resolve (runtimeDir home : Option (List Char)) :
    (DaemonPaths.resolveWithEnv runtimeDir home).ownsParentDir = false ↔
      runtimeDir.filter (· ≠ []) ≠ none := by
  unfold DaemonPaths.resolveWithEnv
  split
  · next base h =>
    rw [h]
    exact iff_of_true rfl (Option.some_ne_none base)
  · next h =>
    rw [h]
    exact iff_of_false (by simp) (by simp)

/-! ### The stages -/

/-- Why the daemon does not start. -/
inductive StartupError
  /-- A system call was refused, or failed. -/
  | io (detail : String)
  /-- The directory of the socket is open to others. -/
  | permissionDenied (message : String)
  deriving DecidableEq

/-- What comes next; `ensure_parent_dirs` goes through the paths, of which some are left. -/
inductive StartupStage
  | making (left : Nat)
  | tightening (left : Nat)
  /-- Opens the log and acquires the PID file. -/
  | acquiring
  | checking
  | unlinking
  | binding
  | restricting
  | serving
  | failed (e : StartupError)
  deriving DecidableEq

/-- The process: its user, the members of its group, its umask, and the directory of its socket. -/
structure StartupEnv (υ : Type*) where
  user : υ
  members : υ → Bool
  umask : Nat
  ownsParentDir : Bool
  /-- The directory as it is displayed. -/
  parent : String

/-- The process that starts with some paths. -/
def DaemonPaths.startupEnv {υ : Type*} (paths : DaemonPaths) (user : υ) (members : υ → Bool)
    (umask : Nat) : StartupEnv υ where
  user := user
  members := members
  umask := umask
  ownsParentDir := paths.ownsParentDir
  parent := String.ofList ((parentPath paths.socketPath).getD [])

/-- The daemon on its way, with the directory and the socket in it. -/
structure Startup (υ : Type*) where
  stage : StartupStage
  site : Site υ

/-- A system call of the daemon, which may also fail for a reason of its own, or of a user. -/
inductive StartupAction (υ : Type*)
  | daemon (failure : Option String)
  | user (v : υ) (call : FileCall υ)

/-- A mode without the bits of the umask. -/
def StartupEnv.creationMode {υ : Type*} (env : StartupEnv υ) (mode : Nat) : Nat :=
  mode - (mode &&& env.umask)

/-- Why binding is refused. -/
def bindRefusal (parent : String) (mode : Nat) : String :=
  "socket parent directory " ++ parent ++ " is group/world accessible (mode " ++
    String.ofList (Nat.toDigits 8 (mode &&& 511)) ++ "); refusing to bind (SPEC §14.2)"

/-- The stage after a path was made and tightened. -/
def StartupStage.afterPath : Nat → StartupStage
  | 0        => .acquiring
  | left + 1 => .making left

section
variable {υ : Type*} [DecidableEq υ] (env : StartupEnv υ)

/-- Makes a call, and goes on if it is permitted. -/
def Startup.attempt (s : Startup υ) (call : FileCall υ) (next : StartupStage) : Startup υ :=
  if s.site.Permits env.user call then { stage := next, site := s.site.call env.user call }
  else { s with stage := .failed (.io "refused") }

/-- The daemon's next step. -/
def Startup.advance (s : Startup υ) : Startup υ :=
  match s.stage with
  | .making left =>
    -- a directory that exists, perhaps by now, is left as it is
    { stage := .tightening left
      site := s.site.call env.user (.makeDir env.members (env.creationMode 0o777)) }
  | .tightening left =>
    if env.ownsParentDir then s.attempt env (.chmodDir 0o700) (.afterPath left)
    else { s with stage := .afterPath left }
  | .acquiring => { s with stage := .checking }
  | .checking =>
    match s.site.dir with
    | none   => { s with stage := .failed (.io "not found") }
    | some d =>
      if d.mode &&& 0o077 ≠ 0 then
        { s with stage := .failed (.permissionDenied (bindRefusal env.parent d.mode)) }
      else { s with stage := .unlinking }
  | .unlinking =>
    -- without a socket there is nothing to remove, if the daemon can tell
    if s.site.entry = none ∧ s.site.Lets env.user .search then { s with stage := .binding }
    else s.attempt env .unlink .binding
  | .binding => s.attempt env (.place env.members (env.creationMode 0o777)) .restricting
  | .restricting => s.attempt env (.chmodEntry 0o600) .serving
  | .serving  => s
  | .failed _ => s

/-- One step of the daemon, or of another user. -/
def startupStep (s : Startup υ) : StartupAction υ → Startup υ × List Empty
  | .daemon none => (s.advance env, [])
  | .daemon (some detail) =>
    match s.stage with
    | .serving | .failed _ => (s, [])
    | _                    => ({ s with stage := .failed (.io detail) }, [])
  | .user v call => if v = env.user then (s, []) else ({ s with site := s.site.call v call }, [])

/-- The daemon has created its socket. -/
def StartupStage.Bound : StartupStage → Prop
  | .restricting | .serving => True
  | _                       => False

/-! ### What each stage can rely on -/

/-- What a stage relies on, or how it came to it; `dir` is the directory there was at first. -/
def StartupStage.Relies (dir : Option (FileNode υ)) (site : Site υ) : StartupStage → Prop
  | .making _ | .tightening _ => True
  -- the daemon's own directory is private once it was tightened
  | .acquiring | .checking    => env.ownsParentDir = true → site.Sealed env.user
  | .unlinking | .binding     => site.Sealed env.user
  | .restricting              => site.Sealed env.user ∧ ∃ e ∈ site.entry, e.owner = env.user
  | .serving                  =>
    site.Sealed env.user ∧ ∃ e ∈ site.entry, e.owner = env.user ∧ e.mode = 0o600
  | .failed (.io _)           => True
  | .failed (.permissionDenied message) => env.ownsParentDir = false ∧
    ∃ d ∈ dir, ¬ d.Private ∧ message = bindRefusal env.parent d.mode

/-- A directory that is the system's is the user's own and left as it is, and the stage has what it
    relies on. -/
structure StartupInv (dir : Option (FileNode υ)) (s : Startup υ) : Prop where
  runtime : env.ownsParentDir = false → s.site.Owned env.user ∧ s.site.dir = dir
  relies : s.stage.Relies env dir s.site

variable {env} {dir : Option (FileNode υ)} {s : Startup υ}

/-- **Step lemma.** What others do changes nothing that a stage relies on, if they may not move the
    directory. -/
theorem StartupInv.user (h : StartupInv env dir s) {v : υ} (hv : v ≠ env.user)
    (hmove : s.site.mayMove v = false) (call : FileCall υ) :
    StartupInv env dir { s with site := s.site.call v call } := by
  obtain ⟨stage, site⟩ := s
  obtain ⟨hruntime, hrelies⟩ := h
  refine ⟨fun hsystem => ?_, ?_⟩
  · obtain ⟨⟨d, hd, howner⟩, hdir⟩ := hruntime hsystem
    have hsame : (site.call v call).dir = site.dir :=
      Site.Owned.call_dir ⟨d, hd, howner⟩ hv hmove call
    refine ⟨⟨d, ?_, howner⟩, hsame.trans hdir⟩
    show d ∈ (site.call v call).dir
    rw [hsame]
    exact hd
  · show stage.Relies env dir (site.call v call)
    cases stage with
    | making => trivial
    | tightening => trivial
    | acquiring | checking =>
      intro howns
      have hsealed : site.Sealed env.user := hrelies howns
      rw [hsealed.call hv hmove call]
      exact hsealed
    | unlinking | binding =>
      have hsealed : site.Sealed env.user := hrelies
      rw [hsealed.call hv hmove call]
      exact hsealed
    | restricting | serving =>
      have hsealed : site.Sealed env.user := hrelies.1
      rw [hsealed.call hv hmove call]
      exact hrelies
    | failed e => cases e <;> exact hrelies

/-- A call of the daemon is carried out, or the daemon gives up. -/
theorem Startup.attempt_cases (env : StartupEnv υ) (s : Startup υ) (call : FileCall υ)
    (next : StartupStage) :
    (s.site.Permits env.user call ∧
      s.attempt env call next = ⟨next, s.site.perform env.user call⟩) ∨
    s.attempt env call next = { s with stage := .failed (.io "refused") } := by
  by_cases h : s.site.Permits env.user call
  · left
    rw [Startup.attempt, if_pos h, Site.call, if_pos h]
    exact ⟨h, rfl⟩
  · right
    rw [Startup.attempt, if_neg h]

/-- The invariant of an attempt. -/
theorem StartupInv.attempt (h : StartupInv env dir s) {call : FileCall υ} {next : StartupStage}
    (hcall : s.site.Permits env.user call →
      StartupInv env dir ⟨next, s.site.perform env.user call⟩) :
    StartupInv env dir (s.attempt env call next) := by
  obtain ⟨hpermits, heq⟩ | heq := s.attempt_cases env call next
  · rw [heq]
    exact hcall hpermits
  · rw [heq]
    exact ⟨h.runtime, trivial⟩

/-- **Step lemma.** The daemon's own steps keep what the stages rely on. -/
theorem StartupInv.advance (h : StartupInv env dir s) : StartupInv env dir (s.advance env) := by
  obtain ⟨stage, site⟩ := s
  have hruntime : env.ownsParentDir = false → site.Owned env.user ∧ site.dir = dir := h.runtime
  have hrelies : stage.Relies env dir site := h.relies
  cases stage with
  | making left =>
    refine ⟨fun hsystem => ?_, trivial⟩
    obtain ⟨⟨d, hd, howner⟩, hdir⟩ := hruntime hsystem
    -- a directory that exists is not made
    have hsame : site.call env.user (.makeDir env.members (env.creationMode 0o777)) = site := by
      rw [Site.call, if_neg]
      intro hnone
      rw [show site.dir = none from hnone] at hd
      exact Option.not_mem_none d hd
    show (site.call env.user _).Owned env.user ∧ (site.call env.user _).dir = dir
    rw [hsame]
    exact ⟨⟨d, hd, howner⟩, hdir⟩
  | tightening left =>
    have hnext : ∀ {site : Site υ},
        (env.ownsParentDir = false → site.Owned env.user ∧ site.dir = dir) →
        (env.ownsParentDir = true → site.Sealed env.user) →
        StartupInv env dir ⟨.afterPath left, site⟩ := by
      intro site hruntime hsealed
      cases left with
      | zero => exact ⟨hruntime, hsealed⟩
      | succ left => exact ⟨hruntime, trivial⟩
    show StartupInv env dir (if _ then _ else _)
    split
    · next howns =>
      refine h.attempt fun hpermits => hnext (fun h' => absurd (howns.symm.trans h') (by simp)) ?_
      -- only the owner can change the mode, to one that is private
      obtain ⟨d, hd, howner⟩ := hpermits
      have hprivate : (0o700 : Nat) &&& 0o077 = 0 := by decide
      exact fun _ => ⟨{ d with mode := 0o700 }, Option.mem_map_of_mem _ hd, howner.symm, hprivate⟩
    · next howns => exact hnext hruntime fun h' => absurd h' howns
  | acquiring => exact ⟨hruntime, hrelies⟩
  | checking =>
    show StartupInv env dir (match site.dir with | none => _ | some d => _)
    split
    · exact ⟨hruntime, trivial⟩
    · next d hd =>
      -- whether the directory is the daemon's own decides what a bad mode would mean
      have hsystem_of : ¬ d.Private → env.ownsParentDir = false := by
        intro hopen
        by_contra howns
        obtain ⟨d', hd', -, hprivate⟩ := hrelies (by simpa using howns)
        obtain rfl : d = d' := Option.mem_unique hd hd'
        exact hopen hprivate
      split
      · next hmode =>
        have hsystem := hsystem_of hmode
        refine ⟨hruntime, hsystem, d, ?_, hmode, rfl⟩
        rw [← (hruntime hsystem).2]
        exact hd
      · next hmode =>
        refine ⟨hruntime, ?_⟩
        cases howns : env.ownsParentDir with
        | true => exact hrelies howns
        | false =>
          obtain ⟨⟨d', hd', howner⟩, -⟩ := hruntime howns
          obtain rfl : d = d' := Option.mem_unique hd hd'
          exact ⟨d, hd, howner, not_not.mp hmode⟩
  | unlinking =>
    show StartupInv env dir (if _ then _ else _)
    split
    · exact ⟨hruntime, hrelies⟩
    · exact h.attempt fun _ => ⟨hruntime, hrelies⟩
  | binding => exact h.attempt fun _ => ⟨hruntime, hrelies, _, rfl, rfl⟩
  | restricting =>
    refine h.attempt fun _ => ⟨hruntime, hrelies.1, ?_⟩
    obtain ⟨e, he, howner⟩ := hrelies.2
    exact ⟨{ e with mode := 0o600 }, Option.mem_map_of_mem _ he, howner, rfl⟩
  | serving => exact h
  | failed e => exact h

/-- No step changes who may move the directory. -/
theorem startupStep_mayMove (env : StartupEnv υ) (s : Startup υ) (a : StartupAction υ) :
    (startupStep env s a).1.site.mayMove = s.site.mayMove := by
  have hattempt : ∀ call next, (s.attempt env call next).site.mayMove = s.site.mayMove := by
    intro call next
    unfold Startup.attempt
    split
    · exact Site.call_mayMove ..
    · rfl
  cases a with
  | daemon failure =>
    cases failure with
    | none =>
      show (s.advance env).site.mayMove = s.site.mayMove
      unfold Startup.advance
      repeat' split
      all_goals first | rfl | exact hattempt _ _ | exact Site.call_mayMove ..
    | some detail =>
      simp only [startupStep]
      split <;> rfl
  | user v call =>
    simp only [startupStep]
    split
    · rfl
    · exact Site.call_mayMove ..

/-- Nobody else may rename or remove the directory. -/
def NobodyElseMoves (env : StartupEnv υ) (site : Site υ) : Prop :=
  ∀ v, v ≠ env.user → site.mayMove v = false

/-- **Step lemma.** Every step keeps what the stages rely on. -/
theorem StartupInv.step (h : StartupInv env dir s) (halone : NobodyElseMoves env s.site)
    (a : StartupAction υ) : StartupInv env dir (startupStep env s a).1 := by
  cases a with
  | daemon failure =>
    cases failure with
    | none => exact h.advance
    | some detail =>
      simp only [startupStep]
      split
      · exact h
      · exact h
      · exact ⟨h.runtime, trivial⟩
  | user v call =>
    simp only [startupStep]
    split
    · exact h
    · next hv => exact h.user hv (halone v hv) call

/-- **Run lemma.** Every run keeps what the stages rely on. -/
theorem startupInv_exec (h : StartupInv env dir s) (halone : NobodyElseMoves env s.site)
    (actions : List (StartupAction υ)) :
    StartupInv env dir (exec (startupStep env) s actions) := by
  induction actions generalizing s with
  | nil => exact h
  | cons a actions ih =>
    refine ih (h.step halone a) fun v hv => ?_
    rw [startupStep_mayMove]
    exact halone v hv

end

/-- **The socket is never exposed.** The socket and the PID file are in one directory.  Let the
    directories above it let nobody else rename or remove it.  Whatever it and the socket are at
    first, and whatever other users do between the daemon's system calls: from the moment the daemon
    has created its socket, nobody else can use its directory or reach the socket, which in the end
    only its owner may read and write.  A directory that is the system's has to be the user's own;
    it is left as it is, and binding is refused for its permissions only.  The daemon's own
    directory is never a reason to refuse. -/
theorem socket_never_exposed {υ : Type*} [DecidableEq υ] (runtimeDir home : Option (List Char))
    (user : υ) (members : υ → Bool) (umask : Nat) (site : Site υ)
    (halone : ∀ v, v ≠ user → site.mayMove v = false)
    (hsystem : runtimeDir.filter (· ≠ []) ≠ none → site.Owned user)
    (actions : List (StartupAction υ)) :
    let paths := DaemonPaths.resolveWithEnv runtimeDir home
    let env := paths.startupEnv user members umask
    let s := exec (startupStep env) ⟨.making 1, site⟩ actions
    parentPath paths.socketPath = parentPath paths.pidPath ∧
    (s.stage.Bound → ∀ v, v ≠ user → ∀ p, ¬ s.site.Lets v p ∧ ¬ s.site.Reaches v p) ∧
    (s.stage = .serving → ∃ e ∈ s.site.entry, e.owner = user ∧ e.mode = 0o600) ∧
    (paths.ownsParentDir = false → s.site.dir = site.dir) ∧
    ∀ message, s.stage = .failed (.permissionDenied message) → paths.ownsParentDir = false ∧
      ∃ d ∈ site.dir, ¬ d.Private ∧ message = bindRefusal env.parent d.mode := by
  intro paths env s
  have hown : env.ownsParentDir = false → site.Owned user :=
    fun h => hsystem ((ownsParentDir_resolve runtimeDir home).mp h)
  have hstart : StartupInv env site.dir ⟨.making 1, site⟩ := ⟨fun h => ⟨hown h, rfl⟩, trivial⟩
  obtain ⟨hruntime, hrelies⟩ : StartupInv env site.dir s := startupInv_exec hstart halone actions
  refine ⟨socketDir_resolve runtimeDir home, fun hbound v hv p => ?_, fun hserving => ?_,
    fun h => (hruntime h).2, fun message hfailed => ?_⟩
  · have hsealed : s.site.Sealed user := by
      cases hstage : s.stage with
      | restricting | serving =>
        rw [hstage] at hrelies
        exact hrelies.1
      | _ =>
        rw [hstage] at hbound
        exact hbound.elim
    exact ⟨hsealed.not_lets hv p, hsealed.not_reaches hv p⟩
  · rw [hserving] at hrelies
    exact hrelies.2
  · rw [hfailed] at hrelies
    exact hrelies

/-- The state directory was open to the user `false`, who has put a socket there, and later tries to
    remove it, and the directory. -/
theorem socket_never_exposed_open :
    let home := some "/home/me".toList
    let site : Site Bool := ⟨some ⟨true, fun _ => true, 0o777⟩, none, id⟩
    let actions : List (StartupAction Bool) :=
      [.user false (.place (fun _ => true) 0o777), .daemon none, .daemon none, .daemon none,
        .user false .unlink, .daemon none, .daemon none, .daemon none, .daemon none,
        .user false (.replaceDir none none), .daemon none]
    let s := exec (startupStep
      ((DaemonPaths.resolveWithEnv none home).startupEnv true (fun _ => true) 0o022))
      ⟨.making 1, site⟩ actions
    s.stage = .restricting ∧ ¬ s.site.Reaches false .write := by
  intro home site actions s
  have hbound : s.stage = .restricting := by decide
  obtain ⟨-, hexposed, -⟩ := socket_never_exposed none home true (fun _ => true) 0o022 site
    (by decide) (fun h => absurd rfl h) actions
  refine ⟨hbound, (hexposed ?_ false (by decide) .write).2⟩
  show s.stage.Bound
  rw [hbound]
  trivial

end AgentTermStatus
