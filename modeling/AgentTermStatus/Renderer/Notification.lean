import AgentTermStatus.Renderer.View
import AgentTermStatus.Lib.Run
import AgentTermStatus.Lib.Text
import Mathlib.Data.List.Induction
import Mathlib.Logic.Function.Basic

namespace AgentTermStatus

open Lib

/-!
# Desktop notifications

The notification renderer (`crates/ats-renderer-notification/src/lib.rs`).  A view is notified if
its state draws attention, quiet hours allow it and it is not debounced: of the same session and
state there must not have been an attempt within the threshold.  The attempt is recorded before it
is made, and its failure goes unnoticed.

* `NotificationRenderer.render_cases` — what a call can do;
* `Tracks`, `tracks_trace` — what the table of timestamps says about the attempts of a run;
* `suppresses_iff_noRecentFailure` — debouncing suppresses only what was delivered exactly if no
  attempt that failed lies within the threshold before a call.
-/

/-- A time of day, in nanoseconds since midnight. -/
abbrev NaiveTime := Nat

/-- Threshold for most states, in seconds. -/
def debounceS : Int := 10

/-- Threshold for results, in seconds. -/
def resultDebounceS : Int := 30

/-- The program that delivers notifications. -/
def notifierBin : String := "terminal-notifier"

/-- Whole seconds of a span, rounded towards zero. -/
def numSeconds (d : Duration) : Int := d.tdiv 1000000000

/-- The key of a state in the list of states that quiet hours allow: the one it has in a theme. -/
def agentStateToKey : AgentState → String := agentStateToThemeKey

/-- What the renderer keeps a timestamp for. -/
structure NotificationKey where
  state : AgentState
  sessionId : String
  deriving DecidableEq

/-- The notification renderer. -/
structure NotificationRenderer where
  theme : Option Theme
  notifierPath : Option String
  quietHoursStart : Option NaiveTime
  quietHoursEnd : Option NaiveTime
  quietHoursStates : List String
  lastNotify : NotificationKey → Option DateTime

/-- How a run of the notifier ends. -/
inductive NotifierOutput
  /-- It exits, with success or with what it wrote to its error output. -/
  | exited (success : Bool) (stderr : String)
  /-- It cannot be run. -/
  | cannotRun (e : String)
  deriving DecidableEq

/-- What a call of `render` meets. -/
structure NotifyCall where
  view : StateView
  /-- The local time of day when quiet hours are judged. -/
  localTime : NaiveTime
  /-- The clock when the call is judged. -/
  checkedAt : DateTime
  /-- The clock when it is recorded. -/
  recordedAt : DateTime
  /-- How the notifier ends, if it is run. -/
  output : NotifierOutput

/-- What a call is debounced by. -/
def NotifyCall.key (c : NotifyCall) : NotificationKey := ⟨c.view.state, c.view.target.sessionId⟩

/-- An attempt to deliver a notification: what it was for, when it was recorded, the command and how
    it ended. -/
structure Delivery where
  key : NotificationKey
  sentAt : DateTime
  program : String
  args : List String
  result : Except RendererError Unit

/-- Was the notification delivered? -/
def Delivery.Succeeded (a : Delivery) : Prop := a.result = Except.ok ()

namespace NotificationRenderer

/-- A renderer that has not notified yet; `notifierPath` is what `find_notifier` finds. -/
def new (theme : Option Theme) (notifierPath : Option String)
    (quietHoursStart quietHoursEnd : Option NaiveTime) (quietHoursStates : List String) :
    NotificationRenderer where
  theme := theme
  notifierPath := notifierPath
  quietHoursStart := quietHoursStart
  quietHoursEnd := quietHoursEnd
  quietHoursStates := quietHoursStates
  lastNotify := fun _ => none

/-- The theme's entry for a state. -/
def resolveEntry (r : NotificationRenderer) (state : AgentState) : Option ThemeEntry :=
  r.theme.bind fun t => t.resolve state

/-- Does the state draw attention? -/
def shouldNotify : AgentState → Bool
  | .attention | .risk | .result | .error => true
  | .working | .idle | .unknown           => false

/-- Is it quiet?  The hours may go past midnight. -/
def isQuietHours (r : NotificationRenderer) (now : NaiveTime) : Bool :=
  match r.quietHoursStart, r.quietHoursEnd with
  | some start, some stop =>
      if start ≤ stop then now ≥ start && now < stop else now ≥ start || now < stop
  | _, _ => false

/-- Do quiet hours allow the state?  Without a list of states they allow risks. -/
def quietHoursAllows (r : NotificationRenderer) (now : NaiveTime) (state : AgentState) : Bool :=
  if !r.isQuietHours now then true
  else if r.quietHoursStates.isEmpty then state == .risk
  else r.quietHoursStates.any (· == agentStateToKey state)

/-- For how many seconds a notification is not repeated. -/
def threshold (state : AgentState) : Int :=
  if state = .result then resultDebounceS else debounceS

/-- The table with an attempt recorded. -/
def record (r : NotificationRenderer) (key : NotificationKey) (now : DateTime) :
    NotificationRenderer :=
  { r with lastNotify := Function.update r.lastNotify key (some now) }

/-- Is the call debounced?  If not, it is recorded. -/
def isDebounced (r : NotificationRenderer) (key : NotificationKey)
    (checkedAt recordedAt : DateTime) : Bool × NotificationRenderer :=
  match r.lastNotify key with
  | some prev =>
      let elapsed := numSeconds (checkedAt - prev)
      if elapsed < threshold key.state then (true, r) else (false, r.record key recordedAt)
  | none => (false, r.record key recordedAt)

/-- The title: the symbol and the label of the state. -/
def buildTitle (r : NotificationRenderer) (state : AgentState) : String :=
  let entry := r.resolveEntry state
  let symbol := (entry.map ThemeEntry.symbol).getD "?"
  let label := (entry.map ThemeEntry.label).getD ""
  symbol ++ " " ++ label

/-- The body: the label of the state and that of the activity. -/
def buildBody (r : NotificationRenderer) (state : AgentState) (label : Option ActivityLabel) :
    String :=
  let entry := r.resolveEntry state
  let stateLabel := (entry.map ThemeEntry.label).getD ""
  match label with
  | some l => if !l.asStr.isEmpty then stateLabel ++ ": " ++ l.asStr else stateLabel
  | none   => stateLabel

/-- The sound. -/
def buildSound : AgentState → String
  | .risk | .error => "Basso"
  | _              => "default"

/-- The arguments of the notifier. -/
def notifierArgs (title body sound : String) : List String :=
  ["-title", title, "-message", body, "-sound", sound, "-sender", "com.googlecode.iterm2"]

/-- The result of a run of the notifier. -/
def sendNotification (output : NotifierOutput) : Except RendererError Unit :=
  match output with
  | .exited true _       => Except.ok ()
  | .exited false stderr => Except.error (.failed ("notification failed: " ++ trim stderr))
  | .cannotRun e         => Except.error (.failed ("cannot run notifier: " ++ e))

/-- The attempt that a call makes. -/
def attempt (r : NotificationRenderer) (call : NotifyCall) : Delivery :=
  let title := r.buildTitle call.view.state
  let body := r.buildBody call.view.state call.view.label
  let sound := buildSound call.view.state
  { key := call.key
    sentAt := call.recordedAt
    program := r.notifierPath.getD notifierBin
    args := notifierArgs title body sound
    result := sendNotification call.output }

/-- One call of `render`, which always returns normally, with the attempt it makes. -/
def render (r : NotificationRenderer) (call : NotifyCall) : NotificationRenderer × List Delivery :=
  if !shouldNotify call.view.state then (r, [])
  else if !r.quietHoursAllows call.localTime call.view.state then (r, [])
  else
    match r.isDebounced call.key call.checkedAt call.recordedAt with
    | (true, r)  => (r, [])
    | (false, r) => (r, [r.attempt call])

/-! ### What a call does -/

@[simp] theorem record_self (r : NotificationRenderer) (key : NotificationKey) (now : DateTime) :
    (r.record key now).lastNotify key = some now := Function.update_self ..

theorem record_of_ne {key key' : NotificationKey} (h : key' ≠ key) (r : NotificationRenderer)
    (now : DateTime) : (r.record key now).lastNotify key' = r.lastNotify key' :=
  Function.update_of_ne h ..

/-- The call is for a state that draws attention, and quiet hours allow it. -/
def Allows (r : NotificationRenderer) (call : NotifyCall) : Prop :=
  shouldNotify call.view.state = true ∧ r.quietHoursAllows call.localTime call.view.state = true

/-- The table has an attempt for the same session and state within the threshold. -/
def Debounced (r : NotificationRenderer) (call : NotifyCall) : Prop :=
  ∃ prev, r.lastNotify call.key = some prev ∧
    numSeconds (call.checkedAt - prev) < threshold call.view.state

/-- **What a call does.** It does nothing, where it is not allowed or debounced, or is recorded and
    makes an attempt. -/
theorem render_cases (r : NotificationRenderer) (call : NotifyCall) :
    (r.render call = (r, []) ∧ (r.Allows call → r.Debounced call)) ∨
    (r.Allows call ∧ ¬ r.Debounced call ∧
      r.render call = (r.record call.key call.recordedAt, [r.attempt call])) := by
  unfold render
  by_cases hstate : shouldNotify call.view.state = true
  · by_cases hquiet : r.quietHoursAllows call.localTime call.view.state = true
    · simp only [hstate, hquiet, Bool.not_true, Bool.false_eq_true, if_false, isDebounced]
      cases hprev : r.lastNotify call.key with
      | none =>
        refine Or.inr ⟨⟨hstate, hquiet⟩, ?_, rfl⟩
        rintro ⟨prev, hsome, -⟩
        rw [hprev] at hsome
        exact absurd hsome (by simp)
      | some prev =>
        by_cases hlt : numSeconds (call.checkedAt - prev) < threshold call.key.state
        · refine Or.inl ⟨?_, fun _ => ⟨prev, hprev, hlt⟩⟩
          simp only [if_pos hlt]
        · refine Or.inr ⟨⟨hstate, hquiet⟩, ?_, ?_⟩
          · rintro ⟨prev', hsome, hlt'⟩
            rw [Option.some.inj (hprev.symm.trans hsome)] at hlt
            exact hlt hlt'
          · simp only [if_neg hlt]
            rfl
    · refine Or.inl ⟨?_, fun hallows => absurd hallows.2 hquiet⟩
      rw [Bool.not_eq_true] at hquiet
      simp [hstate, hquiet]
  · refine Or.inl ⟨?_, fun hallows => absurd hallows.1 hstate⟩
    rw [Bool.not_eq_true] at hstate
    simp [hstate]

/-- An allowed call makes no attempt exactly if it is debounced. -/
theorem render_eq_nil_iff {r : NotificationRenderer} {call : NotifyCall} (h : r.Allows call) :
    (r.render call).2 = [] ↔ r.Debounced call := by
  rcases render_cases r call with ⟨heq, hdebounced⟩ | ⟨-, hdebounced, heq⟩
  · rw [heq]
    exact iff_of_true rfl (hdebounced h)
  · rw [heq]
    exact iff_of_false (List.cons_ne_nil _ _) hdebounced

/-! ### What the table says about the attempts -/

/-- The whole seconds since an instant do not get fewer. -/
theorem numSeconds_mono {now later : DateTime} (h : now ≤ later) (t : DateTime) :
    numSeconds (now - t) ≤ numSeconds (later - t) :=
  Int.tdiv_le_tdiv (by decide) (Int.sub_le_sub_right h t)

/-- The table holds the last attempt for every session and state, and every earlier one is further
    back than the threshold. -/
structure Tracks (past : List Delivery) (r : NotificationRenderer) : Prop where
  none : ∀ key, r.lastNotify key = none → ∀ a ∈ past, a.key ≠ key
  some : ∀ key prev, r.lastNotify key = some prev →
    ∃ a ∈ past, a.key = key ∧ a.sentAt = prev ∧
      ∀ b ∈ past, b.key = key → b = a ∨ threshold key.state ≤ numSeconds (prev - b.sentAt)

/-- The clock readings of the calls, in the order they are made, never go back. -/
def ClocksNonDecreasing (calls : List NotifyCall) : Prop :=
  (calls.flatMap fun call => [call.checkedAt, call.recordedAt]).Pairwise (· ≤ ·)

instance (calls : List NotifyCall) : Decidable (ClocksNonDecreasing calls) :=
  inferInstanceAs (Decidable (List.Pairwise _ _))

/-- The readings of the last call come after all others. -/
theorem clocksNonDecreasing_concat {calls : List NotifyCall} {call : NotifyCall}
    (h : ClocksNonDecreasing (calls ++ [call])) :
    ClocksNonDecreasing calls ∧ (∀ c ∈ calls, c.recordedAt ≤ call.checkedAt) ∧
      call.checkedAt ≤ call.recordedAt := by
  unfold ClocksNonDecreasing at h ⊢
  rw [List.flatMap_append, List.pairwise_append] at h
  obtain ⟨hcalls, hcall, hbetween⟩ := h
  refine ⟨hcalls, fun c hc => ?_, ?_⟩
  · exact hbetween _ (List.mem_flatMap.mpr ⟨c, hc, by simp⟩) _ (by simp)
  · simpa using hcall

/-- An attempt of a run is recorded when one of its calls is. -/
theorem exists_call_of_mem_trace {r : NotificationRenderer} {calls : List NotifyCall} {a : Delivery}
    (h : a ∈ trace render r calls) : ∃ c ∈ calls, a.sentAt = c.recordedAt := by
  induction calls generalizing r with
  | nil => exact absurd h (by simp)
  | cons call calls ih =>
    rw [trace_cons, List.mem_append] at h
    rcases h with hnow | hlater
    · refine ⟨call, List.mem_cons_self, ?_⟩
      rcases render_cases r call with ⟨heq, -⟩ | ⟨-, -, heq⟩
      · rw [heq] at hnow
        exact absurd hnow (by simp)
      · rw [heq, List.mem_singleton] at hnow
        rw [hnow]
        rfl
    · obtain ⟨c, hc, hsent⟩ := ih hlater
      exact ⟨c, List.mem_cons_of_mem _ hc, hsent⟩

/-- An attempt for the session and state of a call that is not debounced lies further back than the
    threshold. -/
theorem Tracks.threshold_le {past : List Delivery} {r : NotificationRenderer} (h : Tracks past r)
    {call : NotifyCall} (hdebounced : ¬ r.Debounced call)
    (hclock : ∀ a ∈ past, a.sentAt ≤ call.checkedAt) {a : Delivery} (ha : a ∈ past)
    (hkey : a.key = call.key) :
    threshold call.view.state ≤ numSeconds (call.checkedAt - a.sentAt) := by
  cases hprev : r.lastNotify call.key with
  | none => exact absurd hkey (h.none _ hprev a ha)
  | some prev =>
    have hfar : threshold call.view.state ≤ numSeconds (call.checkedAt - prev) :=
      not_lt.mp fun hlt => hdebounced ⟨prev, hprev, hlt⟩
    obtain ⟨last, hlast, -, hsent, hothers⟩ := h.some _ _ hprev
    have hstate : call.key.state = call.view.state := rfl
    rw [hstate] at hothers
    rcases hothers a ha hkey with rfl | hearlier
    · rw [hsent]
      exact hfar
    · have hle : prev ≤ call.checkedAt := hsent ▸ hclock last hlast
      exact hearlier.trans (numSeconds_mono hle _)

/-- **Step lemma.** A call keeps the table in step with the attempts. -/
theorem Tracks.step {past : List Delivery} {r : NotificationRenderer} (h : Tracks past r)
    {call : NotifyCall} (hclock : ∀ a ∈ past, a.sentAt ≤ call.checkedAt)
    (hcall : call.checkedAt ≤ call.recordedAt) :
    Tracks (past ++ (r.render call).2) (r.render call).1 := by
  rcases render_cases r call with ⟨heq, -⟩ | ⟨-, hdebounced, heq⟩
  · rw [heq, List.append_nil]
    exact h
  · rw [heq]
    refine ⟨fun key hnone a ha => ?_, fun key prev hprev => ?_⟩
    · by_cases hkey : key = call.key
      · rw [hkey, record_self] at hnone
        exact absurd hnone (by simp)
      · rw [record_of_ne hkey] at hnone
        rcases List.mem_append.mp ha with hpast | hnew
        · exact h.none key hnone a hpast
        · rw [List.mem_singleton.mp hnew]
          exact Ne.symm hkey
    · by_cases hkey : key = call.key
      · -- the new attempt is the last one for this key
        subst hkey
        rw [record_self, Option.some.injEq] at hprev
        subst hprev
        refine ⟨r.attempt call, by simp, rfl, rfl, fun b hb hkey => ?_⟩
        rcases List.mem_append.mp hb with hpast | hnew
        · have hfar := h.threshold_le hdebounced hclock hpast hkey
          exact Or.inr (hfar.trans (numSeconds_mono hcall _))
        · exact Or.inl (List.mem_singleton.mp hnew)
      · rw [record_of_ne hkey] at hprev
        obtain ⟨a, ha, hakey, hsent, hothers⟩ := h.some key prev hprev
        refine ⟨a, List.mem_append_left _ ha, hakey, hsent, fun b hb hbkey => ?_⟩
        rcases List.mem_append.mp hb with hpast | hnew
        · exact hothers b hpast hbkey
        · rw [List.mem_singleton.mp hnew] at hbkey
          exact absurd hbkey.symm hkey

/-- **Run lemma.** In a run from a new renderer the table is in step with the attempts, and these
    were recorded before any later call is judged. -/
theorem tracks_trace (r : NotificationRenderer) (hnew : r.lastNotify = fun _ => none)
    {calls : List NotifyCall} (hclock : ClocksNonDecreasing calls) :
    Tracks (trace render r calls) (exec render r calls) := by
  induction calls using List.reverseRecOn with
  | nil =>
    refine ⟨fun _ _ a ha => absurd ha (by simp), fun key prev hprev => ?_⟩
    rw [exec_nil, hnew] at hprev
    exact absurd hprev (by simp)
  | append_singleton calls call ih =>
    obtain ⟨hcalls, hbetween, hcall⟩ := clocksNonDecreasing_concat hclock
    rw [trace_append, exec_append, trace_cons, trace_nil, List.append_nil, exec_cons, exec_nil]
    refine (ih hcalls).step (fun a ha => ?_) hcall
    obtain ⟨c, hc, hsent⟩ := exists_call_of_mem_trace ha
    rw [hsent]
    exact hbetween c hc

/-! ### What debouncing suppresses -/

/-- **Only what was delivered is suppressed:** an allowed call makes no attempt exactly if a
    notification for its session and state was delivered less than the threshold ago. -/
def SuppressesOnlyDelivered (past : List Delivery) (r : NotificationRenderer) (call : NotifyCall) :
    Prop :=
  r.Allows call →
    ((r.render call).2 = [] ↔ ∃ a ∈ past, a.key = call.key ∧ a.Succeeded ∧
      numSeconds (call.checkedAt - a.sentAt) < threshold call.view.state)

/-- No attempt for the session and state of an allowed call has failed within the threshold. -/
def NoRecentFailure (past : List Delivery) (r : NotificationRenderer) (call : NotifyCall) : Prop :=
  r.Allows call → ∀ a ∈ past, a.key = call.key → ¬ a.Succeeded →
    threshold call.view.state ≤ numSeconds (call.checkedAt - a.sentAt)

/-- At one call, where the table is in step with the attempts. -/
theorem Tracks.suppressesOnlyDelivered_iff {past : List Delivery} {r : NotificationRenderer}
    (h : Tracks past r) {call : NotifyCall} (hclock : ∀ a ∈ past, a.sentAt ≤ call.checkedAt) :
    SuppressesOnlyDelivered past r call ↔ NoRecentFailure past r call := by
  refine forall_congr' fun hallows => ?_
  rw [render_eq_nil_iff hallows]
  by_cases hdebounced : r.Debounced call
  · rw [iff_true_left hdebounced]
    obtain ⟨prev, hprev, hlt⟩ := hdebounced
    obtain ⟨last, hlast, hkey, hsent, hothers⟩ := h.some _ _ hprev
    have hle : prev ≤ call.checkedAt := hsent ▸ hclock last hlast
    -- of the attempts for this key only the last one lies within the threshold
    have hnear : ∀ a ∈ past, a.key = call.key →
        (numSeconds (call.checkedAt - a.sentAt) < threshold call.view.state ↔ a = last) := by
      intro a ha hakey
      refine ⟨fun hnear => ?_, fun heq => by rw [heq, hsent]; exact hlt⟩
      refine (hothers a ha hakey).resolve_right fun hfar => ?_
      exact absurd hnear (not_lt.mpr (hfar.trans (numSeconds_mono hle _)))
    refine ⟨?_, fun hall => ?_⟩
    · rintro ⟨a, ha, hakey, hdelivered, hanear⟩ b hb hbkey hfailed
      rw [hnear a ha hakey] at hanear
      refine not_lt.mp fun hbnear => ?_
      rw [(hnear b hb hbkey).mp hbnear, ← hanear] at hfailed
      exact hfailed hdelivered
    · refine ⟨last, hlast, hkey, ?_, (hnear last hlast hkey).mpr rfl⟩
      by_contra hfailed
      exact absurd ((hnear last hlast hkey).mpr rfl) (not_lt.mpr (hall last hlast hkey hfailed))
  · rw [iff_false_left hdebounced]
    have hfar : ∀ a ∈ past, a.key = call.key →
        threshold call.view.state ≤ numSeconds (call.checkedAt - a.sentAt) :=
      fun a ha hakey => h.threshold_le hdebounced hclock ha hakey
    refine iff_of_true ?_ fun a ha hakey _ => hfar a ha hakey
    rintro ⟨a, ha, hakey, -, hanear⟩
    exact absurd hanear (not_lt.mpr (hfar a ha hakey))

/-- **When debouncing suppresses only what was delivered.** In a run whose clock never goes back it
    does so at every call exactly if, at every call, no attempt for its session and state has
    failed within the threshold. -/
theorem suppresses_iff_noRecentFailure (theme : Option Theme) (notifierPath : Option String)
    (quietHoursStart quietHoursEnd : Option NaiveTime) (quietHoursStates : List String)
    (calls : List NotifyCall) (hclock : ClocksNonDecreasing calls) :
    let r := new theme notifierPath quietHoursStart quietHoursEnd quietHoursStates
    (∀ p call, p ++ [call] <+: calls →
      SuppressesOnlyDelivered (trace render r p) (exec render r p) call) ↔
    (∀ p call, p ++ [call] <+: calls →
      NoRecentFailure (trace render r p) (exec render r p) call) := by
  intro r
  refine forall₃_congr fun p call hprefix => ?_
  obtain ⟨rest, rfl⟩ := hprefix
  have hprefix : ClocksNonDecreasing (p ++ [call]) := by
    unfold ClocksNonDecreasing at hclock ⊢
    rw [List.flatMap_append] at hclock
    exact (List.pairwise_append.mp hclock).1
  obtain ⟨hp, hbetween, -⟩ := clocksNonDecreasing_concat hprefix
  refine (tracks_trace r rfl hp).suppressesOnlyDelivered_iff fun a ha => ?_
  obtain ⟨c, hc, hsent⟩ := exists_call_of_mem_trace ha
  rw [hsent]
  exact hbetween c hc

/-- A call for one session that needs input, at a second of the clock. -/
def attentionAt (second : Int) (output : NotifierOutput) : NotifyCall where
  view := { state := .attention, label := none, target := ⟨"s", .default⟩ }
  localTime := 0
  checkedAt := Duration.seconds second
  recordedAt := Duration.seconds second
  output := output

/-- Two attempts are delivered, and a call between them is suppressed. -/
def deliveredRun : List NotifyCall :=
  [attentionAt 0 (.exited true ""), attentionAt 5 (.exited true ""),
    attentionAt 12 (.exited true "")]

/-- No attempt of it fails, and debouncing suppresses only what was delivered. -/
theorem suppresses_iff_noRecentFailure_delivered :
    (trace render (new none none none none []) deliveredRun).length = 2 ∧
    (∀ p call, p ++ [call] <+: deliveredRun →
      NoRecentFailure (trace render (new none none none none []) p)
        (exec render (new none none none none []) p) call) ∧
    ∀ p call, p ++ [call] <+: deliveredRun →
      SuppressesOnlyDelivered (trace render (new none none none none []) p)
        (exec render (new none none none none []) p) call := by
  have hdelivered : ∀ a ∈ trace render (new none none none none []) deliveredRun, a.Succeeded := by
    intro a ha
    rcases List.mem_pair.mp (show a ∈ [_, _] from ha) with rfl | rfl <;> rfl
  have hnone : ∀ p call, p ++ [call] <+: deliveredRun →
      NoRecentFailure (trace render (new none none none none []) p)
        (exec render (new none none none none []) p) call := by
    rintro p call ⟨rest, hrest⟩ - a ha - hfailed
    refine absurd (hdelivered a ?_) hfailed
    rw [← hrest, List.append_assoc, trace_append]
    exact List.mem_append_left _ ha
  exact ⟨by decide, hnone, (suppresses_iff_noRecentFailure none none none none [] deliveredRun
    (by decide)).mpr hnone⟩

/-- Five seconds after an attempt that failed the call is suppressed too. -/
theorem failure_silences_next :
    ¬ ∀ calls : List NotifyCall, ClocksNonDecreasing calls → ∀ p call, p ++ [call] <+: calls →
      SuppressesOnlyDelivered (trace render (new none none none none []) p)
        (exec render (new none none none none []) p) call := by
  intro hall
  have hlaw := hall [attentionAt 0 (.cannotRun "not found"), attentionAt 5 (.exited true "")]
    (by decide) [attentionAt 0 (.cannotRun "not found")] (attentionAt 5 (.exited true ""))
    (List.prefix_refl _) ⟨by decide, by decide⟩
  obtain ⟨a, ha, -, hdelivered, -⟩ := hlaw.mp (by decide)
  rw [List.mem_singleton.mp ha] at hdelivered
  have hok : sendNotification (.cannotRun "not found") = Except.ok () := hdelivered
  exact absurd hok (by simp [sendNotification])

end NotificationRenderer

end AgentTermStatus
