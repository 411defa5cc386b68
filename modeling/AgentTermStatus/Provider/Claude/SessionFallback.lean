import AgentTermStatus.Provider.Claude.TurnBoundary
import AgentTermStatus.Provider.Claude.Noninterference
import AgentTermStatus.Wire.Schema

namespace AgentTermStatus

open Lib StateEngine ClaudeAdapter

/-!
# Sessions the provider does not name

A payload that names no session is given one by the adapter.  The terminal could tell it, since
the pane, the device and the working directory are at hand; but the id is drawn afresh on each
call, and the terminal is only noted beside it.

* `HookCall.sessionId_of_object` — the session of a call that names none;
* `sessionCount_ingestHooks` — sessions that are all new are all kept;
* `stableIdentity_iff` — when the calls of a terminal stay one session.
-/

/-- The session a payload names. -/
def sessionName (input : Json) : Option String := (input.get "session_id").bind Json.asStr

/-- The directory a payload names. -/
def workingDirectory (input : Json) : Option String := (input.get "cwd").bind Json.asStr

/-- Two calls in the same terminal: the variables that are read, and the working directory. -/
structure SameTerminal (c c' : HookCall) : Prop where
  env : SameVariables c.env c'.env
  cwd : workingDirectory c.payload = workingDirectory c'.payload

/-- The calls are one session: they agree on its id, and a new engine keeps no second one for
    their events. -/
structure StableIdentity (calls : List HookCall) : Prop where
  sameId : ∀ c ∈ calls, ∀ c' ∈ calls, c.sessionId = c'.sessionId
  oneSession : (ingestHooks StateEngine.new calls).sessionCount ≤ 1

/-- The ids drawn for the calls are all different. -/
def FreshFallbacks (calls : List HookCall) : Prop := (calls.map fun c => c.env.fallbackId).Nodup

/-! ### The session of a call -/

namespace HookCall

variable {c : HookCall}

/-- An object that names no session is given one. -/
theorem sessionId_of_object (hnone : sessionName c.payload = none)
    (hobj : c.payload.asObject ≠ none) : c.sessionId = c.env.fallbackSessionId := by
  obtain ⟨obj, hobj⟩ := Option.ne_none_iff_exists'.mp hobj
  rw [sessionName, get_of_asObject hobj] at hnone
  rw [sessionId, deriveSession, hobj]
  show (strField obj "session_id").getD _ = _
  rw [hnone, Option.getD_none, ParseEnv.fallbackSessionId]

/-- Anything else has the default session, with no name. -/
theorem sessionId_of_not_object (hobj : c.payload.asObject = none) : c.sessionId = "" := by
  rw [sessionId, deriveSession, hobj]
  rfl

/-- What the adapter accepts is an object. -/
theorem Accepted.object (h : c.Accepted) : c.payload.asObject ≠ none := by
  obtain ⟨events, hparse⟩ := h
  intro hobj
  rw [parse, hobj] at hparse
  exact absurd hparse (by simp)

theorem events_of_not_accepted (h : ¬ c.Accepted) : c.events = [] := by
  unfold events
  split
  · next events hparse => exact absurd ⟨events, hparse⟩ h
  · rfl

end HookCall

/-- Different draws give different ids. -/
theorem fallbackSessionId_inj {env env' : ParseEnv} :
    env.fallbackSessionId = env'.fallbackSessionId ↔ env.fallbackId = env'.fallbackId := by
  refine ⟨fun h => ?_, fun h => by rw [ParseEnv.fallbackSessionId, h, ParseEnv.fallbackSessionId]⟩
  rw [ParseEnv.fallbackSessionId, ParseEnv.fallbackSessionId, String.append_right_inj] at h
  exact Uuid.toString_injective h

/-- A drawn id is no default id. -/
theorem fallbackSessionId_ne_empty (env : ParseEnv) : env.fallbackSessionId ≠ "" := by
  intro h
  have hlist := congrArg String.toList h
  rw [ParseEnv.fallbackSessionId, String.toList_append] at hlist
  exact absurd (List.append_eq_nil_iff.mp hlist).1 (by decide)

/-- Two calls that name no session agree on it only if neither payload is an object, as long as
    the draws differ. -/
theorem sessionId_eq_iff {c c' : HookCall} (hc : sessionName c.payload = none)
    (hc' : sessionName c'.payload = none) (hdraws : c.env.fallbackId ≠ c'.env.fallbackId) :
    c.sessionId = c'.sessionId ↔ c.payload.asObject = none ∧ c'.payload.asObject = none := by
  by_cases hobj : c.payload.asObject = none <;> by_cases hobj' : c'.payload.asObject = none
  · rw [HookCall.sessionId_of_not_object hobj, HookCall.sessionId_of_not_object hobj']
    exact iff_of_true rfl ⟨hobj, hobj'⟩
  · rw [HookCall.sessionId_of_not_object hobj, HookCall.sessionId_of_object hc' hobj']
    exact iff_of_false (fallbackSessionId_ne_empty _).symm fun h => hobj' h.2
  · rw [HookCall.sessionId_of_object hc hobj, HookCall.sessionId_of_not_object hobj']
    exact iff_of_false (fallbackSessionId_ne_empty _) fun h => hobj h.1
  · rw [HookCall.sessionId_of_object hc hobj, HookCall.sessionId_of_object hc' hobj',
      fallbackSessionId_inj]
    exact iff_of_false hdraws fun h => hobj h.1

/-! ### Runs of calls -/

theorem ingestHooks_cons (e : StateEngine) (c : HookCall) (calls : List HookCall) :
    ingestHooks e (c :: calls) = ingestHooks (ingestHooks e [c]) calls := by
  simp [ingestHooks]

/-- **Step lemma.** A call the adapter does not accept leaves the engine alone; any other one
    writes its own session. -/
theorem ingestHooks_singleton (e : StateEngine) (c : HookCall) :
    ¬ c.Accepted ∧ ingestHooks e [c] = e ∨
      c.Accepted ∧ ∃ s, (ingestHooks e [c]).sessions = e.sessions.insert c.sessionId s := by
  by_cases h : c.Accepted
  · obtain ⟨-, ev, -, hevents, hsession, -, -⟩ := HookCall.events_of_accepted h
    have hrun : ingestHooks e [c] = (e.ingest ev c.now).1 := by
      simp [ingestHooks, hevents, engineStep]
    exact Or.inr ⟨h, _, by rw [hrun, ingest_fst, hsession]⟩
  · exact Or.inl ⟨h, by simp [ingestHooks, HookCall.events_of_not_accepted h]⟩

/-- **Run lemma.** Calls of sessions that are new and all different leave one session each, as
    far as they are accepted. -/
theorem sessionCount_ingestHooks {calls : List HookCall} {e : StateEngine}
    (hnew : ∀ c ∈ calls, c.Accepted → c.sessionId ∉ e.sessions)
    (hdiffer : calls.Pairwise fun c c' => c.Accepted → c'.Accepted → c.sessionId ≠ c'.sessionId) :
    (ingestHooks e calls).sessionCount = e.sessionCount + calls.countP fun c => c.Accepted := by
  induction calls generalizing e with
  | nil => simp [ingestHooks]
  | cons c calls ih =>
    rw [List.forall_mem_cons] at hnew
    rw [List.pairwise_cons] at hdiffer
    obtain ⟨hc, hnew⟩ := hnew
    obtain ⟨hdiffer, hrest⟩ := hdiffer
    rw [ingestHooks_cons, List.countP_cons]
    obtain ⟨hno, hstep⟩ | ⟨hyes, s, hstep⟩ := ingestHooks_singleton e c
    · rw [hstep, ih hnew hrest, if_neg (by simpa using hno), Nat.add_zero]
    · have hnew' : ∀ c' ∈ calls, c'.Accepted → c'.sessionId ∉ (ingestHooks e [c]).sessions := by
        intro c' hmem hyes'
        rw [hstep, Std.ExtTreeMap.mem_insert, not_or]
        exact ⟨by simpa using hdiffer c' hmem hyes hyes', hnew c' hmem hyes'⟩
      have hsize : (ingestHooks e [c]).sessionCount = e.sessionCount + 1 := by
        rw [sessionCount, hstep, Std.ExtTreeMap.size_insert, if_neg (by simpa using hc hyes)]
        rfl
      rw [ih hnew' hrest, hsize, if_pos (by simpa using hyes)]
      omega

/-! ### One session -/

section
variable {calls : List HookCall}

/-- Two different calls that name no session are two sessions, if their payloads are objects. -/
theorem pairwise_sessionId_ne (hnone : ∀ c ∈ calls, sessionName c.payload = none)
    (hfresh : FreshFallbacks calls) :
    calls.Pairwise fun c c' => c.Accepted → c'.Accepted → c.sessionId ≠ c'.sessionId := by
  have hdraws := List.pairwise_map.mp hfresh
  refine hdraws.imp_of_mem fun {c c'} hc hc' hne hyes _ hsame => ?_
  exact hyes.object ((sessionId_eq_iff (hnone c hc) (hnone c' hc') hne).mp hsame).1

/-- The calls agree on the session when there is at most one, or none has an object. -/
theorem sameId_iff (hnone : ∀ c ∈ calls, sessionName c.payload = none)
    (hfresh : FreshFallbacks calls) :
    (∀ c ∈ calls, ∀ c' ∈ calls, c.sessionId = c'.sessionId) ↔
      calls.length ≤ 1 ∨ ∀ c ∈ calls, c.payload.asObject = none := by
  match calls, hnone, hfresh with
  | [], _, _ => simp
  | [c], _, _ => simp
  | c :: c' :: rest, hnone, hfresh =>
    have hdraws : c.env.fallbackId ≠ c'.env.fallbackId := by
      intro h
      simp [FreshFallbacks, h] at hfresh
    have hmem : c ∈ c :: c' :: rest := List.mem_cons_self
    have hmem' : c' ∈ c :: c' :: rest := List.mem_cons_of_mem c List.mem_cons_self
    rw [or_iff_right (by simp)]
    refine ⟨fun hsame x hx => ?_, fun hobj x hx y hy => ?_⟩
    · -- the first two calls agree on no id but the default one, which no object has
      have hc := ((sessionId_eq_iff (hnone c hmem) (hnone c' hmem') hdraws).mp
        (hsame c hmem c' hmem')).1
      by_contra hobj
      have hid := hsame x hx c hmem
      rw [HookCall.sessionId_of_object (hnone x hx) hobj,
        HookCall.sessionId_of_not_object hc] at hid
      exact fallbackSessionId_ne_empty _ hid
    · rw [HookCall.sessionId_of_not_object (hobj x hx),
        HookCall.sessionId_of_not_object (hobj y hy)]

/-- **When the calls of a terminal stay one session.** Whatever the terminal, calls that name no
    session stay one only if there is at most one of them, or none has an object for its payload,
    in which case there is no event either; and a new engine keeps as many sessions as there are
    accepted calls. -/
theorem stableIdentity_iff (hnone : ∀ c ∈ calls, sessionName c.payload = none)
    (hfresh : FreshFallbacks calls) :
    (StableIdentity calls ↔ calls.length ≤ 1 ∨ ∀ c ∈ calls, c.payload.asObject = none) ∧
      (ingestHooks StateEngine.new calls).sessionCount = calls.countP fun c => c.Accepted := by
  have hcount : (ingestHooks StateEngine.new calls).sessionCount =
      calls.countP fun c => c.Accepted := by
    rw [sessionCount_ingestHooks (by simp [StateEngine.new]) (pairwise_sessionId_ne hnone hfresh)]
    simp [StateEngine.new, sessionCount]
  refine ⟨⟨fun h => (sameId_iff hnone hfresh).mp h.sameId, fun h => ?_⟩, hcount⟩
  refine ⟨(sameId_iff hnone hfresh).mpr h, ?_⟩
  rw [hcount]
  obtain hlength | hobj := h
  · exact List.countP_le_length.trans hlength
  · have hzero : calls.countP (fun c => c.Accepted) = 0 := by
      rw [List.countP_eq_zero]
      intro c hc
      simpa using fun hyes => HookCall.Accepted.object hyes (hobj c hc)
    omega

end

/-- A prompt from a pane of tmux that names no session. -/
def promptCall (id : Uuid) (timestamp : DateTime) : HookCall where
  payload := .object [("hook_event_name", .string "UserPromptSubmit"), ("cwd", .string "/w")]
  env := paneEnv id timestamp
  now := timestamp

/-- Two prompts, one after the other. -/
def promptCalls : List HookCall := [promptCall 1 10, promptCall 2 20]

theorem promptCalls_none : ∀ c ∈ promptCalls, sessionName c.payload = none := by
  have hnone (id : Uuid) (timestamp : DateTime) :
      sessionName (promptCall id timestamp).payload = none := by
    show sessionName (.object [_, _]) = none
    decide +kernel
  simp [promptCalls, hnone]

theorem promptCalls_fresh : FreshFallbacks promptCalls := by
  show [(1 : Uuid), 2].Nodup
  decide

theorem stableIdentity_iff_prompts :
    (StableIdentity promptCalls ↔
        promptCalls.length ≤ 1 ∨ ∀ c ∈ promptCalls, c.payload.asObject = none) ∧
      (ingestHooks StateEngine.new promptCalls).sessionCount =
        promptCalls.countP fun c => c.Accepted :=
  stableIdentity_iff promptCalls_none promptCalls_fresh

/-- **Two sessions in one pane.** Two prompts from the same pane and directory, that name no
    session, do not agree on it, and leave two sessions. -/
theorem promptCalls_not_stable :
    (∀ c ∈ promptCalls, sessionName c.payload = none) ∧
      (∀ c ∈ promptCalls, ∀ c' ∈ promptCalls, SameTerminal c c') ∧
      ¬ StableIdentity promptCalls ∧
      (ingestHooks StateEngine.new promptCalls).sessionCount = 2 := by
  have hcount : (ingestHooks StateEngine.new promptCalls).sessionCount = 2 := by decide +kernel
  have hsame (id id' : Uuid) (t t' : DateTime) :
      SameTerminal (promptCall id t) (promptCall id' t') := ⟨paneEnv_same id id' t t', rfl⟩
  refine ⟨promptCalls_none, by simp [promptCalls, hsame], fun h => ?_, hcount⟩
  have hone := h.oneSession
  omega

end AgentTermStatus
