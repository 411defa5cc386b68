import AgentTermStatus.Renderer.Tmux
import AgentTermStatus.Renderer.Base64
import AgentTermStatus.Lib.Osc
import AgentTermStatus.Lib.Run
import AgentTermStatus.Lib.Utf8

namespace AgentTermStatus

open Lib

/-!
# The iTerm2 renderer

The renderer shows a state in the title and the badge of a terminal, by commands it writes to the
terminal's device (`crates/ats-renderer-iterm2/src/lib.rs`).  Theme texts and labels come from
files and providers, so both are sanitized: the title as it is written, the badge before it is
encoded.  What becomes of a write is an argument: a function from the state of the device to the
next one and the outcome (`TtyDevice`).

* `oscSetTitle_command`, `oscSetBadge_command` — a clean title and a base64 badge are commands;
* `render_cases`, `reset_cases` — what a call does: nothing, or it writes its commands;
* `render_output` — whatever the theme, the state, the label and the device, `render` writes at
  most a title and a badge, each clean;
* `run_output` — and so does every call of a run of renders and resets.
-/

/-- The longest text of a command, in characters. -/
def maxOscStringLen : Nat := 256

/-- The title and the badge of a terminal before the first render. -/
structure CapturedTitle where
  title : Option String
  badge : Option String
  deriving DecidableEq

/-- The renderer: its theme, and what it captured, by session. -/
structure ITerm2Renderer where
  theme : Option Theme
  prior : FiniteMap String CapturedTitle

/-- What becomes of a write to a device. -/
inductive WriteOutcome
  /-- The device cannot be opened. -/
  | cannotOpen (e : String)
  /-- The write fails after some of the bytes. -/
  | breaksOff (written : Nat) (e : String)
  /-- The bytes are written, and flushing fails. -/
  | cannotFlush (e : String)
  | done
  deriving DecidableEq

/-- Devices with states `τ`: what becomes of the bytes that are to be written to a path. -/
abbrev TtyDevice (τ : Type) := τ → String → List UInt8 → τ × WriteOutcome

/-- The bytes a call writes: those it handed to the device, and those the device took. -/
structure TtyOutput where
  written : List UInt8
  reached : List UInt8

namespace ITerm2Renderer

/-- A renderer that has captured nothing. -/
def new (theme : Option Theme) : ITerm2Renderer where
  theme := theme
  prior := ∅

/-- May the character stand in a command? -/
def isOscChar (c : Char) : Bool :=
  c.toNat ≥ 0x20 && c.toNat ≠ 0x7f && !(0x80 ≤ c.toNat && c.toNat ≤ 0x9f)

/-- The text without its control characters, cut to the longest length. -/
def sanitizeOscString (s : String) : String :=
  String.ofList ((s.toList.filter isOscChar).take maxOscStringLen)

/-- The title of a state: its symbol, its label and the label of the activity, as in the border of
    a pane. -/
def buildTitle (theme : Option Theme) (state : AgentState) (label : Option ActivityLabel) :
    Option String :=
  if state = .idle then some ""
  else
    let parts := TmuxRenderer.borderParts theme state label
    if parts.isEmpty then none
    else some (sanitizeOscString (String.intercalate " · " parts))

/-- The badge of a state: its symbol, in base64. -/
def buildBadge (theme : Option Theme) (state : AgentState) : Option String :=
  if state = .idle then some ""
  else
    match TmuxRenderer.resolveEntry theme state with
    | none       => none
    | some entry =>
        if entry.symbol.isEmpty then none
        else some (base64Encode (encodeUtf8 (sanitizeOscString entry.symbol).toList))

/-- The command that sets the title. -/
def oscSetTitle (title : String) : List UInt8 :=
  [esc, bracket] ++ encodeUtf8 "2;".toList ++ encodeUtf8 title.toList ++ [bel]

/-- The command that sets the badge. -/
def oscSetBadge (badge : String) : List UInt8 :=
  [esc, bracket] ++ encodeUtf8 "1337;SetBadgeFormat=".toList ++ encodeUtf8 badge.toList ++ [bel]

/-- Is the terminal an iTerm2? -/
def isITerm2 (ctx : TerminalContext) : Bool := ctx.termProgram = some "iTerm.app"

/-- Is the terminal a tmux pane? -/
def isInsideTmux (ctx : TerminalContext) : Bool := ctx.tmuxPane.isSome

/-- The capabilities for a terminal; inside tmux there are none. -/
def detect (ctx : TerminalContext) : Except RendererError RendererCapabilities :=
  if !isITerm2 ctx then .error (.unsupported "not iTerm2 terminal")
  else if ctx.tty.isNone then .error (.unsupported "no TTY in terminal context")
  else
    let insideTmux := isInsideTmux ctx
    .ok { tabTitle := !insideTmux, badge := !insideTmux, resetReliable := !insideTmux }

section
variable {τ : Type} (device : TtyDevice τ)

/-- Writes some bytes to the device. -/
def writeToTty (t : τ) (tty : String) (bytes : List UInt8) :
    τ × TtyOutput × Except RendererError Unit :=
  match device t tty bytes with
  | (t, .cannotOpen e) =>
      (t, ⟨[], []⟩, .error (.failed ("cannot open TTY " ++ tty ++ ": " ++ e)))
  | (t, .breaksOff n e) =>
      (t, ⟨bytes, bytes.take n⟩, .error (.failed ("write to TTY " ++ tty ++ " failed: " ++ e)))
  | (t, .cannotFlush e) =>
      (t, ⟨bytes, bytes⟩, .error (.failed ("flush TTY " ++ tty ++ " failed: " ++ e)))
  | (t, .done) => (t, ⟨bytes, bytes⟩, .ok ())

/-- Writes commands one after the other until a write fails. -/
def writeCommands (tty : String) :
    List (List UInt8) → τ → τ × TtyOutput × Except RendererError Unit
  | [], t => (t, ⟨[], []⟩, .ok ())
  | command :: commands, t =>
    match writeToTty device t tty command with
    | (t, out, .error e) => (t, out, .error e)
    | (t, out, .ok ())   =>
      let (t, rest, result) := writeCommands tty commands t
      (t, ⟨out.written ++ rest.written, out.reached ++ rest.reached⟩, result)

/-- The commands that show a view. -/
def viewCommands (theme : Option Theme) (view : StateView) : List (List UInt8) :=
  ((buildTitle theme view.state view.label).map oscSetTitle).toList ++
    ((buildBadge theme view.state).map oscSetBadge).toList

/-- Shows a view. -/
def render (r : ITerm2Renderer) (t : τ) (view : StateView) :
    ITerm2Renderer × τ × TtyOutput × Except RendererError Unit :=
  match view.target.terminal.tty with
  | none     => (r, t, ⟨[], []⟩, .error (.unsupported "no TTY in render target"))
  | some tty =>
    if !isITerm2 view.target.terminal then
      (r, t, ⟨[], []⟩, .error (.unsupported "renderer only supports iTerm2"))
    else if isInsideTmux view.target.terminal then (r, t, ⟨[], []⟩, .ok ())
    else
      let prior :=
        if view.target.sessionId ∈ r.prior then r.prior
        else r.prior.insert view.target.sessionId ⟨none, none⟩
      ({ r with prior }, writeCommands device tty (viewCommands r.theme view) t)

/-- The commands that restore what was captured: a title that is not empty first. -/
def resetCommands (captured : Option CapturedTitle) : List (List UInt8) :=
  (match captured.bind fun c => c.title with
    | some title => if title.isEmpty then [] else [oscSetTitle title]
    | none       => []) ++ [oscSetTitle "", oscSetBadge ""]

/-- Restores a terminal. -/
def reset (r : ITerm2Renderer) (t : τ) (target : RenderTarget) :
    ITerm2Renderer × τ × TtyOutput × Except RendererError Unit :=
  match target.terminal.tty with
  | none     => (r, t, ⟨[], []⟩, .error (.unsupported "no TTY in reset target"))
  | some tty =>
    if !isITerm2 target.terminal then (r, t, ⟨[], []⟩, .ok ())
    else if isInsideTmux target.terminal then (r, t, ⟨[], []⟩, .ok ())
    else
      ({ r with prior := r.prior.erase target.sessionId },
        writeCommands device tty (resetCommands r.prior[target.sessionId]?) t)

end

/-! ### Clean texts are bodies of commands -/

/-- The characters that may stand in a command are those that are no control characters. -/
theorem isOscChar_iff (c : Char) : isOscChar c = true ↔ isControl c = false := by
  unfold isOscChar isControl
  simp only [ge_iff_le, ne_eq, Bool.and_eq_true, decide_eq_true_eq, Bool.not_eq_true',
    Bool.and_eq_false_iff, decide_eq_false_iff_not, Bool.or_eq_false_iff]
  omega

/-- No control character is left in a sanitized text, and it is short. -/
theorem sanitizeOscString_spec (s : String) :
    (sanitizeOscString s).toList.length ≤ 256 ∧
      ∀ c ∈ (sanitizeOscString s).toList, isControl c = false := by
  rw [sanitizeOscString, String.toList_ofList]
  refine ⟨List.length_take_le _ _, fun c hc => ?_⟩
  exact (isOscChar_iff c).mp (List.mem_filter.mp (List.mem_of_mem_take hc)).2

/-- The bytes of a text without control characters may stand in a command. -/
theorem isBodyByte_of_clean {cs : List Char} (h : ∀ c ∈ cs, isControl c = false) :
    (encodeUtf8 cs).all isBodyByte = true := by
  have hnot : ∀ b : UInt8, b.toNat ≤ 0x7f → isControl (Char.ofNat b.toNat) = true →
      b ∉ encodeUtf8 cs := by
    -- a byte of ASCII is a character of the text
    intro b hascii hcontrol hb
    rw [h _ (mem_of_mem_encodeUtf8 hascii hb)] at hcontrol
    exact absurd hcontrol (by decide)
  rw [List.all_eq_true]
  intro b hb
  have hesc : b ≠ esc := fun heq => hnot esc (by decide) (by decide) (heq ▸ hb)
  have hbel : b ≠ bel := fun heq => hnot bel (by decide) (by decide) (heq ▸ hb)
  unfold isBodyByte
  rw [Bool.and_eq_true, bne_iff_ne, bne_iff_ne]
  exact ⟨hesc, hbel⟩

/-- The body of a command made of a clean head and a clean text. -/
def textBody (head text : List Char) (hhead : ∀ c ∈ head, isControl c = false)
    (htext : ∀ c ∈ text, isControl c = false) : OscBody where
  bytes := encodeUtf8 head ++ encodeUtf8 text
  clean := by
    rw [List.all_append, isBodyByte_of_clean hhead, isBodyByte_of_clean htext]
    rfl

/-- The characters of base64 are no control characters. -/
theorem isControl_of_base64 {c : Char} (h : c ∈ base64Chars ∨ c = '=') : isControl c = false := by
  have hall : base64Chars.all (fun c => !isControl c) = true := by decide
  rcases h with h | rfl
  · simpa using List.all_eq_true.mp hall c h
  · decide

/-- A clean title is set by a command. -/
theorem oscSetTitle_command {title : String} (h : ∀ c ∈ title.toList, isControl c = false) :
    ∃ o : OscBody, oscSetTitle title = o.command := by
  have hhead : ∀ c ∈ "2;".toList, isControl c = false := by
    have hall : "2;".toList.all (fun c => !isControl c) = true := by decide
    simpa using hall
  refine ⟨textBody "2;".toList title.toList hhead h, ?_⟩
  simp [oscSetTitle, textBody, OscBody.command]

/-- A base64 badge is set by a command. -/
theorem oscSetBadge_command {badge : String}
    (h : ∀ c ∈ badge.toList, c ∈ base64Chars ∨ c = '=') :
    ∃ o : OscBody, oscSetBadge badge = o.command := by
  have hhead : ∀ c ∈ "1337;SetBadgeFormat=".toList, isControl c = false := by
    have hall : "1337;SetBadgeFormat=".toList.all (fun c => !isControl c) = true := by decide
    simpa using hall
  refine ⟨textBody "1337;SetBadgeFormat=".toList badge.toList hhead
    fun c hc => isControl_of_base64 (h c hc), ?_⟩
  simp [oscSetBadge, textBody, OscBody.command]

/-! ### What a call writes -/

/-- A title that may be written. -/
def CleanTitle (title : String) : Prop :=
  title.toList.length ≤ 256 ∧ ∀ c ∈ title.toList, isControl c = false

/-- A badge that may be written. -/
def Base64Badge (badge : String) : Prop := ∀ c ∈ badge.toList, c ∈ base64Chars ∨ c = '='

/-- What a call writes: at most a title and at most a badge. -/
structure TerminalOutput (out : TtyOutput) (title badge : Option String) : Prop where
  stream : out.written = ((title.map oscSetTitle).getD []) ++ ((badge.map oscSetBadge).getD [])
  titleClean : ∀ T ∈ title, CleanTitle T
  badgeBase64 : ∀ B ∈ badge, Base64Badge B
  /-- `ESC` occurs once for each command, and so does `BEL`. -/
  introducers : out.written.count esc = title.toList.length + badge.toList.length
  terminators : out.written.count bel = title.toList.length + badge.toList.length
  /-- A terminal reads these commands back, and nothing is left. -/
  readBack : ∃ os : List OscBody, os.length = title.toList.length + badge.toList.length ∧
    oscCode.split out.written = (os, [])
  /-- The device takes them from the front. -/
  reached : out.reached <+: out.written

/-- A clean title and a base64 badge make such an output. -/
theorem terminalOutput_of_clean {out : TtyOutput} {title badge : Option String}
    (hstream : out.written = ((title.map oscSetTitle).getD []) ++ ((badge.map oscSetBadge).getD []))
    (htitle : ∀ T ∈ title, CleanTitle T) (hbadge : ∀ B ∈ badge, Base64Badge B)
    (hreached : out.reached <+: out.written) : TerminalOutput out title badge := by
  have htitles : ∃ os : List OscBody, (title.map oscSetTitle).getD [] = oscCode.encAll os ∧
      os.length = title.toList.length := by
    cases title with
    | none => exact ⟨[], rfl, rfl⟩
    | some T =>
      obtain ⟨o, ho⟩ := oscSetTitle_command (htitle T rfl).2
      exact ⟨[o], by simp [FrameCode.encAll, oscCode, ho], rfl⟩
  have hbadges : ∃ os : List OscBody, (badge.map oscSetBadge).getD [] = oscCode.encAll os ∧
      os.length = badge.toList.length := by
    cases badge with
    | none => exact ⟨[], rfl, rfl⟩
    | some B =>
      obtain ⟨o, ho⟩ := oscSetBadge_command (hbadge B rfl)
      exact ⟨[o], by simp [FrameCode.encAll, oscCode, ho], rfl⟩
  obtain ⟨os, hos, hlen⟩ := htitles
  obtain ⟨os', hos', hlen'⟩ := hbadges
  have hwritten : out.written = oscCode.encAll (os ++ os') := by
    rw [hstream, hos, hos']
    exact (List.flatMap_append ..).symm
  have hlength : (os ++ os').length = title.toList.length + badge.toList.length := by
    rw [List.length_append, hlen, hlen']
  refine ⟨hstream, htitle, hbadge, ?_, ?_, ⟨os ++ os', hlength, ?_⟩, hreached⟩
  · rw [hwritten, count_esc_encAll, hlength]
  · rw [hwritten, count_bel_encAll, hlength]
  · rw [hwritten, split_encAll_oscCode]

/-- The title of a state is clean. -/
theorem buildTitle_clean {theme : Option Theme} {state : AgentState}
    {label : Option ActivityLabel} {title : String}
    (h : buildTitle theme state label = some title) : CleanTitle title := by
  unfold buildTitle at h
  simp only at h
  split at h
  · obtain rfl := Option.some.inj h
    exact ⟨by decide, by simp⟩
  · split at h
    · exact absurd h (by simp)
    · obtain rfl := Option.some.inj h
      exact sanitizeOscString_spec _

/-- The badge of a state is in base64. -/
theorem buildBadge_base64 {theme : Option Theme} {state : AgentState} {badge : String}
    (h : buildBadge theme state = some badge) : Base64Badge badge := by
  unfold buildBadge at h
  split at h
  · obtain rfl := Option.some.inj h
    simp [Base64Badge]
  · split at h
    · exact absurd h (by simp)
    · split at h
      · exact absurd h (by simp)
      · obtain rfl := Option.some.inj h
        intro c hc
        obtain ⟨body, heq, hbody⟩ := encode_alphabet (encodeUtf8 (sanitizeOscString _).toList)
        rw [base64Encode, String.toList_ofList, heq] at hc
        rcases List.mem_append.mp hc with hc | hc
        · exact Or.inl (hbody c hc)
        · exact Or.inr (List.eq_of_mem_replicate hc)

section
variable {τ : Type} (device : TtyDevice τ)

/-- What becomes of one write: nothing is written, or all of it is, of which the device takes a
    beginning; and the write succeeds only if it takes all of it. -/
theorem writeToTty_spec (t : τ) (tty : String) (bytes : List UInt8) :
    ((writeToTty device t tty bytes).2.1.written = [] ∨
      (writeToTty device t tty bytes).2.1.written = bytes) ∧
    (writeToTty device t tty bytes).2.1.reached <+:
      (writeToTty device t tty bytes).2.1.written ∧
    ((writeToTty device t tty bytes).2.2 = .ok () →
      (writeToTty device t tty bytes).2.1.written = bytes ∧
        (writeToTty device t tty bytes).2.1.reached = bytes) := by
  unfold writeToTty
  split
  · exact ⟨Or.inl rfl, List.prefix_refl _, fun h => absurd h (by simp)⟩
  · exact ⟨Or.inr rfl, List.take_prefix _ _, fun h => absurd h (by simp)⟩
  · exact ⟨Or.inr rfl, List.prefix_refl _, fun h => absurd h (by simp)⟩
  · exact ⟨Or.inr rfl, List.prefix_refl _, fun _ => ⟨rfl, rfl⟩⟩

/-- What is written of some commands: those up to some point, of which the device takes a
    beginning. -/
theorem writeCommands_spec (tty : String) (commands : List (List UInt8)) (t : τ) :
    (∃ front, front <+: commands ∧
      (writeCommands device tty commands t).2.1.written = front.flatten) ∧
    (writeCommands device tty commands t).2.1.reached <+:
      (writeCommands device tty commands t).2.1.written := by
  induction commands generalizing t with
  | nil => exact ⟨⟨[], List.prefix_refl _, rfl⟩, List.prefix_refl _⟩
  | cons command commands ih =>
    obtain ⟨hwritten, hreached, hok⟩ := writeToTty_spec device t tty command
    rw [writeCommands]
    generalize writeToTty device t tty command = w at hwritten hreached hok
    obtain ⟨t', out, result⟩ := w
    cases result with
    | error e =>
      -- the rest is not written
      refine ⟨?_, hreached⟩
      rcases hwritten with hnone | hall
      · exact ⟨[], List.nil_prefix, hnone⟩
      · refine ⟨[command], ?_, by simpa using hall⟩
        rw [List.cons_prefix_cons]
        exact ⟨rfl, List.nil_prefix⟩
    | ok _ =>
      obtain ⟨hall, htook⟩ := hok rfl
      obtain ⟨⟨front, hfront, hrest⟩, hprefix⟩ := ih t'
      refine ⟨⟨command :: front, ?_, ?_⟩, ?_⟩
      · rw [List.cons_prefix_cons]
        exact ⟨rfl, hfront⟩
      · show out.written ++ _ = _
        rw [show out.written = command from hall, hrest, List.flatten_cons]
      · show out.reached ++ _ <+: out.written ++ _
        rw [show out.written = command from hall, show out.reached = command from htook]
        exact (List.prefix_append_right_inj command).mpr hprefix

/-- The front of at most one command is at most that command. -/
theorem front_of_option {α : Type} {front : List α} {x : Option α} (h : front <+: x.toList) :
    ∃ x' : Option α, front = x'.toList ∧ ∀ a ∈ x', a ∈ x := by
  cases x with
  | none =>
    obtain rfl : front = [] := List.prefix_nil.mp h
    exact ⟨none, rfl, by simp⟩
  | some a =>
    rcases List.prefix_cons_iff.mp h with rfl | ⟨rest, rfl, hrest⟩
    · exact ⟨none, rfl, by simp⟩
    · obtain rfl : rest = [] := List.prefix_nil.mp hrest
      exact ⟨some a, rfl, by simp⟩

/-- The front of at most two commands is made of at most two commands. -/
theorem front_of_pair {α : Type} {front : List α} {x y : Option α}
    (h : front <+: x.toList ++ y.toList) :
    ∃ x' y' : Option α, front = x'.toList ++ y'.toList ∧ (∀ a ∈ x', a ∈ x) ∧ ∀ a ∈ y', a ∈ y := by
  rcases List.prefix_or_prefix_of_prefix h (List.prefix_append _ _) with hshort | ⟨rest, rfl⟩
  · obtain ⟨x', rfl, hx'⟩ := front_of_option hshort
    exact ⟨x', none, by simp, hx', by simp⟩
  · obtain ⟨y', rfl, hy'⟩ := front_of_option ((List.prefix_append_right_inj _).mp h)
    exact ⟨x, y', rfl, fun a ha => ha, hy'⟩

/-- Writing a clean title and a base64 badge. -/
theorem writeCommands_output (tty : String) {title badge : Option String}
    (htitle : ∀ T ∈ title, CleanTitle T) (hbadge : ∀ B ∈ badge, Base64Badge B) (t : τ) :
    ∃ title' badge', TerminalOutput (writeCommands device tty
      ((title.map oscSetTitle).toList ++ (badge.map oscSetBadge).toList) t).2.1 title' badge' := by
  obtain ⟨⟨front, hfront, hwritten⟩, hreached⟩ := writeCommands_spec device tty
    ((title.map oscSetTitle).toList ++ (badge.map oscSetBadge).toList) t
  obtain ⟨x, y, rfl, hx, hy⟩ := front_of_pair hfront
  have htitles : ∃ title', x = Option.map oscSetTitle title' ∧ ∀ T ∈ title', CleanTitle T := by
    cases x with
    | none => exact ⟨none, rfl, by simp⟩
    | some bytes =>
      obtain ⟨T, hT, rfl⟩ := Option.mem_map.mp (hx bytes rfl)
      exact ⟨some T, rfl, fun T' hT' => Option.some.inj hT' ▸ htitle T hT⟩
  have hbadges : ∃ badge', y = Option.map oscSetBadge badge' ∧ ∀ B ∈ badge', Base64Badge B := by
    cases y with
    | none => exact ⟨none, rfl, by simp⟩
    | some bytes =>
      obtain ⟨B, hB, rfl⟩ := Option.mem_map.mp (hy bytes rfl)
      exact ⟨some B, rfl, fun B' hB' => Option.some.inj hB' ▸ hbadge B hB⟩
  obtain ⟨title', rfl, htitle'⟩ := htitles
  obtain ⟨badge', rfl, hbadge'⟩ := hbadges
  refine ⟨title', badge', terminalOutput_of_clean ?_ htitle' hbadge' hreached⟩
  rw [hwritten]
  cases title' <;> cases badge' <;> simp

/-- A call that writes nothing. -/
theorem terminalOutput_nil : TerminalOutput ⟨[], []⟩ none none :=
  terminalOutput_of_clean rfl (by simp) (by simp) (List.prefix_refl _)

/-- **What a render does.** Nothing, or it notes the session and writes the commands of the view. -/
theorem render_cases (r : ITerm2Renderer) (t : τ) (view : StateView) :
    (∃ result, r.render device t view = (r, t, ⟨[], []⟩, result)) ∨
    ∃ tty prior, (prior = r.prior ∨ prior = r.prior.insert view.target.sessionId ⟨none, none⟩) ∧
      r.render device t view =
        ({ r with prior }, writeCommands device tty (viewCommands r.theme view) t) := by
  unfold render
  split
  · exact Or.inl ⟨_, rfl⟩
  · next tty _ =>
    split
    · exact Or.inl ⟨_, rfl⟩
    · split
      · exact Or.inl ⟨_, rfl⟩
      · refine Or.inr ⟨tty, _, ?_, rfl⟩
        split
        · exact Or.inl rfl
        · exact Or.inr rfl

/-- **The output of a render cannot be broken out of.** Whatever the theme, the state and the label,
    and whatever becomes of the writes, `render` writes at most a title command and at most a
    badge command; the title is short and has no control characters, the badge is in base64, and
    `ESC` and `BEL` occur only as the introducer and the terminator of each. -/
theorem render_output (r : ITerm2Renderer) (t : τ) (view : StateView) :
    ∃ title badge, TerminalOutput (r.render device t view).2.2.1 title badge := by
  obtain ⟨result, hrender⟩ | ⟨tty, prior, -, hrender⟩ := r.render_cases device t view
  · rw [hrender]
    exact ⟨none, none, terminalOutput_nil⟩
  · rw [hrender]
    exact writeCommands_output device tty (fun T hT => buildTitle_clean hT)
      (fun B hB => buildBadge_base64 hB) t

/-! ### Renders and resets -/

/-- No title was captured. -/
def CapturesNoTitle (r : ITerm2Renderer) : Prop :=
  ∀ (id : String) (c : CapturedTitle), r.prior[id]? = some c → c.title = none

/-- A call of the renderer. -/
inductive RendererCall
  | render (view : StateView)
  | reset (target : RenderTarget)

/-- One call: the renderer and the devices after it, and what it writes. -/
def callStep (s : ITerm2Renderer × τ) : RendererCall → (ITerm2Renderer × τ) × List TtyOutput
  | .render view  =>
      let (r, t, out, _) := s.1.render device s.2 view
      ((r, t), [out])
  | .reset target =>
      let (r, t, out, _) := s.1.reset device s.2 target
      ((r, t), [out])

/-- **What a reset does.** Nothing, or it forgets the session and writes the commands of the
    reset. -/
theorem reset_cases (r : ITerm2Renderer) (t : τ) (target : RenderTarget) :
    (∃ result, r.reset device t target = (r, t, ⟨[], []⟩, result)) ∨
    ∃ tty, r.reset device t target =
      ({ r with prior := r.prior.erase target.sessionId },
        writeCommands device tty (resetCommands r.prior[target.sessionId]?) t) := by
  unfold reset
  split
  · exact Or.inl ⟨_, rfl⟩
  · next tty _ =>
    split
    · exact Or.inl ⟨_, rfl⟩
    · split
      · exact Or.inl ⟨_, rfl⟩
      · exact Or.inr ⟨tty, rfl⟩

/-- A render captures no title. -/
theorem CapturesNoTitle.render {r : ITerm2Renderer} (h : CapturesNoTitle r) (t : τ)
    (view : StateView) : CapturesNoTitle (r.render device t view).1 := by
  obtain ⟨result, hrender⟩ | ⟨tty, prior, rfl | rfl, hrender⟩ := r.render_cases device t view
  · rwa [hrender]
  · rwa [hrender]
  · rw [hrender]
    intro id c hc
    rw [FiniteMap.getElem?_insert_if] at hc
    split at hc
    · obtain rfl := Option.some.inj hc
      rfl
    · exact h id c hc

/-- A reset captures nothing. -/
theorem CapturesNoTitle.reset {r : ITerm2Renderer} (h : CapturesNoTitle r) (t : τ)
    (target : RenderTarget) : CapturesNoTitle (r.reset device t target).1 := by
  obtain ⟨result, hreset⟩ | ⟨tty, hreset⟩ := r.reset_cases device t target
  · rwa [hreset]
  · rw [hreset]
    intro id c hc
    rw [FiniteMap.getElem?_erase_if] at hc
    split at hc
    · exact absurd hc (by simp)
    · exact h id c hc

/-- Where no title was captured, a reset writes an empty title and an empty badge. -/
theorem reset_output {r : ITerm2Renderer} (h : CapturesNoTitle r) (t : τ) (target : RenderTarget) :
    ∃ title badge, TerminalOutput (r.reset device t target).2.2.1 title badge := by
  have hcommands : resetCommands r.prior[target.sessionId]? =
      ((some "").map oscSetTitle).toList ++ ((some "").map oscSetBadge).toList := by
    cases hc : r.prior[target.sessionId]? with
    | none => rfl
    | some c => simp [resetCommands, h _ c hc]
  obtain ⟨result, hreset⟩ | ⟨tty, hreset⟩ := r.reset_cases device t target
  · rw [hreset]
    exact ⟨none, none, terminalOutput_nil⟩
  · rw [hreset, hcommands]
    exact writeCommands_output device tty
      (fun T hT => Option.some.inj hT ▸ ⟨by decide, by simp⟩)
      (fun B hB => Option.some.inj hB ▸ by simp [Base64Badge]) t

/-- **Every call of a run writes such an output.** -/
theorem run_output (theme : Option Theme) (t : τ) (calls : List RendererCall) :
    ∀ out ∈ trace (callStep device) (new theme, t) calls,
      ∃ title badge, TerminalOutput out title badge := by
  have hnew : CapturesNoTitle (new theme) := fun id c hc => absurd hc (by simp [new])
  generalize new theme = r at hnew
  induction calls generalizing r t with
  | nil => simp
  | cons call calls ih =>
    intro out hout
    rw [trace_cons] at hout
    rcases List.mem_append.mp hout with hout | hout
    · cases call with
      | render view =>
        obtain rfl := List.mem_singleton.mp hout
        exact render_output device r t view
      | reset target =>
        obtain rfl := List.mem_singleton.mp hout
        exact reset_output device hnew t target
    · cases call with
      | render view => exact ih _ _ (hnew.render device t view) out hout
      | reset target => exact ih _ _ (hnew.reset device t target) out hout

end

end ITerm2Renderer

end AgentTermStatus
