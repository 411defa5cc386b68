import AgentTermStatus.Daemon.Logging
import AgentTermStatus.Lib.Text

namespace AgentTermStatus

open Lib

/-!
# Reading the log

`ats logs` (`run_logs` of `crates/ats-cli/src/query_commands.rs`) reads the log of the daemon line
by line and selects the lines of a level.  The redacting writer drops the newline of every record,
as it drops all control characters, so that the log is one line at most.

* `runLogs_content` — what is printed, over the lines of the file;
* `writeAll_inner` — the lines of a log written through an enabled writer;
* `recordsSeparate_iff` — every record is a line of its own exactly if there is none, or a single
  one of which something is left.
-/

/-- `BufRead::lines`: the pieces up to the newlines, without a carriage return in front of one;
    the last piece only if it has a byte. -/
def bufLines : List UInt8 → List (List UInt8)
  | []      => []
  | b :: bs =>
      if b = 0x0a then [] :: bufLines bs
      else if b = 0x0d ∧ bs.head? = some 0x0a then bufLines bs
      else
        match bufLines bs with
        | []            => [[b]]
        | line :: lines => (b :: line) :: lines

/-- The lines in front of the first one that is not a text. -/
def mapWhileOk : List (List UInt8) → List (List Char)
  | []            => []
  | line :: lines =>
      match toStr line with
      | none   => []
      | some s => s :: mapWhileOk lines

/-- What the command finds in place of the log. -/
inductive LogFile
  | missing
  | unreadable
  | content (bytes : List UInt8)
deriving DecidableEq, Repr

/-- What the command prints: that there is no file, that it cannot be opened, or lines. -/
inductive LogsOutput
  | notFound
  | failedToOpen
  | lines (lines : List (List Char))
deriving DecidableEq, Repr

/-- The text that a line of the level has in it. -/
def levelNeedle (lvl : List Char) : List Char := "\"level\":\"".toList ++ lvl ++ ['"']

/-- Is the line printed?  Without a level every line is. -/
def lineSelected (level : Option (List Char)) (line : List Char) : Bool :=
  match level.map levelNeedle with
  | some n => n <:+: line
  | none   => true

/-- A ring of at most `cap` elements, with one more element at its end. -/
def pushRing {α : Type*} (cap : Nat) (ring : List α) (x : α) : List α :=
  (if ring.length = cap then ring.drop 1 else ring) ++ [x]

/-- `ats logs`, with or without `--tail` and `--level`. -/
def runLogs (tail : Bool) (level : Option (List Char)) (logFile : LogFile) : LogsOutput :=
  match logFile with
  | .missing       => .notFound
  | .unreadable    => .failedToOpen
  | .content bytes =>
      let reader := mapWhileOk (bufLines bytes)
      if tail then
        .lines (reader.foldl
          (fun ring line => if lineSelected level line then pushRing 1000 ring line else ring) [])
      else .lines (reader.filter (lineSelected level))

/-! ### The reader -/

/-- The selected lines: those of the level, with `--tail` only the last 1000 of them. -/
def selectLines (tail : Bool) (level : Option (List Char)) (lines : List (List Char)) :
    List (List Char) :=
  let selected := lines.filter (lineSelected level)
  if tail then selected.rtake 1000 else selected

/-- One more element in the ring of the last `cap`. -/
theorem pushRing_rtake {α : Type*} {cap : Nat} (hcap : 0 < cap) (xs : List α) (x : α) :
    pushRing cap (xs.rtake cap) x = (xs ++ [x]).rtake cap := by
  have hlen : (xs.rtake cap).length = min xs.length cap := by
    rw [List.rtake, List.length_drop]
    omega
  rw [pushRing, hlen, List.rtake, List.rtake, List.length_append, List.length_singleton]
  by_cases hfull : cap ≤ xs.length
  · rw [if_pos (by omega), List.drop_drop, List.drop_append_of_le_length (by omega)]
    congr 2
    omega
  · rw [if_neg (by omega), Nat.sub_eq_zero_of_le (by omega), Nat.sub_eq_zero_of_le (by omega),
      List.drop_zero, List.drop_zero]

/-- The ring holds the last of the elements that are selected. -/
theorem foldl_pushRing {α : Type*} {cap : Nat} (hcap : 0 < cap) (p : α → Bool) (xs : List α) :
    xs.foldl (fun ring x => if p x then pushRing cap ring x else ring) []
      = (xs.filter p).rtake cap := by
  induction xs using List.reverseRecOn with
  | nil => simp
  | append_singleton xs x ih =>
    rw [List.foldl_append, ih, List.foldl_cons, List.foldl_nil, List.filter_append]
    by_cases hsel : p x
    · rw [if_pos hsel, List.filter_cons_of_pos hsel, List.filter_nil, pushRing_rtake hcap]
    · rw [if_neg hsel, List.filter_cons_of_neg hsel, List.filter_nil, List.append_nil]

/-- What is printed of a file: its lines, as far as they are texts, that are selected. -/
theorem runLogs_content (tail : Bool) (level : Option (List Char)) (bytes : List UInt8) :
    runLogs tail level (.content bytes)
      = .lines (selectLines tail level (mapWhileOk (bufLines bytes))) := by
  rw [runLogs]
  cases tail with
  | false => rfl
  | true =>
    simp only [if_true, selectLines]
    rw [foldl_pushRing (by omega)]

/-- Texts are read as such. -/
theorem mapWhileOk_map_encodeUtf8 (texts : List (List Char)) :
    mapWhileOk (texts.map encodeUtf8) = texts := by
  induction texts with
  | nil => rfl
  | cons text texts ih =>
    rw [List.map_cons, mapWhileOk, (toStr_eq_some_iff (encodeUtf8 text) text).mpr rfl]
    simp only [ih]

/-- Bytes without a newline are one line, or none if there are no bytes. -/
theorem bufLines_of_not_mem {bs : List UInt8} (h : (0x0a : UInt8) ∉ bs) :
    bufLines bs = if bs = [] then [] else [bs] := by
  induction bs with
  | nil => rfl
  | cons b bs ih =>
    rw [List.mem_cons, not_or] at h
    have hhead : bs.head? ≠ some 0x0a := fun hhead => h.2 (List.mem_of_mem_head? hhead)
    rw [bufLines, if_neg (Ne.symm h.1), if_neg (fun hcr => hhead hcr.2), ih h.2,
      if_neg (List.cons_ne_nil b bs)]
    by_cases hbs : bs = []
    · rw [if_pos hbs, hbs]
    · rw [if_neg hbs]

/-! ### A log written through the writer -/

/-- The text that is written for a record: its body and a newline. -/
def recordText (body : List Char) : List Char := body ++ ['\n']

/-- The records written one per call. -/
def RedactingWriter.writeAll (w : RedactingWriter) (bodies : List (List Char)) : RedactingWriter :=
  bodies.foldl (fun w body => (w.write (encodeUtf8 (recordText body))).1) w

/-- The log of some records, through an enabled writer. -/
def logStream (homeDir : Option (List UInt8)) (bodies : List (List Char)) : List UInt8 :=
  ((⟨[], true, homeDir⟩ : RedactingWriter).writeAll bodies).inner

/-- **Every record is a line of its own**: the lines of the log are the redactions of the records,
    and the command prints those of them that are selected. -/
def RecordsSeparate (homeDir : Option (List UInt8)) (bodies : List (List Char)) : Prop :=
  let redactions := bodies.map fun body => redactString (recordText body) homeDir
  bufLines (logStream homeDir bodies) = redactions.map encodeUtf8 ∧
    ∀ tail level, runLogs tail level (.content (logStream homeDir bodies))
      = .lines (selectLines tail level redactions)

/-- Each call adds the redaction of its record. -/
theorem writeAll_inner {w : RedactingWriter} (henabled : w.enabled = true)
    (bodies : List (List Char)) :
    (w.writeAll bodies).inner = w.inner ++
      encodeUtf8 (bodies.flatMap fun body => redactString (recordText body) w.homeDir) := by
  unfold RedactingWriter.writeAll
  induction bodies generalizing w with
  | nil => rw [List.flatMap_nil]; exact (List.append_nil _).symm
  | cons body bodies ih =>
    -- a call changes the bytes only
    have hkept : (w.write (encodeUtf8 (recordText body))).1.enabled = true ∧
        (w.write (encodeUtf8 (recordText body))).1.homeDir = w.homeDir := by
      rw [RedactingWriter.write, henabled]
      exact ⟨rfl, rfl⟩
    rw [List.foldl_cons, ih hkept.1, RedactingWriter.write_inner henabled,
      fromUtf8Lossy_encodeUtf8, hkept.2, List.flatMap_cons, encodeUtf8, encodeUtf8, encodeUtf8,
      List.flatMap_append, List.append_assoc]

/-- The log is the redactions of the records, one after the other. -/
theorem logStream_eq (homeDir : Option (List UInt8)) (bodies : List (List Char)) :
    logStream homeDir bodies
      = encodeUtf8 (bodies.flatMap fun body => redactString (recordText body) homeDir) := by
  rw [logStream, writeAll_inner rfl, List.nil_append]

/-- No newline is left in the log. -/
theorem newline_not_mem_logStream (homeDir : Option (List UInt8)) (bodies : List (List Char)) :
    (0x0a : UInt8) ∉ logStream homeDir bodies := by
  rw [logStream_eq]
  intro hmem
  obtain ⟨body, -, hnewline⟩ := List.mem_flatMap.mp (mem_of_mem_encodeUtf8 (by decide) hmem)
  exact absurd (redactString_clean _ _ _ hnewline).1 (by decide)

/-- The log is one line, or none if nothing is left of the records. -/
theorem bufLines_logStream (homeDir : Option (List UInt8)) (bodies : List (List Char)) :
    bufLines (logStream homeDir bodies)
      = if logStream homeDir bodies = [] then [] else [logStream homeDir bodies] :=
  bufLines_of_not_mem (newline_not_mem_logStream homeDir bodies)

/-- If the lines are the redactions, the command prints those that are selected. -/
theorem recordsSeparate_iff_bufLines (homeDir : Option (List UInt8))
    (bodies : List (List Char)) :
    RecordsSeparate homeDir bodies ↔
      bufLines (logStream homeDir bodies)
        = (bodies.map fun body => redactString (recordText body) homeDir).map encodeUtf8 := by
  refine ⟨And.left, fun hlines => ⟨hlines, fun tail level => ?_⟩⟩
  rw [runLogs_content, hlines, mapWhileOk_map_encodeUtf8]

/-- What is left of a record without control characters: nothing exactly if it has replacement
    characters only, and `~` even then if the home directory is empty. -/
theorem redactString_recordText_eq_nil_iff (homeDir : Option (List UInt8)) {body : List Char}
    (hbody : ∀ c ∈ body, isControl c = false) :
    redactString (recordText body) homeDir = [] ↔
      (∀ c ∈ body, c = replacementChar) ∧ homeDir ≠ some [] := by
  rw [redactString_eq_nil_iff]
  refine and_congr_left fun _ => ?_
  rw [sanitizeControlChars, List.filter_eq_nil_iff, recordText, List.forall_mem_append]
  have hnewline : ∀ c ∈ ['\n'], ¬ keepsChar c = true :=
    List.forall_mem_singleton.mpr (by decide)
  rw [and_iff_left hnewline]
  refine forall₂_congr fun c hc => ?_
  rw [keepsChar_iff, not_and, not_not]
  exact ⟨fun h => h (hbody c hc), fun h _ => h⟩

/-- **When records stay separate.** Records without control characters are lines of their own, as
    the log reader splits and selects them, exactly if there is no record, or a single one with a
    character besides `U+FFFD` (or, with an empty home directory, any single one). -/
theorem recordsSeparate_iff (homeDir : Option (List UInt8)) (bodies : List (List Char))
    (hbodies : ∀ body ∈ bodies, ∀ c ∈ body, isControl c = false) :
    RecordsSeparate homeDir bodies ↔
      bodies = [] ∨
        ∃ body, bodies = [body] ∧ ((∃ c ∈ body, c ≠ replacementChar) ∨ homeDir = some []) := by
  rw [recordsSeparate_iff_bufLines, bufLines_logStream]
  match bodies, hbodies with
  | [], _ => simp [logStream_eq, encodeUtf8]
  | [body], hbodies =>
    have hempty := redactString_recordText_eq_nil_iff homeDir (hbodies body List.mem_cons_self)
    have hright : ([body] = [] ∨ ∃ body', [body] = [body'] ∧
          ((∃ c ∈ body', c ≠ replacementChar) ∨ homeDir = some [])) ↔
        redactString (recordText body) homeDir ≠ [] := by
      simp only [List.cons_ne_nil, false_or, List.cons.injEq, and_true, exists_eq_left']
      rw [Ne, hempty, not_and_or, not_not]
      push Not
      rfl
    rw [hright, logStream_eq, List.flatMap_singleton]
    -- the one line is the redaction, if that has a byte
    split
    · next hnil => simp [(encodeUtf8_eq_nil_iff _).mp hnil]
    · next hnil => simp [mt (encodeUtf8_eq_nil_iff _).mpr hnil]
  | body :: body' :: bodies, _ =>
    refine iff_of_false (fun heq => ?_) (by simp)
    -- two records at least, but one line at most
    have hlen := congrArg List.length heq
    split at hlen <;> simp at hlen

/-- No character of the texts is a control character, if none turns out to be one. -/
theorem isControl_eq_false_of_all {bodies : List (List Char)}
    (h : (bodies.all fun body => body.all fun c => !isControl c) = true) :
    ∀ body ∈ bodies, ∀ c ∈ body, isControl c = false := by
  intro body hbody c hc
  have hclean := List.all_eq_true.mp (List.all_eq_true.mp h body hbody) c hc
  rwa [Bool.not_eq_true'] at hclean

/-- A record of which more is left than its newline. -/
theorem recordsSeparate_iff_one :
    (∀ body ∈ [['o', 'k']], ∀ c ∈ body, isControl c = false) ∧
      (RecordsSeparate none [['o', 'k']] ↔
        [['o', 'k']] = [] ∨ ∃ body, [['o', 'k']] = [body] ∧
          ((∃ c ∈ body, c ≠ replacementChar) ∨ (none : Option (List UInt8)) = some [])) :=
  have hbodies : ∀ body ∈ [['o', 'k']], ∀ c ∈ body, isControl c = false :=
    isControl_eq_false_of_all (by decide)
  ⟨hbodies, recordsSeparate_iff none [['o', 'k']] hbodies⟩

/-- Two records end up on one line. -/
theorem two_records_one_line :
    (∀ body ∈ ["\x7b\"level\":\"INFO\"\x7d".toList, "\x7b\"level\":\"WARN\"\x7d".toList],
        ∀ c ∈ body, isControl c = false) ∧
      ¬ RecordsSeparate (some (encodeUtf8 "/home/u".toList))
        ["\x7b\"level\":\"INFO\"\x7d".toList, "\x7b\"level\":\"WARN\"\x7d".toList] := by
  refine ⟨isControl_eq_false_of_all (by decide +kernel), fun hseparate => ?_⟩
  have hlen := congrArg List.length hseparate.1
  rw [bufLines_logStream] at hlen
  split at hlen <;> simp at hlen

end AgentTermStatus
