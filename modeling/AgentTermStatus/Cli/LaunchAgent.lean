import AgentTermStatus.Lib.Path
import AgentTermStatus.Lib.Replace
import AgentTermStatus.Lib.Utf8
import AgentTermStatus.Lib.Xml

namespace AgentTermStatus

open Lib

/-!
# Starting the daemon on login

`ats daemon enable` (`run_enable` of `crates/ats-cli/src/daemon_commands.rs`) writes a property list
for launchd, into which the path of the daemon and those of its logs are pasted.

* `runEnable` — what the command does, given the environment and how its system calls end;
* `xmlEscape_eq` — three replacements one after the other are the escaping of a text;
* `plistContent_eq` — the property list is a document with the paths as texts;
* `enable_plist` — a reader of XML finds the paths in it, with their line ends normalised, and
  nothing else; only a path with a character that is none of XML makes it unreadable.
-/

/-! ### Paths -/

/-- The label of the launch agent. -/
def launchdLabel : List Char := "ai.takurot.agent-term-status".toList

/-- The home directory, from the variable `HOME`. -/
def homeDir (home : Option (List Char)) : List Char := home.getD ".".toList

/-- Where the property list is. -/
def plistPath (home : Option (List Char)) : List Char :=
  joinPath (joinPath (joinPath (homeDir home) "Library".toList) "LaunchAgents".toList)
    (launchdLabel ++ ".plist".toList)

/-- Where the daemon's logs are. -/
def launchLogsDir (home : Option (List Char)) : List Char :=
  joinPath (joinPath (joinPath (joinPath (homeDir home) ".local".toList) "state".toList)
    "agent-term-status".toList) "logs".toList

/-- Where the daemon is: next to this program, if it is there. -/
def daemonBinaryPath (currentExe : Option (List Char)) (present : List Char → Bool) : List Char :=
  match parentPath (currentExe.getD "ats-daemon".toList) with
  | some parent =>
    if present (joinPath parent "ats-daemon".toList) then joinPath parent "ats-daemon".toList
    else "ats-daemon".toList
  | none => "ats-daemon".toList

/-! ### The property list -/

/-- The text with `&`, `<` and `>` replaced, one after the other. -/
def xmlEscape (s : List Char) : List Char :=
  replaceAll ['>'] "&gt;".toList (replaceAll ['<'] "&lt;".toList
    (replaceAll ['&'] "&amp;".toList s))

/-- The property list in front of the path of the daemon. -/
def plistBinary : List Char :=
  "<?xml version=\"1.0\" encoding=\"UTF-8\"?>\n".toList ++
  "<!DOCTYPE plist PUBLIC \"-//Apple//DTD PLIST 1.0//EN\" ".toList ++
  "\"http://www.apple.com/DTDs/PropertyList-1.0.dtd\">\n".toList ++
  "<plist version=\"1.0\">\n".toList ++
  "<dict>\n    <key>Label</key>\n    <string>".toList ++ launchdLabel ++
  "</string>\n    <key>ProgramArguments</key>\n    <array>\n        <string>".toList

/-- The property list between the path of the daemon and that of its output. -/
def plistOut : List Char :=
  "</string>\n    </array>\n    <key>RunAtLoad</key>\n    <true/>\n".toList ++
  "    <key>KeepAlive</key>\n    <true/>\n".toList ++
  "    <key>Nice</key>\n    <integer>10</integer>\n".toList ++
  "    <key>StandardOutPath</key>\n    <string>".toList

/-- The property list between the paths of the two logs. -/
def plistErr : List Char := "</string>\n    <key>StandardErrorPath</key>\n    <string>".toList

/-- The property list behind the paths. -/
def plistEnd : List Char :=
  "</string>\n    <key>ProcessType</key>\n    <string>Background</string>\n".toList ++
  "</dict>\n</plist>\n".toList

/-- The property list. -/
def plistContent (binary logDir : List Char) : List Char :=
  plistBinary ++ xmlEscape binary ++
  plistOut ++ xmlEscape (joinPath logDir "daemon.stdout.log".toList) ++
  plistErr ++ xmlEscape (joinPath logDir "daemon.stderr.log".toList) ++ plistEnd

/-! ### The command -/

/-- How `launchctl load` ends. -/
inductive LoadStatus
  /-- It exits, with a code unless a signal ends it. -/
  | exited (code : Option Int)
  /-- It cannot be run. -/
  | cannotRun (e : String)
  deriving DecidableEq

/-- How the writing of a file ends. -/
inductive WriteStatus
  | written
  /-- The file cannot be opened. -/
  | notOpened (e : String)
  /-- The file is emptied, and writing fails when some bytes are written. -/
  | cutOff (bytes : Nat) (e : String)
  deriving DecidableEq

/-- What the command meets. -/
structure EnableEnv where
  /-- The variable `HOME`. -/
  home : Option (List Char)
  /-- The path of this program. -/
  currentExe : Option (List Char)
  /-- Is there something at a path? -/
  present : List Char → Bool
  /-- The directory of the launch agents is made. -/
  agentsDir : Except String Unit
  /-- The directory of the logs is made. -/
  logDir : Except String Unit
  /-- The property list is written. -/
  write : WriteStatus
  load : LoadStatus

/-- What the command makes of the file of the property list. -/
inductive PlistFile
  | untouched
  | written (path content : List Char)
  /-- No more than these bytes of it are there. -/
  | cutOff (path : List Char) (bytes : List UInt8)
  deriving DecidableEq

/-- What the command leaves: the property list, what it prints, and its exit code. -/
structure EnableResult where
  plist : PlistFile
  stdout : List String
  stderr : List String
  exitCode : Int
  deriving DecidableEq

/-- The command gives up. -/
def EnableResult.failed (plist : PlistFile) (stderr : List String) : EnableResult :=
  { plist, stdout := [], stderr, exitCode := 1 }

/-- `ats daemon enable`. -/
def runEnable (env : EnableEnv) : EnableResult :=
  let binary := daemonBinaryPath env.currentExe env.present
  let logDir := launchLogsDir env.home
  let path := plistPath env.home
  let content := plistContent binary logDir
  if !env.present binary then
    .failed .untouched ["Daemon binary not found at: " ++ String.ofList binary,
      "Make sure ats-daemon is on your PATH or in the same directory as ats."]
  else
    match env.agentsDir, env.logDir, env.write with
    | .error e, _, _ => .failed .untouched ["Failed to create LaunchAgents directory: " ++ e]
    | _, .error e, _ => .failed .untouched ["Failed to create log directory: " ++ e]
    | _, _, .notOpened e => .failed .untouched ["Failed to write plist: " ++ e]
    | _, _, .cutOff bytes e =>
      .failed (.cutOff path ((encodeUtf8 content).take bytes)) ["Failed to write plist: " ++ e]
    | .ok (), .ok (), .written =>
      match env.load with
      | .exited code =>
        if code = some 0 then
          { plist := .written path content
            stdout := ["Daemon enabled. It will start on login and restart automatically.",
              "To start now: launchctl start " ++ String.ofList launchdLabel]
            stderr := []
            exitCode := 0 }
        else .failed (.written path content)
          ["launchctl load failed with exit code: " ++ toString (code.getD (-1))]
      | .cannotRun e => .failed (.written path content) ["Failed to run launchctl: " ++ e]

/-- Three replacements are the escaping of a text. -/
theorem xmlEscape_eq (s : List Char) : xmlEscape s = Xml.escape s := by
  unfold xmlEscape Xml.escape
  simp only [replaceAll_singleton, List.flatMap_assoc]
  congr 1
  funext c
  unfold Xml.escapeChar
  by_cases hamp : c = '&'
  · subst hamp; decide
  · by_cases hlt : c = '<'
    · subst hlt; decide
    · by_cases hgt : c = '>'
      · subst hgt; decide
      · simp [hamp, hlt, hgt]

/-! ### What launchd reads -/

/-- A text and the tag behind it. -/
def piece (text tag : String) (h : Xml.IsTagBody tag.toList := by decide) : Xml.Piece :=
  ⟨text.toList, ⟨tag.toList, h⟩⟩

/-- A path, and the end of the string it is. -/
def pathPiece (path : List Char) : Xml.Piece := ⟨path, ⟨"/string".toList, by decide⟩⟩

/-- The pieces in front of the path of the daemon. -/
def binaryPieces : List Xml.Piece :=
  [piece "" "?xml version=\"1.0\" encoding=\"UTF-8\"?",
    piece "\n" ("!DOCTYPE plist PUBLIC \"-//Apple//DTD PLIST 1.0//EN\" " ++
      "\"http://www.apple.com/DTDs/PropertyList-1.0.dtd\""),
    piece "\n" "plist version=\"1.0\"", piece "\n" "dict",
    piece "\n    " "key", piece "Label" "/key",
    piece "\n    " "string", pathPiece launchdLabel,
    piece "\n    " "key", piece "ProgramArguments" "/key",
    piece "\n    " "array", piece "\n        " "string"]

/-- The pieces between the path of the daemon and that of its output. -/
def outPieces : List Xml.Piece :=
  [piece "\n    " "/array",
    piece "\n    " "key", piece "RunAtLoad" "/key", piece "\n    " "true/",
    piece "\n    " "key", piece "KeepAlive" "/key", piece "\n    " "true/",
    piece "\n    " "key", piece "Nice" "/key", piece "\n    " "integer", piece "10" "/integer",
    piece "\n    " "key", piece "StandardOutPath" "/key", piece "\n    " "string"]

/-- The pieces between the paths of the two logs. -/
def errPieces : List Xml.Piece :=
  [piece "\n    " "key", piece "StandardErrorPath" "/key", piece "\n    " "string"]

/-- The pieces behind the paths. -/
def endPieces : List Xml.Piece :=
  [piece "\n    " "key", piece "ProcessType" "/key",
    piece "\n    " "string", piece "Background" "/string",
    piece "\n" "/dict", piece "\n" "/plist"]

/-- The property list as a document. -/
def plistDoc (binary out err : List Char) : Xml.Doc where
  pieces := binaryPieces ++ pathPiece binary :: (outPieces ++ pathPiece out ::
    (errPieces ++ pathPiece err :: endPieces))
  last := "\n".toList

/-- A path as it is written. -/
theorem write_pathPiece (path : List Char) :
    (pathPiece path).write = xmlEscape path ++ "</string>".toList := by
  rw [xmlEscape_eq]
  simp [Xml.Piece.write, pathPiece]

/-- The property list is this document. -/
theorem plistContent_eq (binary logDir : List Char) :
    plistContent binary logDir =
      (plistDoc binary (joinPath logDir "daemon.stdout.log".toList)
        (joinPath logDir "daemon.stderr.log".toList)).write := by
  have hbinary : plistBinary = binaryPieces.flatMap Xml.Piece.write := by decide +kernel
  have hout : plistOut = "</string>".toList ++ outPieces.flatMap Xml.Piece.write := by
    decide +kernel
  have herr : plistErr = "</string>".toList ++ errPieces.flatMap Xml.Piece.write := by
    decide +kernel
  have hend : plistEnd = "</string>".toList ++ endPieces.flatMap Xml.Piece.write ++
      Xml.escape "\n".toList := by decide +kernel
  simp only [plistContent, hbinary, hout, herr, hend, Xml.Doc.write, plistDoc, List.flatMap_append,
    List.flatMap_cons, write_pathPiece, List.append_assoc]

/-- Where a reader is behind some pieces. -/
def readPieces (place : Xml.Place) (ps : List Xml.Piece) : Option Xml.Place :=
  ps.foldlM (fun place p => place.next (Xml.normalizeEol p.text, p.tag.body)) place

/-- The tags of the property list are nested, whatever the paths are. -/
theorem nested_plistDoc (binary out err : List Char) :
    Xml.nested (plistDoc binary out err).normalize.content = true := by
  have hbinary : readPieces .prolog binaryPieces =
      some (.inside "string".toList ["array".toList, "dict".toList, "plist".toList]) := by
    decide +kernel
  have hout : readPieces (.inside "array".toList ["dict".toList, "plist".toList]) outPieces =
      some (.inside "string".toList ["dict".toList, "plist".toList]) := by decide +kernel
  have herr : readPieces (.inside "dict".toList ["plist".toList]) errPieces =
      some (.inside "string".toList ["dict".toList, "plist".toList]) := by decide +kernel
  have hend : readPieces (.inside "dict".toList ["plist".toList]) endPieces = some .behind := by
    decide +kernel
  -- a path is what is in a string, and ends it
  have hpath : ∀ path name outer ps,
      readPieces (.inside "string".toList (name :: outer)) (pathPiece path :: ps) =
        readPieces (.inside name outer) ps := fun _ _ _ _ => rfl
  have happend : ∀ place ps qs, readPieces place (ps ++ qs) =
      (readPieces place ps).bind fun place => readPieces place qs := fun _ _ _ =>
    List.foldlM_append
  have hpieces : readPieces .prolog (plistDoc binary out err).pieces = some .behind := by
    rw [plistDoc, happend, hbinary, Option.bind_some, hpath, happend, hout, Option.bind_some, hpath,
      happend, herr, Option.bind_some, hpath, hend]
  have hlast : (Xml.normalizeEol "\n".toList).all Xml.isBlank = true := by decide
  rw [Xml.nested, Bool.and_eq_true, decide_eq_true_eq]
  refine ⟨?_, hlast⟩
  rw [Xml.Doc.content, Xml.Doc.normalize, List.map_map, List.foldlM_map]
  exact hpieces

/-- **What the command does.** It fails and leaves the file alone or with a beginning of the
    property list, or writes the property list; it succeeds only if launchd has then loaded it. -/
theorem runEnable_cases (env : EnableEnv) :
    let path := plistPath env.home
    let content := plistContent (daemonBinaryPath env.currentExe env.present)
      (launchLogsDir env.home)
    ((runEnable env).exitCode = 1 ∧ ((runEnable env).plist = .untouched ∨
      ∃ bytes, bytes <+: encodeUtf8 content ∧ (runEnable env).plist = .cutOff path bytes)) ∨
    ((runEnable env).plist = .written path content ∧
      env.present (daemonBinaryPath env.currentExe env.present) = true ∧
      ((runEnable env).exitCode = 0 ↔ env.load = .exited (some 0))) := by
  intro path content
  cases hbinary : env.present (daemonBinaryPath env.currentExe env.present) with
  | false => simp [runEnable, hbinary, EnableResult.failed]
  | true =>
    cases hagents : env.agentsDir with
    | error e => simp [runEnable, hbinary, hagents, EnableResult.failed]
    | ok _ =>
      cases hlog : env.logDir with
      | error e => simp [runEnable, hbinary, hagents, hlog, EnableResult.failed]
      | ok _ =>
        cases hwrite : env.write with
        | notOpened e => simp [runEnable, hbinary, hagents, hlog, hwrite, EnableResult.failed]
        | cutOff bytes e =>
          refine Or.inl ⟨?_, Or.inr ⟨_, List.take_prefix bytes _, ?_⟩⟩
          · simp [runEnable, hbinary, hagents, hlog, hwrite, EnableResult.failed]
          · simp [runEnable, hbinary, hagents, hlog, hwrite, EnableResult.failed, path, content]
        | written =>
          -- the property list is written, and what is left is to load it
          refine Or.inr ?_
          cases hload : env.load with
          | cannotRun e =>
            simp [runEnable, hbinary, hagents, hlog, hwrite, hload, EnableResult.failed, path,
              content]
          | exited code =>
            by_cases hcode : code = some 0
            · simp [runEnable, hbinary, hagents, hlog, hwrite, hload, hcode, path, content]
            · simp [runEnable, hbinary, hagents, hlog, hwrite, hload, hcode, EnableResult.failed,
                path, content]

/-- What a reader of XML makes of the property list with these paths. -/
structure ReadsPlist (binary out err : List Char) (found : Option Xml.Found) : Prop where
  /-- It accepts it unless a path has a character that is none of XML. -/
  accepted : found ≠ none ↔ ∀ path ∈ [binary, out, err], Xml.IsText path
  /-- The keys are those that the command sets. -/
  keys : ∀ r ∈ found, Xml.elements "key".toList r.1 =
    ["Label".toList, "ProgramArguments".toList, "RunAtLoad".toList, "KeepAlive".toList,
      "Nice".toList, "StandardOutPath".toList, "StandardErrorPath".toList, "ProcessType".toList]
  /-- The strings are the label, the paths with their line ends normalised, and the kind of
      process. -/
  strings : ∀ r ∈ found, Xml.elements "string".toList r.1 =
    [launchdLabel, Xml.normalizeEol binary, Xml.normalizeEol out, Xml.normalizeEol err,
      "Background".toList]

/-- The property list is legal if the paths are. -/
theorem legal_plistDoc_iff (binary out err : List Char) :
    (plistDoc binary out err).Legal ↔ ∀ path ∈ [binary, out, err], Xml.IsText path := by
  have hfixed : ∀ ps ∈ [binaryPieces, outPieces, errPieces, endPieces], ∀ p ∈ ps,
      Xml.IsText p.text := by decide +kernel
  have hlast : Xml.IsText "\n".toList := by decide
  simp only [List.forall_mem_cons] at hfixed
  obtain ⟨hbinary, hout, herr, hend, -⟩ := hfixed
  simp only [Xml.Doc.Legal, plistDoc, List.forall_mem_append, List.forall_mem_cons, pathPiece,
    eq_true hbinary, eq_true hout, eq_true herr, eq_true hend, eq_true hlast]
  simp

/-- The property list is read back. -/
theorem readsPlist (binary logDir : List Char) :
    ReadsPlist binary (joinPath logDir "daemon.stdout.log".toList)
      (joinPath logDir "daemon.stderr.log".toList) (Xml.read (plistContent binary logDir)) := by
  have hread := Xml.read_write _ (nested_plistDoc binary
    (joinPath logDir "daemon.stdout.log".toList) (joinPath logDir "daemon.stderr.log".toList))
  rw [← plistContent_eq] at hread
  have hfound : ∀ r ∈ Xml.read (plistContent binary logDir), r = _ := fun r hr =>
    (Option.some.inj (Option.ite_none_right_eq_some.mp (hread.symm.trans hr)).2).symm
  refine ⟨?_, fun r hr => ?_, fun r hr => ?_⟩
  · rw [hread, ← legal_plistDoc_iff, Ne, ite_eq_right_iff]
    simp only [reduceCtorEq, imp_false, not_not]
  · rw [hfound r hr]
    rfl
  · rw [hfound r hr]
    rfl

/-- **Nothing can be smuggled into the property list.** Whatever the environment, and whatever
    characters the paths in it have: the command fails, and leaves the file of the property list
    alone or with a beginning of it; or it writes the property list, and what a reader of XML finds
    in that are the keys that the command sets, and as strings the label, the path of the daemon,
    which is there, the paths of the two logs, and the kind of process. -/
theorem enable_plist (env : EnableEnv) :
    let binary := daemonBinaryPath env.currentExe env.present
    let logDir := launchLogsDir env.home
    let content := plistContent binary logDir
    ((runEnable env).exitCode = 1 ∧ ((runEnable env).plist = .untouched ∨
      ∃ bytes, bytes <+: encodeUtf8 content ∧
        (runEnable env).plist = .cutOff (plistPath env.home) bytes)) ∨
    ((runEnable env).plist = .written (plistPath env.home) content ∧ env.present binary = true ∧
      ReadsPlist binary (joinPath logDir "daemon.stdout.log".toList)
        (joinPath logDir "daemon.stderr.log".toList) (Xml.read content)) := by
  intro binary logDir content
  rcases runEnable_cases env with hfailed | ⟨hplist, hpresent, -⟩
  · exact Or.inl hfailed
  · exact Or.inr ⟨hplist, hpresent, readsPlist binary logDir⟩

end AgentTermStatus
