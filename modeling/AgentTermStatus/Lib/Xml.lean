import Mathlib.Data.List.Infix

namespace AgentTermStatus.Lib

/-!
# Reading and writing XML

A reader of XML 1.0 for documents without comments, CDATA sections, processing instructions behind
the declaration, and references to characters by number; a document that has them is not accepted.
Between the brackets of a tag it looks at no more than the name.

* `read` — the texts and the tags of a document: only characters of XML are accepted, line ends are
  normalised, references are resolved, and the tags have to be nested;
* `readText_escape` — a text is written with `&`, `<` and `>` escaped, and is read back;
* `read_write` — so a document whose tags are nested is read back, text by text and tag by tag, or
  is not accepted since one of its texts has a character that is none of XML;
* `elements` — the texts of the elements with a name.
-/

namespace Xml

/-! ### Characters and line ends -/

/-- The characters that XML knows. -/
def IsChar (c : Char) : Prop :=
  c = '\t' ∨ c = '\n' ∨ c = '\r' ∨ (0x20 ≤ c.toNat ∧ c.toNat ≠ 0xfffe ∧ c.toNat ≠ 0xffff)

instance : DecidablePred IsChar := fun _ => inferInstanceAs (Decidable (_ ∨ _))

/-- A text of such characters. -/
def IsText (cs : List Char) : Prop := ∀ c ∈ cs, IsChar c

instance : DecidablePred IsText := fun cs => List.decidableBAll IsChar cs

/-- Every line end is read as a line feed. -/
def normalizeEol : List Char → List Char
  | '\r' :: '\n' :: cs => '\n' :: normalizeEol cs
  | '\r' :: cs => '\n' :: normalizeEol cs
  | c :: cs => c :: normalizeEol cs
  | [] => []

theorem normalizeEol_cons {c : Char} (hc : c ≠ '\r') (cs : List Char) :
    normalizeEol (c :: cs) = c :: normalizeEol cs := by
  rw [normalizeEol] <;> simp [hc]

/-- A carriage return in front of anything but a line feed is a line end. -/
theorem normalizeEol_cr {c : Char} (hc : c ≠ '\n') (cs : List Char) :
    normalizeEol ('\r' :: c :: cs) = '\n' :: normalizeEol (c :: cs) := by
  rw [normalizeEol]
  rintro rest ⟨rfl, -⟩
  exact hc rfl

/-- Two parts are read one by one, if the second does not begin with a line feed. -/
theorem normalizeEol_append {c : Char} (hc : c ≠ '\n') (xs ys : List Char) :
    normalizeEol (xs ++ c :: ys) = normalizeEol xs ++ normalizeEol (c :: ys) := by
  induction xs using normalizeEol.induct with
  | case1 xs ih => simp only [List.cons_append, normalizeEol, ih]
  | case2 xs hxs ih =>
    cases xs with
    | nil => exact normalizeEol_cr hc ys
    | cons x xs =>
      have hx : x ≠ '\n' := fun h => hxs xs (by rw [h])
      rw [List.cons_append, List.cons_append, normalizeEol_cr hx, normalizeEol_cr hx,
        List.cons_append, ← List.cons_append, ih]
  | case3 x xs _ hx ih =>
    have hx : x ≠ '\r' := hx
    rw [List.cons_append, normalizeEol_cons hx, normalizeEol_cons hx, ih, List.cons_append]
  | case4 => rfl

/-! ### Escaping -/

/-- A character in a text. -/
def escapeChar (c : Char) : List Char :=
  if c = '&' then "&amp;".toList
  else if c = '<' then "&lt;".toList
  else if c = '>' then "&gt;".toList
  else [c]

/-- A text, escaped. -/
def escape (cs : List Char) : List Char := cs.flatMap escapeChar

/-- The text that some characters stand for, if all references in it are known. -/
def unescape : List Char → Option (List Char)
  | '&' :: 'a' :: 'm' :: 'p' :: ';' :: cs => (unescape cs).map ('&' :: ·)
  | '&' :: 'l' :: 't' :: ';' :: cs => (unescape cs).map ('<' :: ·)
  | '&' :: 'g' :: 't' :: ';' :: cs => (unescape cs).map ('>' :: ·)
  | '&' :: 'q' :: 'u' :: 'o' :: 't' :: ';' :: cs => (unescape cs).map ('"' :: ·)
  | '&' :: 'a' :: 'p' :: 'o' :: 's' :: ';' :: cs => (unescape cs).map ('\'' :: ·)
  | '&' :: _ => none
  | c :: cs => (unescape cs).map (c :: ·)
  | [] => some []

/-- A text as it is read; the end of a CDATA section may not stand in it. -/
def readText (cs : List Char) : Option (List Char) :=
  if "]]>".toList <:+: cs then none else unescape cs

@[simp] theorem escape_cons (c : Char) (cs : List Char) :
    escape (c :: cs) = escapeChar c ++ escape cs := rfl

/-- Other characters than `&` stand for themselves. -/
theorem unescape_cons {c : Char} (hc : c ≠ '&') (cs : List Char) :
    unescape (c :: cs) = (unescape cs).map (c :: ·) := by
  rw [unescape] <;> simp [hc]

/-- An escaped character stands for the character. -/
theorem unescape_escapeChar (c : Char) (cs : List Char) :
    unescape (escapeChar c ++ cs) = (unescape cs).map (c :: ·) := by
  unfold escapeChar
  split
  · next heq => rw [heq]; rfl
  · next hamp =>
    split
    · next heq => rw [heq]; rfl
    · split
      · next heq => rw [heq]; rfl
      · exact unescape_cons hamp cs

/-- A text is read back from its escaped form. -/
theorem unescape_escape (cs : List Char) : unescape (escape cs) = some cs := by
  induction cs with
  | nil => rfl
  | cons c cs ih => rw [escape_cons, unescape_escapeChar, ih, Option.map_some]

/-- An escaped character is neither bracket. -/
theorem bracket_not_mem_escapeChar (c : Char) : '<' ∉ escapeChar c ∧ '>' ∉ escapeChar c := by
  unfold escapeChar
  split
  · decide
  · split
    · decide
    · next hlt =>
      split
      · decide
      · next hgt => exact ⟨by simpa using Ne.symm hlt, by simpa using Ne.symm hgt⟩

/-- An escaped text begins no tag and ends none. -/
theorem bracket_not_mem_escape (cs : List Char) : '<' ∉ escape cs ∧ '>' ∉ escape cs := by
  constructor <;> intro h <;> obtain ⟨c, -, hc⟩ := List.mem_flatMap.mp h
  · exact (bracket_not_mem_escapeChar c).1 hc
  · exact (bracket_not_mem_escapeChar c).2 hc

/-- **A text is read back** from its escaped form. -/
theorem readText_escape (cs : List Char) : readText (escape cs) = some cs := by
  have hend : ¬ "]]>".toList <:+: escape cs := fun h =>
    (bracket_not_mem_escape cs).2 (h.subset (by decide))
  rw [readText, if_neg hend, unescape_escape]

/-- Escaping neither makes a line end nor hides one. -/
theorem normalizeEol_escape (cs : List Char) :
    normalizeEol (escape cs) = escape (normalizeEol cs) := by
  have hplain : ∀ {c : Char}, c ≠ '\r' → ∀ rest,
      normalizeEol (escapeChar c ++ rest) = escapeChar c ++ normalizeEol rest := by
    intro c hc rest
    unfold escapeChar
    split
    · rfl
    · split
      · rfl
      · split
        · rfl
        · exact normalizeEol_cons hc rest
  induction cs using normalizeEol.induct with
  | case1 cs ih =>
    have hcrlf : escape ('\r' :: '\n' :: cs) = '\r' :: '\n' :: escape cs := rfl
    have hlf : escape ('\n' :: normalizeEol cs) = '\n' :: escape (normalizeEol cs) := rfl
    rw [hcrlf, normalizeEol, ih, normalizeEol, hlf]
  | case2 cs hcs ih =>
    have hcr : escape ('\r' :: cs) = '\r' :: escape cs := rfl
    have hlf : escape ('\n' :: normalizeEol cs) = '\n' :: escape (normalizeEol cs) := rfl
    have hescape : ∀ rest, escape cs = '\n' :: rest → False := by
      cases cs with
      | nil => simp [escape]
      | cons c cs =>
        have hc : c ≠ '\n' := fun h => hcs cs (by rw [h])
        intro rest hrest
        rw [escape_cons, escapeChar] at hrest
        split_ifs at hrest <;> simp_all
    rw [hcr, normalizeEol.eq_2 _ hescape, ih, normalizeEol.eq_2 _ hcs, hlf]
  | case3 c cs _ hc ih =>
    have hc : c ≠ '\r' := hc
    rw [escape_cons, hplain hc, ih, normalizeEol_cons hc, escape_cons]
  | case4 => rfl

/-- Escaping makes no character a legal one. -/
theorem isText_escape_iff (cs : List Char) : IsText (escape cs) ↔ IsText cs := by
  have hone : ∀ c, IsText (escapeChar c) ↔ IsChar c := by
    intro c
    unfold escapeChar
    split
    · next h => subst h; decide
    · split
      · next h => subst h; decide
      · split
        · next h => subst h; decide
        · simp [IsText]
  simp only [IsText, escape, List.mem_flatMap, forall_exists_index, and_imp]
  exact ⟨fun h c hc => (hone c).mp fun d hd => h d c hc hd,
    fun h d c hc hd => (hone c).mpr (h c hc) d hd⟩

/-! ### Documents -/

/-- It is legal, without a bracket, and has no line end to normalise. -/
def IsTagBody (cs : List Char) : Prop := ∀ c ∈ cs, IsChar c ∧ c ≠ '<' ∧ c ≠ '>' ∧ c ≠ '\r'

instance : DecidablePred IsTagBody := fun cs =>
  List.decidableBAll (fun c => IsChar c ∧ c ≠ '<' ∧ c ≠ '>' ∧ c ≠ '\r') cs

/-- A tag: what stands between its angle brackets. -/
structure Tag where
  body : List Char
  clean : IsTagBody body

/-- A text and the tag behind it. -/
structure Piece where
  text : List Char
  tag : Tag

/-- A document: pieces, and the text behind them. -/
structure Doc where
  pieces : List Piece
  last : List Char

/-- A piece as it is written. -/
def Piece.write (p : Piece) : List Char := escape p.text ++ '<' :: (p.tag.body ++ ['>'])

/-- A document as it is written. -/
def Doc.write (d : Doc) : List Char := d.pieces.flatMap Piece.write ++ escape d.last

/-- The document with its line ends normalised. -/
def Doc.normalize (d : Doc) : Doc where
  pieces := d.pieces.map fun p => { p with text := normalizeEol p.text }
  last := normalizeEol d.last

/-- All its texts are of characters of XML. -/
def Doc.Legal (d : Doc) : Prop :=
  (∀ p ∈ d.pieces, IsText p.text) ∧ IsText d.last

instance (d : Doc) : Decidable d.Legal := inferInstanceAs (Decidable (_ ∧ _))

/-- What is found in a document: texts and the tags behind them, and the last text. -/
abbrev Found := List (List Char × List Char) × List Char

/-- What there is in a document. -/
def Doc.content (d : Doc) : Found := (d.pieces.map fun p => (p.text, p.tag.body), d.last)

/-! ### The reader -/

/-- Texts and tags as they are read.  `before` is the text before the tag that is being read, if it
    is one. -/
def scan : Option (List Char) → List Char → List Char → Option Found
  | none, read, []            => (readText read).map fun text => ([], text)
  | some _, _, []             => none
  | none, read, c :: cs       =>
    if c = '<' then (readText read).bind fun before => scan (some before) [] cs
    else scan none (read ++ [c]) cs
  | some before, read, c :: cs =>
    if c = '>' then (scan none [] cs).map fun r => ((before, read) :: r.1, r.2)
    else if c = '<' then none
    else scan (some before) (read ++ [c]) cs

/-- A blank in a tag or between two. -/
def isBlank (c : Char) : Bool := c = ' ' || c = '\t' || c = '\n' || c = '\r'

/-- What a tag does. -/
inductive Markup
  /-- The declaration of the document or of its type. -/
  | declaration
  | start (name : List Char)
  | stop (name : List Char)
  | empty

/-- What a tag does, from what is between its brackets. -/
def markup : List Char → Markup
  | '?' :: _   => .declaration
  | '!' :: _   => .declaration
  | '/' :: cs  => .stop (cs.takeWhile fun c => !isBlank c)
  | cs         =>
    if cs.getLast? = some '/' then .empty else .start (cs.takeWhile fun c => !isBlank c)

/-- Where in a document the reader is. -/
inductive Place
  /-- In front of the root element. -/
  | prolog
  /-- In an element, that is in others. -/
  | inside (name : List Char) (outer : List (List Char))
  /-- Behind the root element. -/
  | behind
  deriving DecidableEq

/-- Behind the end of an element that is in others. -/
def Place.leave : List (List Char) → Place
  | []            => .behind
  | name :: outer => .inside name outer

/-- Where the reader is behind a text and a tag, if they may stand there. -/
def Place.next : Place → List Char × List Char → Option Place
  | .prolog, (text, tag) =>
    if text.all isBlank then
      match markup tag with
      | .declaration => some .prolog
      | .start name  => some (.inside name [])
      | .stop _      => none
      | .empty       => some .behind
    else none
  | .inside name outer, (_, tag) =>
    match markup tag with
    | .declaration => none
    | .start inner => some (.inside inner (name :: outer))
    | .stop ended  => if ended = name then some (Place.leave outer) else none
    | .empty       => some (.inside name outer)
  | .behind, _ => none

/-- The tags are nested, in one root element. -/
def nested (r : Found) : Bool :=
  r.1.foldlM Place.next .prolog = some .behind && r.2.all isBlank

/-- What a reader finds in a document, if it accepts it. -/
def read (cs : List Char) : Option Found :=
  if IsText cs then (scan none [] (normalizeEol cs)).filter nested else none

/-! ### Reading what is written -/

/-- A text is read up to the next tag. -/
theorem scan_text {cs : List Char} (hcs : '<' ∉ cs) (read rest : List Char) :
    scan none read (cs ++ rest) = scan none (read ++ cs) rest := by
  induction cs generalizing read with
  | nil => simp
  | cons c cs ih =>
    rw [List.mem_cons, not_or] at hcs
    rw [List.cons_append, scan, if_neg (Ne.symm hcs.1), ih hcs.2, List.append_assoc]
    rfl

/-- A tag is read up to its end. -/
theorem scan_tag {cs : List Char} (hcs : ∀ c ∈ cs, c ≠ '<' ∧ c ≠ '>')
    (before read rest : List Char) :
    scan (some before) read (cs ++ '>' :: rest) =
      (scan none [] rest).map fun r => ((before, read ++ cs) :: r.1, r.2) := by
  induction cs generalizing read with
  | nil => simp [scan]
  | cons c cs ih =>
    rw [List.forall_mem_cons] at hcs
    rw [List.cons_append, scan, if_neg hcs.1.2, if_neg hcs.1.1, ih hcs.2]
    simp

/-- A piece is read back. -/
theorem scan_piece (p : Piece) (rest : List Char) :
    scan none [] (p.write ++ rest) =
      (scan none [] rest).map fun r => ((p.text, p.tag.body) :: r.1, r.2) := by
  have htag : ∀ c ∈ p.tag.body, c ≠ '<' ∧ c ≠ '>' := fun c hc =>
    ⟨(p.tag.clean c hc).2.1, (p.tag.clean c hc).2.2.1⟩
  rw [Piece.write, List.append_assoc, scan_text (bracket_not_mem_escape p.text).1, List.nil_append,
    List.cons_append, scan, if_pos rfl, readText_escape, Option.bind_some, List.append_assoc,
    List.singleton_append, scan_tag htag, List.nil_append]

/-- A document is read back, text by text and tag by tag. -/
theorem scan_write (d : Doc) : scan none [] d.write = some d.content := by
  obtain ⟨pieces, last⟩ := d
  show scan none [] (pieces.flatMap Piece.write ++ escape last) = _
  induction pieces with
  | nil =>
    have hlast := scan_text (bracket_not_mem_escape last).1 [] []
    rw [List.append_nil, List.nil_append] at hlast
    rw [List.flatMap_nil, List.nil_append, hlast, scan, readText_escape]
    rfl
  | cons p pieces ih =>
    rw [List.flatMap_cons, List.append_assoc, scan_piece, ih]
    rfl

/-- A tag has no line ends to normalise. -/
theorem normalizeEol_tag {cs : List Char} (hcs : ∀ c ∈ cs, c ≠ '\r') (rest : List Char) :
    normalizeEol (cs ++ rest) = cs ++ normalizeEol rest := by
  induction cs with
  | nil => rfl
  | cons c cs ih =>
    rw [List.forall_mem_cons] at hcs
    rw [List.cons_append, normalizeEol_cons hcs.1, ih hcs.2, List.cons_append]

/-- A piece with the line ends of its text normalised. -/
theorem normalizeEol_piece (p : Piece) (rest : List Char) :
    normalizeEol (p.write ++ rest) =
      { p with text := normalizeEol p.text }.write ++ normalizeEol rest := by
  have htag : ∀ c ∈ p.tag.body ++ ['>'], c ≠ '\r' := by
    intro c hc
    rcases List.mem_append.mp hc with hc | hc
    · exact (p.tag.clean c hc).2.2.2
    · rw [List.mem_singleton.mp hc]
      decide
  unfold Piece.write
  rw [List.append_assoc, List.cons_append, normalizeEol_append (by decide), normalizeEol_escape,
    normalizeEol_cons (by decide), normalizeEol_tag htag]
  simp

/-- Line ends are normalised text by text. -/
theorem normalizeEol_write (d : Doc) : normalizeEol d.write = d.normalize.write := by
  obtain ⟨pieces, last⟩ := d
  show normalizeEol (pieces.flatMap Piece.write ++ escape last) =
    (pieces.map fun p => { p with text := normalizeEol p.text }).flatMap Piece.write ++
      escape (normalizeEol last)
  induction pieces with
  | nil => exact normalizeEol_escape last
  | cons p pieces ih =>
    rw [List.flatMap_cons, List.map_cons, List.flatMap_cons, List.append_assoc, List.append_assoc,
      normalizeEol_piece, ih]

/-- A written document is legal if its texts are. -/
theorem isText_write_iff (d : Doc) : IsText d.write ↔ d.Legal := by
  have hpiece : ∀ p : Piece, IsText p.write ↔ IsText p.text := by
    intro p
    rw [← isText_escape_iff p.text]
    refine ⟨fun h c hc => h c (List.mem_append_left _ hc), fun h c hc => ?_⟩
    rcases List.mem_append.mp hc with hc | hc
    · exact h c hc
    · rcases List.mem_cons.mp hc with rfl | hc
      · decide
      · rcases List.mem_append.mp hc with hc | hc
        · exact (p.tag.clean c hc).1
        · rw [List.mem_singleton.mp hc]
          decide
  unfold Doc.Legal Doc.write
  rw [← isText_escape_iff d.last, IsText, List.forall_mem_append]
  refine and_congr_left fun _ => ?_
  simp only [List.mem_flatMap, forall_exists_index, and_imp]
  exact ⟨fun h p hp => (hpiece p).mp fun c hc => h c p hp hc,
    fun h c p hp hc => (hpiece p).mpr (h p hp) c hc⟩

/-- **A document is read back,** text by text and tag by tag, with its line ends normalised; or it
    is not accepted, as one of its texts has a character that is none of XML. -/
theorem read_write (d : Doc) (hnested : nested d.normalize.content = true) :
    read d.write = if d.Legal then some d.normalize.content else none := by
  rw [read, normalizeEol_write, scan_write, Option.filter_some, if_pos hnested]
  exact if_congr (isText_write_iff d) rfl rfl

/-- The texts of the elements with a name that have nothing but a text. -/
def elements (name : List Char) : List (List Char × List Char) → List (List Char)
  | (_, start) :: (text, stop) :: rest =>
    if start = name ∧ stop = '/' :: name then text :: elements name ((text, stop) :: rest)
    else elements name ((text, stop) :: rest)
  | _ => []

end Xml

end AgentTermStatus.Lib
