import Mathlib.Algebra.Order.Ring.Int
import Mathlib.Algebra.Order.Ring.Nat
import Mathlib.Data.List.DropRight
import Mathlib.Data.List.Infix

namespace AgentTermStatus.Lib

/-!
# Text

Characters and numbers in text, as the standard library of the source reads them.

* `isWhitespace`, `trim` — Unicode white space, and a text without it at both ends;
* `parseDigits`, `parseI32` — a decimal number, and one in the range of 32 bits with an
  optional sign; printing a number and parsing it gives it back (`parseI32_toString`);
* `contains` — a text within a text; two characters that occur side by side in parts joined
  by separators occur so in one of the parts (`pair_infix_intercalate_iff`);
* `takeBytes` — the text of the first bytes, if they are whole characters; it is the
  beginning of that many bytes (`takeBytes_eq_some_iff`);
* `toLowercase` — the lower-case text, as far as ASCII letters are concerned.
-/

/-- Unicode `White_Space`. -/
def isWhitespace (c : Char) : Bool :=
  let n := c.toNat
  (0x09 ≤ n && n ≤ 0x0d) || n = 0x20 || n = 0x85 || n = 0xa0 || n = 0x1680 ||
    (0x2000 ≤ n && n ≤ 0x200a) || n = 0x2028 || n = 0x2029 || n = 0x202f || n = 0x205f ||
    n = 0x3000

/-- The characters without white space at both ends. -/
def trimChars (cs : List Char) : List Char := (cs.dropWhile isWhitespace).rdropWhile isWhitespace

/-- The text without white space at both ends. -/
def trim (s : String) : String := String.ofList (trimChars s.toList)

/-- A non-empty sequence of decimal digits. -/
def parseDigits (cs : List Char) : Option Nat :=
  if cs ≠ [] ∧ cs.all Char.isDigit then some (Nat.ofDigitChars 10 cs 0) else none

/-- A decimal number with an optional plus sign, up to `2^32 - 1`. -/
def parseU32 (cs : List Char) : Option Nat :=
  let digits := match cs with
    | '+' :: cs => cs
    | cs        => cs
  (parseDigits digits).bind fun n => if n < 4294967296 then some n else none

/-- A decimal number with an optional sign, from `-2^31` to `2^31 - 1`. -/
def parseI32 (s : String) : Option Int :=
  match s.toList with
  | '-' :: cs => (parseDigits cs).bind fun n => if n ≤ 2 ^ 31 then some (-n) else none
  | '+' :: cs => (parseDigits cs).bind fun n => if n < 2 ^ 31 then some n else none
  | cs        => (parseDigits cs).bind fun n => if n < 2 ^ 31 then some n else none

/-- No digit is white space. -/
theorem isWhitespace_of_isDigit {c : Char} (h : c.isDigit = true) : isWhitespace c = false := by
  simp only [Char.isDigit, Bool.and_eq_true, decide_eq_true_eq, ge_iff_le,
    UInt32.le_iff_toNat_le] at h
  have h1 : 48 ≤ c.toNat := h.1
  have h2 : c.toNat ≤ 57 := h.2
  simp only [isWhitespace, Bool.or_eq_false_iff, Bool.and_eq_false_iff, decide_eq_false_iff_not]
  omega

/-- A text without white space is not changed by trimming. -/
theorem trimChars_of_forall {cs : List Char} (h : ∀ c ∈ cs, isWhitespace c = false) :
    trimChars cs = cs := by
  have hleft : cs.dropWhile isWhitespace = cs := by
    cases cs with
    | nil => rfl
    | cons c cs => rw [List.dropWhile_cons_of_neg (by simp [h c List.mem_cons_self])]
  rw [trimChars, hleft, List.rdropWhile_eq_self_iff]
  intro hne
  simp [h _ (List.getLast_mem hne)]

/-- The digits of a number are parsed back. -/
theorem parseDigits_toDigits (n : Nat) : parseDigits (Nat.toDigits 10 n) = some n := by
  have hdigits : (Nat.toDigits 10 n).all Char.isDigit = true :=
    List.all_eq_true.mpr fun c hc => Nat.isDigit_of_mem_toDigits (by omega) (by omega) hc
  rw [parseDigits, if_pos ⟨Nat.toDigits_ne_nil, hdigits⟩, Nat.ofDigitChars_ten_toDigits]

/-- The digits spell the number in decimal, perhaps with leading zeros. -/
structure DecimalOf (ds : List Char) (n : Nat) : Prop where
  nonempty : ds ≠ []
  digits : ∀ c ∈ ds, c.isDigit = true
  value : Nat.ofDigitChars 10 ds 0 = n

/-- The digits of a number spell it. -/
theorem decimalOf_toDigits (n : Nat) : DecimalOf (Nat.toDigits 10 n) n where
  nonempty := Nat.toDigits_ne_nil
  digits _ hc := Nat.isDigit_of_mem_toDigits (by omega) (by omega) hc
  value := Nat.ofDigitChars_ten_toDigits

/-- A number is parsed from its digits, if it has 32 bits. -/
theorem parseU32_of_decimalOf {ds : List Char} {n : Nat} (h : DecimalOf ds n) :
    parseU32 ds = if n < 4294967296 then some n else none := by
  have hsign : ∀ cs, ds ≠ '+' :: cs := by
    rintro cs rfl
    exact absurd (h.digits '+' List.mem_cons_self) (by decide)
  have hall : ds.all Char.isDigit = true := List.all_eq_true.mpr h.digits
  have hparse : parseDigits ds = some n := by
    rw [parseDigits, if_pos ⟨h.nonempty, hall⟩, h.value]
  unfold parseU32
  split
  · next cs => exact absurd rfl (hsign cs)
  · simp only [hparse, Option.bind_some]

/-- The digits of a number of 32 bits are parsed back. -/
theorem parseU32_toDigits {n : Nat} (h : n < 4294967296) :
    parseU32 (Nat.toDigits 10 n) = some n := by
  rw [parseU32_of_decimalOf (decimalOf_toDigits n), if_pos h]

/-- **Round trip.** A printed number is parsed back, with or without trimming. -/
theorem parseI32_toString {n : Nat} (h : n < 2 ^ 31) :
    parseI32 (trim (toString n)) = some (n : Int) := by
  have hdigit : ∀ c ∈ Nat.toDigits 10 n, c.isDigit = true :=
    fun c hc => Nat.isDigit_of_mem_toDigits (by omega) (by omega) hc
  have htrim : (trim (toString n)).toList = Nat.toDigits 10 n := by
    rw [trim, String.toList_ofList, Nat.toString_eq_ofList_toDigits, String.toList_ofList]
    exact trimChars_of_forall fun c hc => isWhitespace_of_isDigit (hdigit c hc)
  unfold parseI32
  rw [htrim]
  -- the first character is a digit, so no sign is read
  split
  · next cs heq => exact absurd (hdigit '-' (by rw [heq]; exact List.mem_cons_self)) (by decide)
  · next cs heq => exact absurd (hdigit '+' (by rw [heq]; exact List.mem_cons_self)) (by decide)
  · rw [parseDigits_toDigits, Option.bind_some, if_pos h]

/-! ### A text within a text -/

/-- Does `part` occur in `s`? -/
def contains (s part : String) : Bool := part.toList <:+: s.toList

/-- Two characters side by side lie on one side of any other character. -/
theorem pair_infix_append_cons_iff {α : Type*} {a b c : α} (ha : a ≠ c) (hb : b ≠ c)
    (xs ys : List α) : [a, b] <:+: xs ++ c :: ys ↔ [a, b] <:+: xs ∨ [a, b] <:+: ys := by
  induction xs with
  | nil => simp [List.infix_cons_iff, ha]
  | cons x xs ih =>
    rw [List.cons_append, List.infix_cons_iff, ih, List.infix_cons_iff, or_assoc]
    refine or_congr_left ?_
    -- the pair may begin at `x`: then the character after it is in `xs`
    cases xs with
    | nil => simp [hb]
    | cons y xs => simp

/-- Two characters side by side in parts joined by a separator of other characters are side
    by side in one of the parts. -/
theorem pair_infix_intercalate_iff {α : Type*} {a b : α} {sep : List α} (hsep : sep ≠ [])
    (ha : a ∉ sep) (hb : b ∉ sep) (parts : List (List α)) :
    [a, b] <:+: sep.intercalate parts ↔ ∃ part ∈ parts, [a, b] <:+: part := by
  have hjoin : ∀ (s xs ys : List α), s ≠ [] → a ∉ s → b ∉ s →
      ([a, b] <:+: xs ++ (s ++ ys) ↔ [a, b] <:+: xs ∨ [a, b] <:+: ys) := by
    intro s
    induction s with
    | nil => intro _ _ h; exact absurd rfl h
    | cons c s ih =>
      intro xs ys _ hac hbc
      rw [List.mem_cons, not_or] at hac hbc
      rw [List.cons_append, pair_infix_append_cons_iff hac.1 hbc.1]
      cases s with
      | nil => simp
      | cons d s =>
        have hrest := ih [] ys (by simp) hac.2 hbc.2
        rw [List.nil_append] at hrest
        rw [hrest]
        simp
  induction parts with
  | nil => simp
  | cons part parts ih =>
    cases parts with
    | nil => simp
    | cons part' parts =>
      rw [List.intercalate_cons_cons, List.append_assoc, hjoin sep _ _ hsep ha hb]
      refine (or_congr_right ih).trans ?_
      simp

/-! ### The first bytes of a text -/

/-- The characters that take up the first `n` bytes in UTF-8; nothing if the text is shorter
    or a character extends over the limit. -/
def takeBytesChars : Nat → List Char → Option (List Char)
  | 0, _ => some []
  | _ + 1, [] => none
  | n + 1, c :: cs =>
      if c.utf8Size ≤ n + 1 then (takeBytesChars (n + 1 - c.utf8Size) cs).map (c :: ·) else none

/-- The text of the first `n` bytes. -/
def takeBytes (n : Nat) (s : String) : Option String :=
  (takeBytesChars n s.toList).map String.ofList

/-- The number of bytes of some characters. -/
def byteLength (cs : List Char) : Nat := (cs.map Char.utf8Size).sum

/-- The first `n` bytes are `front` exactly when the text begins with `front`, of `n` bytes. -/
theorem takeBytesChars_eq_some_iff (n : Nat) (cs front : List Char) :
    takeBytesChars n cs = some front ↔ front <+: cs ∧ byteLength front = n := by
  induction cs generalizing n front with
  | nil =>
    cases n with
    | zero =>
      rw [takeBytesChars, Option.some.injEq, List.prefix_nil]
      exact ⟨fun h => h ▸ ⟨rfl, rfl⟩, fun h => h.1.symm⟩
    | succ n =>
      refine ⟨fun h => absurd h (by simp [takeBytesChars]), fun ⟨hfront, hlen⟩ => ?_⟩
      rw [List.prefix_nil.mp hfront] at hlen
      exact absurd hlen (by simp [byteLength])
  | cons c cs ih =>
    have hpos : 0 < c.utf8Size := Char.utf8Size_pos c
    cases n with
    | zero =>
      rw [takeBytesChars, Option.some.injEq]
      refine ⟨fun h => h ▸ ⟨List.nil_prefix, rfl⟩, fun ⟨hfront, hlen⟩ => ?_⟩
      -- no character has length zero
      cases front with
      | nil => rfl
      | cons d front =>
        rw [(List.cons_prefix_cons.mp hfront).1, byteLength, List.map_cons, List.sum_cons] at hlen
        omega
    | succ n =>
      rw [takeBytesChars]
      cases front with
      | nil =>
        refine ⟨fun h => absurd h ?_, fun h => absurd h.2 (by simp [byteLength])⟩
        split <;> simp
      | cons d front =>
        rw [List.cons_prefix_cons, byteLength, List.map_cons, List.sum_cons]
        split
        · next hle =>
          rw [Option.map_eq_some_iff]
          refine ⟨?_, ?_⟩
          · rintro ⟨front', hfront', heq⟩
            obtain ⟨rfl, rfl⟩ := List.cons.inj heq
            obtain ⟨hbegins, hlen⟩ := (ih _ _).mp hfront'
            exact ⟨⟨rfl, hbegins⟩, by rw [byteLength] at hlen; omega⟩
          · rintro ⟨⟨rfl, hbegins⟩, hlen⟩
            exact ⟨front, (ih _ _).mpr ⟨hbegins, by rw [byteLength]; omega⟩, rfl⟩
        · next hle =>
          refine ⟨fun h => absurd h (by simp), ?_⟩
          rintro ⟨⟨rfl, -⟩, hlen⟩
          omega

/-- **Slicing.** The text of the first `n` bytes is the beginning of the text that has `n`
    bytes; there is none when the text is shorter or `n` is inside a character. -/
theorem takeBytes_eq_some_iff (n : Nat) (s front : String) :
    takeBytes n s = some front ↔ front.toList <+: s.toList ∧ byteLength front.toList = n := by
  rw [← takeBytesChars_eq_some_iff, takeBytes, Option.map_eq_some_iff]
  refine ⟨?_, ?_⟩
  · rintro ⟨cs, hcs, rfl⟩
    rw [hcs, String.toList_ofList]
  · intro h
    exact ⟨_, h, String.ofList_toList⟩

/-- Every character takes up a byte at least. -/
theorem length_le_byteLength (cs : List Char) : cs.length ≤ byteLength cs := by
  induction cs with
  | nil => simp [byteLength]
  | cons c cs ih =>
    have hpos : 0 < c.utf8Size := Char.utf8Size_pos c
    rw [byteLength] at ih ⊢
    rw [List.length_cons, List.map_cons, List.sum_cons]
    omega

/-- Some characters take up one byte each exactly if there are as many bytes as characters. -/
theorem byteLength_eq_length_iff (cs : List Char) :
    byteLength cs = cs.length ↔ ∀ c ∈ cs, c.utf8Size = 1 := by
  induction cs with
  | nil => simp [byteLength]
  | cons c cs ih =>
    have hpos : 0 < c.utf8Size := Char.utf8Size_pos c
    have hrest := length_le_byteLength cs
    rw [List.forall_mem_cons, ← ih]
    rw [byteLength] at hrest ⊢
    rw [byteLength, List.length_cons, List.map_cons, List.sum_cons]
    omega

/-- Of a text without its unwanted characters, the first `n` characters come from a beginning of
    the text of at most `n` characters exactly if that has `n` wanted ones, or no wanted one comes
    after it. -/
theorem take_filter_append_iff {α : Type*} (p : α → Bool) {n : Nat} {front rest : List α}
    (hlen : front.length ≤ n) :
    ((front ++ rest).filter p).take n = (front.filter p).take n ↔
      (front.length = n ∧ ∀ c ∈ front, p c = true) ∨ ∀ c ∈ rest, p c = false := by
  have hle := List.length_filter_le p front
  have hall : n - (front.filter p).length = 0 ↔
      front.length = n ∧ ∀ c ∈ front, p c = true := by
    rw [← List.length_filter_eq_length_iff]
    omega
  have hnone : rest.filter p = [] ↔ ∀ c ∈ rest, p c = false := by
    simp [List.filter_eq_nil_iff]
  rw [List.filter_append, List.take_append, List.append_right_eq_self, List.take_eq_nil_iff, hall,
    hnone]

/-! ### Lower case -/

/-- The lower-case form of a character, where that form has an ASCII letter; any other
    character is kept.  Besides the capital letters of ASCII these are the dotted capital I
    and the Kelvin sign. -/
def lowercaseChar (c : Char) : List Char :=
  if c.toNat = 0x130 then ['i', Char.ofNat 0x307]
  else if c.toNat = 0x212a then ['k']
  else [c.toLower]

/-- The lower-case text.  Letters outside ASCII keep their case, which a search for an ASCII
    text cannot tell. -/
def toLowercase (s : String) : String := String.ofList (s.toList.flatMap lowercaseChar)

end AgentTermStatus.Lib
