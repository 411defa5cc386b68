import Mathlib.Data.List.Basic

namespace AgentTermStatus.Lib

/-!
# Bytes and characters

UTF-8, and reading bytes that need not be a text.

* `encodeUtf8` — the bytes of some characters;
* `fromUtf8Lossy` — the characters of some bytes, one byte after the other; the longest beginning
  of a character that the bytes break off becomes one replacement character;
* `toStr` — the characters of some bytes, if they are a text;
* `fromUtf8Lossy_encodeUtf8`, `toStr_eq_some_iff` — bytes of a text are read back, and no others
  count as one.
-/

/-- The bytes of some characters. -/
def encodeUtf8 (cs : List Char) : List UInt8 := cs.flatMap String.utf8EncodeChar

/-- `U+FFFD`, which stands for bytes that are not a character. -/
def replacementChar : Char := Char.ofNat 0xfffd

/-- A character that has begun: the bits read so far, the number of bytes that follow the next
    one, and the range in which the next one has to be. -/
structure Begun where
  code : Nat
  more : Nat
  low : Nat
  high : Nat
deriving DecidableEq, Repr

/-- The first byte of a character: the character if it is the only byte, and what has begun
    otherwise.  The ranges leave out the codes that need fewer bytes, the surrogates and the codes
    from `0x110000` on. -/
def firstByte (b : Nat) : List Char × Option Begun :=
  if b ≤ 0x7f then ([Char.ofNat b], none)
  else if 0xc2 ≤ b ∧ b ≤ 0xdf then ([], some ⟨b - 0xc0, 0, 0x80, 0xbf⟩)
  else if 0xe0 ≤ b ∧ b ≤ 0xef then
    ([], some ⟨b - 0xe0, 1, if b = 0xe0 then 0xa0 else 0x80, if b = 0xed then 0x9f else 0xbf⟩)
  else if 0xf0 ≤ b ∧ b ≤ 0xf4 then
    ([], some ⟨b - 0xf0, 2, if b = 0xf0 then 0x90 else 0x80, if b = 0xf4 then 0x8f else 0xbf⟩)
  else ([replacementChar], none)

/-- The characters of the bytes that come after what has begun.  A byte that does not continue a
    character ends it as a replacement character and is read as a first byte. -/
def decodeFrom : Option Begun → List UInt8 → List Char
  | none, []        => []
  | some _, []      => [replacementChar]
  | none, b :: bs   => (firstByte b.toNat).1 ++ decodeFrom (firstByte b.toNat).2 bs
  | some p, b :: bs =>
      if p.low ≤ b.toNat ∧ b.toNat ≤ p.high then
        let code := p.code * 64 + (b.toNat - 0x80)
        if p.more = 0 then Char.ofNat code :: decodeFrom none bs
        else decodeFrom (some ⟨code, p.more - 1, 0x80, 0xbf⟩) bs
      else replacementChar :: ((firstByte b.toNat).1 ++ decodeFrom (firstByte b.toNat).2 bs)

/-- The characters of some bytes. -/
def fromUtf8Lossy (bs : List UInt8) : List Char := decodeFrom none bs

/-- The characters of some bytes, if the bytes are a text. -/
def toStr (bs : List UInt8) : Option (List Char) :=
  if encodeUtf8 (fromUtf8Lossy bs) = bs then some (fromUtf8Lossy bs) else none

/-- A byte in the range adds its six bits. -/
theorem decodeFrom_tail {code more low high r : Nat} (bs : List UInt8) (hr : r < 0x40)
    (hlow : low ≤ r + 0x80) (hhigh : r + 0x80 ≤ high) :
    decodeFrom (some ⟨code, more, low, high⟩) (UInt8.ofNat (r + 0x80) :: bs)
      = if more = 0 then Char.ofNat (code * 64 + r) :: decodeFrom none bs
        else decodeFrom (some ⟨code * 64 + r, more - 1, 0x80, 0xbf⟩) bs := by
  have hbyte : (UInt8.ofNat (r + 0x80)).toNat = r + 0x80 := by
    rw [UInt8.toNat_ofNat']
    omega
  rw [decodeFrom, hbyte, if_pos ⟨hlow, hhigh⟩, Nat.add_sub_cancel]

/-- A first byte that is no character by itself begins one. -/
theorem decodeFrom_first {n : Nat} (bs : List UInt8) {p : Begun} (hn : n < 0x100)
    (h : firstByte n = ([], some p)) :
    decodeFrom none (UInt8.ofNat n :: bs) = decodeFrom (some p) bs := by
  have hbyte : (UInt8.ofNat n).toNat = n := by
    rw [UInt8.toNat_ofNat']
    omega
  rw [decodeFrom, hbyte, h, List.nil_append]

/-- The first byte of two. -/
theorem firstByte_two {r : Nat} (hlow : 2 ≤ r) (hhigh : r < 0x20) :
    firstByte (r + 0xc0) = ([], some ⟨r, 0, 0x80, 0xbf⟩) := by
  rw [firstByte, if_neg (by omega), if_pos (by omega), Nat.add_sub_cancel]

/-- The first byte of three. -/
theorem firstByte_three {r : Nat} (hr : r < 0x10) :
    firstByte (r + 0xe0) = ([], some
      ⟨r, 1, if r = 0 then 0xa0 else 0x80, if r = 0xd then 0x9f else 0xbf⟩) := by
  rw [firstByte, if_neg (by omega), if_neg (by omega), if_pos (by omega), Nat.add_sub_cancel]
  simp only [Nat.add_eq_right, Nat.reduceEqDiff]

/-- The first byte of four. -/
theorem firstByte_four {r : Nat} (hr : r ≤ 4) :
    firstByte (r + 0xf0) = ([], some
      ⟨r, 2, if r = 0 then 0x90 else 0x80, if r = 4 then 0x8f else 0xbf⟩) := by
  rw [firstByte, if_neg (by omega), if_neg (by omega), if_neg (by omega), if_pos (by omega),
    Nat.add_sub_cancel]
  simp only [Nat.add_eq_right, Nat.reduceEqDiff]

/-- The bytes of a character are read as that character. -/
theorem decodeFrom_utf8EncodeChar (c : Char) (bs : List UInt8) :
    decodeFrom none (String.utf8EncodeChar c ++ bs) = c :: decodeFrom none bs := by
  -- surrogates and codes from `0x110000` on are no characters
  have hvalid : c.val.toNat < 0xd800 ∨ 0xdfff < c.val.toNat ∧ c.val.toNat < 0x110000 := c.valid
  have hofNat : ∀ n, n = c.val.toNat → Char.ofNat n = c := fun n hn => hn ▸ Char.ofNat_toNat c
  unfold String.utf8EncodeChar
  generalize c.val.toNat = v at hofNat hvalid
  simp only
  by_cases h1 : v ≤ 0x7f
  · rw [if_pos h1, List.singleton_append, decodeFrom, UInt8.toNat_ofNat', firstByte,
      if_pos (by omega), hofNat _ (by omega), List.singleton_append]
  rw [if_neg h1]
  by_cases h2 : v ≤ 0x7ff
  · rw [if_pos h2, List.cons_append, List.singleton_append]
    rw [decodeFrom_first _ (by omega) (firstByte_two (by omega) (by omega))]
    rw [decodeFrom_tail _ (by omega) (by omega) (by omega), if_pos rfl, hofNat _ (by omega)]
  rw [if_neg h2]
  by_cases h3 : v ≤ 0xffff
  · rw [if_pos h3, List.cons_append, List.cons_append, List.singleton_append]
    rw [decodeFrom_first _ (by omega) (firstByte_three (by omega))]
    -- after `0xe0` the code needs its bits, and after `0xed` it is below the surrogates
    rw [decodeFrom_tail _ (by omega) (by split <;> omega) (by split <;> omega),
      if_neg (by decide)]
    rw [decodeFrom_tail _ (by omega) (by omega) (by omega), if_pos rfl, hofNat _ (by omega)]
  · rw [if_neg h3, List.cons_append, List.cons_append, List.cons_append, List.singleton_append]
    rw [decodeFrom_first _ (by omega) (firstByte_four (by omega))]
    -- after `0xf0` the code needs its bits, and after `0xf4` it is below `0x110000`
    rw [decodeFrom_tail _ (by omega) (by split <;> omega) (by split <;> omega),
      if_neg (by decide)]
    rw [decodeFrom_tail _ (by omega) (by omega) (by omega), if_neg (by decide)]
    rw [decodeFrom_tail _ (by omega) (by omega) (by omega), if_pos rfl, hofNat _ (by omega)]

/-- **Round trip.** The bytes of some characters are read as these characters. -/
theorem fromUtf8Lossy_encodeUtf8 (cs : List Char) : fromUtf8Lossy (encodeUtf8 cs) = cs := by
  rw [fromUtf8Lossy, encodeUtf8]
  induction cs with
  | nil => rfl
  | cons c cs ih => rw [List.flatMap_cons, decodeFrom_utf8EncodeChar, ih]

/-- Only the empty text has no bytes. -/
theorem encodeUtf8_eq_nil_iff (cs : List Char) : encodeUtf8 cs = [] ↔ cs = [] := by
  refine ⟨fun h => ?_, fun h => h ▸ rfl⟩
  rw [← fromUtf8Lossy_encodeUtf8 cs, h]
  rfl

/-- In the bytes of a text a byte of ASCII is a character of ASCII. -/
theorem mem_of_mem_encodeUtf8 {cs : List Char} {b : UInt8} (hascii : b.toNat ≤ 0x7f)
    (h : b ∈ encodeUtf8 cs) : Char.ofNat b.toNat ∈ cs := by
  obtain ⟨c, hc, hb⟩ := List.mem_flatMap.mp h
  have hcode : b.toNat = c.val.toNat := by
    unfold String.utf8EncodeChar at hb
    generalize c.val.toNat = v at hb
    simp only at hb
    split at hb
    · rw [List.mem_singleton.mp hb, UInt8.toNat_ofNat']
      omega
    · -- every byte of a longer character is outside ASCII
      have hlarge : 0x80 ≤ b.toNat := by
        split at hb
        · simp only [List.mem_cons, List.not_mem_nil, or_false] at hb
          rcases hb with rfl | rfl <;> rw [UInt8.toNat_ofNat'] <;> omega
        · split at hb
          · simp only [List.mem_cons, List.not_mem_nil, or_false] at hb
            rcases hb with rfl | rfl | rfl <;> rw [UInt8.toNat_ofNat'] <;> omega
          · simp only [List.mem_cons, List.not_mem_nil, or_false] at hb
            rcases hb with rfl | rfl | rfl | rfl <;> rw [UInt8.toNat_ofNat'] <;> omega
      omega
  rw [hcode, show Char.ofNat c.val.toNat = c from Char.ofNat_toNat c]
  exact hc

/-- Bytes are a text exactly if they are the bytes of that text. -/
theorem toStr_eq_some_iff (bs : List UInt8) (cs : List Char) :
    toStr bs = some cs ↔ bs = encodeUtf8 cs := by
  unfold toStr
  refine ⟨?_, ?_⟩
  · intro h
    split at h
    · next heq => rw [← heq, Option.some.inj h]
    · exact absurd h (by simp)
  · rintro rfl
    rw [fromUtf8Lossy_encodeUtf8, if_pos rfl]

end AgentTermStatus.Lib
