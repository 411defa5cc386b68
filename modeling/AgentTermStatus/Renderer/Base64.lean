import Mathlib.Data.List.Basic
import Mathlib.Algebra.Order.Ring.Nat

namespace AgentTermStatus

/-!
# Base64

The encoder the iTerm2 renderer writes badges with, and the decoder of its tests.  Three bytes are
four groups of six bits; the last one or two bytes are filled up with zero bits and the text with
`=`.

* `encodeChunk_three`, `encodeChunk_two`, `encodeChunk_one` — the characters of a chunk, by the
  arithmetic of their indices;
* `decodeLoop_base64Char` — what the decoder does with one character;
* `base64_correct` — the length, the alphabet and the round trip, for all bytes.
-/

/-! ### The encoder -/

/-- The alphabet, by index. -/
def base64Chars : List Char :=
  "ABCDEFGHIJKLMNOPQRSTUVWXYZabcdefghijklmnopqrstuvwxyz0123456789+/".toList

/-- The character of an index below 64. -/
def base64Char (i : Nat) : Char := base64Chars[i]?.getD '='

/-- The chunks of three bytes; the last one may have fewer. -/
def chunksOfThree : List UInt8 → List (List UInt8)
  | []               => []
  | [a]              => [[a]]
  | [a, b]           => [[a, b]]
  | a :: b :: c :: d => [a, b, c] :: chunksOfThree d

/-- The bytes of a chunk in one number; those it has not are zero. -/
def chunkNumber (chunk : List UInt8) : Nat :=
  let b0 := (chunk[0]?.getD 0).toNat
  let b1 := if chunk.length > 1 then (chunk[1]?.getD 0).toNat else 0
  let b2 := if chunk.length > 2 then (chunk[2]?.getD 0).toNat else 0
  (b0 <<< 16) ||| (b1 <<< 8) ||| b2

/-- The four characters of a chunk. -/
def encodeChunk (chunk : List UInt8) : List Char :=
  let n := chunkNumber chunk
  [base64Char (n >>> 18 &&& 0x3f),
    base64Char (n >>> 12 &&& 0x3f),
    if chunk.length > 1 then base64Char (n >>> 6 &&& 0x3f) else '=',
    if chunk.length > 2 then base64Char (n &&& 0x3f) else '=']

/-- The base64 text of some bytes. -/
def base64Encode (data : List UInt8) : String :=
  String.ofList ((chunksOfThree data).flatMap encodeChunk)

/-! ### The decoder -/

/-- The loop of the decoder: `buf` holds the last `bits` bits, fewer than eight of them between
    two characters. -/
def decodeLoop : List Char → Nat → Nat → Option (List UInt8)
  | [], _, _ => some []
  | c :: cs, buf, bits =>
    if c = '=' then some []
    else
      match base64Chars.findIdx? fun x => x.toNat = c.toNat % 256 with
      | none => none
      | some val =>
        let buf := (buf <<< 6) ||| val
        let bits := bits + 6
        if bits ≥ 8 then
          let bits := bits - 8
          (decodeLoop cs (buf &&& ((1 <<< bits) - 1)) bits).map
            fun result => UInt8.ofNat (buf >>> bits) :: result
        else decodeLoop cs buf bits

/-- The bytes of a base64 text, up to its padding. -/
def base64DecodeTest (encoded : String) : Option (List UInt8) := decodeLoop encoded.toList 0 0

/-! ### The characters of a chunk -/

/-- Three bytes in one number. -/
theorem pack_eq (a b c : UInt8) :
    (a.toNat <<< 16) ||| (b.toNat <<< 8) ||| c.toNat
      = a.toNat * 65536 + b.toNat * 256 + c.toNat := by
  have hb := b.toNat_lt
  have hc := c.toNat_lt
  have hlow : b.toNat <<< 8 ||| c.toNat = b.toNat * 256 + c.toNat := by
    rw [← Nat.shiftLeft_add_eq_or_of_lt (by omega), Nat.shiftLeft_eq]
  rw [Nat.or_assoc, hlow, ← Nat.shiftLeft_add_eq_or_of_lt (by omega), Nat.shiftLeft_eq]
  omega

/-- The lowest six bits. -/
theorem and_sextet (n : Nat) : n &&& 0x3f = n % 64 := Nat.and_two_pow_sub_one_eq_mod n 6

/-- The four groups of six bits of three bytes. -/
theorem sextets_eq (a b c : UInt8) :
    ((a.toNat * 65536 + b.toNat * 256 + c.toNat) / 2 ^ 18) % 64 = a.toNat / 4 ∧
    ((a.toNat * 65536 + b.toNat * 256 + c.toNat) / 2 ^ 12) % 64
      = a.toNat % 4 * 16 + b.toNat / 16 ∧
    ((a.toNat * 65536 + b.toNat * 256 + c.toNat) / 2 ^ 6) % 64
      = b.toNat % 16 * 4 + c.toNat / 64 ∧
    (a.toNat * 65536 + b.toNat * 256 + c.toNat) % 64 = c.toNat % 64 := by
  have ha := a.toNat_lt
  have hb := b.toNat_lt
  have hc := c.toNat_lt
  omega

section
variable (a b c : UInt8)

/-- The characters of three bytes. -/
theorem encodeChunk_three :
    encodeChunk [a, b, c] =
      [base64Char (a.toNat / 4), base64Char (a.toNat % 4 * 16 + b.toNat / 16),
        base64Char (b.toNat % 16 * 4 + c.toNat / 64), base64Char (c.toNat % 64)] := by
  have hnumber : chunkNumber [a, b, c] = a.toNat * 65536 + b.toNat * 256 + c.toNat :=
    pack_eq a b c
  obtain ⟨h0, h1, h2, h3⟩ := sextets_eq a b c
  show [base64Char (_ >>> 18 &&& 0x3f), base64Char (_ >>> 12 &&& 0x3f),
    base64Char (_ >>> 6 &&& 0x3f), base64Char (_ &&& 0x3f)] = _
  simp only [and_sextet, Nat.shiftRight_eq_div_pow]
  rw [hnumber, h0, h1, h2, h3]

/-- The characters of two bytes. -/
theorem encodeChunk_two :
    encodeChunk [a, b] =
      [base64Char (a.toNat / 4), base64Char (a.toNat % 4 * 16 + b.toNat / 16),
        base64Char (b.toNat % 16 * 4), '='] := by
  have hnumber : chunkNumber [a, b] = a.toNat * 65536 + b.toNat * 256 + (0 : UInt8).toNat :=
    pack_eq a b 0
  obtain ⟨h0, h1, h2, -⟩ := sextets_eq a b 0
  show [base64Char (_ >>> 18 &&& 0x3f), base64Char (_ >>> 12 &&& 0x3f),
    base64Char (_ >>> 6 &&& 0x3f), '='] = _
  simp only [and_sextet, Nat.shiftRight_eq_div_pow]
  rw [hnumber, h0, h1, h2]
  rfl

/-- The characters of one byte. -/
theorem encodeChunk_one :
    encodeChunk [a] = [base64Char (a.toNat / 4), base64Char (a.toNat % 4 * 16), '=', '='] := by
  have hnumber : chunkNumber [a] =
      a.toNat * 65536 + (0 : UInt8).toNat * 256 + (0 : UInt8).toNat := pack_eq a 0 0
  obtain ⟨h0, h1, -⟩ := sextets_eq a 0 0
  show [base64Char (_ >>> 18 &&& 0x3f), base64Char (_ >>> 12 &&& 0x3f), '=', '='] = _
  simp only [and_sextet, Nat.shiftRight_eq_div_pow]
  rw [hnumber, h0, h1]
  rfl

end

/-- Every chunk has four characters. -/
theorem length_encodeChunk (chunk : List UInt8) : (encodeChunk chunk).length = 4 := rfl

/-! ### One character of the decoder -/

/-- A character of the alphabet is found at its index, and is no padding. -/
theorem base64Char_spec {i : Nat} (hi : i < 64) :
    base64Char i ∈ base64Chars ∧ base64Char i ≠ '=' ∧
      base64Chars.findIdx? (fun x => x.toNat = (base64Char i).toNat % 256) = some i := by
  have hall : ∀ i : Fin 64, base64Char i ∈ base64Chars ∧ base64Char i ≠ '=' ∧
      base64Chars.findIdx? (fun x => x.toNat = (base64Char i).toNat % 256) = some i.val := by
    decide +kernel
  exact hall ⟨i, hi⟩

/-- **What the decoder does with a character.** It takes up six bits, and gives a byte as soon as
    it has eight. -/
theorem decodeLoop_base64Char {i : Nat} (hi : i < 64) (cs : List Char) (buf bits : Nat) :
    decodeLoop (base64Char i :: cs) buf bits =
      if 8 ≤ bits + 6 then
        (decodeLoop cs ((buf * 64 + i) % 2 ^ (bits + 6 - 8)) (bits + 6 - 8)).map
          fun result => UInt8.ofNat ((buf * 64 + i) / 2 ^ (bits + 6 - 8)) :: result
      else decodeLoop cs (buf * 64 + i) (bits + 6) := by
  obtain ⟨-, hpad, hidx⟩ := base64Char_spec hi
  have hbuf : buf <<< 6 ||| i = buf * 64 + i := by
    rw [← Nat.shiftLeft_add_eq_or_of_lt (by omega), Nat.shiftLeft_eq]
  rw [decodeLoop, if_neg hpad, hidx]
  simp only [hbuf, Nat.one_shiftLeft, Nat.and_two_pow_sub_one_eq_mod, Nat.shiftRight_eq_div_pow,
    ge_iff_le]

/-- The decoder stops at the padding. -/
theorem decodeLoop_pad (cs : List Char) (buf bits : Nat) :
    decodeLoop ('=' :: cs) buf bits = some [] := by
  rw [decodeLoop, if_pos rfl]

section
variable (a b c : UInt8)

/-- The first byte of a chunk. -/
theorem decodeLoop_first {j : Nat} (hj : j < 16) (cs : List Char) :
    decodeLoop (base64Char (a.toNat / 4) :: base64Char (a.toNat % 4 * 16 + j) :: cs) 0 0 =
      (decodeLoop cs j 4).map fun result => a :: result := by
  have ha := a.toNat_lt
  rw [decodeLoop_base64Char (by omega), if_neg (by omega), decodeLoop_base64Char (by omega),
    if_pos (by omega)]
  have hrest : ((0 * 64 + a.toNat / 4) * 64 + (a.toNat % 4 * 16 + j)) % 2 ^ (0 + 6 + 6 - 8)
      = j := by
    omega
  have hbyte : ((0 * 64 + a.toNat / 4) * 64 + (a.toNat % 4 * 16 + j)) / 2 ^ (0 + 6 + 6 - 8)
      = a.toNat := by
    omega
  rw [hrest, hbyte, UInt8.ofNat_toNat]

/-- The second byte of a chunk. -/
theorem decodeLoop_second {j : Nat} (hj : j < 4) (cs : List Char) :
    decodeLoop (base64Char (b.toNat % 16 * 4 + j) :: cs) (b.toNat / 16) 4 =
      (decodeLoop cs j 2).map fun result => b :: result := by
  have hb := b.toNat_lt
  rw [decodeLoop_base64Char (by omega), if_pos (by omega)]
  have hrest : (b.toNat / 16 * 64 + (b.toNat % 16 * 4 + j)) % 2 ^ (4 + 6 - 8) = j := by omega
  have hbyte : (b.toNat / 16 * 64 + (b.toNat % 16 * 4 + j)) / 2 ^ (4 + 6 - 8) = b.toNat := by omega
  rw [hrest, hbyte, UInt8.ofNat_toNat]

/-- The third byte of a chunk. -/
theorem decodeLoop_third (cs : List Char) :
    decodeLoop (base64Char (c.toNat % 64) :: cs) (c.toNat / 64) 2 =
      (decodeLoop cs 0 0).map fun result => c :: result := by
  have hc := c.toNat_lt
  rw [decodeLoop_base64Char (by omega), if_pos (by omega)]
  have hrest : (c.toNat / 64 * 64 + c.toNat % 64) % 2 ^ (2 + 6 - 8) = 0 := by omega
  have hbyte : (c.toNat / 64 * 64 + c.toNat % 64) / 2 ^ (2 + 6 - 8) = c.toNat := by omega
  rw [hrest, hbyte, UInt8.ofNat_toNat]

end

/-! ### All bytes -/

/-- **Round trip.** The bytes of the chunks are read back. -/
theorem decodeLoop_encode (data : List UInt8) :
    decodeLoop ((chunksOfThree data).flatMap encodeChunk) 0 0 = some data := by
  fun_induction chunksOfThree data with
  | case1 => rfl
  | case2 a =>
    have hfirst := decodeLoop_first a (j := 0) (by omega) ['=', '=']
    rw [Nat.add_zero, decodeLoop_pad] at hfirst
    rw [List.flatMap_cons, List.flatMap_nil, List.append_nil, encodeChunk_one, hfirst]
    rfl
  | case3 a b =>
    have hb := b.toNat_lt
    have hsecond := decodeLoop_second b (j := 0) (by omega) ['=']
    rw [Nat.add_zero, decodeLoop_pad] at hsecond
    rw [List.flatMap_cons, List.flatMap_nil, List.append_nil, encodeChunk_two,
      decodeLoop_first a (by omega), hsecond]
    rfl
  | case4 a b c d ih =>
    have hb := b.toNat_lt
    have hc := c.toNat_lt
    rw [List.flatMap_cons, encodeChunk_three, List.cons_append, List.cons_append,
      List.cons_append, List.cons_append, List.nil_append, decodeLoop_first a (by omega),
      decodeLoop_second b (by omega), decodeLoop_third c, ih]
    rfl

/-- The length of the text. -/
theorem length_encode (data : List UInt8) :
    ((chunksOfThree data).flatMap encodeChunk).length = 4 * ((data.length + 2) / 3) := by
  fun_induction chunksOfThree data with
  | case1 => rfl
  | case2 a => simp [length_encodeChunk]
  | case3 a b => simp [length_encodeChunk]
  | case4 a b c d ih =>
    rw [List.flatMap_cons, List.length_append, ih, length_encodeChunk]
    simp only [List.length_cons]
    omega

/-- The text is in the alphabet, but for the padding at its end. -/
theorem encode_alphabet (data : List UInt8) :
    ∃ body : List Char,
      (chunksOfThree data).flatMap encodeChunk
        = body ++ List.replicate ((3 - data.length % 3) % 3) '=' ∧
      ∀ ch ∈ body, ch ∈ base64Chars := by
  fun_induction chunksOfThree data with
  | case1 => exact ⟨[], rfl, by simp⟩
  | case2 a =>
    have ha := a.toNat_lt
    refine ⟨[base64Char (a.toNat / 4), base64Char (a.toNat % 4 * 16)], ?_, ?_⟩
    · rw [List.flatMap_cons, encodeChunk_one]
      rfl
    · intro ch hch
      rcases List.mem_pair.mp hch with rfl | rfl
      · exact (base64Char_spec (by omega)).1
      · exact (base64Char_spec (by omega)).1
  | case3 a b =>
    have ha := a.toNat_lt
    have hb := b.toNat_lt
    refine ⟨[base64Char (a.toNat / 4), base64Char (a.toNat % 4 * 16 + b.toNat / 16),
      base64Char (b.toNat % 16 * 4)], ?_, ?_⟩
    · rw [List.flatMap_cons, encodeChunk_two]
      rfl
    · intro ch hch
      simp only [List.mem_cons, List.not_mem_nil, or_false] at hch
      rcases hch with rfl | rfl | rfl <;> exact (base64Char_spec (by omega)).1
  | case4 a b c d ih =>
    have ha := a.toNat_lt
    have hb := b.toNat_lt
    have hc := c.toNat_lt
    obtain ⟨body, heq, hbody⟩ := ih
    refine ⟨encodeChunk [a, b, c] ++ body, ?_, ?_⟩
    · have hmod : (a :: b :: c :: d).length % 3 = d.length % 3 := by
        simp only [List.length_cons]
        omega
      rw [List.flatMap_cons, heq, hmod, List.append_assoc]
    · intro ch hch
      rcases List.mem_append.mp hch with hch | hch
      · rw [encodeChunk_three] at hch
        simp only [List.mem_cons, List.not_mem_nil, or_false] at hch
        rcases hch with rfl | rfl | rfl | rfl <;> exact (base64Char_spec (by omega)).1
      · exact hbody ch hch

/-- **Base64 is correct.** For all bytes, the text has four characters for every three bytes begun,
    it is in the alphabet but for at most two `=` at its end, and it is decoded to the bytes. -/
theorem base64_correct (data : List UInt8) :
    (base64Encode data).length = 4 * ((data.length + 2) / 3) ∧
    (∃ body : List Char,
      (base64Encode data).toList = body ++ List.replicate ((3 - data.length % 3) % 3) '=' ∧
      ∀ ch ∈ body, ch ∈ base64Chars) ∧
    base64DecodeTest (base64Encode data) = some data := by
  refine ⟨?_, ?_, ?_⟩
  · rw [base64Encode, String.length_ofList, length_encode]
  · rw [base64Encode, String.toList_ofList]
    exact encode_alphabet data
  · rw [base64DecodeTest, base64Encode, String.toList_ofList, decodeLoop_encode]

example : base64Encode [0xe2, 0x97, 0x8f, 0xff] = "4peP/w==" := by decide

end AgentTermStatus
