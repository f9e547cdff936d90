import Mathlib.Data.List.Basic
import Mindroid.Foundation.BitGroups
import Mindroid.Lang.String

/-!
# Base64

The encoder and the decoder collect bits in an `int32_t` and count those that are pending.  What is
encoded with padding is decoded to more bytes, as the decoder takes `=` for six bits that are zero.
-/

set_option autoImplicit false

namespace Mindroid

open Foundation

namespace Base64

/-! ## The tables -/

def sChars : List UInt8 :=
  String.valueOf "ABCDEFGHIJKLMNOPQRSTUVWXYZabcdefghijklmnopqrstuvwxyz0123456789+/"

/-- The entries that the source does not list are zero. -/
def sIndex : List Int32 :=
  [0,  0,  0,  0,  0,  0,  0,  0,  0,  0,  0,  0,  0,  0,  0,  0,
    0,  0,  0,  0,  0,  0,  0,  0,  0,  0,  0,  0,  0,  0,  0,  0,
    0,  0,  0,  0,  0,  0,  0,  0,  0,  0,  0,  62, 63, 62, 62, 63,
    52, 53, 54, 55, 56, 57, 58, 59, 60, 61, 0,  0,  0,  0,  0,  0,
    0,  0,  1,  2,  3,  4,  5,  6,  7,  8,  9,  10, 11, 12, 13, 14,
    15, 16, 17, 18, 19, 20, 21, 22, 23, 24, 25, 0,  0,  0,  0,  63,
    0,  26, 27, 28, 29, 30, 31, 32, 33, 34, 35, 36, 37, 38, 39, 40,
    41, 42, 43, 44, 45, 46, 47, 48, 49, 50, 51] ++ List.replicate 133 0

def index (c : UInt8) : Int32 :=
  sIndex.getD c.toNat 0

/-- The padding. -/
def equalsSign : UInt8 :=
  61

/-! ## The decoder -/

def decodeFrom (a : Int32) (b : Int) (dst : List UInt8) : List UInt8 → List UInt8
  | [] => dst
  | c :: src =>
      if index c = -1 then
        dst
      else
        let a := (a <<< 6) + index c
        let b := b + 6
        if 0 ≤ b then
          decodeFrom a (b - 8)
            (dst ++ [((a >>> Int32.ofInt b) &&& 0xFF).toUInt32.toUInt8]) src
        else
          decodeFrom a b dst src

/-- `decode` of a list to another one, with the size of that. -/
def decodeTo (src dst : List UInt8) : Int32 × List UInt8 :=
  let dst := decodeFrom 0 (-8) dst src
  (Int32.ofNat dst.length, dst)

def decode (src : List UInt8) : List UInt8 :=
  (decodeTo src []).2

/-- `decode` of a string, whose bytes are all those that `length` counts. -/
def decodeString (src : List UInt8) : List UInt8 :=
  decode src

/-! ## The encoder -/

/-- The variables of the encoder. -/
structure Encoding where
  a : Int32
  b : Int
  dst : List UInt8

/-- One turn of the inner loop. -/
def takeSextet (encoding : Encoding) : Except Failure (Encoding ⊕ Encoding) :=
  if 0 ≤ encoding.b then
    (String.charAt sChars
      ((encoding.a >>> Int32.ofInt encoding.b) &&& 0x3F).toUInt32.toNat).map fun c =>
        .inr { encoding with dst := encoding.dst ++ [c], b := encoding.b - 6 }
  else
    .ok (.inl encoding)

def encodeByte (encoding : Encoding) (c : UInt8) : Except Failure Encoding :=
  loop takeSextet .endless ((encoding.b + 8).toNat + 2)
    { encoding with
      a := (encoding.a <<< 8) + c.toUInt32.toInt32
      b := encoding.b + 8 }

/-- What is left of the last byte. -/
def encodeRest (encoding : Encoding) : Except Failure (List UInt8) :=
  if -6 < encoding.b then
    (String.charAt sChars
      (((encoding.a <<< 8) >>> Int32.ofInt (encoding.b + 8)) &&& 0x3F).toUInt32.toNat).map
        fun c => encoding.dst ++ [c]
  else
    .ok encoding.dst

/-- One turn of the loop that pads. -/
def addPadding (dst : List UInt8) : Except Failure (List UInt8 ⊕ List UInt8) :=
  if dst.length % 4 ≠ 0 then .ok (.inr (dst ++ [equalsSign])) else .ok (.inl dst)

/-- `encode` of a list to another one, with the size of that. -/
def encodeTo (src dst : List UInt8) : Except Failure (Int32 × List UInt8) := do
  let encoding ← src.foldlM encodeByte { a := 0, b := -6, dst := dst }
  let dst ← encodeRest encoding
  let dst ← loop addPadding .endless 4 dst
  return (Int32.ofNat dst.length, dst)

def encode (src : List UInt8) : Except Failure (List UInt8) :=
  (encodeTo src []).map Prod.snd

/-- The NUL is one of the bytes of the string. -/
def encodeToString (src : List UInt8) : Except Failure (List UInt8) :=
  (encodeTo src []).map fun result => result.2 ++ [0]

/-! ## Shifts -/

theorem shift_amount : ∀ s, s < 32 → ((Int32.ofInt (s : Nat)).toBitVec.smod 32).toNat = s := by
  decide

/-- Some bits in the middle of an accumulator, whatever its sign is. -/
theorem toNat_shift_and {a mask : Int32} {s width : Nat} (inside : s + width < 32)
    (isMask : mask.toUInt32.toNat = 2 ^ width - 1) :
    ((a >>> Int32.ofInt s) &&& mask).toUInt32.toNat = a.toUInt32.toNat / 2 ^ s % 2 ^ width := by
  have shifted : (a >>> Int32.ofInt s).toBitVec = a.toBitVec.sshiftRight s := by
    change a.toBitVec.sshiftRight' _ = _
    rw [BitVec.sshiftRight_eq', shift_amount s (by omega)]
  rw [Int32.toUInt32_and, UInt32.toNat_and, isMask, Nat.and_two_pow_sub_one_eq_mod]
  apply Nat.eq_of_testBit_eq
  intro index
  rw [Nat.testBit_mod_two_pow, Nat.testBit_mod_two_pow, Nat.testBit_div_two_pow]
  by_cases below : index < width
  · have inWord : decide (32 ≤ index) = false := decide_eq_false (by omega)
    change (_ && (a >>> Int32.ofInt s).toBitVec.getLsbD index) =
      (_ && a.toBitVec.getLsbD (index + s))
    rw [shifted, BitVec.getLsbD_sshiftRight, if_pos (by omega), Nat.add_comm s, inWord]
    rfl
  · rw [decide_eq_false below, Bool.false_and, Bool.false_and]

theorem toNat_shift_add (a d : Int32) {s : Nat} (small : s < 32) :
    ((a <<< Int32.ofInt s) + d).toUInt32.toNat =
      (a.toUInt32.toNat * 2 ^ s + d.toUInt32.toNat) % 2 ^ 32 := by
  have shifted : (a <<< Int32.ofInt s).toUInt32.toNat = a.toUInt32.toNat * 2 ^ s % 2 ^ 32 := by
    change (a.toBitVec <<< ((Int32.ofInt s).toBitVec.smod 32)).toNat = _
    rw [BitVec.shiftLeft_eq', BitVec.toNat_shiftLeft, shift_amount s small, Nat.shiftLeft_eq]
    rfl
  rw [Int32.toUInt32_add, UInt32.toNat_add, shifted, Nat.mod_add_mod]

/-- The bits of a digit are collected. -/
theorem push_shift_add {width pending s : Nat} {input : List Bool} {emitted : List Nat}
    {a d : Int32} (regroups : Regroups width input emitted pending a.toUInt32.toNat)
    (small : d.toUInt32.toNat < 2 ^ s) (inside : pending + s < 32) :
    Regroups width (input ++ bits s d.toUInt32.toNat) emitted (pending + s)
      ((a <<< Int32.ofInt s) + d).toUInt32.toNat := by
  apply regroups.push small
  intro index below
  rw [toNat_shift_add a d (by omega), Nat.testBit_mod_two_pow,
    decide_eq_true (show index < 32 by omega), Bool.true_and]

/-! ## Encoding -/

/-- The character of a sextet. -/
def character (n : Nat) : UInt8 :=
  sChars.getD n 0

theorem charAt_sChars : ∀ n, n < 64 → String.charAt sChars n = .ok (character n) := by
  decide

/-- The character that is found for a sextet of the accumulator. -/
theorem charAt_shift (a : Int32) {s : Nat} (inside : s < 26) :
    String.charAt sChars ((a >>> Int32.ofInt s) &&& 0x3F).toUInt32.toNat =
      .ok (character (a.toUInt32.toNat / 2 ^ s % 2 ^ 6)) := by
  have sextet : ((a >>> Int32.ofInt s) &&& 0x3F).toUInt32.toNat =
      a.toUInt32.toNat / 2 ^ s % 2 ^ 6 := toNat_shift_and (by omega) rfl
  rw [sextet]
  exact charAt_sChars _ (Nat.mod_lt _ (Nat.two_pow_pos 6))

theorem character_mem : ∀ n, n < 64 → character n ∈ sChars := by
  decide

/-- The bits of a sequence of bytes. -/
def octets (bytes : List UInt8) : List Bool :=
  allBits 8 (bytes.map UInt8.toNat)

theorem octets_append (bytes others : List UInt8) :
    octets (bytes ++ others) = octets bytes ++ octets others := by
  rw [octets, List.map_append, allBits_append]
  rfl

/-- What the variables of the encoder are after some bytes. -/
structure Encodes (bytes : List UInt8) (sextets : List Nat) (pending : Nat)
    (encoding : Encoding) : Prop where
  regroups : Regroups 6 (octets bytes) sextets pending encoding.a.toUInt32.toNat
  b : encoding.b = (pending : Int) - 6
  dst : encoding.dst = sextets.map character

section Encoder

variable {bytes : List UInt8} {sextets : List Nat} {pending : Nat} {encoding : Encoding}

/-- The sextet that is taken, and the character that is found for it. -/
theorem takeSextet_emits {rest : Nat} (encodes : Encodes bytes sextets (6 + rest) encoding)
    (few : rest < 26) :
    ∃ next sextet, takeSextet encoding = .ok (.inr next) ∧
      Encodes bytes (sextets ++ [sextet]) rest next ∧ next.b = encoding.b - 6 := by
  have shift : encoding.b = (rest : Int) := by
    rw [encodes.b]
    omega
  refine ⟨{ encoding with
      dst := encoding.dst ++ [character (encoding.a.toUInt32.toNat / 2 ^ rest % 2 ^ 6)]
      b := encoding.b - 6 }, _, ?_, ⟨encodes.regroups.emit, ?_, ?_⟩, rfl⟩
  · rw [takeSextet, if_pos (by omega), shift, charAt_shift encoding.a few]
    rfl
  · rw [shift]
  · rw [encodes.dst, List.map_append]
    rfl

theorem encodeByte_encodes (encodes : Encodes bytes sextets pending encoding) (few : pending < 6)
    (c : UInt8) :
    ∃ next, encodeByte encoding c = .ok next ∧
      ∃ sextets' pending', Encodes (bytes ++ [c]) sextets' pending' next ∧ pending' < 6 := by
  have collected : Encodes (bytes ++ [c]) sextets (pending + 8)
      { encoding with
        a := (encoding.a <<< 8) + c.toUInt32.toInt32
        b := encoding.b + 8 } := by
    refine ⟨?_, ?_, encodes.dst⟩
    · rw [octets_append]
      have digit : octets [c] = bits 8 c.toUInt32.toInt32.toUInt32.toNat := allBits_singleton _ _
      rw [digit]
      exact push_shift_add encodes.regroups c.toNat_lt (by omega)
    · simp only [encodes.b]
      omega
  apply loop_returns
    (fun st => ∃ sextets' pending', Encodes (bytes ++ [c]) sextets' pending' st ∧ pending' < 14)
    (fun st => (st.b + 1).toNat)
  · rintro st ⟨sextets', pending', encodes', below⟩
    by_cases enough : 6 ≤ pending'
    · obtain ⟨rest, rfl⟩ := Nat.exists_eq_add_of_le enough
      rcases takeSextet_emits encodes' (by omega) with ⟨next, sextet, takes, encodes'', lower⟩
      refine .inr ⟨next, takes, ⟨_, rest, encodes'', by omega⟩, ?_⟩
      have shift := encodes'.b
      omega
    · refine .inl ⟨st, ?_, sextets', pending', encodes', by omega⟩
      have negative := encodes'.b
      rw [takeSextet, if_neg (by omega)]
  · exact ⟨sextets, pending + 8, collected, by omega⟩
  · simp only
    omega

theorem encodeAll_encodes (encodes : Encodes bytes sextets pending encoding) (few : pending < 6)
    (src : List UInt8) :
    ∃ last, src.foldlM encodeByte encoding = .ok last ∧
      ∃ sextets' pending', Encodes (bytes ++ src) sextets' pending' last ∧ pending' < 6 := by
  induction src generalizing bytes sextets pending encoding with
  | nil => exact ⟨encoding, rfl, sextets, pending, by rwa [List.append_nil], few⟩
  | cons c src ih =>
      rcases encodeByte_encodes encodes few c with
        ⟨next, step, sextets', pending', encodes', few'⟩
      rcases ih encodes' few' with ⟨last, run, rest⟩
      refine ⟨last, by rw [List.foldlM_cons, step]; exact run, ?_⟩
      rwa [List.append_assoc, List.singleton_append] at rest

/-- The last sextet is filled with bits that are zero. -/
theorem encodeRest_encodes (encodes : Encodes bytes sextets pending encoding)
    (few : pending < 6) :
    ∃ sextets' filling, encodeRest encoding = .ok (sextets'.map character) ∧
      (∀ n ∈ sextets', n < 64) ∧ filling < 6 ∧
      allBits 6 sextets' = octets bytes ++ List.replicate filling false := by
  have shift := encodes.b
  by_cases done : pending = 0
  · subst done
    refine ⟨sextets, 0, ?_, encodes.regroups.fits, by decide, ?_⟩
    · rw [encodeRest, if_neg (by omega), encodes.dst]
    · rw [← encodes.regroups.same, bits, List.append_nil, List.replicate_zero, List.append_nil]
  · have collected := push_shift_add encodes.regroups
      (show (0 : Int32).toUInt32.toNat < 2 ^ 8 by decide) (by omega)
    have split : pending + 8 = 6 + (pending + 2) := by omega
    rw [split] at collected
    have emitted := collected.emit
    have amount : encoding.b + 8 = ((pending + 2 : Nat) : Int) := by omega
    refine ⟨_, 6 - pending, ?_, emitted.fits, by omega, ?_⟩
    · rw [encodeRest, if_pos (by omega), amount, charAt_shift _ (by omega), encodes.dst,
        List.map_append, Int32.add_zero]
      rfl
    · have zeros : bits 8 (0 : Int32).toUInt32.toNat =
          List.replicate (6 - pending) false ++ List.replicate (pending + 2) false := by
        rw [List.replicate_append_replicate, show 6 - pending + (pending + 2) = 8 by omega]
        exact bits_zero 8
      have same := emitted.same
      rw [zeros, ← List.append_assoc] at same
      exact (List.append_inj' same (by rw [length_bits, List.length_replicate])).1

/-- The number of characters that are missing in the last group of four. -/
def padding (length : Nat) : Nat :=
  (4 - length % 4) % 4

theorem addPadding_pads (dst : List UInt8) :
    loop addPadding .endless 4 dst =
      .ok (dst ++ List.replicate (padding dst.length) equalsSign) := by
  have pads : ∃ result, loop addPadding .endless 4 dst = .ok result ∧
      result = dst ++ List.replicate (padding dst.length) equalsSign := by
    apply loop_returns
      (fun st => ∃ added, st = dst ++ List.replicate added equalsSign ∧
        added + padding st.length = padding dst.length)
      (fun st => padding st.length)
    · rintro st ⟨added, isPadded, same⟩
      by_cases missing : st.length % 4 = 0
      · refine .inl ⟨st, by rw [addPadding, if_neg (not_not.mpr missing)], ?_⟩
        rw [padding, missing] at same
        rw [isPadded, ← same]
        rfl
      · have fewer : padding (st ++ [equalsSign]).length + 1 = padding st.length := by
          rw [padding, padding, List.length_append, List.length_singleton]
          omega
        refine .inr ⟨st ++ [equalsSign], by rw [addPadding, if_pos missing],
          ⟨added + 1, ?_, by omega⟩, by omega⟩
        rw [isPadded, List.append_assoc, ← List.replicate_succ']
    · exact ⟨0, (List.append_nil _).symm, Nat.zero_add _⟩
    · exact Nat.mod_lt _ (by decide)
  rcases pads with ⟨result, returns, rfl⟩
  exact returns

end Encoder

/-- The alphabet, and then the padding that is needed for a number of bytes. -/
def Standard (size : Nat) (text : List UInt8) : Prop :=
  text.length = 4 * ((size + 2) / 3) ∧
    ∃ characters, text = characters ++ List.replicate ((3 - size % 3) % 3) equalsSign ∧
      ∀ c ∈ characters, c ∈ sChars

/-- The bits of a text are those of the bytes, and zeros up to the last character. -/
structure Text (bytes : List UInt8) (sextets : List Nat) (text : List UInt8) : Prop where
  padded : text = sextets.map character ++
    List.replicate ((3 - bytes.length % 3) % 3) equalsSign
  fits : ∀ n ∈ sextets, n < 64
  same : allBits 6 sextets = octets bytes ++
    List.replicate (2 * ((3 - bytes.length % 3) % 3)) false

theorem encodeTo_text (bytes : List UInt8) :
    ∃ sextets text, Text bytes sextets text ∧
      encodeTo bytes [] = .ok (Int32.ofNat text.length, text) := by
  have start : Encodes [] [] 0 { a := 0, b := -6, dst := [] } := ⟨.start _ _, rfl, rfl⟩
  rcases encodeAll_encodes start (by decide) bytes with
    ⟨encoding, run, sextets, pending, encodes, few⟩
  rw [List.nil_append] at encodes
  rcases encodeRest_encodes encodes few with ⟨sextets', filling, rest, fits, less, same⟩
  have lengths := congrArg List.length same
  rw [length_allBits, List.length_append, octets, length_allBits, List.length_map,
    List.length_replicate] at lengths
  have filled : filling = 2 * ((3 - bytes.length % 3) % 3) := by omega
  have padded : padding (sextets'.map character).length = (3 - bytes.length % 3) % 3 := by
    rw [padding, List.length_map]
    omega
  refine ⟨sextets', _, ⟨rfl, fits, by rw [← filled]; exact same⟩, ?_⟩
  rw [encodeTo, run]
  simp only [bind, Except.bind, rest, addPadding_pads, padded]
  rfl

section Encoded

variable {bytes : List UInt8} {sextets : List Nat} {text : List UInt8}

theorem Text.standard (encoded : Text bytes sextets text) : Standard bytes.length text := by
  have lengths := congrArg List.length encoded.same
  rw [length_allBits, List.length_append, octets, length_allBits, List.length_map,
    List.length_replicate] at lengths
  rw [encoded.padded]
  refine ⟨?_, _, rfl, ?_⟩
  · rw [List.length_append, List.length_map, List.length_replicate]
    omega
  · intro c member
    rcases List.mem_map.mp member with ⟨n, isSextet, rfl⟩
    exact character_mem n (encoded.fits n isSextet)

theorem sChars_nonzero : (sChars.all fun c => c != 0) = true := by
  decide +kernel

theorem Standard.nonzero {size : Nat} (standard : Standard size text) :
    ∀ c ∈ text, c ≠ 0 := by
  rcases standard with ⟨_, characters, rfl, alphabet⟩
  intro c member
  rcases List.mem_append.mp member with inAlphabet | inPadding
  · exact bne_iff_ne.mp (List.all_eq_true.mp sChars_nonzero c (alphabet c inAlphabet))
  · rw [List.eq_of_mem_replicate inPadding]
    decide

end Encoded

/-! ## Decoding -/

/-- The number of a character. -/
def value (c : UInt8) : Nat :=
  (index c).toUInt32.toNat

/-- There is no entry that ends the loop. -/
theorem sIndex_fits :
    (sIndex.all fun entry => entry != -1 && decide (entry.toUInt32.toNat < 64)) = true := by
  decide +kernel

theorem index_fits (c : UInt8) : index c ≠ -1 ∧ value c < 64 := by
  rw [value, index, List.getD_eq_getElem?_getD]
  cases found : sIndex[c.toNat]? with
  | none => decide
  | some entry =>
      have fits := List.all_eq_true.mp sIndex_fits entry (List.mem_of_getElem? found)
      rw [Bool.and_eq_true, bne_iff_ne, decide_eq_true_eq] at fits
      exact fits

theorem value_character : ∀ n, n < 64 → value (character n) = n := by
  decide +kernel

theorem value_equalsSign : value equalsSign = 0 := by
  decide

theorem decodeFrom_regroups {input : List Bool} {emitted : List Nat} {pending : Nat} {a : Int32}
    (regroups : Regroups 8 input emitted pending a.toUInt32.toNat) (few : pending < 8)
    (src : List UInt8) :
    ∃ emitted' pending' acc,
      decodeFrom a ((pending : Int) - 8) (emitted.map UInt8.ofNat) src =
        emitted'.map UInt8.ofNat ∧
      Regroups 8 (input ++ allBits 6 (src.map value)) emitted' pending' acc ∧ pending' < 8 := by
  induction src generalizing input emitted pending a with
  | nil =>
      refine ⟨emitted, pending, a.toUInt32.toNat, rfl, ?_, few⟩
      rwa [List.map_nil, allBits_nil, List.append_nil]
  | cons c src ih =>
      obtain ⟨valid, small⟩ := index_fits c
      have collected := push_shift_add (s := 6) regroups small (by omega)
      have isLonger : input ++ allBits 6 ((c :: src).map value) =
          input ++ bits 6 (value c) ++ allBits 6 (src.map value) := by
        rw [List.map_cons, allBits_cons, List.append_assoc]
      rw [isLonger, decodeFrom, if_neg valid]
      by_cases enough : 2 ≤ pending
      · obtain ⟨rest, rfl⟩ := Nat.exists_eq_add_of_le enough
        have split : 2 + rest + 6 = 8 + rest := by omega
        rw [split] at collected
        have emits := collected.emit
        have shift : ((2 + rest : Nat) : Int) - 8 + 6 = (rest : Nat) := by omega
        have octet :
            (((a <<< 6) + index c) >>> Int32.ofInt (rest : Nat) &&& 0xFF).toUInt32.toUInt8 =
              UInt8.ofNat (((a <<< Int32.ofInt (6 : Nat)) + index c).toUInt32.toNat /
                2 ^ rest % 2 ^ 8) := by
          rw [← toNat_shift_and (by omega) (rfl : (0xFF : Int32).toUInt32.toNat = 2 ^ 8 - 1)]
          rfl
        rcases ih emits (by omega) with ⟨emitted', pending', acc, decodes, rest'⟩
        refine ⟨emitted', pending', acc, ?_, rest'⟩
        simp only [shift]
        rw [if_pos (by omega), octet, ← decodes, List.map_append]
        rfl
      · have shift : (pending : Int) - 8 + 6 = ((pending + 6 : Nat) : Int) - 8 := by omega
        rcases ih collected (by omega) with ⟨emitted', pending', acc, decodes, rest⟩
        refine ⟨emitted', pending', acc, ?_, rest⟩
        simp only
        rw [if_neg (by omega), shift]
        exact decodes

/-- The characters are decoded to the bytes that have their bits, except for less than eight. -/
theorem decode_of_bits {src bytes : List UInt8} {rest : List Bool} (short : rest.length < 8)
    (same : allBits 6 (src.map value) = octets bytes ++ rest) : decode src = bytes := by
  have start : Regroups 8 [] [] 0 (0 : Int32).toUInt32.toNat := .start _ _
  rcases decodeFrom_regroups start (by decide) src with
    ⟨emitted, pending, acc, decodes, regroups, few⟩
  rw [List.nil_append, same] at regroups
  have lengths := congrArg List.length regroups.same
  rw [List.length_append, List.length_append, length_allBits, octets, length_allBits, length_bits,
    List.length_map] at lengths
  have isOctets : allBits 8 emitted = allBits 8 (bytes.map UInt8.toNat) := by
    refine (List.append_inj regroups.same ?_).1
    rw [octets, length_allBits, length_allBits, List.length_map]
    omega
  have numbers := allBits_injective (by decide) isOctets regroups.fits fun n member => by
    rcases List.mem_map.mp member with ⟨c, _, rfl⟩
    exact c.toNat_lt
  change decodeFrom 0 (-8) [] src = bytes
  refine Eq.trans decodes ?_
  rw [numbers, List.map_map]
  exact List.map_id'' (fun c => UInt8.ofNat_toNat) bytes

/-- The decoder takes the padding for bits. -/
theorem Text.values {bytes : List UInt8} {sextets : List Nat} {text : List UInt8}
    (encoded : Text bytes sextets text) :
    allBits 6 (text.map value) =
      octets (bytes ++ List.replicate ((3 - bytes.length % 3) % 3) 0) := by
  have characters : (sextets.map character).map value = sextets := by
    rw [List.map_map]
    exact (List.map_congr_left fun n member => value_character n (encoded.fits n member)).trans
      (List.map_id' sextets)
  rw [encoded.padded, List.map_append, List.map_replicate, value_equalsSign, allBits_append,
    characters, encoded.same, allBits_replicate_zero, octets_append, octets, octets,
    List.map_replicate]
  change _ = _ ++ allBits 8 (List.replicate _ 0)
  rw [allBits_replicate_zero, List.append_assoc, List.replicate_append_replicate]
  congr 2
  omega

/-- A byte that is zero is decoded for every character of the padding, with a NUL after the text or
without it. -/
theorem Text.decoded {bytes : List UInt8} {sextets : List Nat} {text : List UInt8}
    (encoded : Text bytes sextets text) :
    decode text = bytes ++ List.replicate ((3 - bytes.length % 3) % 3) 0 ∧
      decodeString (text ++ [0]) = bytes ++ List.replicate ((3 - bytes.length % 3) % 3) 0 := by
  constructor
  · exact decode_of_bits (show ([] : List Bool).length < 8 by decide)
      (by rw [encoded.values, List.append_nil])
  · refine decode_of_bits (show (List.replicate 6 false).length < 8 by decide) ?_
    rw [List.map_append, allBits_append, encoded.values]
    rfl

theorem append_zeros_iff (bytes : List UInt8) :
    bytes ++ List.replicate ((3 - bytes.length % 3) % 3) 0 = bytes ↔ bytes.length % 3 = 0 := by
  rw [List.append_right_eq_self, List.replicate_eq_nil_iff]
  omega

/-! ## There and back -/

/-- What is encoded has the standard form, is the text of the string, and is decoded to the bytes
again, from the list and from the string. -/
def RoundTrips (text : List UInt8 → List UInt8) (bytes : List UInt8) : Prop :=
  ∃ encoded string, encode bytes = .ok encoded ∧ Standard bytes.length encoded ∧
    decode encoded = bytes ∧ encodeToString bytes = .ok string ∧ text string = encoded ∧
    decodeString string = bytes

/-- With the bytes before the first NUL as the text of the string, only the padding is decoded
wrongly.  With all the bytes that `length` counts, the string has another character. -/
theorem decode_encode_iff (bytes : List UInt8) :
    (RoundTrips String.cStr bytes ↔ bytes.length % 3 = 0) ∧ ¬RoundTrips id bytes := by
  rcases encodeTo_text bytes with ⟨sextets, text, encoded, encodes⟩
  have toList : encode bytes = .ok text := by rw [encode, encodes]; rfl
  have toString : encodeToString bytes = .ok (text ++ [0]) := by rw [encodeToString, encodes]; rfl
  obtain ⟨fromList, fromString⟩ := encoded.decoded
  refine ⟨⟨?_, fun whole => ?_⟩, ?_⟩
  · rintro ⟨text', string, encodes', _, decodes, _⟩
    obtain rfl := Except.ok.inj (toList.symm.trans encodes')
    exact (append_zeros_iff bytes).mp (fromList.symm.trans decodes)
  · have same := (append_zeros_iff bytes).mpr whole
    refine ⟨text, text ++ [0], toList, encoded.standard, fromList.trans same, toString, ?_,
      fromString.trans same⟩
    rw [String.cStr, List.takeWhile_append_of_pos fun c member =>
      bne_iff_ne.mpr (encoded.standard.nonzero c member)]
    exact List.append_nil text
  · rintro ⟨text', string, encodes', _, _, encodesString, carries, _⟩
    obtain rfl := Except.ok.inj (toList.symm.trans encodes')
    obtain rfl := Except.ok.inj (toString.symm.trans encodesString)
    have lengths := congrArg List.length carries
    rw [id, List.length_append, List.length_singleton] at lengths
    omega

/-- `f` is decoded with two bytes more. -/
theorem decodes_padding : ¬RoundTrips String.cStr [102] ∧ ¬RoundTrips id [102] := by
  constructor
  · rintro ⟨encoded, string, encodes, _, decodes, _⟩
    obtain rfl := Except.ok.inj ((rfl : encode [102] = .ok [90, 103, 61, 61]).symm.trans encodes)
    exact absurd decodes (by decide)
  · rintro ⟨encoded, string, encodes, _, decodes, _⟩
    obtain rfl := Except.ok.inj ((rfl : encode [102] = .ok [90, 103, 61, 61]).symm.trans encodes)
    exact absurd decodes (by decide)

end Base64

end Mindroid
