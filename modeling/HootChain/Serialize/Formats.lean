import HootChain.Foundation.StreamReaders
import HootChain.Serialize.VarInt

/-!
# Formats and Their Readers (`serialize.h`)

The writers that belong to the readers of `serialize.h`: VarInts, fixed-width integers,
byte strings and counted lists.
-/

namespace HootChain.Serialize

open Foundation List Nat UInt8

/-- A function that unserializes a value. -/
abbrev Unserializer (α : Type) := StreamReader UInt8 IosFailure α

/-! ## Fixed widths -/

variable {n width v max : Nat}

lemma reads_bytes {bytes : ByteStream} (h : bytes.length = n) :
    ReadsBack (readBytes n : Unserializer (List UInt8)) bytes bytes := by
  intro rest
  have hlong : ¬ (bytes ++ rest).length < n := by
    rw [length_append]
    omega
  rw [readBytes, if_neg hlong, ← h, take_left, drop_left]

/-- `ser_readdata16`, `ser_readdata32` and the like. -/
def readUInt (width : Nat) : Unserializer Nat := readDataLE width

lemma reads_littleEndian (h : v < 256 ^ width) :
    ReadsBack (readUInt width) (toLittleEndian width v) v := by
  intro rest
  rw [readUInt, readDataLE, reads_bytes (length_toLittleEndian width v) rest]
  exact congrArg (fun v => Except.ok (v, rest)) (fromLittleEndian_toLittleEndian h)

/-- `ser_writedata32` of an `int32_t`. -/
def writeInt32 (v : Int) : ByteStream := toLittleEndian 4 (v % 2 ^ 32).toNat

/-- `ser_readdata32` into an `int32_t`. -/
def readInt32 : Unserializer Int := do
  let v ← readUInt 4
  pure (toInt32 v)

/-- So are numbers of fixed width. -/
lemma reads_int32 {v : Int} (hlo : -2 ^ 31 ≤ v) (hhi : v < 2 ^ 31) :
    ReadsBack readInt32 (writeInt32 v) v := by
  have hlow : (v % 2 ^ 32).toNat < 256 ^ 4 := by omega
  have hread := (reads_littleEndian hlow).map fun v => toInt32 v
  have hvalue : toInt32 ((v % 2 ^ 32).toNat : Nat) = v := by
    rw [toInt32, Int.bmod_def]
    split <;> omega
  rwa [hvalue] at hread

/-- `BigEndianFormatter`. -/
def writeBigEndian (width v : Nat) : ByteStream := (toLittleEndian width v).reverse

/-- `BigEndianFormatter`. -/
def readBigEndian (width : Nat) : Unserializer Nat := do
  let bytes ← (readBytes width : Unserializer (List UInt8))
  pure (fromLittleEndian bytes.reverse)

lemma reads_bigEndian (h : v < 256 ^ width) :
    ReadsBack (readBigEndian width) (writeBigEndian width v) v := by
  have hlength : (writeBigEndian width v).length = width := by simp [writeBigEndian]
  have hread := (reads_bytes hlength).map fun bytes => fromLittleEndian bytes.reverse
  have hvalue : fromLittleEndian (writeBigEndian width v).reverse = v := by
    rw [writeBigEndian, reverse_reverse, fromLittleEndian_toLittleEndian h]
  rwa [hvalue] at hread

/-! ## CompactSize -/

/-- A marker byte and a number that needs it. -/
lemma readCompactSizeValue_write (h : n ≤ maxSize) (rest : ByteStream) :
    readCompactSizeValue (writeCompactSize n ++ rest) = .ok (n, rest) := by
  have hmax : n ≤ 0xffffffff := by
    unfold maxSize at h
    omega
  unfold writeCompactSize
  split
  · next hone =>
    have hbyte : (ofNat n).toNat = n := by
      rw [toNat_ofNat', mod_eq_of_lt (by omega)]
    simp [toLittleEndian, readCompactSizeValue, readData8, hbyte, hone, bind, Except.bind, pure,
      Except.pure]
  · next hmarker =>
    split
    · have hread : readDataLE 2 (toLittleEndian 2 n ++ rest) = .ok (n, rest) :=
        reads_littleEndian (by omega) rest
      simp [readCompactSizeValue, readData8, hread, hmarker, bind, Except.bind, pure, Except.pure]
    · next htwo =>
      have hread : readDataLE 4 (toLittleEndian 4 n ++ rest) = .ok (n, rest) :=
        reads_littleEndian (by omega) rest
      have hneeds : ¬ n < 0x10000 := by omega
      simp [readCompactSizeValue, readData8, hread, hneeds, bind, Except.bind, pure, Except.pure]

lemma reads_compactSize (h : n ≤ maxSize) :
    ReadsBack (readCompactSize : Unserializer Nat) (writeCompactSize n) n := by
  intro rest
  rw [readCompactSize, readCompactSizeValue_write h]
  simp [bind, Except.bind, pure, Except.pure, not_lt.mpr h]

/-- `Unserialize` of a string or script. -/
def readString : Unserializer (List UInt8) := do
  let nSize ← (readCompactSize : Unserializer Nat)
  (readBytes nSize : Unserializer (List UInt8))

lemma reads_string {bytes : List UInt8} (h : bytes.length ≤ maxSize) :
    ReadsBack readString (writeString bytes) bytes :=
  (reads_compactSize h).bind (reads_bytes rfl)

/-- `Serialize` of a vector. -/
def writeVector {α : Type} (write : α → ByteStream) (v : List α) : ByteStream :=
  writeCompactSize v.length ++ v.flatMap write

/-- `Unserialize` of a vector. -/
def readVector {α : Type} (read : Unserializer α) : Unserializer (List α) := do
  let nSize ← (readCompactSize : Unserializer Nat)
  readMany read nSize

/-- A list with its length in front. -/
lemma reads_vector {α : Type} {read : Unserializer α} {write : α → ByteStream} {v : List α}
    (hsize : v.length ≤ maxSize) (h : ∀ a ∈ v, ReadsBack read (write a) a) :
    ReadsBack (readVector read) (writeVector write v) v :=
  (reads_compactSize hsize).bind (ReadsBack.many h)

/-! ## VarInts -/

/-- The digits of `WriteVarInt`, the last of them marked if more digits follow. -/
def varIntDigits (more : Bool) (n : Nat) : ByteStream :=
  let digit := ofNat (n % 128 + if more then 128 else 0)
  if n ≤ 0x7F then [digit] else varIntDigits true (n / 128 - 1) ++ [digit]
termination_by n
decreasing_by omega

/-- `WriteVarInt<Stream, VarIntMode::DEFAULT, I>`. -/
def writeVarInt (n : Nat) : ByteStream := varIntDigits false n

lemma readVarIntLoop_digit (max : Nat) {acc : Nat} (more : Bool) (hacc : acc = n / 128)
    (hn : n ≤ max) (rest : ByteStream) :
    readVarIntLoop max acc (ofNat (n % 128 + if more then 128 else 0) :: rest) =
      if more then (if n = max then .error .varIntTooLarge else readVarIntLoop max (n + 1) rest)
      else .ok (n, rest) := by
  have hsmall : ¬ n / 128 > max / 128 := not_lt.mpr (Nat.div_le_div_right hn)
  cases more with
  | true =>
    have hbyte : (ofNat (n % 128 + 128)).toNat = n % 128 + 128 := by
      rw [toNat_ofNat', mod_eq_of_lt (by omega)]
    have hdigit : n / 128 * 128 + (n % 128 + 128) % 128 = n := by omega
    simp only [readVarIntLoop, hacc, if_true, hbyte, hsmall, if_false, hdigit]
    simp
  | false =>
    have hbyte : (ofNat (n % 128 + 0)).toNat = n % 128 := by
      rw [toNat_ofNat', mod_eq_of_lt (by omega), add_zero]
    have hdigit : n / 128 * 128 + n % 128 % 128 = n := by omega
    have hlast : ¬ n % 128 ≥ 128 := by omega
    simp only [readVarIntLoop, hacc, Bool.false_eq_true, hbyte, hsmall, if_false, hdigit, hlast]

/-- The digits that lead up to another one leave their number, plus one, in the loop. -/
lemma readVarIntLoop_digits (hn : n < max) (rest : ByteStream) :
    readVarIntLoop max 0 (varIntDigits true n ++ rest) = readVarIntLoop max (n + 1) rest := by
  induction n using Nat.strong_induction_on generalizing rest with
  | h n ih =>
    rw [varIntDigits]
    split
    · next hone =>
      have hdigit := readVarIntLoop_digit max true (div_eq_of_lt (by omega)).symm hn.le rest
      rw [if_neg hn.ne] at hdigit
      exact hdigit
    · next hmore =>
      rw [append_assoc, ih (n / 128 - 1) (by omega) (by omega)]
      have hdigit := readVarIntLoop_digit max true (by omega : n / 128 - 1 + 1 = n / 128) hn.le rest
      rw [if_neg hn.ne] at hdigit
      exact hdigit

/-- Numbers of variable width are read as written. -/
lemma reads_varInt (hn : n ≤ max) :
    ReadsBack (readVarInt max : Unserializer Nat) (writeVarInt n) n := by
  intro rest
  rw [readVarInt, writeVarInt, varIntDigits]
  split
  · next hone => exact readVarIntLoop_digit max false (div_eq_of_lt (by omega)).symm hn rest
  · next hmore =>
    rw [append_assoc, readVarIntLoop_digits (by omega)]
    exact readVarIntLoop_digit max false (by omega : n / 128 - 1 + 1 = n / 128) hn rest

end HootChain.Serialize
