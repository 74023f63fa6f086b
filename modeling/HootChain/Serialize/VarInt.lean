import Mathlib.Tactic

/-!
# Byte Streams, CompactSize and VarInts (`serialize.h`)

The readers of `serialize.h` consume a byte stream from the front and either
return a value with the rest of the stream or throw `std::ios_base::failure`.
A reader is modelled as a function `ByteStream → Except IosFailure (α × ByteStream)`.
-/

namespace HootChain.Serialize

/-! ## Streams and failures -/

/-- The bytes of a `CDataStream` that have not been read yet. -/
abbrev ByteStream := List UInt8

/-- The `std::ios_base::failure` exceptions thrown by the readers. -/
inductive IosFailure where
  | endOfData
  | nonCanonicalCompactSize
  | compactSizeTooLarge
  | varIntTooLarge
  | outOfRangeBitsSet
  | outOfBoundsIndex
  | offsetOverflow
  | invalidIsVarInts
  deriving DecidableEq

/-- `ser_readdata8`. -/
def readData8 : ByteStream → Except IosFailure (Nat × ByteStream)
  | [] => .error .endOfData
  | b :: rest => .ok (b.toNat, rest)

/-- `s.read` into a span of `n` bytes. -/
def readBytes (n : Nat) (s : ByteStream) : Except IosFailure (List UInt8 × ByteStream) :=
  if s.length < n then .error .endOfData else .ok (s.take n, s.drop n)

/-- The value of little-endian bytes, as `ser_readdata16/32/64` assemble it. -/
def fromLittleEndian : List UInt8 → Nat
  | [] => 0
  | b :: bs => b.toNat + 256 * fromLittleEndian bs

/-- `ser_readdata16`, `ser_readdata32` and `ser_readdata64` for 2, 4 and 8 bytes. -/
def readDataLE (width : Nat) (s : ByteStream) : Except IosFailure (Nat × ByteStream) := do
  let (bytes, rest) ← readBytes width s
  return (fromLittleEndian bytes, rest)

/-- Conversion to `int32_t`: two's complement wrap-around. -/
def toInt32 (x : Int) : Int := Int.bmod x (2 ^ 32)

lemma toInt32_eq_self {x : Int} (hlo : -2 ^ 31 ≤ x) (hhi : x < 2 ^ 31) : toInt32 x = x := by
  unfold toInt32
  rw [Int.bmod_def]
  split <;> omega

/-! ## CompactSize -/

/-- `MAX_SIZE`: the largest size a range-checked CompactSize may carry. -/
def maxSize : Nat := 0x02000000

/-- The value part of `ReadCompactSize`, before the range check. -/
def readCompactSizeValue (s : ByteStream) : Except IosFailure (Nat × ByteStream) := do
  let (chSize, s) ← readData8 s
  if chSize < 253 then
    return (chSize, s)
  else if chSize = 253 then
    let (nSizeRet, s) ← readDataLE 2 s
    if nSizeRet < 253 then throw .nonCanonicalCompactSize else return (nSizeRet, s)
  else if chSize = 254 then
    let (nSizeRet, s) ← readDataLE 4 s
    if nSizeRet < 0x10000 then throw .nonCanonicalCompactSize else return (nSizeRet, s)
  else
    let (nSizeRet, s) ← readDataLE 8 s
    if nSizeRet < 0x100000000 then throw .nonCanonicalCompactSize else return (nSizeRet, s)

def readCompactSize (s : ByteStream) : Except IosFailure (Nat × ByteStream) := do
  let (nSizeRet, s) ← readCompactSizeValue s
  if nSizeRet > maxSize then throw .compactSizeTooLarge else return (nSizeRet, s)

variable {s rest : ByteStream} {width v max : Nat}

/-- A range-checked size never exceeds `MAX_SIZE`. -/
lemma readCompactSize_le_maxSize {size : Nat} (h : readCompactSize s = .ok (size, rest)) :
    size ≤ maxSize := by
  unfold readCompactSize at h
  cases hv : readCompactSizeValue s with
  | error e => simp [hv, bind, Except.bind] at h
  | ok p =>
    obtain ⟨n, s'⟩ := p
    simp only [hv, bind, Except.bind] at h
    by_cases hn : n > maxSize
    · simp [hn, throw, throwThe, MonadExceptOf.throw] at h
    · simp only [hn, if_false, pure, Except.pure, Except.ok.injEq, Prod.mk.injEq] at h
      omega

/-! ## Writers -/

/-- `ser_writedata8/16/32/64`: the low bytes of a number, the lowest first. -/
def toLittleEndian : Nat → Nat → List UInt8
  | 0, _ => []
  | width + 1, v => UInt8.ofNat v :: toLittleEndian width (v / 256)

def writeCompactSize (nSize : Nat) : List UInt8 :=
  if nSize < 253 then toLittleEndian 1 nSize
  else if nSize ≤ 0xffff then 253 :: toLittleEndian 2 nSize
  else if nSize ≤ 0xffffffff then 254 :: toLittleEndian 4 nSize
  else 255 :: toLittleEndian 8 nSize

/-- `Serialize` of a `std::string`. -/
def writeString (bytes : List UInt8) : List UInt8 := writeCompactSize bytes.length ++ bytes

@[simp] lemma length_toLittleEndian (width v : Nat) :
    (toLittleEndian width v).length = width := by
  induction width generalizing v with
  | zero => rfl
  | succ width ih => rw [toLittleEndian, List.length_cons, ih]

/-- Fixed-width numbers are read as they were written. -/
lemma fromLittleEndian_toLittleEndian (h : v < 256 ^ width) :
    fromLittleEndian (toLittleEndian width v) = v := by
  induction width generalizing v with
  | zero =>
    rw [pow_zero, Nat.lt_one_iff] at h
    rw [h]
    rfl
  | succ width ih =>
    have hrest : v / 256 < 256 ^ width := by
      rw [pow_succ] at h
      exact Nat.div_lt_of_lt_mul (by linarith)
    rw [toLittleEndian, fromLittleEndian, ih hrest, UInt8.toNat_ofNat']
    omega

lemma toLittleEndian_inj {w : Nat} (hv : v < 256 ^ width) (hw : w < 256 ^ width)
    (h : toLittleEndian width v = toLittleEndian width w) : v = w := by
  rw [← fromLittleEndian_toLittleEndian hv, h, fromLittleEndian_toLittleEndian hw]

/-! ## VarInts -/

/-- The loop of `ReadVarInt<Stream, VarIntMode::DEFAULT, I>` with
`max = std::numeric_limits<I>::max()` and the digits read so far in `n`. -/
def readVarIntLoop (max : Nat) : Nat → ByteStream → Except IosFailure (Nat × ByteStream)
  | _, [] => .error .endOfData
  | n, chData :: rest =>
    if n > max / 128 then
      .error .varIntTooLarge
    else
      let n := n * 128 + chData.toNat % 128
      if chData.toNat ≥ 128 then
        if n = max then .error .varIntTooLarge else readVarIntLoop max (n + 1) rest
      else
        .ok (n, rest)

/-- `ReadVarInt` into an integer type with maximum `max`. -/
def readVarInt (max : Nat) (s : ByteStream) : Except IosFailure (Nat × ByteStream) :=
  readVarIntLoop max 0 s

/-- `std::numeric_limits<uint32_t>::max()`. -/
def uint32Max : Nat := 2 ^ 32 - 1

lemma readVarIntLoop_eq_ok {n : Nat} (h : readVarIntLoop max n s = .ok (v, rest)) :
    rest.length < s.length ∧ (max % 128 = 127 → v ≤ max) := by
  induction s generalizing n with
  | nil => simp [readVarIntLoop] at h
  | cons b bs ih =>
    simp only [readVarIntLoop] at h
    split at h
    · simp at h
    · split at h
      · split at h
        · simp at h
        · exact ⟨Nat.lt_succ_of_lt (ih h).1, (ih h).2⟩
      · -- the last digit: `n ≤ max / 128`, so appending seven bits stays below `max`
        simp only [Except.ok.injEq, Prod.mk.injEq] at h
        refine ⟨by simp [← h.2], fun hmax => ?_⟩
        omega

/-- Every successful `ReadVarInt` consumes at least one byte. -/
lemma readVarInt_shorter (h : readVarInt max s = .ok (v, rest)) : rest.length < s.length :=
  (readVarIntLoop_eq_ok h).1

/-- The value read fits a type whose maximum ends in seven one bits. -/
lemma readVarInt_le (hmax : max % 128 = 127) (h : readVarInt max s = .ok (v, rest)) : v ≤ max :=
  (readVarIntLoop_eq_ok h).2 hmax

end HootChain.Serialize
