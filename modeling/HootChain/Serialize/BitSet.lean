import HootChain.Serialize.VarInt

/-!
# Bitset Readers (`serialize.h`)

`AUTOBITSET` fields carry a vector of bits either packed eight to a byte
(`ReadFixedBitSet`) or as a series of VarInt offsets closed by a zero
(`ReadFixedVarIntsBitSet`). `CSigSharesInv` puts such a field on the wire, so
the offsets come from a peer.

The offset reader keeps a running `int32_t` index and writes `vec[idx]`
through the unchecked `operator[]`. A run therefore ends in one of three ways:
it returns, it throws, or it writes outside the vector, after which nothing is
defined. The model records every index written, in order.
-/

namespace HootChain.Serialize

open List

/-! ## Outcomes of a read -/

/-- How a read of a bit vector ends. -/
inductive BitSetOutcome where
  | returned (vec : List Bool) (rest : ByteStream)
  | thrown (e : IosFailure)
  /-- `vec[idx]` was written with `idx` outside the vector: undefined behaviour. -/
  | wroteOutside (idx : Int)

/-- A finished read: the indices written, in order, and how it ended. -/
structure BitSetRead where
  writes : List Int
  outcome : BitSetOutcome

/-- Every write hits the vector, the indices increase strictly, and the read
stops by returning or by throwing. -/
structure BitSetRead.Safe (size : Nat) (r : BitSetRead) : Prop where
  inRange : ∀ idx ∈ r.writes, 0 ≤ idx ∧ idx < size
  increasing : r.writes.Pairwise (· < ·)
  stops : (∃ vec rest, r.outcome = .returned vec rest) ∨ ∃ e, r.outcome = .thrown e

/-! ## `ReadFixedBitSet` -/

/-- Bit `p` of packed bytes, `vBytes[p / 8] & (1 << (p % 8))`. -/
def packedBit (vBytes : List UInt8) (p : Nat) : Bool :=
  ((vBytes.getD (p / 8) 0).toNat).testBit (p % 8)

/-- `ReadFixedBitSet`: the unused high bits of the last byte must be clear. -/
def readFixedBitSet (size : Nat) (s : ByteStream) : BitSetRead :=
  match readBytes ((size + 7) / 8) s with
  | .error e => ⟨[], .thrown e⟩
  | .ok (vBytes, rest) =>
    let vec := (range size).map (packedBit vBytes)
    let writes := (range size).map Int.ofNat
    -- `m = ~(0xff >> rem)` selects the `rem` highest bits of the last byte
    let rem := vBytes.length * 8 - size
    let last := (vBytes.getD (vBytes.length - 1) 0).toNat
    if vBytes.length * 8 ≠ size ∧ last / 2 ^ (8 - rem) ≠ 0 then
      ⟨writes, .thrown .outOfRangeBitsSet⟩
    else
      ⟨writes, .returned vec rest⟩

/-! ## `ReadFixedVarIntsBitSet` -/

/-- The loop of `ReadFixedVarIntsBitSet`: `last` is the index of the previous
set bit (`-1` before the first one). The sum `last + offset` is taken in
`uint32_t` and stored in an `int32_t`. -/
def readFixedVarIntsLoop (size : Nat) (vec : List Bool) (last : Int) (s : ByteStream) :
    BitSetRead :=
  match _h : readVarInt uint32Max s with
  | .error e => ⟨[], .thrown e⟩
  | .ok (offset, rest) =>
    if offset = 0 then
      ⟨[], .returned vec rest⟩
    else
      let idx := toInt32 (last + offset)
      if idx ≥ toInt32 size then
        ⟨[], .thrown .outOfBoundsIndex⟩
      else if last ≠ -1 ∧ idx ≤ last then
        ⟨[], .thrown .offsetOverflow⟩
      else if 0 ≤ idx ∧ idx < vec.length then
        let r := readFixedVarIntsLoop size (vec.set idx.toNat true) idx rest
        ⟨idx :: r.writes, r.outcome⟩
      else
        ⟨[idx], .wroteOutside idx⟩
termination_by s.length
decreasing_by exact readVarInt_shorter _h

def readFixedVarIntsBitSet (size : Nat) (s : ByteStream) : BitSetRead :=
  readFixedVarIntsLoop size (replicate size false) (-1) s

/-- `ReadAutoBitSet`: a selector byte, then one of the two encodings. -/
def readAutoBitSet (size : Nat) (s : ByteStream) : BitSetRead :=
  match readData8 s with
  | .error e => ⟨[], .thrown e⟩
  | .ok (isVarInts, s) =>
    if isVarInts ≠ 0 ∧ isVarInts ≠ 1 then
      ⟨[], .thrown .invalidIsVarInts⟩
    else if isVarInts = 0 then
      readFixedBitSet size s
    else
      readFixedVarIntsBitSet size s

/-! ## One pass of the loop -/

section Loop

variable {size offset : Nat} {vec : List Bool} {last : Int} {s rest : ByteStream}

lemma readFixedVarIntsLoop_error {e : IosFailure} (h : readVarInt uint32Max s = .error e) :
    readFixedVarIntsLoop size vec last s = ⟨[], .thrown e⟩ := by
  rw [readFixedVarIntsLoop]
  split
  · rename_i e' h'
    rw [h] at h'
    cases h'
    rfl
  · rename_i h'
    rw [h] at h'
    cases h'

lemma readFixedVarIntsLoop_ok (h : readVarInt uint32Max s = .ok (offset, rest)) :
    readFixedVarIntsLoop size vec last s =
      if offset = 0 then ⟨[], .returned vec rest⟩
      else if toInt32 (last + offset) ≥ toInt32 size then ⟨[], .thrown .outOfBoundsIndex⟩
      else if last ≠ -1 ∧ toInt32 (last + offset) ≤ last then ⟨[], .thrown .offsetOverflow⟩
      else if 0 ≤ toInt32 (last + offset) ∧ toInt32 (last + offset) < vec.length then
        let idx := toInt32 (last + offset)
        let r := readFixedVarIntsLoop size (vec.set idx.toNat true) idx rest
        ⟨idx :: r.writes, r.outcome⟩
      else ⟨[toInt32 (last + offset)], .wroteOutside (toInt32 (last + offset))⟩ := by
  rw [readFixedVarIntsLoop]
  split
  · rename_i h'
    rw [h] at h'
    cases h'
  · rename_i h'
    rw [h] at h'
    cases h'
    rfl

/-- Once a bit has been set (`0 ≤ last`), the two range checks together keep
every later write strictly above `last` and below `size`. -/
lemma readFixedVarIntsLoop_safe (hsize : size < 2 ^ 31) (hlen : vec.length = size)
    (hlast : 0 ≤ last) :
    (readFixedVarIntsLoop size vec last s).Safe size ∧
      ∀ idx ∈ (readFixedVarIntsLoop size vec last s).writes, last < idx := by
  -- induction on the bytes still to be read: every VarInt consumes at least one
  induction hn : s.length using Nat.strong_induction_on generalizing s vec last with
  | _ n ih =>
    cases hread : readVarInt uint32Max s with
    | error e =>
      rw [readFixedVarIntsLoop_error hread]
      exact ⟨⟨by simp, by simp, .inr ⟨e, rfl⟩⟩, by simp⟩
    | ok p =>
      obtain ⟨offset, rest⟩ := p
      have hsz : toInt32 size = size := toInt32_eq_self (by omega) (by exact_mod_cast hsize)
      have hshort : rest.length < n := hn ▸ readVarInt_shorter hread
      rw [readFixedVarIntsLoop_ok hread]
      generalize toInt32 (last + offset) = idx
      split
      · exact ⟨⟨by simp, by simp, .inl ⟨_, _, rfl⟩⟩, by simp⟩
      · split
        · exact ⟨⟨by simp, by simp, .inr ⟨_, rfl⟩⟩, by simp⟩
        · split
          · exact ⟨⟨by simp, by simp, .inr ⟨_, rfl⟩⟩, by simp⟩
          · -- `last ≠ -1` since it is an index already written, so the check ran
            have habove : last < idx := by omega
            have hin : 0 ≤ idx ∧ idx < vec.length := by omega
            rw [if_pos hin]
            obtain ⟨hsafe, hrest⟩ :=
              @ih rest.length hshort (vec.set idx.toNat true) idx rest
                (by simpa using hlen) hin.1 rfl
            refine ⟨⟨?_, ?_, hsafe.stops⟩, ?_⟩
            · intro i hi
              rcases mem_cons.mp hi with rfl | hi
              · omega
              · exact hsafe.inRange i hi
            · exact pairwise_cons.mpr ⟨hrest, hsafe.increasing⟩
            · intro i hi
              rcases mem_cons.mp hi with rfl | hi
              · exact habove
              · exact lt_trans habove (hrest i hi)

end Loop

/-! ## The first offset decides -/

/-- The first VarInt of the field, if there is one, is at most `2 ^ 31`. -/
def FirstOffsetFits (s : ByteStream) : Prop :=
  ∀ offset rest, readVarInt uint32Max s = .ok (offset, rest) → offset ≤ 2 ^ 31

variable {offset size : Nat} {s : ByteStream}

/-- With `last = -1` an offset above `2 ^ 31` wraps to a negative index. -/
lemma toInt32_first_neg (hlo : 2 ^ 31 < offset) (hhi : offset ≤ uint32Max) :
    toInt32 (-1 + offset) = offset - 1 - 2 ^ 32 := by
  unfold toInt32 uint32Max at *
  rw [Int.bmod_def]
  split <;> omega

/-- With `last = -1` the offset `2 ^ 31` and everything below it gives `offset - 1`. -/
lemma toInt32_first (hhi : offset ≤ 2 ^ 31) : toInt32 (-1 + offset) = offset - 1 :=
  (toInt32_eq_self (by omega) (by omega)).trans (by omega)

lemma readFixedVarIntsBitSet_safe_of_fits (hsize : size < 2 ^ 31) (hfits : FirstOffsetFits s) :
    (readFixedVarIntsBitSet size s).Safe size := by
  unfold readFixedVarIntsBitSet
  cases hread : readVarInt uint32Max s with
  | error e =>
    rw [readFixedVarIntsLoop_error hread]
    exact ⟨by simp, by simp, .inr ⟨e, rfl⟩⟩
  | ok p =>
    obtain ⟨offset, rest⟩ := p
    have hsz : toInt32 size = size := toInt32_eq_self (by omega) (by exact_mod_cast hsize)
    rw [readFixedVarIntsLoop_ok hread, toInt32_first (hfits offset rest hread)]
    split
    · exact ⟨by simp, by simp, .inl ⟨_, _, rfl⟩⟩
    · split
      · exact ⟨by simp, by simp, .inr ⟨_, rfl⟩⟩
      · -- the overflow check is skipped here: `last = -1`
        have hin : (0 : Int) ≤ offset - 1 ∧
            (offset : Int) - 1 < (replicate size false).length := by
          rw [length_replicate]
          omega
        rw [if_pos hin]
        obtain ⟨hsafe, hrest⟩ :=
          @readFixedVarIntsLoop_safe size
            ((replicate size false).set ((offset : Int) - 1).toNat true)
            ((offset : Int) - 1) rest hsize (by simp) hin.1
        refine ⟨?_, pairwise_cons.mpr ⟨hrest, hsafe.increasing⟩, hsafe.stops⟩
        intro i hi
        rcases mem_cons.mp hi with rfl | hi
        · rw [length_replicate] at hin
          exact hin
        · exact hsafe.inRange i hi

lemma readFixedVarIntsBitSet_escapes_of_not_fits {rest : ByteStream} (hsize : size < 2 ^ 31)
    (hread : readVarInt uint32Max s = .ok (offset, rest)) (hbig : 2 ^ 31 < offset) :
    readFixedVarIntsBitSet size s =
      ⟨[(offset : Int) - 1 - 2 ^ 32], .wroteOutside ((offset : Int) - 1 - 2 ^ 32)⟩ := by
  have hle : offset ≤ uint32Max := readVarInt_le (by decide) hread
  have hmax : offset ≤ 2 ^ 32 - 1 := hle
  have hsz : toInt32 size = size := toInt32_eq_self (by omega) (by exact_mod_cast hsize)
  unfold readFixedVarIntsBitSet
  rw [readFixedVarIntsLoop_ok hread, toInt32_first_neg hbig hle]
  rw [if_neg (by omega), if_neg (by omega), if_neg (by simp), if_neg (by omega)]

lemma firstOffsetFits_of_safe (hsize : size < 2 ^ 31)
    (hsafe : (readFixedVarIntsBitSet size s).Safe size) : FirstOffsetFits s := by
  intro offset rest hread
  by_contra hbig
  have hrun := readFixedVarIntsBitSet_escapes_of_not_fits hsize hread (by omega)
  have hle : offset ≤ uint32Max := readVarInt_le (by decide) hread
  unfold uint32Max at hle
  have := (hsafe.inRange _ (by rw [hrun]; exact mem_singleton.mpr rfl)).1
  omega

/-- **Safety of the offset reader.** For every size below `2 ^ 31` and every
byte stream, the read stays inside the vector with increasing indices and
stops if and only if its first offset does not exceed `2 ^ 31`. -/
theorem readFixedVarIntsBitSet_safe_iff (size : Nat) (s : ByteStream) (hsize : size < 2 ^ 31) :
    (readFixedVarIntsBitSet size s).Safe size ↔ FirstOffsetFits s :=
  ⟨firstOffsetFits_of_safe hsize, readFixedVarIntsBitSet_safe_of_fits hsize⟩

/-- The offset `1` sets the first of eight bits. -/
theorem readFixedVarIntsBitSet_safe_single :
    8 < 2 ^ 31 ∧ (readFixedVarIntsBitSet 8 [0x01, 0x00]).Safe 8 :=
  ⟨by decide, (readFixedVarIntsBitSet_safe_iff 8 [0x01, 0x00] (by decide)).mpr (by
    intro offset rest h
    cases h
    decide)⟩

/-- The VarInt `86 FE FE FF 01` is `2 ^ 31 + 1`: the reader writes `vec[-2 ^ 31]`. -/
theorem readFixedVarIntsBitSet_escapes :
    readFixedVarIntsBitSet 8 [0x86, 0xFE, 0xFE, 0xFF, 0x01, 0x00] =
        ⟨[-2 ^ 31], .wroteOutside (-2 ^ 31)⟩ ∧
      ¬ (readFixedVarIntsBitSet 8 [0x86, 0xFE, 0xFE, 0xFF, 0x01, 0x00]).Safe 8 := by
  have hread : readVarInt uint32Max [0x86, 0xFE, 0xFE, 0xFF, 0x01, 0x00] =
      .ok (2 ^ 31 + 1, [0x00]) := by decide
  have hrun := readFixedVarIntsBitSet_escapes_of_not_fits (by decide : 8 < 2 ^ 31) hread (by decide)
  refine ⟨by rw [hrun]; norm_num, fun hsafe => ?_⟩
  have := (hsafe.inRange (-2147483648) (by rw [hrun]; exact mem_singleton.mpr rfl)).1
  omega

/-! ## The `AUTOBITSET` field of `CSigSharesInv` -/

lemma readFixedBitSet_safe (size : Nat) (s : ByteStream) :
    (readFixedBitSet size s).Safe size := by
  have hrange : ∀ idx ∈ (range size).map Int.ofNat, 0 ≤ idx ∧ idx < (size : Int) := by
    intro idx hidx
    obtain ⟨p, hp, rfl⟩ := mem_map.mp hidx
    have := mem_range.mp hp
    simp only [Int.ofNat_eq_natCast]
    omega
  have hincr : ((range size).map Int.ofNat).Pairwise (· < ·) :=
    pairwise_map.mpr (pairwise_lt_range.imp (by simp))
  unfold readFixedBitSet
  split
  · exact ⟨by simp, by simp, .inr ⟨_, rfl⟩⟩
  · dsimp only
    split
    · exact ⟨hrange, hincr, .inr ⟨_, rfl⟩⟩
    · exact ⟨hrange, hincr, .inl ⟨_, _, rfl⟩⟩

/-- `ReadAutoBitSet` is unsafe only behind the selector byte `1`. -/
lemma readAutoBitSet_safe_iff (size : Nat) (s : ByteStream) (hsize : size < 2 ^ 31) :
    (readAutoBitSet size s).Safe size ↔ ∀ rest, s = 1 :: rest → FirstOffsetFits rest := by
  have hthrown : ∀ e, BitSetRead.Safe size ⟨[], .thrown e⟩ := fun e => ⟨nofun, .nil, .inr ⟨e, rfl⟩⟩
  cases s with
  | nil => exact iff_of_true (hthrown _) nofun
  | cons b rest =>
    by_cases h1 : b = 1
    · subst h1
      have hiff : (readFixedVarIntsBitSet size rest).Safe size ↔ FirstOffsetFits rest :=
        ⟨firstOffsetFits_of_safe hsize, readFixedVarIntsBitSet_safe_of_fits hsize⟩
      simpa [readAutoBitSet, readData8] using hiff
    · refine iff_of_true ?_ fun _ heq => absurd (cons.inj heq).1 h1
      have h1' : b.toNat ≠ 1 := fun heq => h1 (UInt8.toNat_inj.mp heq)
      simp only [readAutoBitSet, readData8, h1', ne_eq, not_false_eq_true, and_true]
      split
      · exact hthrown _
      · simp_all [readFixedBitSet_safe]

/-- `CSigSharesInv::Unserialize`: session id, number of bits, the bits. -/
def unserializeSigSharesInv (s : ByteStream) : Except IosFailure (Nat × Nat × BitSetRead) := do
  let (sessionId, s) ← readVarInt uint32Max s
  let (invSize, s) ← readCompactSize s
  return (sessionId, invSize, readAutoBitSet invSize s)

/-- The size on the wire is range checked, so the bits of a message are read
safely unless they are offset-encoded with a first offset above `2 ^ 31`. -/
theorem sigSharesInv_safe_iff {s₁ s₂ : ByteStream} {sessionId invSize : Nat}
    (hid : readVarInt uint32Max s = .ok (sessionId, s₁))
    (hinv : readCompactSize s₁ = .ok (invSize, s₂)) :
    ∃ read, unserializeSigSharesInv s = .ok (sessionId, invSize, read) ∧
      (read.Safe invSize ↔ ∀ rest, s₂ = 1 :: rest → FirstOffsetFits rest) := by
  have hsize : invSize < 2 ^ 31 := lt_of_le_of_lt (readCompactSize_le_maxSize hinv) (by decide)
  refine ⟨readAutoBitSet invSize s₂, ?_, readAutoBitSet_safe_iff invSize s₂ hsize⟩
  simp [unserializeSigSharesInv, hid, hinv, bind, Except.bind, pure, Except.pure]

theorem sigSharesInv_safe_single : ∃ read,
    unserializeSigSharesInv [5, 8, 1, 1, 0] = .ok (5, 8, read) ∧
      (read.Safe 8 ↔ ∀ rest, [1, 1, 0] = 1 :: rest → FirstOffsetFits rest) := by
  have hid : readVarInt uint32Max [5, 8, 1, 1, 0] = .ok (5, [8, 1, 1, 0]) := by decide
  exact sigSharesInv_safe_iff hid (by decide)

end HootChain.Serialize
