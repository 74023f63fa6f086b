import HootChain.Foundation.ExceptRuns
import HootChain.Foundation.OverlayStore
import HootChain.Llmq.Params
import HootChain.Serialize.Formats

/-!
# The Keys of Mined Commitments (`llmq/blockprocessor.cpp`)

The database maps the height at which a commitment is mined to the height of the base block
of its quorum. A key holds the height inversed and in network byte order, so that the order
of the bytes is from the newest to the oldest. Keys of types that rotate also hold the index
of the quorum, in the byte order of the host.
-/

namespace HootChain.Llmq

open Foundation Serialize List Prod Option Except UInt8

/-! ## Numbers -/

/-- `ToUnderlying` of a type. -/
def LLMQType.toUnderlying : LLMQType → Nat
  | .none => 0xff
  | .llmq50_60 => 1
  | .llmq400_60 => 2
  | .llmq400_85 => 3
  | .llmq100_67 => 4
  | .llmq60_75 => 5
  | .test => 100
  | .devnet => 101
  | .testV17 => 102
  | .testDip0024 => 103
  | .testInstantSend => 104
  | .devnetDip0024 => 105
  | .testPlatform => 106
  | .devnetPlatform => 107

lemma LLMQType.toUnderlying_injective : Function.Injective LLMQType.toUnderlying := by
  intro a b h
  cases a <;> cases b <;> first | rfl | cases h

lemma LLMQType.toUnderlying_lt (llmqType : LLMQType) : llmqType.toUnderlying < 256 := by
  cases llmqType <;> decide

/-- `htobe32` and `be32toh` on a host that is little endian. -/
def htobe32 (n : Nat) : Nat := fromLittleEndian (writeBigEndian 4 n)

lemma fromLittleEndian_lt (bytes : List UInt8) : fromLittleEndian bytes < 256 ^ bytes.length := by
  induction bytes with
  | nil => decide
  | cons b bytes ih =>
    have hbyte := b.toNat_lt
    rw [fromLittleEndian, length_cons]
    omega

lemma toLittleEndian_fromLittleEndian (bytes : List UInt8) :
    toLittleEndian bytes.length (fromLittleEndian bytes) = bytes := by
  induction bytes with
  | nil => rfl
  | cons b bytes ih =>
    have hbyte := b.toNat_lt
    have hlow : ofNat (b.toNat + 256 * fromLittleEndian bytes) = b := by
      rw [← UInt8.toNat_inj, UInt8.toNat_ofNat']
      omega
    have hhigh : (b.toNat + 256 * fromLittleEndian bytes) / 256 = fromLittleEndian bytes := by
      omega
    rw [length_cons, fromLittleEndian, toLittleEndian, hlow, hhigh, ih]

@[simp] lemma length_writeBigEndian (width v : Nat) : (writeBigEndian width v).length = width := by
  simp [writeBigEndian]

lemma htobe32_lt (n : Nat) : htobe32 n < 2 ^ 32 := by
  have hlt := fromLittleEndian_lt (writeBigEndian 4 n)
  rwa [length_writeBigEndian] at hlt

lemma toLittleEndian_htobe32 (n : Nat) : toLittleEndian 4 (htobe32 n) = writeBigEndian 4 n := by
  have hbytes := toLittleEndian_fromLittleEndian (writeBigEndian 4 n)
  rwa [length_writeBigEndian] at hbytes

@[simp] lemma htobe32_htobe32 {n : Nat} (h : n < 2 ^ 32) : htobe32 (htobe32 n) = n := by
  have hbytes : writeBigEndian 4 (htobe32 n) = toLittleEndian 4 n := by
    rw [writeBigEndian, toLittleEndian_htobe32, writeBigEndian, reverse_reverse]
  rw [htobe32, hbytes]
  exact fromLittleEndian_toLittleEndian h

lemma compare_digits (a b : Nat) :
    (compare (a / 256) (b / 256)).then (compare (a % 256) (b % 256)) = compare a b := by
  rcases lt_trichotomy (a / 256) (b / 256) with hlt | heq | hgt
  · rw [Nat.compare_eq_lt.mpr hlt, Nat.compare_eq_lt.mpr (by omega : a < b)]
    rfl
  · rw [Nat.compare_eq_eq.mpr heq, Ordering.then]
    rcases lt_trichotomy (a % 256) (b % 256) with hlt | heq' | hgt
    · rw [Nat.compare_eq_lt.mpr hlt, Nat.compare_eq_lt.mpr (by omega : a < b)]
    · rw [Nat.compare_eq_eq.mpr heq', Nat.compare_eq_eq.mpr (by omega : a = b)]
    · rw [Nat.compare_eq_gt.mpr hgt, Nat.compare_eq_gt.mpr (by omega : b < a)]
  · rw [Nat.compare_eq_gt.mpr hgt, Nat.compare_eq_gt.mpr (by omega : b < a)]
    rfl

/-- Numbers in network byte order are compared by their bytes. -/
lemma compare_writeBigEndian {width a b : Nat} (ha : a < 256 ^ width) (hb : b < 256 ^ width) :
    compare (writeBigEndian width a) (writeBigEndian width b) = compare a b := by
  induction width generalizing a b with
  | zero =>
    rw [pow_zero, Nat.lt_one_iff] at ha hb
    rw [ha, hb]
    rfl
  | succ width ih =>
    have hsplit : ∀ v, writeBigEndian (width + 1) v =
        writeBigEndian width (v / 256) ++ [ofNat v] := fun v => by
      rw [writeBigEndian, toLittleEndian, reverse_cons, ← writeBigEndian]
    have hdigit : compare [ofNat a] [ofNat b] = compare (a % 256) (b % 256) := by
      rw [List.compare_cons_cons, compare_eq_toNat_compare_toNat, toNat_ofNat',
        toNat_ofNat']
      cases compare (a % 2 ^ 8) (b % 2 ^ 8) <;> rfl
    rw [hsplit, hsplit, compare_append (by simp), ih (by omega) (by omega), hdigit, compare_digits]

/-! ## Keys -/

/-- The characters of a string. -/
def stringBytes (s : String) : List UInt8 := s.toList.map fun c => ofNat c.toNat

def dbMinedCommitmentByInversedHeight : List UInt8 := stringBytes "q_mcih"

def dbMinedCommitmentByInversedHeightQIndexed : List UInt8 := stringBytes "q_mcihi"

/-- The tuples that are the keys; only one of the two kinds has an index. -/
structure InversedHeightKey where
  name : List UInt8
  llmqType : Nat
  quorumIndex : Option Int
  inversedHeight : Nat

open InversedHeightKey

namespace InversedHeightKey

/-- The bytes of a key before its height. -/
def head (key : InversedHeightKey) : ByteStream :=
  writeString key.name ++ (toLittleEndian 1 key.llmqType ++ key.quorumIndex.elim [] writeInt32)

def serialize (key : InversedHeightKey) : ByteStream :=
  key.head ++ toLittleEndian 4 key.inversedHeight

/-- The index of a key, if it has one. -/
def readIndex (indexed : Bool) : Unserializer (Option Int) :=
  if indexed then readInt32 >>= fun index => pure (some index) else pure none

def unserialize (indexed : Bool) : Unserializer InversedHeightKey := do
  let name ← readString
  let llmqType ← readUInt 1
  let quorumIndex ← readIndex indexed
  let inversedHeight ← readUInt 4
  pure ⟨name, llmqType, quorumIndex, inversedHeight⟩

/-- `operator<`. -/
def less (a b : InversedHeightKey) : Bool :=
  (compare a.name b.name).then ((compare a.llmqType b.llmqType).then
    ((compare (a.quorumIndex.getD 0) (b.quorumIndex.getD 0)).then
      (compare a.inversedHeight b.inversedHeight))) = .lt

def nMinedHeight (key : InversedHeightKey) : Nat := 2 ^ 32 - 1 - htobe32 key.inversedHeight

end InversedHeightKey

/-- `GetKey` of an iterator. -/
def getKey (indexed : Bool) (bytes : ByteStream) : Option InversedHeightKey :=
  match unserialize indexed bytes with
  | .ok (key, _) => some key
  | .error _ => none

def buildInversedHeightKey (llmqType : LLMQType) (nMinedHeight : Nat) : InversedHeightKey :=
  ⟨dbMinedCommitmentByInversedHeight, llmqType.toUnderlying, none,
    htobe32 (2 ^ 32 - 1 - nMinedHeight)⟩

def buildInversedHeightKeyIndexed (llmqType : LLMQType) (nMinedHeight : Nat) (quorumIndex : Int) :
    InversedHeightKey :=
  ⟨dbMinedCommitmentByInversedHeightQIndexed, llmqType.toUnderlying, some quorumIndex,
    htobe32 (2 ^ 32 - 1 - nMinedHeight)⟩

/-- The key of a commitment; it is filed under its index if the type rotates. -/
def minedKey (llmqType : LLMQType) (quorumIndex : Option Int) (nMinedHeight : Nat) :
    InversedHeightKey :=
  match quorumIndex with
  | none => buildInversedHeightKey llmqType nMinedHeight
  | some index => buildInversedHeightKeyIndexed llmqType nMinedHeight index

/-- The key belongs to another part of the node. -/
def Foreign (bytes : ByteStream) : Bool :=
  !(writeString dbMinedCommitmentByInversedHeight).isPrefixOf bytes &&
    !(writeString dbMinedCommitmentByInversedHeightQIndexed).isPrefixOf bytes

/-! ## Reading keys -/

section Keys

variable {llmqType llmqType' : LLMQType} {quorumIndex quorumIndex' : Option Int} {h h' : Nat}

section

variable (quorumIndex : Option Int)

def FitsInt : Prop := ∀ index ∈ quorumIndex, -2 ^ 31 ≤ index ∧ index < 2 ^ 31

/-- The name of a kind of keys. -/
def keyName : List UInt8 :=
  if quorumIndex.isSome then dbMinedCommitmentByInversedHeightQIndexed
  else dbMinedCommitmentByInversedHeight

lemma writeString_keyName :
    writeString (keyName quorumIndex) =
      (if quorumIndex.isSome then 7 else 6) :: keyName quorumIndex := by
  cases quorumIndex with
  | none =>
    exact (by decide : writeString dbMinedCommitmentByInversedHeight =
      6 :: dbMinedCommitmentByInversedHeight)
  | some =>
    exact (by decide : writeString dbMinedCommitmentByInversedHeightQIndexed =
      7 :: dbMinedCommitmentByInversedHeightQIndexed)

lemma length_keyName_lt : (keyName quorumIndex).length < 253 := by
  cases quorumIndex with
  | none => exact (by decide : dbMinedCommitmentByInversedHeight.length < 253)
  | some => exact (by decide : dbMinedCommitmentByInversedHeightQIndexed.length < 253)

end

@[simp] lemma name_minedKey : (minedKey llmqType quorumIndex h).name = keyName quorumIndex := by
  cases quorumIndex <;> rfl

@[simp] lemma quorumIndex_minedKey :
    (minedKey llmqType quorumIndex h).quorumIndex = quorumIndex := by
  cases quorumIndex <;> rfl

@[simp] lemma llmqType_minedKey :
    (minedKey llmqType quorumIndex h).llmqType = llmqType.toUnderlying := by
  cases quorumIndex <;> rfl

@[simp] lemma inversedHeight_minedKey :
    (minedKey llmqType quorumIndex h).inversedHeight = htobe32 (2 ^ 32 - 1 - h) := by
  cases quorumIndex <;> rfl

lemma nMinedHeight_minedKey (hh : h < 2 ^ 32) :
    (minedKey llmqType quorumIndex h).nMinedHeight = h := by
  rw [nMinedHeight, inversedHeight_minedKey, htobe32_htobe32 (by omega)]
  omega

variable {key : InversedHeightKey} {bytes rest : ByteStream} {indexed : Bool} {index index' : Int}

lemma reads_inversedHeightKey (hname : key.name.length ≤ maxSize) (htype : key.llmqType < 256)
    (hindex : FitsInt key.quorumIndex) (hheight : key.inversedHeight < 2 ^ 32) :
    ReadsBack (InversedHeightKey.unserialize key.quorumIndex.isSome) key.serialize key := by
  obtain ⟨name, llmqType, quorumIndex, inversedHeight⟩ := key
  have hoptional : ReadsBack (readIndex quorumIndex.isSome)
      (quorumIndex.elim [] writeInt32) quorumIndex := by
    cases quorumIndex with
    | none => exact reads_pure none
    | some index =>
      obtain ⟨hlo, hhi⟩ := hindex index rfl
      exact (reads_int32 hlo hhi).map some
  rw [InversedHeightKey.serialize, InversedHeightKey.head, append_assoc]
  exact (reads_string hname).bind ((reads_littleEndian htype).bind
    (hoptional.bind ((reads_littleEndian hheight).map _)))

/-- Keys are read as they were written. -/
lemma getKey_minedKey (hindex : FitsInt quorumIndex) :
    getKey quorumIndex.isSome (minedKey llmqType quorumIndex h).serialize =
      some (minedKey llmqType quorumIndex h) := by
  have hname : (minedKey llmqType quorumIndex h).name.length ≤ maxSize := by
    have hlength := length_keyName_lt quorumIndex
    rw [name_minedKey, maxSize]
    omega
  have hread := reads_inversedHeightKey hname
    (by rw [llmqType_minedKey]; exact llmqType.toUnderlying_lt)
    (by rwa [quorumIndex_minedKey])
    (by rw [inversedHeight_minedKey]; exact htobe32_lt _)
  rw [quorumIndex_minedKey] at hread
  rw [getKey, hread.all]

/-- A size that fits a byte is read from one byte: a longer form is not canonical. -/
lemma append_of_readCompactSize {n : Nat} (h : readCompactSize bytes = .ok (n, rest))
    (hn : n < 253) : bytes = toLittleEndian 1 n ++ rest := by
  obtain ⟨⟨size, rest'⟩, hvalue, hrange⟩ := bind_eq_ok.mp h
  have hsame : size = n ∧ rest' = rest := by
    dsimp only at hrange
    split at hrange
    · cases hrange
    · exact mk.inj (ok.inj hrange)
  obtain ⟨rfl, rfl⟩ := hsame
  obtain ⟨⟨chSize, s⟩, hfirst, hsize⟩ := bind_eq_ok.mp hvalue
  have hlong : ∀ {width limit : Nat}, 253 ≤ limit →
      (readDataLE width s >>= fun p =>
        if p.1 < limit then throw .nonCanonicalCompactSize else pure (p.1, p.2)) ≠
          (.ok (size, rest') : Except IosFailure (Nat × ByteStream)) := by
    intro width limit hlimit hread
    obtain ⟨⟨nSizeRet, s'⟩, -, hcanonical⟩ := bind_eq_ok.mp hread
    split at hcanonical
    · cases hcanonical
    · have heq : nSizeRet = size := congrArg fst (ok.inj hcanonical)
      omega
  dsimp only at hsize
  split at hsize
  · obtain ⟨rfl, rfl⟩ := mk.inj (ok.inj hsize)
    cases bytes with
    | nil => cases hfirst
    | cons b bytes =>
      obtain ⟨rfl, rfl⟩ := mk.inj (ok.inj hfirst)
      simp [toLittleEndian]
  split at hsize
  · exact absurd hsize (hlong (by omega))
  split at hsize <;> exact absurd hsize (hlong (by omega))

/-- A short string is read from its bytes. -/
lemma writeString_append_of_readString {name : ByteStream}
    (h : readString bytes = .ok (name, rest)) (hname : name.length < 253) :
    bytes = writeString name ++ rest := by
  obtain ⟨n, bytes', hsize, hbytes⟩ := exists_of_bind_eq_ok h
  have hn : name.length = n ∧ bytes' = name ++ rest := by
    rw [readBytes] at hbytes
    split at hbytes
    · cases hbytes
    · obtain ⟨rfl, rfl⟩ := mk.inj (ok.inj hbytes)
      refine ⟨?_, (take_append_drop n bytes').symm⟩
      rw [length_take]
      omega
  obtain ⟨rfl, rfl⟩ := hn
  rw [writeString, writeCompactSize, if_pos hname]
  exact append_of_readCompactSize hsize hname

/-- The bytes of a key begin with its name. -/
lemma writeString_prefix_of_getKey (hkey : getKey indexed bytes = some key)
    (hname : key.name.length < 253) : (writeString key.name).isPrefixOf bytes = true := by
  unfold getKey at hkey
  split at hkey
  case h_2 => cases hkey
  case h_1 key' rest hread =>
    cases hkey
    obtain ⟨name, s, hstring, hrest⟩ := exists_of_bind_eq_ok hread
    obtain ⟨llmqType, s₁, -, hrest⟩ := exists_of_bind_eq_ok hrest
    obtain ⟨quorumIndex, s₂, -, hrest⟩ := exists_of_bind_eq_ok hrest
    obtain ⟨inversed, s₃, -, hrest⟩ := exists_of_bind_eq_ok hrest
    obtain ⟨rfl, -⟩ := mk.inj (ok.inj hrest)
    rw [writeString_append_of_readString hstring hname, isPrefixOf_iff_prefix]
    exact prefix_append _ _

/-! ## The bytes of keys -/

section

variable (llmqType quorumIndex)

/-- The bytes of the keys of one index, up to the height. -/
def keyHead : ByteStream :=
  writeString (keyName quorumIndex) ++
    (toLittleEndian 1 llmqType.toUnderlying ++ quorumIndex.elim [] writeInt32)

lemma serialize_minedKey (h : Nat) :
    (minedKey llmqType quorumIndex h).serialize =
      keyHead llmqType quorumIndex ++ writeBigEndian 4 (2 ^ 32 - 1 - h) := by
  simp [InversedHeightKey.serialize, InversedHeightKey.head, keyHead, toLittleEndian_htobe32]

lemma keyHead_isPrefixOf (h : Nat) :
    (keyHead llmqType quorumIndex).isPrefixOf (minedKey llmqType quorumIndex h).serialize =
      true := by
  rw [serialize_minedKey, isPrefixOf_iff_prefix]
  exact prefix_append _ _

end

/-- The two kinds of keys have names of different lengths. -/
lemma head?_serialize_minedKey :
    (minedKey llmqType quorumIndex h).serialize.head? =
      some (if quorumIndex.isSome then 7 else 6) := by
  rw [serialize_minedKey, keyHead, writeString_keyName, cons_append, cons_append, head?_cons]

lemma not_foreign_of_keyName
    (hhead : (writeString (keyName quorumIndex)).isPrefixOf bytes = true) :
    Foreign bytes = false := by
  rw [Foreign]
  cases quorumIndex with
  | none =>
    change (writeString dbMinedCommitmentByInversedHeight).isPrefixOf _ = true at hhead
    rw [hhead, Bool.not_true, Bool.false_and]
  | some index =>
    change (writeString dbMinedCommitmentByInversedHeightQIndexed).isPrefixOf _ = true at hhead
    rw [hhead, Bool.not_true, Bool.and_false]

lemma not_foreign_of_keyHead (hhead : (keyHead llmqType quorumIndex).isPrefixOf bytes = true) :
    Foreign bytes = false := by
  apply not_foreign_of_keyName
  apply isPrefixOf_iff_prefix.mpr
  exact (prefix_append _ _).trans <| isPrefixOf_iff_prefix.mp hhead

lemma not_foreign_minedKey : Foreign (minedKey llmqType quorumIndex h).serialize = false :=
  not_foreign_of_keyHead (keyHead_isPrefixOf llmqType quorumIndex h)

/-- The keys of other parts of the node are recognised. -/
lemma name_ne_of_foreign (hforeign : Foreign bytes = true)
    (hkey : getKey indexed bytes = some key) (quorumIndex : Option Int) :
    key.name ≠ keyName quorumIndex := by
  intro hname
  have hhead := writeString_prefix_of_getKey hkey (hname ▸ length_keyName_lt quorumIndex)
  rw [hname] at hhead
  exact Bool.false_ne_true ((not_foreign_of_keyName hhead).symm.trans hforeign)

/-- The keys of the other kind are recognised. -/
lemma name_ne_of_kind (hkind : quorumIndex.isSome ≠ quorumIndex'.isSome)
    (hkey : getKey indexed (minedKey llmqType quorumIndex' h).serialize = some key) :
    key.name ≠ keyName quorumIndex := by
  intro hname
  have hhead := writeString_prefix_of_getKey hkey (hname ▸ length_keyName_lt quorumIndex)
  rw [hname, isPrefixOf_iff_prefix, writeString_keyName] at hhead
  obtain ⟨rest, hrest⟩ := hhead
  have hfirst := congrArg head? hrest
  rw [head?_serialize_minedKey] at hfirst
  cases quorumIndex <;> cases quorumIndex' <;> first | exact hkind rfl | simp at hfirst

/-- Different keys have different bytes. -/
lemma serialize_injective (hindex : FitsInt quorumIndex) (hindex' : FitsInt quorumIndex')
    (hh : h < 2 ^ 32) (hh' : h' < 2 ^ 32)
    (heq : (minedKey llmqType quorumIndex h).serialize =
      (minedKey llmqType' quorumIndex' h').serialize) :
    llmqType = llmqType' ∧ quorumIndex = quorumIndex' ∧ h = h' := by
  have hkind : quorumIndex.isSome = quorumIndex'.isSome := by
    have hfirst := congrArg head? heq
    rw [head?_serialize_minedKey, head?_serialize_minedKey] at hfirst
    cases quorumIndex <;> cases quorumIndex' <;> first | rfl | simp at hfirst
  have hkey := @getKey_minedKey llmqType quorumIndex h hindex
  rw [heq, hkind, getKey_minedKey hindex'] at hkey
  have hkey := some.inj hkey
  refine ⟨?_, ?_, ?_⟩
  · have htype := congrArg InversedHeightKey.llmqType hkey
    rw [llmqType_minedKey, llmqType_minedKey] at htype
    exact LLMQType.toUnderlying_injective htype.symm
  · have hindex := congrArg InversedHeightKey.quorumIndex hkey
    rw [quorumIndex_minedKey, quorumIndex_minedKey] at hindex
    exact hindex.symm
  · have hheight := congrArg nMinedHeight hkey
    rw [nMinedHeight_minedKey hh, nMinedHeight_minedKey hh'] at hheight
    exact hheight.symm

/-- The keys of one index are ordered from the newest to the oldest. -/
lemma compare_serialize (hh : h < 2 ^ 32) (hh' : h' < 2 ^ 32) :
    compare (minedKey llmqType quorumIndex h).serialize
      (minedKey llmqType quorumIndex h').serialize = compare h' h := by
  rw [serialize_minedKey, serialize_minedKey, compare_append_left,
    compare_writeBigEndian (by omega) (by omega)]
  rcases lt_trichotomy h h' with hlt | heq | hgt
  · rw [Nat.compare_eq_gt.mpr hlt, Nat.compare_eq_gt.mpr (by omega)]
  · rw [Nat.compare_eq_eq.mpr heq.symm, Nat.compare_eq_eq.mpr (by omega)]
  · rw [Nat.compare_eq_lt.mpr hgt, Nat.compare_eq_lt.mpr (by omega)]

/-- An index that does not fit an `int` is written as one that does. -/
lemma exists_fitsInt (llmqType : LLMQType) (quorumIndex : Option Int) :
    ∃ quorumIndex', FitsInt quorumIndex' ∧ ∀ h,
      (minedKey llmqType quorumIndex h).serialize = (minedKey llmqType quorumIndex' h).serialize := by
  cases quorumIndex with
  | none => exact ⟨none, nofun, fun _ => rfl⟩
  | some index =>
    refine ⟨some (toInt32 index), ?_, fun h => ?_⟩
    · intro index' hmem
      cases hmem
      rw [toInt32, Int.bmod_def]
      split <;> omega
    · have hwrite : writeInt32 (toInt32 index) = writeInt32 index := by
        rw [writeInt32, toInt32]
        congr 2
        rw [Int.bmod_def]
        split <;> omega
      have hname : keyName (some index) = keyName (some (toInt32 index)) := rfl
      rw [serialize_minedKey, serialize_minedKey, keyHead, keyHead, elim_some,
        elim_some, hwrite, hname]

/-- Keys that begin like those of an index are keys of the index. -/
lemma eq_of_keyHead_prefix (hindex : FitsInt quorumIndex) (hindex' : FitsInt quorumIndex')
    (hhead : (keyHead llmqType quorumIndex).isPrefixOf
      (minedKey llmqType' quorumIndex' h).serialize = true) :
    llmqType = llmqType' ∧ quorumIndex = quorumIndex' := by
  obtain ⟨rest, hrest⟩ := isPrefixOf_iff_prefix.mp hhead
  have hkind : quorumIndex.isSome = quorumIndex'.isSome := by
    have hfirst := congrArg head? hrest
    rw [head?_serialize_minedKey, keyHead, writeString_keyName] at hfirst
    cases quorumIndex <;> cases quorumIndex' <;> first | rfl | simp at hfirst
  have hlength : (keyHead llmqType quorumIndex).length = (keyHead llmqType' quorumIndex').length := by
    have hname : keyName quorumIndex = keyName quorumIndex' := by rw [keyName, keyName, hkind]
    have hindexBytes : ∀ index : Option Int,
        (index.elim [] writeInt32).length = if index.isSome then 4 else 0 := by
      intro index
      cases index <;> simp [writeInt32]
    simp [keyHead, hname, hindexBytes, hkind]
  rw [serialize_minedKey] at hrest
  have hhead := (append_inj hrest hlength).1
  obtain ⟨htype, hindex, -⟩ := @serialize_injective llmqType llmqType' quorumIndex quorumIndex' 0 0
    hindex hindex' (by decide) (by decide) (by rw [serialize_minedKey, serialize_minedKey, hhead])
  exact ⟨htype, hindex⟩

/-! ## The order of the tuples -/

lemma less_minedKey (hpos : 1 ≤ h) (hh : h < 2 ^ 32) :
    (minedKey llmqType quorumIndex h).less (minedKey llmqType quorumIndex 0) = true := by
  have hlast : htobe32 (2 ^ 32 - 1 - 0) = 2 ^ 32 - 1 := by decide
  have hlt : htobe32 (2 ^ 32 - 1 - h) < 2 ^ 32 - 1 := by
    have hbound := htobe32_lt (2 ^ 32 - 1 - h)
    have hne : htobe32 (2 ^ 32 - 1 - h) ≠ 2 ^ 32 - 1 := by
      intro heq
      have hback := congrArg htobe32 (heq.trans hlast.symm)
      rw [htobe32_htobe32 (by omega), htobe32_htobe32 (by omega)] at hback
      omega
    omega
  have hlt : compare (htobe32 (2 ^ 32 - 1 - h)) (htobe32 (2 ^ 32 - 1 - 0)) = .lt := by
    rw [Nat.compare_eq_lt]
    exact hlt
  simp only [less, name_minedKey, llmqType_minedKey, quorumIndex_minedKey,
    inversedHeight_minedKey, Std.ReflCmp.compare_self, Ordering.then, hlt, decide_true]

lemma not_less_of_index_lt (hlt : index < index') :
    (minedKey llmqType (some index') h).less (minedKey llmqType (some index) 0) = false := by
  have hname : keyName (some index') = keyName (some index) := rfl
  have hindex : compare index' index = .gt := compare_gt_iff_gt.mpr hlt
  simp [less, hname, hindex]

/-- Small indexes are ordered by their first byte. -/
lemma compare_serialize_of_index_lt (hpos : 0 ≤ index) (hlt : index < index')
    (hbyte : index' < 256) :
    compare (minedKey llmqType (some index) h).serialize
      (minedKey llmqType (some index') h').serialize = .lt := by
  have hbytes : ∀ {i : Int}, 0 ≤ i → i < 256 →
      writeInt32 i = ofNat i.toNat :: toLittleEndian 3 0 := by
    intro i hlo hhi
    have hmod : (i % 2 ^ 32).toNat = i.toNat := by omega
    rw [writeInt32, toLittleEndian]
    congr 2
    omega
  have hname : keyName (some index) = keyName (some index') := rfl
  have hfirst : compare (ofNat index.toNat) (ofNat index'.toNat) = .lt := by
    rw [compare_eq_toNat_compare_toNat, toNat_ofNat', toNat_ofNat',
      Nat.compare_eq_lt]
    omega
  simp [serialize_minedKey, keyHead, hname, compare_append_left, hbytes hpos (by omega),
      hbytes (by omega) hbyte, hfirst, Ordering.then]

end Keys

end HootChain.Llmq
