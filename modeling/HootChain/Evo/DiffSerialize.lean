import HootChain.Evo.MnListDiff
import HootChain.Serialize.Formats

/-!
# Masternodes and Diffs on Disk (`evo/dmnstate.h`, `evo/deterministicmns.h`)

How states, state diffs, masternodes and list diffs are written to the database and read
back. The operator key is written in one of two encodings, by the version of the state; in
a state diff the version comes after the key, whose bytes are kept undecoded until then.
-/

namespace HootChain.Evo

open Primitives Foundation Serialize CDeterministicMNState List Nat StateField

/-! ## Operator keys -/

/-- `CBLSPublicKey::SerSize`. -/
def pubKeySize : Nat := 48

/-- The legacy and the basic encoding of the points of the curve. -/
structure BlsEncoding where
  isPoint : Nat → Prop
  /-- `impl.Serialize(specificLegacyScheme)`. -/
  toBytes : Bool → Nat → ByteStream
  /-- `ImplType::FromBytes`, and `CheckMalleable`. -/
  fromBytes : Bool → ByteStream → Option Nat
  length_toBytes : ∀ legacy point, (toBytes legacy point).length = pubKeySize
  toBytes_ne_zero : ∀ legacy point, toBytes legacy point ≠ replicate pubKeySize 0
  fromBytes_toBytes : ∀ legacy point, isPoint point →
    fromBytes legacy (toBytes legacy point) = some point

namespace CBLSLazyPublicKey

variable (bls : BlsEncoding)

def serialize (legacy : Bool) : CBLSLazyPublicKey → ByteStream
  | .null => replicate pubKeySize 0
  | .key point _ => bls.toBytes legacy point

/-- What `Get` makes of a buffer. -/
def ofBytes (legacy : Bool) (vecBytes : ByteStream) : CBLSLazyPublicKey :=
  if vecBytes = replicate pubKeySize 0 then .null
  else
    match bls.fromBytes legacy vecBytes with
    | some point => .key point legacy
    | none => .null

/-- A key that the encodings know. -/
def Fits : CBLSLazyPublicKey → Prop
  | .null => True
  | .key point _ => bls.isPoint point

variable {bls}

lemma length_serialize (legacy : Bool) (pubKey : CBLSLazyPublicKey) :
    (pubKey.serialize bls legacy).length = pubKeySize := by
  cases pubKey with
  | null => exact length_replicate
  | key point => exact bls.length_toBytes legacy point

/-- A key is read as it was written, if that was in its own scheme. -/
lemma ofBytes_serialize {legacy : Bool} {pubKey : CBLSLazyPublicKey} (h : pubKey.Fits bls)
    (hscheme : pubKey.inScheme legacy = true) :
    ofBytes bls legacy (pubKey.serialize bls legacy) = pubKey := by
  cases pubKey with
  | null => exact if_pos rfl
  | key point scheme =>
    obtain rfl : scheme = legacy := eq_of_beq hscheme
    simp [serialize, ofBytes, bls.toBytes_ne_zero, bls.fromBytes_toBytes _ _ h]

end CBLSLazyPublicKey

/-! ## Fields of a state -/

abbrev StateField.Value : StateField → Type
  | .nRegisteredHeight | .nLastPaidHeight | .nPoSePenalty | .nPoSeRevivedHeight
  | .nPoSeBanHeight | .nConsecutivePayments => Int
  | .nRevocationReason | .confirmedHash | .confirmedHashWithProRegTxHash | .keyIDOwner
  | .keyIDVoting | .platformNodeID | .platformP2PPort | .platformHTTPPort | .nVersion => Nat
  | .pubKeyOperator => CBLSLazyPublicKey
  | .addr => CService
  | .scriptPayout | .scriptOperatorPayout => CScript

namespace CDeterministicMNState

def get (s : CDeterministicMNState) : (f : StateField) → f.Value
  | .nRegisteredHeight => s.nRegisteredHeight
  | .nLastPaidHeight => s.nLastPaidHeight
  | .nPoSePenalty => s.nPoSePenalty
  | .nPoSeRevivedHeight => s.nPoSeRevivedHeight
  | .nPoSeBanHeight => s.nPoSeBanHeight
  | .nRevocationReason => s.nRevocationReason
  | .confirmedHash => s.confirmedHash
  | .confirmedHashWithProRegTxHash => s.confirmedHashWithProRegTxHash
  | .keyIDOwner => s.keyIDOwner
  | .pubKeyOperator => s.pubKeyOperator
  | .keyIDVoting => s.keyIDVoting
  | .addr => s.addr
  | .scriptPayout => s.scriptPayout
  | .scriptOperatorPayout => s.scriptOperatorPayout
  | .nConsecutivePayments => s.nConsecutivePayments
  | .platformNodeID => s.platformNodeID
  | .platformP2PPort => s.platformP2PPort
  | .platformHTTPPort => s.platformHTTPPort
  | .nVersion => s.nVersion

/-- A copy with another value of a field. -/
def set (s : CDeterministicMNState) : (f : StateField) → f.Value → CDeterministicMNState
  | .nRegisteredHeight, v => { s with nRegisteredHeight := v }
  | .nLastPaidHeight, v => { s with nLastPaidHeight := v }
  | .nPoSePenalty, v => { s with nPoSePenalty := v }
  | .nPoSeRevivedHeight, v => { s with nPoSeRevivedHeight := v }
  | .nPoSeBanHeight, v => { s with nPoSeBanHeight := v }
  | .nRevocationReason, v => { s with nRevocationReason := v }
  | .confirmedHash, v => { s with confirmedHash := v }
  | .confirmedHashWithProRegTxHash, v => { s with confirmedHashWithProRegTxHash := v }
  | .keyIDOwner, v => { s with keyIDOwner := v }
  | .pubKeyOperator, v => { s with pubKeyOperator := v }
  | .keyIDVoting, v => { s with keyIDVoting := v }
  | .addr, v => { s with addr := v }
  | .scriptPayout, v => { s with scriptPayout := v }
  | .scriptOperatorPayout, v => { s with scriptOperatorPayout := v }
  | .nConsecutivePayments, v => { s with nConsecutivePayments := v }
  | .platformNodeID, v => { s with platformNodeID := v }
  | .platformP2PPort, v => { s with platformP2PPort := v }
  | .platformHTTPPort, v => { s with platformHTTPPort := v }
  | .nVersion, v => { s with nVersion := v }

variable {s t : CDeterministicMNState} {f g : StateField}

@[simp] lemma get_set_self (v : f.Value) : (s.set f v).get f = v := by
  cases f <;> rfl

lemma get_set_of_ne (h : g ≠ f) (v : f.Value) : (s.set f v).get g = s.get g := by
  cases f <;> cases g <;> first | rfl | exact absurd rfl h

/-- A state is determined by its fields. -/
lemma eq_of_get (h : ∀ f, s.get f = t.get f) : s = t := by
  rw [mk.injEq]
  exact ⟨h .nPoSeBanHeight, h .nVersion, h .nRegisteredHeight, h .nLastPaidHeight,
    h .nConsecutivePayments, h .nPoSePenalty, h .nPoSeRevivedHeight, h .nRevocationReason,
    h .confirmedHash, h .confirmedHashWithProRegTxHash, h .keyIDOwner, h .pubKeyOperator,
    h .keyIDVoting, h .addr, h .scriptPayout, h .scriptOperatorPayout, h .platformNodeID,
    h .platformP2PPort, h .platformHTTPPort⟩

end CDeterministicMNState

lemma CDeterministicMNStateDiff.get_applyToState (d : CDeterministicMNStateDiff)
    (target : CDeterministicMNState) (f : StateField) :
    (d.applyToState target).get f = if d.fields f then d.state.get f else target.get f := by
  cases f <;> rfl

/-! ## Fields on disk -/

/-- A value that the C++ type of the field can hold. -/
def StateField.Fits (bls : BlsEncoding) : (f : StateField) → f.Value → Prop
  | .nRegisteredHeight, v | .nLastPaidHeight, v | .nPoSePenalty, v | .nPoSeRevivedHeight, v
  | .nPoSeBanHeight, v | .nConsecutivePayments, v => -2 ^ 31 ≤ v ∧ v < 2 ^ 31
  | .nVersion, v => v < 256 ^ 4
  | .nRevocationReason, v | .platformP2PPort, v | .platformHTTPPort, v => v < 256 ^ 2
  | .confirmedHash, v | .confirmedHashWithProRegTxHash, v => v < 256 ^ 32
  | .keyIDOwner, v | .keyIDVoting, v | .platformNodeID, v => v < 256 ^ 20
  | .pubKeyOperator, v => v.Fits bls
  | .addr, v => v.ip < 256 ^ 16 ∧ v.port < 256 ^ 2
  | .scriptPayout, v | .scriptOperatorPayout, v => v.length ≤ maxSize

/-- `CService`, in the format before ADDRv2. -/
def CService.serialize (service : CService) : ByteStream :=
  writeBigEndian 16 service.ip ++ writeBigEndian 2 service.port

/-- `CService`, in the format before ADDRv2. -/
def CService.unserialize : Unserializer CService := do
  let ip ← readBigEndian 16
  let port ← readBigEndian 2
  pure ⟨ip, port⟩

lemma CService.reads_unserialize {service : CService} (hip : service.ip < 256 ^ 16)
    (hport : service.port < 256 ^ 2) : ReadsBack unserialize service.serialize service :=
  (reads_bigEndian hip).bind ((reads_bigEndian hport).map (CService.mk service.ip))

/-- `obj.nVersion == CProRegTx::LEGACY_BLS_VERSION`. -/
def CDeterministicMNState.isLegacy (s : CDeterministicMNState) : Bool :=
  s.nVersion == legacyBlsVersion

/-- The operator key is in the scheme in which the state is written. -/
def CDeterministicMNState.keyInScheme (s : CDeterministicMNState) : Bool :=
  s.pubKeyOperator.inScheme s.isLegacy

/-- A field as it is written. -/
def CDeterministicMNState.writeField (bls : BlsEncoding) (s : CDeterministicMNState) :
    StateField → ByteStream
  | .nRegisteredHeight => writeInt32 s.nRegisteredHeight
  | .nLastPaidHeight => writeInt32 s.nLastPaidHeight
  | .nPoSePenalty => writeInt32 s.nPoSePenalty
  | .nPoSeRevivedHeight => writeInt32 s.nPoSeRevivedHeight
  | .nPoSeBanHeight => writeInt32 s.nPoSeBanHeight
  | .nRevocationReason => toLittleEndian 2 s.nRevocationReason
  | .confirmedHash => toLittleEndian 32 s.confirmedHash
  | .confirmedHashWithProRegTxHash => toLittleEndian 32 s.confirmedHashWithProRegTxHash
  | .keyIDOwner => toLittleEndian 20 s.keyIDOwner
  | .pubKeyOperator => s.pubKeyOperator.serialize bls s.isLegacy
  | .keyIDVoting => toLittleEndian 20 s.keyIDVoting
  | .addr => s.addr.serialize
  | .scriptPayout => writeString s.scriptPayout
  | .scriptOperatorPayout => writeString s.scriptOperatorPayout
  | .nConsecutivePayments => writeInt32 s.nConsecutivePayments
  | .platformNodeID => toLittleEndian 20 s.platformNodeID
  | .platformP2PPort => toLittleEndian 2 s.platformP2PPort
  | .platformHTTPPort => toLittleEndian 2 s.platformHTTPPort
  | .nVersion => toLittleEndian 4 s.nVersion

/-- A state while it is read. The operator key is a buffer that is decoded when it is first
used, and by then the version is known. -/
structure StateBuffer where
  state : CDeterministicMNState := {}
  vecBytes : ByteStream := replicate pubKeySize 0

open StateBuffer

namespace StateBuffer

def put (b : StateBuffer) (f : StateField) (v : f.Value) : StateBuffer :=
  { b with state := b.state.set f v }

/-- A field read into the state. -/
def readField (b : StateBuffer) : StateField → Unserializer StateBuffer
  | .nRegisteredHeight => readInt32 >>= fun v => pure (b.put .nRegisteredHeight v)
  | .nLastPaidHeight => readInt32 >>= fun v => pure (b.put .nLastPaidHeight v)
  | .nPoSePenalty => readInt32 >>= fun v => pure (b.put .nPoSePenalty v)
  | .nPoSeRevivedHeight => readInt32 >>= fun v => pure (b.put .nPoSeRevivedHeight v)
  | .nPoSeBanHeight => readInt32 >>= fun v => pure (b.put .nPoSeBanHeight v)
  | .nRevocationReason => readUInt 2 >>= fun v => pure (b.put .nRevocationReason v)
  | .confirmedHash => readUInt 32 >>= fun v => pure (b.put .confirmedHash v)
  | .confirmedHashWithProRegTxHash =>
    readUInt 32 >>= fun v => pure (b.put .confirmedHashWithProRegTxHash v)
  | .keyIDOwner => readUInt 20 >>= fun v => pure (b.put .keyIDOwner v)
  | .pubKeyOperator =>
    (readBytes pubKeySize : Unserializer ByteStream) >>= fun v => pure { b with vecBytes := v }
  | .keyIDVoting => readUInt 20 >>= fun v => pure (b.put .keyIDVoting v)
  | .addr => CService.unserialize >>= fun v => pure (b.put .addr v)
  | .scriptPayout => readString >>= fun v => pure (b.put .scriptPayout v)
  | .scriptOperatorPayout => readString >>= fun v => pure (b.put .scriptOperatorPayout v)
  | .nConsecutivePayments => readInt32 >>= fun v => pure (b.put .nConsecutivePayments v)
  | .platformNodeID => readUInt 20 >>= fun v => pure (b.put .platformNodeID v)
  | .platformP2PPort => readUInt 2 >>= fun v => pure (b.put .platformP2PPort v)
  | .platformHTTPPort => readUInt 2 >>= fun v => pure (b.put .platformHTTPPort v)
  | .nVersion => readUInt 4 >>= fun v => pure (b.put .nVersion v)

/-- The state, with the operator key decoded. -/
def decode (bls : BlsEncoding) (b : StateBuffer) : CDeterministicMNState :=
  b.state.set .pubKeyOperator (.ofBytes bls b.state.isLegacy b.vecBytes)

/-- A buffer after a field of `s` has been read. -/
def assign (bls : BlsEncoding) (s : CDeterministicMNState) (b : StateBuffer) (f : StateField) :
    StateBuffer :=
  if f = .pubKeyOperator then { b with vecBytes := s.writeField bls .pubKeyOperator }
  else b.put f (s.get f)

variable {bls : BlsEncoding} {s : CDeterministicMNState} {f : StateField}

lemma reads_readField (b : StateBuffer) (h : f.Fits bls (s.get f)) :
    ReadsBack (b.readField f) (s.writeField bls f) (b.assign bls s f) := by
  cases f with
  | pubKeyOperator => exact (reads_bytes (CBLSLazyPublicKey.length_serialize ..)).map _
  | addr => exact (CService.reads_unserialize h.1 h.2).map _
  | scriptPayout | scriptOperatorPayout => exact (reads_string h).map _
  | nRegisteredHeight | nLastPaidHeight | nPoSePenalty | nPoSeRevivedHeight | nPoSeBanHeight
  | nConsecutivePayments => exact (reads_int32 h.1 h.2).map _
  | nRevocationReason | confirmedHash | confirmedHashWithProRegTxHash | keyIDOwner | keyIDVoting
  | platformNodeID | platformP2PPort | platformHTTPPort | nVersion =>
    exact (reads_littleEndian h).map _

variable {fs : List StateField}

/-- The fields that were read have the values of `s`. -/
lemma get_foldl_assign (b : StateBuffer) (hf : f ≠ .pubKeyOperator) :
    (fs.foldl (assign bls s) b).state.get f = if f ∈ fs then s.get f else b.state.get f := by
  induction fs generalizing b with
  | nil => rfl
  | cons g fs ih =>
    have hone : (b.assign bls s g).state.get f = if f = g then s.get f else b.state.get f := by
      unfold assign put
      by_cases hfg : f = g
      · subst hfg
        rw [if_neg hf, if_pos rfl]
        exact get_set_self _
      · split
        · rfl
        · exact get_set_of_ne hfg _
    rw [foldl_cons, ih, hone]
    by_cases hfg : f = g <;> simp [hfg]

lemma vecBytes_foldl_assign (b : StateBuffer) :
    (fs.foldl (assign bls s) b).vecBytes =
      if .pubKeyOperator ∈ fs then s.writeField bls .pubKeyOperator else b.vecBytes := by
  induction fs generalizing b with
  | nil => rfl
  | cons g fs ih =>
    rw [foldl_cons, ih]
    unfold assign put
    by_cases hg : g = .pubKeyOperator
    · simp [hg]
    · simp [hg, Ne.symm hg]

lemma reads_fields (h : ∀ f ∈ fs, f.Fits bls (s.get f)) :
    ReadsBack (fs.foldlM readField {}) (fs.flatMap (s.writeField bls))
      (fs.foldl (assign bls s) {}) := by
  apply ReadsBack.foldlM
  intro b f hf
  exact reads_readField b (h f hf)

/-- **Decoding.** A state whose unread fields have their defaults is what the buffer
decodes to. -/
theorem decode_foldl_assign (hkey : s.pubKeyOperator.Fits bls) (hscheme : s.keyInScheme = true)
    (hdefault : ∀ f ∉ fs, s.get f = get {} f) : (fs.foldl (assign bls s) {}).decode bls = s := by
  have hread : ∀ f ≠ .pubKeyOperator, (fs.foldl (assign bls s) {}).state.get f = s.get f := by
    intro f hf
    rw [get_foldl_assign _ hf]
    split
    · rfl
    · next hunread => exact (hdefault f hunread).symm
  apply eq_of_get
  intro f
  unfold decode
  by_cases hf : f = .pubKeyOperator
  · subst hf
    rw [get_set_self, vecBytes_foldl_assign]
    split
    · -- the key was read, and the version by which it was written
      have hlegacy : (fs.foldl (assign bls s) {}).state.isLegacy = s.isLegacy :=
        congrArg (· == legacyBlsVersion) (hread .nVersion (by decide))
      rw [hlegacy]
      exact CBLSLazyPublicKey.ofBytes_serialize hkey hscheme
    · next hunread =>
      rw [hdefault _ hunread]
      exact if_pos rfl
  · rw [get_set_of_ne hf]
    exact hread f hf

end StateBuffer

/-! ## States and state diffs on disk -/

/-- A state whose fields have values of their C++ types. -/
def CDeterministicMNState.Fits (bls : BlsEncoding) (s : CDeterministicMNState) : Prop :=
  ∀ f : StateField, f.Fits bls (s.get f)

/-- The fields in the order of `SERIALIZE_METHODS(CDeterministicMNState, obj)`. -/
def StateField.serialized : List StateField :=
  [.nVersion, .nRegisteredHeight, .nLastPaidHeight, .nConsecutivePayments, .nPoSePenalty,
    .nPoSeRevivedHeight, .nPoSeBanHeight, .nRevocationReason, .confirmedHash,
    .confirmedHashWithProRegTxHash, .keyIDOwner, .pubKeyOperator, .keyIDVoting, .addr,
    .scriptPayout, .scriptOperatorPayout, .platformNodeID, .platformP2PPort, .platformHTTPPort]

lemma StateField.mem_serialized (f : StateField) : f ∈ serialized := by
  cases f <;> decide

lemma StateField.mem_all (f : StateField) : f ∈ all := by
  cases f <;> decide

def CDeterministicMNState.serialize (bls : BlsEncoding) (s : CDeterministicMNState) : ByteStream :=
  serialized.flatMap (s.writeField bls)

def CDeterministicMNState.unserialize (bls : BlsEncoding) : Unserializer CDeterministicMNState := do
  let b ← serialized.foldlM readField {}
  pure (b.decode bls)

variable {bls : BlsEncoding}

/-- A state is read back as it was written. -/
lemma reads_state {s : CDeterministicMNState} (hfits : s.Fits bls)
    (hscheme : s.keyInScheme = true) :
    ReadsBack (unserialize bls) (s.serialize bls) s := by
  have hfields := reads_fields fun f (_ : f ∈ serialized) => hfits f
  have hread := hfields.map (decode bls)
  rwa [decode_foldl_assign (hfits .pubKeyOperator) hscheme
    (fun f hf => absurd (mem_serialized f) hf)] at hread

/-- The number of the bit that `Field_##f` has. -/
def StateField.bit (f : StateField) : Nat := all.idxOf f

lemma StateField.bit_lt (f : StateField) : f.bit < 19 := by
  cases f <;> decide

namespace CDeterministicMNStateDiff

/-- The bits of `fields`. -/
def mask (d : CDeterministicMNStateDiff) : Nat :=
  Nat.ofBits fun i : Fin 19 => d.fields (all.get i)

lemma testBit_mask (d : CDeterministicMNStateDiff) (f : StateField) :
    d.mask.testBit f.bit = d.fields f := by
  rw [mask, testBit_ofBits_lt _ _ f.bit_lt]
  cases f <;> rfl

def serialize (bls : BlsEncoding) (d : CDeterministicMNStateDiff) : ByteStream :=
  writeVarInt d.mask ++ (all.filter d.fields).flatMap (d.state.writeField bls)

/-- `CDeterministicMNStateDiff::Unserialize`. A key that was read brings its version. -/
def unserialize (bls : BlsEncoding) : Unserializer CDeterministicMNStateDiff := do
  let fields ← (readVarInt (2 ^ 32 - 1) : Unserializer Nat)
  let b ← (all.filter fun f => fields.testBit f.bit).foldlM readField {}
  pure
    { fields := fun f =>
        fields.testBit f.bit || (f == .nVersion && fields.testBit pubKeyOperator.bit)
      state := b.decode bls }

/-- What a diff is like that was made of two states: a changed key has its version with it,
and what did not change has the value of a new state. -/
structure Proper (bls : BlsEncoding) (d : CDeterministicMNStateDiff) : Prop where
  fits : ∀ f, d.fields f = true → f.Fits bls (d.state.get f)
  key_fits : d.state.pubKeyOperator.Fits bls
  key_scheme : d.state.keyInScheme = true
  version : d.fields .pubKeyOperator = true → d.fields .nVersion = true
  default : ∀ f, d.fields f = false → d.state.get f = CDeterministicMNState.get {} f

lemma proper_diff {a b : CDeterministicMNState} (hfits : b.Fits bls)
    (hscheme : a.pubKeyOperator.same b.pubKeyOperator = false → b.keyInScheme = true) :
    (diff a b).Proper bls := by
  have hget : ∀ f, (diff a b).state.get f =
      if (diff a b).fields f then b.get f else get {} f :=
    fun f => get_applyToState _ _ f
  have hset : ∀ f, (diff a b).fields f = true → f.Fits bls ((diff a b).state.get f) := by
    intro f hf
    rw [hget, if_pos hf]
    exact hfits f
  have hunset : ∀ f, (diff a b).fields f = false →
      (diff a b).state.get f = get {} f := by
    intro f hf
    rw [hget, if_neg (by rw [hf]; exact Bool.false_ne_true)]
  have hversion : (diff a b).fields .pubKeyOperator = true → (diff a b).fields .nVersion = true := by
    intro hkey
    simp only [diff] at hkey ⊢
    simp_all
  cases hkey : (diff a b).fields .pubKeyOperator with
  | true =>
    refine ⟨hset, hset _ hkey, ?_, hversion, hunset⟩
    -- the key of the diff comes with its version
    have hpubKey : (diff a b).state.pubKeyOperator = b.pubKeyOperator :=
      (hget .pubKeyOperator).trans (if_pos hkey)
    have hlegacy : (diff a b).state.isLegacy = b.isLegacy :=
      congrArg (· == legacyBlsVersion) ((hget .nVersion).trans (if_pos (hversion hkey)))
    rw [keyInScheme, hpubKey, hlegacy]
    exact hscheme (by simpa [diff, changed] using hkey)
  | false =>
    have hnull : (diff a b).state.pubKeyOperator = .null := hunset _ hkey
    refine ⟨hset, ?_, ?_, hversion, hunset⟩
    · rw [hnull]
      exact trivial
    · rw [keyInScheme, hnull]
      rfl

/-- So is a state diff that has the values of a new state where no field is set. -/
lemma reads_unserialize {d : CDeterministicMNStateDiff} (hproper : d.Proper bls) :
    ReadsBack (unserialize bls) (d.serialize bls) d := by
  have hmask : d.mask ≤ 2 ^ 32 - 1 := by
    have hlt : d.mask < 2 ^ 19 := ofBits_lt_two_pow _
    omega
  have hbits : (fun f : StateField => d.mask.testBit f.bit) = d.fields := funext d.testBit_mask
  refine (reads_varInt hmask).bind ?_
  have hfields := reads_fields
    fun f (hf : f ∈ all.filter d.fields) => hproper.fits f (mem_filter.mp hf).2
  have hread := hfields.map fun b =>
    ({ fields := fun f =>
        d.mask.testBit f.bit || (f == .nVersion && d.mask.testBit pubKeyOperator.bit)
       state := b.decode bls } : CDeterministicMNStateDiff)
  have hdecode : ((all.filter d.fields).foldl (assign bls d.state)
      {}).decode bls = d.state := by
    apply decode_foldl_assign hproper.key_fits hproper.key_scheme
    intro f hf
    apply hproper.default
    cases hset : d.fields f with
    | false => rfl
    | true => exact absurd (mem_filter.mpr ⟨mem_all f, hset⟩) hf
  have hversion : (fun f : StateField =>
      d.mask.testBit f.bit || (f == .nVersion && d.mask.testBit pubKeyOperator.bit)) =
      d.fields := by
    funext f
    rw [testBit_mask, testBit_mask]
    -- only the bit of the version could be new, and it is there already
    by_cases hf : f = .nVersion
    · subst hf
      cases hkey : d.fields .pubKeyOperator with
      | false => simp
      | true => simp [hproper.version hkey]
    · simp [hf]
  rw [hdecode, hversion] at hread
  rw [hbits]
  simp only [hversion]
  exact hread

end CDeterministicMNStateDiff

/-! ## Masternodes on disk -/

/-- The number of a type. -/
def MnType.toRaw : MnType → Nat
  | .regular => 0
  | .evo => 1
  | .invalid raw => raw

/-- The type with a number. -/
def MnType.ofRaw : Nat → MnType
  | 0 => .regular
  | 1 => .evo
  | raw => .invalid raw

/-- A type of 16 bits, the valid ones under their names. -/
def MnType.Fits : MnType → Prop
  | .regular | .evo => True
  | .invalid raw => 2 ≤ raw ∧ raw < 256 ^ 2

lemma MnType.toRaw_lt {nType : MnType} (h : nType.Fits) : nType.toRaw < 256 ^ 2 := by
  cases nType with
  | regular | evo => decide
  | invalid raw => exact h.2

lemma MnType.ofRaw_toRaw {nType : MnType} (h : nType.Fits) : ofRaw nType.toRaw = nType := by
  cases nType with
  | regular | evo => rfl
  | invalid raw =>
    obtain ⟨raw, rfl⟩ := Nat.exists_eq_add_of_le' h.1
    rfl

def serializeOutPoint (outpoint : COutPoint) : ByteStream :=
  toLittleEndian 32 outpoint.hash ++ toLittleEndian 4 outpoint.n

def unserializeOutPoint : Unserializer COutPoint := do
  let hash ← readUInt 32
  let n ← readUInt 4
  pure ⟨hash, n⟩

lemma reads_outPoint {outpoint : COutPoint} (hhash : outpoint.hash < 256 ^ 32)
    (hn : outpoint.n < 256 ^ 4) :
    ReadsBack unserializeOutPoint (serializeOutPoint outpoint) outpoint :=
  (reads_littleEndian hhash).bind ((reads_littleEndian hn).map (COutPoint.mk outpoint.hash))

namespace CDeterministicMN

def serialize (bls : BlsEncoding) (dmn : CDeterministicMN) : ByteStream :=
  toLittleEndian 32 dmn.proTxHash ++
    (writeVarInt dmn.internalId ++
      (serializeOutPoint dmn.collateralOutpoint ++
        (toLittleEndian 2 dmn.nOperatorReward ++
          (dmn.pdmnState.serialize bls ++ toLittleEndian 2 dmn.nType.toRaw))))

/-- `CDeterministicMN::Unserialize` with `MN_CURRENT_FORMAT`. -/
def unserialize (bls : BlsEncoding) : Unserializer CDeterministicMN := do
  let proTxHash ← readUInt 32
  let internalId ← (readVarInt (2 ^ 64 - 1) : Unserializer Nat)
  let collateralOutpoint ← unserializeOutPoint
  let nOperatorReward ← readUInt 2
  let pdmnState ← CDeterministicMNState.unserialize bls
  let nType ← readUInt 2
  pure ⟨internalId, proTxHash, collateralOutpoint, nOperatorReward, .ofRaw nType, pdmnState⟩

/-- A masternode whose fields have values of their C++ types. -/
structure Fits (bls : BlsEncoding) (dmn : CDeterministicMN) : Prop where
  proTxHash : dmn.proTxHash < 256 ^ 32
  internalId : dmn.internalId ≤ 2 ^ 64 - 1
  outpoint_hash : dmn.collateralOutpoint.hash < 256 ^ 32
  outpoint_n : dmn.collateralOutpoint.n < 256 ^ 4
  nOperatorReward : dmn.nOperatorReward < 256 ^ 2
  nType : dmn.nType.Fits
  state : dmn.pdmnState.Fits bls

lemma reads_unserialize {dmn : CDeterministicMN} (hfits : dmn.Fits bls)
    (hscheme : dmn.pdmnState.keyInScheme = true) :
    ReadsBack (unserialize bls) (dmn.serialize bls) dmn := by
  refine (reads_littleEndian hfits.proTxHash).bind ?_
  refine (reads_varInt hfits.internalId).bind ?_
  refine (reads_outPoint hfits.outpoint_hash hfits.outpoint_n).bind ?_
  refine (reads_littleEndian hfits.nOperatorReward).bind ?_
  refine (reads_state hfits.state hscheme).bind ?_
  have hread := (reads_littleEndian (MnType.toRaw_lt hfits.nType)).map fun nType =>
    CDeterministicMN.mk dmn.internalId dmn.proTxHash dmn.collateralOutpoint dmn.nOperatorReward
      (.ofRaw nType) dmn.pdmnState
  rwa [MnType.ofRaw_toRaw hfits.nType] at hread

end CDeterministicMN

/-! ## Diffs of lists on disk -/

namespace CDeterministicMNListDiff

/-- `updatedMNs.emplace` for one entry after the other: the first entry of an id stays. -/
def emplaceAll (updates : List (Nat × CDeterministicMNStateDiff)) :
    List (Nat × CDeterministicMNStateDiff) :=
  updates.foldl (fun m p => if m.any (·.1 == p.1) then m else m ++ [p]) []

/-- `removedMns.emplace` for one id after the other. -/
def emplaceIds (ids : List Nat) : List Nat := ids.dedup.insertionSort (· ≤ ·)

section

variable (bls : BlsEncoding)

/-- One entry of `updatedMNs`. -/
def writeUpdate (p : Nat × CDeterministicMNStateDiff) : ByteStream :=
  writeVarInt p.1 ++ p.2.serialize bls

/-- One entry of `updatedMNs`. -/
def readUpdate : Unserializer (Nat × CDeterministicMNStateDiff) := do
  let tmp2 ← (readVarInt (2 ^ 64 - 1) : Unserializer Nat)
  let diff ← CDeterministicMNStateDiff.unserialize bls
  pure (tmp2, diff)

def serialize (d : CDeterministicMNListDiff) : ByteStream :=
  writeVector (CDeterministicMN.serialize bls) d.addedMNs ++
    (writeVector (writeUpdate bls) d.updatedMNs ++ writeVector writeVarInt d.removedMns)

/-- `CDeterministicMNListDiff::Unserialize` with `MN_CURRENT_FORMAT`. -/
def unserialize : Unserializer CDeterministicMNListDiff := do
  let addedMNs ← readVector (CDeterministicMN.unserialize bls)
  let updatedMNs ← readVector (readUpdate bls)
  let removedMns ← readVector (readVarInt (2 ^ 64 - 1) : Unserializer Nat)
  pure ⟨-1, addedMNs, emplaceAll updatedMNs, emplaceIds removedMns⟩

end

/-- What a diff is like that is kept: its maps and sets are in order, its numbers and counts
in range. -/
structure Proper (bls : BlsEncoding) (d : CDeterministicMNListDiff) : Prop where
  nHeight : d.nHeight = -1
  added_fits : ∀ dmn ∈ d.addedMNs, dmn.Fits bls ∧ dmn.pdmnState.keyInScheme = true
  updated_proper : ∀ p ∈ d.updatedMNs, p.1 ≤ 2 ^ 64 - 1 ∧ p.2.Proper bls
  removed_fits : ∀ id ∈ d.removedMns, id ≤ 2 ^ 64 - 1
  updated_nodup : (d.updatedMNs.map Prod.fst).Nodup
  removed_sorted : d.removedMns.Pairwise (· < ·)
  added_size : d.addedMNs.length ≤ maxSize
  updated_size : d.updatedMNs.length ≤ maxSize
  removed_size : d.removedMns.length ≤ maxSize

lemma emplaceAll_of_nodup {updates : List (Nat × CDeterministicMNStateDiff)}
    (h : (updates.map Prod.fst).Nodup) : emplaceAll updates = updates := by
  -- the entries that were read so far stay in front of those still to come
  have hrun : ∀ done, ((done ++ updates).map Prod.fst).Nodup →
      updates.foldl (fun m p => if m.any (·.1 == p.1) then m else m ++ [p]) done =
        done ++ updates := by
    induction updates with
    | nil => simp
    | cons p updates ih =>
      intro done hnodup
      have hnew : (done.any (·.1 == p.1)) = false := by
        rw [any_eq_false]
        intro q hq heq
        rw [map_append, nodup_append] at hnodup
        exact hnodup.2.2 q.1 (mem_map_of_mem hq) p.1 (by simp) (eq_of_beq heq)
      rw [foldl_cons, hnew]
      rw [if_neg Bool.false_ne_true, ih (List.Nodup.of_cons (by simpa using h)) (done ++ [p])
        (by simpa using hnodup)]
      simp
  exact hrun [] h

lemma emplaceIds_of_sorted {ids : List Nat} (h : ids.Pairwise (· < ·)) :
    emplaceIds ids = ids := by
  have hnodup : ids.Nodup := h.imp fun hlt => ne_of_lt hlt
  rw [emplaceIds, hnodup.dedup]
  exact (h.imp fun hlt => le_of_lt hlt).insertionSort_eq

/-- **Round trip.** A diff is read back as it was written. -/
theorem reads_unserialize {d : CDeterministicMNListDiff} (hproper : d.Proper bls) :
    ReadsBack (unserialize bls) (d.serialize bls) d := by
  have hadded := reads_vector hproper.added_size fun dmn hdmn =>
    CDeterministicMN.reads_unserialize (hproper.added_fits dmn hdmn).1 (hproper.added_fits dmn hdmn).2
  have hupdated : ReadsBack (readVector (readUpdate bls))
      (writeVector (writeUpdate bls) d.updatedMNs) d.updatedMNs := by
    apply reads_vector hproper.updated_size
    intro p hp
    obtain ⟨hid, hdiff⟩ := hproper.updated_proper p hp
    exact (reads_varInt hid).bind ((CDeterministicMNStateDiff.reads_unserialize hdiff).map _)
  have hremoved := reads_vector hproper.removed_size fun id hid =>
    reads_varInt (hproper.removed_fits id hid)
  refine hadded.bind (hupdated.bind ?_)
  have hread := hremoved.map fun removedMns => mk (-1) d.addedMNs
    (emplaceAll d.updatedMNs) (emplaceIds removedMns)
  rw [emplaceAll_of_nodup hproper.updated_nodup, emplaceIds_of_sorted hproper.removed_sorted,
    ← hproper.nHeight] at hread
  rw [emplaceAll_of_nodup hproper.updated_nodup, ← hproper.nHeight]
  exact hread

end CDeterministicMNListDiff

end HootChain.Evo
