import HootChain.Foundation.EventRuns
import HootChain.Foundation.UniqueIndex
import HootChain.Llmq.InstantSendDb

/-!
# Consistency of the InstantSend Database

The three families of records agree as long as no lock is written over an outpoint of
another one. A removal takes the hash of the removed lock from all its outpoints, whatever
hash is recorded there; if the records were consistent, they are after it.
-/

namespace HootChain.Llmq

open Foundation Primitives Function IsDb List Option

variable {Sig : Type}

/-! ## What a batch does to the records of locks -/

namespace BatchOp

/-- The entry writes a lock, or its hash. -/
def writesLock : BatchOp Sig → Bool
  | .writeIslock .. | .writeTxid .. | .writeOutpoint .. => true
  | _ => false

/-- The entry is about the heights of locks and about archived locks only. -/
def bookkeeps : BatchOp Sig → Bool
  | .writeMined .. | .eraseMined .. | .writeArchivedAt .. | .eraseArchivedAt .. => true
  | .writeArchived .. | .eraseArchived .. => true
  | _ => false

end BatchOp

namespace IsDb

variable {db : IsDb Sig} {batch : List (BatchOp Sig)} {hash txid : Uint256}
  {islock : CInstantSendLock Sig} {outpoint : COutPoint}

/-- A record is there after a batch without writes of locks, if it was there before and the
batch does not erase it. -/
lemma writeBatch_iff {P : IsDb Sig → Prop} {erasure : BatchOp Sig}
    (happly : ∀ db op, op.writesLock = false → (P (apply db op) ↔ P db ∧ erasure ≠ op))
    (hbatch : ∀ op ∈ batch, op.writesLock = false) :
    P (db.writeBatch batch) ↔ P db ∧ erasure ∉ batch := by
  induction batch generalizing db with
  | nil => simp [writeBatch]
  | cons op batch ih =>
    obtain ⟨hop, hbatch⟩ := forall_mem_cons.mp hbatch
    show P ((db.apply op).writeBatch batch) ↔ _
    rw [ih hbatch, happly db op hop, mem_cons, not_or, and_assoc]

section

variable (hbatch : ∀ op ∈ batch, op.writesLock = false)

include hbatch

lemma islockByHash_writeBatch :
    (db.writeBatch batch).islockByHash hash = some islock ↔
      db.islockByHash hash = some islock ∧ .eraseIslock hash ∉ batch := by
  apply writeBatch_iff (P := fun db => db.islockByHash hash = some islock) _ hbatch
  intro db op hop
  cases op with
  | writeIslock => cases hop
  | eraseIslock hash' => by_cases heq : hash = hash' <;> simp [apply, heq]
  | _ => simp [apply]

lemma hashByTxid_writeBatch :
    (db.writeBatch batch).hashByTxid txid = some hash ↔
      db.hashByTxid txid = some hash ∧ .eraseTxid txid ∉ batch := by
  apply writeBatch_iff (P := fun db => db.hashByTxid txid = some hash) _ hbatch
  intro db op hop
  cases op with
  | writeTxid => cases hop
  | eraseTxid txid' => by_cases heq : txid = txid' <;> simp [apply, heq]
  | _ => simp [apply]

lemma hashByOutpoint_writeBatch :
    (db.writeBatch batch).hashByOutpoint[outpoint]? = some hash ↔
      db.hashByOutpoint[outpoint]? = some hash ∧ .eraseOutpoint outpoint ∉ batch := by
  apply writeBatch_iff (P := fun db => db.hashByOutpoint[outpoint]? = some hash) _ hbatch
  intro db op hop
  cases op with
  | writeOutpoint => cases hop
  | eraseOutpoint outpoint' =>
    by_cases heq : outpoint = outpoint'
    · simp [apply, heq]
    · simp [apply, Std.TreeMap.getElem?_erase, heq, Ne.symm heq]
  | _ => simp [apply]

end

/-! ## Consistent records -/

/-- The hash of every stored lock is recorded under its outpoints and its transaction, and
what is recorded under an outpoint or a transaction is the hash of such a lock. -/
structure Consistent (db : IsDb Sig) : Prop where
  byOutpoint : ∀ hash islock, db.islockByHash hash = some islock →
    ∀ outpoint ∈ islock.inputs, db.hashByOutpoint[outpoint]? = some hash
  byTxid : ∀ hash islock, db.islockByHash hash = some islock → db.hashByTxid islock.txid = some hash
  ofOutpoint : ∀ (outpoint : COutPoint) (hash : Uint256),
    db.hashByOutpoint[outpoint]? = some hash →
      ∃ islock, db.islockByHash hash = some islock ∧ outpoint ∈ islock.inputs
  ofTxid : ∀ txid hash, db.hashByTxid txid = some hash →
    ∃ islock, db.islockByHash hash = some islock ∧ islock.txid = txid

/-- No two stored locks spend the same outpoint. -/
def SpendsOnce (db : IsDb Sig) : Prop :=
  ∀ hash islock hash' islock', db.islockByHash hash = some islock →
    db.islockByHash hash' = some islock' →
      ∀ outpoint ∈ islock.inputs, outpoint ∈ islock'.inputs → hash = hash'

/-- The two indexes of the stored locks. -/
lemma consistent_iff : db.Consistent ↔
    Files db.islockByHash (db.hashByOutpoint[·]?) (fun islock outpoint => outpoint ∈ islock.inputs) ∧
      Files db.islockByHash db.hashByTxid fun islock txid => islock.txid = txid := by
  refine ⟨fun h => ⟨⟨fun hstored hmem => h.byOutpoint _ _ hstored _ hmem, h.ofOutpoint _ _⟩,
    ⟨fun hstored htxid => htxid ▸ h.byTxid _ _ hstored, h.ofTxid _ _⟩⟩, fun h => ?_⟩
  exact ⟨fun _ _ hstored _ hmem => h.1.filed hstored hmem, fun _ _ hstored => h.2.filed hstored rfl,
    fun _ _ => h.1.found, fun _ _ => h.2.found⟩

lemma Consistent.spendsOnce (h : db.Consistent) : db.SpendsOnce := by
  intro hash islock hash' islock' hstored hstored' outpoint hmem hmem'
  have hentry := h.byOutpoint hash islock hstored outpoint hmem
  rw [h.byOutpoint hash' islock' hstored' outpoint hmem'] at hentry
  exact (some.inj hentry).symm

lemma consistent_empty : (empty : IsDb Sig).Consistent where
  byOutpoint _ _ h := by cases h
  byTxid _ _ h := by cases h
  ofOutpoint _ _ h := by simp [empty] at h
  ofTxid _ _ h := by cases h

/-- The batch removes stored locks, each with all its records, and keeps the books. -/
def Removes (db : IsDb Sig) (batch : List (BatchOp Sig)) : Prop :=
  ∀ op ∈ batch, op.bookkeeps = true ∨ ∃ hash islock, db.islockByHash hash = some islock ∧
    op ∈ removalOf hash islock ∧ removalOf hash islock ⊆ batch

lemma Removes.append {batch' : List (BatchOp Sig)} (h : db.Removes batch)
    (h' : db.Removes batch') : db.Removes (batch ++ batch') := by
  intro op hop
  rcases mem_append.mp hop with hop | hop
  · refine (h op hop).imp_right fun ⟨hash, islock, hstored, hmem, hsubset⟩ => ?_
    exact ⟨hash, islock, hstored, hmem, subset_append_of_subset_left _ hsubset⟩
  · refine (h' op hop).imp_right fun ⟨hash, islock, hstored, hmem, hsubset⟩ => ?_
    exact ⟨hash, islock, hstored, hmem, subset_append_of_subset_right _ hsubset⟩

lemma removes_of_bookkeeps (h : ∀ op ∈ batch, op.bookkeeps = true) : db.Removes batch :=
  fun op hop => .inl (h op hop)

lemma removes_removalOf (h : db.islockByHash hash = some islock) :
    db.Removes (removalOf hash islock) :=
  fun _ hop => .inr ⟨hash, islock, h, hop, fun _ hmem => hmem⟩

variable {op : BatchOp Sig}

lemma mem_removalOf : op ∈ removalOf hash islock ↔
    op = .eraseIslock hash ∨ op = .eraseTxid islock.txid ∨
      ∃ outpoint ∈ islock.inputs, .eraseOutpoint outpoint = op := by
  simp [removalOf]

lemma Removes.writesLock (h : db.Removes batch) : ∀ op ∈ batch, op.writesLock = false := by
  intro op hop
  rcases h op hop with hbooks | ⟨hash, islock, -, hmem, -⟩
  · cases op <;> first | rfl | cases hbooks
  · rcases mem_removalOf.mp hmem with rfl | rfl | ⟨outpoint, -, rfl⟩ <;> rfl

/-- What a stored lock has is erased exactly if the lock is. -/
lemma Removes.mem_iff (h : db.Removes batch) {π : Type} {index : π → Option Uint256}
    {has : CInstantSendLock Sig → π → Prop} {erasure : π → BatchOp Sig}
    (hfiles : Files db.islockByHash index has) (hbooks : ∀ p, (erasure p).bookkeeps = false)
    (hhas : ∀ {hash islock p}, erasure p ∈ removalOf hash islock ↔ has islock p) {p : π}
    (hstored : db.islockByHash hash = some islock) (hp : has islock p) :
    erasure p ∈ batch ↔ .eraseIslock hash ∈ batch := by
  constructor
  · intro hop
    -- the removed lock is the one that the index leads to
    obtain ⟨hash', islock', hstored', hmem, hsubset⟩ := (h _ hop).resolve_left (by simp [hbooks])
    have hentry := hfiles.filed hstored' (hhas.mp hmem)
    rw [hfiles.filed hstored hp] at hentry
    cases hentry
    exact hsubset mem_cons_self
  · intro hop
    obtain ⟨hash', islock', hstored', hmem, hsubset⟩ := (h _ hop).resolve_left nofun
    obtain rfl : hash = hash' := by simpa [removalOf] using hmem
    cases hstored.symm.trans hstored'
    exact hsubset (hhas.mpr hp)

/-- **Removal.** Batches that remove stored locks keep the records consistent. -/
theorem Consistent.writeBatch (h : db.Consistent) (hremoves : db.Removes batch) :
    (db.writeBatch batch).Consistent := by
  have hwrites := hremoves.writesLock
  obtain ⟨houtpoints, htxids⟩ := consistent_iff.mp h
  refine consistent_iff.mpr ⟨?_, ?_⟩
  · exact houtpoints.remove (islockByHash_writeBatch hwrites) (hashByOutpoint_writeBatch hwrites)
      (hremoves.mem_iff houtpoints (fun _ => rfl) (by simp [removalOf]))
  · exact htxids.remove (islockByHash_writeBatch hwrites) (hashByTxid_writeBatch hwrites)
      (hremoves.mem_iff htxids (fun _ => rfl) (by simp [removalOf, eq_comm]))

/-! ## Writing a lock -/

lemma writeBatch_writeOutpoint (inputs : List COutPoint) :
    ((db.writeBatch (inputs.map (.writeOutpoint · hash))).islockByHash = db.islockByHash ∧
      (db.writeBatch (inputs.map (.writeOutpoint · hash))).hashByTxid = db.hashByTxid) ∧
      (db.writeBatch (inputs.map (.writeOutpoint · hash))).hashByOutpoint[outpoint]? =
        if outpoint ∈ inputs then some hash else db.hashByOutpoint[outpoint]? := by
  induction inputs generalizing db with
  | nil => simp [writeBatch]
  | cons o inputs ih =>
    obtain ⟨hsame, hentry⟩ := @ih (db.apply (.writeOutpoint o hash))
    refine ⟨hsame, hentry.trans ?_⟩
    by_cases hmem : outpoint ∈ inputs
    · simp [hmem]
    · by_cases heq : outpoint = o
      · simp [heq, apply]
      · simp [hmem, heq, apply, Std.TreeMap.getElem?_insert, Ne.symm heq]

lemma islockByHash_writeLock : (db.writeLock hash islock).islockByHash =
    update db.islockByHash hash (some islock) :=
  (@writeBatch_writeOutpoint _ _ hash ⟨0, 0⟩ islock.inputs).1.1

lemma hashByTxid_writeLock : (db.writeLock hash islock).hashByTxid =
    update db.hashByTxid islock.txid (some hash) :=
  (@writeBatch_writeOutpoint _ _ hash ⟨0, 0⟩ islock.inputs).1.2

lemma hashByOutpoint_writeLock : (db.writeLock hash islock).hashByOutpoint[outpoint]? =
    if outpoint ∈ islock.inputs then some hash else db.hashByOutpoint[outpoint]? :=
  (writeBatch_writeOutpoint islock.inputs).2

/-- **Writes.** A new lock of a transaction without a lock keeps the records consistent
exactly if none of its outpoints is locked. -/
theorem consistent_writeLock_iff (h : db.Consistent) (hnew : db.islockByHash hash = none)
    (htxid : db.hashByTxid islock.txid = none) :
    (db.writeLock hash islock).Consistent ↔
      ∀ outpoint ∈ islock.inputs, db.hashByOutpoint[outpoint]? = none := by
  obtain ⟨houtpoints, htxids⟩ := consistent_iff.mp h
  rw [consistent_iff, islockByHash_writeLock,
    houtpoints.write_iff hnew fun _ => hashByOutpoint_writeLock]
  refine and_iff_left ((htxids.write_iff hnew fun txid => ?_).mpr ?_)
  · rw [hashByTxid_writeLock, update_apply]
    exact if_congr eq_comm rfl rfl
  · rintro _ rfl
    exact htxid

lemma writeBatch_of_bookkeeps (h : ∀ op ∈ batch, op.bookkeeps = true) :
    (db.writeBatch batch).islockByHash = db.islockByHash ∧
      (db.writeBatch batch).hashByTxid = db.hashByTxid ∧
      (db.writeBatch batch).hashByOutpoint = db.hashByOutpoint := by
  induction batch generalizing db with
  | nil => exact ⟨rfl, rfl, rfl⟩
  | cons op batch ih =>
    obtain ⟨hop, hbatch⟩ := forall_mem_cons.mp h
    have hsame : (db.apply op).islockByHash = db.islockByHash ∧
        (db.apply op).hashByTxid = db.hashByTxid ∧
        (db.apply op).hashByOutpoint = db.hashByOutpoint := by
      cases op <;> first | exact ⟨rfl, rfl, rfl⟩ | cases hop
    have hrest := @ih (db.apply op) hbatch
    exact ⟨hrest.1.trans hsame.1, hrest.2.1.trans hsame.2.1, hrest.2.2.trans hsame.2.2⟩

lemma consistent_writeBatch_of_bookkeeps (h : ∀ op ∈ batch, op.bookkeeps = true) :
    (db.writeBatch batch).Consistent ↔ db.Consistent := by
  obtain ⟨hislock, htxid, houtpoint⟩ := @writeBatch_of_bookkeeps _ db _ h
  rw [consistent_iff, consistent_iff, hislock, htxid, houtpoint]

end IsDb

/-! ## Caches that do not hide a stored lock -/

namespace CInstantSendDb

section Caches

variable {hasher : LockHasher Sig} {s s' : CInstantSendDb Sig} {hash txid : Uint256}
  {islock : CInstantSendLock Sig}

/-- Stored locks have the hash they are stored under, and what is cached about what is
stored is right. Entries about locks that are no longer stored may be left in the caches. -/
structure Covered (hasher : LockHasher Sig) (s : CInstantSendDb Sig) : Prop where
  hashed : ∀ hash islock, s.db.islockByHash hash = some islock → hasher.serializeHash islock = hash
  islock : ∀ hash islock, s.db.islockByHash hash = some islock →
    ∀ ret, s.islockCache hash = some ret → ret = some islock
  txid : ∀ txid hash, s.db.hashByTxid txid = some hash →
    ∀ hash', s.txidCache txid = some hash' → hash' = hash

lemma covered_start : Covered hasher (start : CInstantSendDb Sig) where
  hashed _ _ h := by cases h
  islock _ _ h := by cases h
  txid _ _ h := by cases h

lemma Covered.readIslock (h : Covered hasher s) (hash : Uint256) :
    s.db.readIslock hasher hash = s.db.islockByHash hash := by
  cases hstored : s.db.islockByHash hash with
  | none => simp [IsDb.readIslock, hstored]
  | some islock => simp [IsDb.readIslock, hstored, h.hashed hash islock hstored]

/-- Only the caches change, and they stay right. -/
def OnlyReads (hasher : LockHasher Sig) (s s' : CInstantSendDb Sig) : Prop :=
  s'.db = s.db ∧ (Covered hasher s → Covered hasher s')

lemma OnlyReads.refl (s : CInstantSendDb Sig) : OnlyReads hasher s s := ⟨rfl, id⟩

lemma OnlyReads.trans {s'' : CInstantSendDb Sig} (h : OnlyReads hasher s s')
    (h' : OnlyReads hasher s' s'') : OnlyReads hasher s s'' :=
  ⟨h'.1.trans h.1, h'.2 ∘ h.2⟩

variable (hasher) in
lemma onlyReads_getByHash (hash : Uint256) (useCache : Bool) (s : CInstantSendDb Sig) :
    OnlyReads hasher s (getInstantSendLockByHashInternal hasher hash useCache s).2 := by
  refine ⟨db_getByHash hasher hash useCache s, fun h => ?_⟩
  unfold getInstantSendLockByHashInternal
  split
  · exact h
  split
  · exact h
  · refine ⟨h.hashed, fun hash' islock hstored ret hret => ?_, h.txid⟩
    dsimp only at hstored hret
    rw [update_apply] at hret
    split at hret
    case isTrue heq =>
      rw [← some.inj hret, ← heq, h.readIslock]
      exact hstored
    case isFalse => exact h.islock hash' islock hstored ret hret

lemma getByHash_of_stored (h : Covered hasher s) (hstored : s.db.islockByHash hash = some islock)
    (useCache : Bool) :
    (getInstantSendLockByHashInternal hasher hash useCache s).1 = some islock := by
  have hne : hash ≠ 0 := h.hashed hash islock hstored ▸ hasher.serializeHash_ne islock
  rw [getInstantSendLockByHashInternal, if_neg hne]
  split
  case h_1 ret hret =>
    cases useCache with
    | false => cases hret
    | true => exact h.islock hash islock hstored ret hret
  case h_2 => exact (h.readIslock hash).trans hstored

variable (hasher) in
lemma onlyReads_getHashByTxid (txid : Uint256) (s : CInstantSendDb Sig) :
    OnlyReads hasher s (getInstantSendLockHashByTxidInternal txid s).2 := by
  unfold getInstantSendLockHashByTxidInternal
  split
  · exact .refl s
  split
  · exact .refl s
  case h_2 islockHash hentry =>
    refine ⟨rfl, fun h => ⟨h.hashed, h.islock, fun txid' hash hstored hash' hhash' => ?_⟩⟩
    dsimp only at hstored hhash'
    rw [update_apply] at hhash'
    split at hhash'
    case isTrue heq =>
      obtain rfl := some.inj hhash'
      rw [heq, hentry] at hstored
      exact some.inj hstored
    case isFalse => exact h.txid txid' hash hstored hash' hhash'

lemma getHashByTxid_of_stored (h : Covered hasher s) (hentry : s.db.hashByTxid txid = some hash) :
    (getInstantSendLockHashByTxidInternal txid s).1 = hash := by
  unfold getInstantSendLockHashByTxidInternal
  split
  case h_1 hash' hcached => exact h.txid txid hash hentry hash' hcached
  case h_2 => rw [hentry]

variable (hasher) in
lemma onlyReads_getByTxid (txid : Uint256) (s : CInstantSendDb Sig) :
    OnlyReads hasher s (getInstantSendLockByTxid hasher txid s).2 :=
  (onlyReads_getHashByTxid hasher txid s).trans (onlyReads_getByHash ..)

lemma hashByTxid_of_getByTxid (h : Covered hasher s) (hc : s.db.Consistent)
    (hnone : (getInstantSendLockByTxid hasher txid s).1 = none) : s.db.hashByTxid txid = none := by
  by_contra hlocked
  obtain ⟨hash, hentry⟩ := ne_none_iff_exists'.mp hlocked
  obtain ⟨islock, hstored, -⟩ := hc.ofTxid txid hash hentry
  have hreads := onlyReads_getHashByTxid hasher txid s
  have hfound := getByHash_of_stored (hreads.2 h) (hreads.1 ▸ hstored) true
  rw [← getHashByTxid_of_stored h hentry] at hfound
  rw [getInstantSendLockByTxid, hfound] at hnone
  cases hnone

variable (hasher) in
lemma onlyReads_getByInput (outpoint : COutPoint) (s : CInstantSendDb Sig) :
    OnlyReads hasher s (getInstantSendLockByInput hasher outpoint s).2 := by
  unfold getInstantSendLockByInput
  split
  · exact onlyReads_getByHash ..
  split
  · exact .refl s
  case h_2 islockHash _ =>
    have hcached : OnlyReads hasher s
        { s with outpointCache := update s.outpointCache outpoint (some islockHash) } :=
      ⟨rfl, fun h => ⟨h.hashed, h.islock, h.txid⟩⟩
    exact hcached.trans (onlyReads_getByHash ..)

variable (hasher) in
lemma onlyReads_known (islockHash : Uint256) (s : CInstantSendDb Sig) :
    OnlyReads hasher s (knownInstantSendLock hasher islockHash s).2 :=
  onlyReads_getByHash hasher islockHash true s

lemma islockByHash_of_known (h : Covered hasher s)
    (hunknown : (knownInstantSendLock hasher hash s).1 = false) :
    s.db.islockByHash hash = none := by
  by_contra hstored
  obtain ⟨islock, hstored⟩ := ne_none_iff_exists'.mp hstored
  simp [knownInstantSendLock, getByHash_of_stored h hstored true] at hunknown

variable (hasher) in
lemma onlyReads_getByInputs (inputs : List COutPoint) (s : CInstantSendDb Sig) :
    OnlyReads hasher s
      (inputs.foldl (fun s i => (getInstantSendLockByInput hasher i s).2) s) :=
  foldlRecOn inputs _ (.refl s) fun s' h i _ => h.trans (onlyReads_getByInput hasher i s')

variable (hasher) in
lemma onlyReads_lockHashesOf (txids : List Uint256) (s : CInstantSendDb Sig) :
    OnlyReads hasher s (lockHashesOf txids s).2 :=
  foldlRecOn (motive := fun (acc : _ × CInstantSendDb Sig) => OnlyReads hasher s acc.2) txids _
    (.refl s) fun acc h txid _ => h.trans (onlyReads_getHashByTxid hasher txid acc.2)

end Caches

/-! ## Steps -/

section Steps

variable {hasher : LockHasher Sig} {s s' : CInstantSendDb Sig} {hash txid : Uint256}
  {islock : CInstantSendLock Sig} {tx : TxPosition}

/-- The caches stay right, and consistent records stay consistent. -/
def Keeps (hasher : LockHasher Sig) (s s' : CInstantSendDb Sig) : Prop :=
  Covered hasher s → Covered hasher s' ∧ (s.db.Consistent → s'.db.Consistent)

lemma Keeps.trans {s'' : CInstantSendDb Sig} (h : Keeps hasher s s')
    (h' : Keeps hasher s' s'') : Keeps hasher s s'' := fun hs =>
  ⟨(h' (h hs).1).1, (h' (h hs).1).2 ∘ (h hs).2⟩

lemma OnlyReads.keeps (h : OnlyReads hasher s s') : Keeps hasher s s' := fun hs =>
  ⟨h.2 hs, fun hc => h.1 ▸ hc⟩

variable {batch : List (BatchOp Sig)} {w : ChainedWalk Sig}

lemma keeps_writeBatch (h : s.db.Removes batch) :
    Keeps hasher s { s with db := s.db.writeBatch batch } := by
  have hwrites := h.writesLock
  refine fun hs => ⟨⟨?_, ?_, ?_⟩, fun hc => hc.writeBatch h⟩
  · intro hash islock hstored
    exact hs.hashed hash islock ((islockByHash_writeBatch hwrites).mp hstored).1
  · intro hash islock hstored
    exact hs.islock hash islock ((islockByHash_writeBatch hwrites).mp hstored).1
  · intro txid hash hentry
    exact hs.txid txid hash ((hashByTxid_writeBatch hwrites).mp hentry).1

lemma Covered.forget (h : Covered hasher s) (hash : Uint256) (islock : CInstantSendLock Sig) :
    Covered hasher (s.forget hash islock) := by
  refine ⟨h.hashed, fun hash' islock' hstored ret hret => ?_,
    fun txid' hash' hentry hash'' hhash'' => ?_⟩
  · simp only [CInstantSendDb.forget, update_apply] at hret
    split at hret
    · cases hret
    · exact h.islock hash' islock' hstored ret hret
  · simp only [CInstantSendDb.forget, update_apply] at hhash''
    split at hhash''
    · cases hhash''
    · exact h.txid txid' hash' hentry hash'' hhash''

/-- The batch removes locks that are stored, and nothing is written yet. -/
structure Removal.Sound {ρ : Type} (hasher : LockHasher Sig) (s : CInstantSendDb Sig)
    (r : Removal Sig ρ) : Prop where
  db : r.state.db = s.db
  covered : Covered hasher r.state
  removes : s.db.Removes r.batch

namespace Removal.Sound

variable {ρ : Type} {r : Removal Sig ρ}

section

variable (h : r.Sound hasher s)

include h

/-- A lock that is read past the cache is stored. -/
lemma read (hash : Uint256) :
    ∃ found state, getInstantSendLockByHashInternal hasher hash false r.state = (found, state) ∧
      Removal.Sound hasher s { r with state := state } ∧
      ∀ islock, found = some islock → s.db.islockByHash hash = some islock := by
  have hreads := onlyReads_getByHash hasher hash false r.state
  refine ⟨_, _, rfl, ⟨hreads.1.trans h.db, hreads.2 h.covered, h.removes⟩, fun islock hfound => ?_⟩
  rw [← h.db, ← h.covered.readIslock]
  exact readIslock_of_getByHash hasher hfound

lemma removeInstantSendLock (hstored : s.db.islockByHash hash = some islock) (keepCache : Bool) :
    (r.removeInstantSendLock hash islock keepCache).Sound hasher s := by
  refine ⟨?_, ?_, h.removes.append (removes_removalOf hstored)⟩
  · cases keepCache <;> exact h.db
  · cases keepCache with
    | false => exact h.covered.forget hash islock
    | true => exact h.covered

lemma bookkeep {ops : List (BatchOp Sig)}
    (hops : ∀ op ∈ ops, op.bookkeeps = true) (ret : List ρ) :
    Removal.Sound hasher s { r with batch := r.batch ++ ops, ret := ret } :=
  ⟨h.db, h.covered, h.removes.append (removes_of_bookkeeps hops)⟩

lemma removeByHash (hash : Uint256) (keepCache : Bool) :
    (r.removeByHash hasher hash keepCache).Sound hasher s := by
  obtain ⟨found, state, heq, hread, hstored⟩ := h.read hash
  rw [Removal.removeByHash, heq]
  cases found with
  | none => exact hread
  | some islock => exact hread.removeInstantSendLock (hstored islock rfl) keepCache

end

lemma keeps_write (h : Covered hasher s → r.Sound hasher s) : Keeps hasher s r.write := fun hs =>
  have hsound := h hs
  have hkeeps := @keeps_writeBatch _ hasher _ _ (hsound.db ▸ hsound.removes) hsound.covered
  ⟨hkeeps.1, fun hc => hkeeps.2 (hsound.db ▸ hc)⟩

end Removal.Sound

lemma bookkeeps_archiveOf (nHeight : Nat) (hash : Uint256) :
    ∀ op ∈ (archiveOf nHeight hash : List (BatchOp Sig)), op.bookkeeps = true := by
  intro op hop
  simp only [archiveOf, mem_cons, not_mem_nil, or_false] at hop
  rcases hop with rfl | rfl <;> rfl

lemma Removal.Sound.confirm {r : Removal Sig (Uint256 × CInstantSendLock Sig)}
    (h : r.Sound hasher s) (key : Nat × Uint256) : (confirm hasher r key).Sound hasher s := by
  obtain ⟨found, state, heq, hread, hstored⟩ := h.read key.2
  rw [CInstantSendDb.confirm, heq]
  have hbooks : ∀ op ∈ archiveOf key.1 key.2 ++ [(.eraseMined key.1 key.2 : BatchOp Sig)],
      op.bookkeeps = true := by
    intro op hop
    rcases mem_append.mp hop with hop | hop
    · exact bookkeeps_archiveOf key.1 key.2 op hop
    · rw [mem_singleton.mp hop]
      rfl
  cases found with
  | none =>
    dsimp only
    rw [append_assoc]
    exact hread.bookkeep hbooks r.ret
  | some islock =>
    dsimp only
    rw [append_assoc]
    exact (hread.removeInstantSendLock (hstored islock rfl) true).bookkeep hbooks _

lemma keeps_removeConfirmed (nUntilHeight : Nat) (s : CInstantSendDb Sig) :
    Keeps hasher s (removeConfirmedInstantSendLocks hasher nUntilHeight s).2 := by
  unfold removeConfirmedInstantSendLocks
  split
  · exact (OnlyReads.refl s).keeps
  · refine Removal.Sound.keeps_write fun hs => ?_
    refine foldlRecOn _ (CInstantSendDb.confirm hasher) ?_ fun r h key _ => h.confirm key
    exact ⟨rfl, ⟨hs.hashed, hs.islock, hs.txid⟩, by simp [Removes]⟩

lemma keeps_bookkeeps (h : ∀ op ∈ batch, op.bookkeeps = true) :
    Keeps hasher s { s with db := s.db.writeBatch batch } :=
  keeps_writeBatch (removes_of_bookkeeps h)

lemma keeps_removeArchived (nUntilHeight : Int) (s : CInstantSendDb Sig) :
    Keeps hasher s (removeArchivedInstantSendLocks nUntilHeight s) := by
  unfold removeArchivedInstantSendLocks
  split
  · exact (OnlyReads.refl s).keeps
  · refine keeps_bookkeeps fun op hop => ?_
    obtain ⟨key, -, hop⟩ := mem_flatMap.mp hop
    simp only [mem_cons, not_mem_nil, or_false] at hop
    rcases hop with rfl | rfl <;> rfl

lemma ChainedWalk.sound_visit (h : w.toRemoval.Sound hasher s) (nHeight : Nat) (hash : Uint256) :
    (w.visit hasher nHeight hash).toRemoval.Sound hasher s := by
  obtain ⟨found, state, heq, hread, hstored⟩ := h.read hash
  rw [ChainedWalk.visit, heq]
  cases found with
  | none => exact hread
  | some islock =>
    have hremoved := (hread.removeInstantSendLock (hstored islock rfl) false).bookkeep
      (bookkeeps_archiveOf nHeight hash) (w.ret ++ [hash])
    dsimp only
    split <;> exact hremoved

open ChainedWalk

lemma ChainedWalk.sound_loop (h : w.toRemoval.Sound hasher s) (nHeight : Nat) :
    (w.loop hasher nHeight).toRemoval.Sound hasher s := by
  -- on the walk as it goes: one parent and its children are done with each time
  induction w using loop.induct hasher nHeight with
  | case1 w hstack =>
    rw [loop]
    split
    · exact h
    case h_2 hcons => simp [hstack] at hcons
  | case2 w parent stack hstack ih =>
    rw [loop]
    split
    case h_1 hnil => simp [hstack] at hnil
    case h_2 parent' stack' hcons =>
      obtain ⟨rfl, rfl⟩ := cons.inj (hstack.symm.trans hcons)
      apply ih
      exact foldlRecOn (motive := fun w => w.toRemoval.Sound hasher s) (b := { w with stack })
        _ (visit hasher nHeight) h fun w h hash _ => sound_visit h nHeight hash

lemma keeps_removeConflictingLock (islock : CInstantSendLock Sig) (tipHeight : Nat)
    (s : CInstantSendDb Sig) :
    Keeps hasher s (removeConflictingLock hasher islock tipHeight s) := by
  refine Removal.Sound.keeps_write fun hs => ?_
  have hloop := @sound_loop _ hasher s { state := s, stack := [islock.txid] }
    ⟨rfl, hs, by simp [Removes]⟩ tipHeight
  exact (hloop.removeByHash (hasher.serializeHash islock) false).bookkeep
    (bookkeeps_archiveOf tipHeight (hasher.serializeHash islock)) _

/-! ## Processing a lock -/

variable (hasher islock tx s) in
/-- The tests of `ProcessInstantSendLock` let the lock pass, and its transaction is known. -/
def isWritten : Bool :=
  let (known, s) := knownInstantSendLock hasher (hasher.serializeHash islock) s
  !known && !tx.hasChainLock && (getInstantSendLockByTxid hasher islock.txid s).1.isNone &&
    tx matches .inMempool | .mined ..

variable (hasher islock tx s) in
/-- `ProcessInstantSendLock` only reads, or it writes the lock after some reads. -/
lemma processInstantSendLock_cases :
    ∃ s₁, OnlyReads hasher s s₁ ∧
      (isWritten hasher s islock tx = false ∧ processInstantSendLock hasher islock tx s = s₁ ∨
        isWritten hasher s islock tx = true ∧ ∃ batch : List (BatchOp Sig),
          (∀ op ∈ batch, op.bookkeeps = true) ∧
          processInstantSendLock hasher islock tx s =
            let s₂ := s₁.writeNewInstantSendLock (hasher.serializeHash islock) islock
            { s₂ with db := s₂.db.writeBatch batch }) := by
  have hknown := onlyReads_known hasher (hasher.serializeHash islock) s
  simp only [isWritten, processInstantSendLock]
  generalize knownInstantSendLock hasher (hasher.serializeHash islock) s = p at hknown ⊢
  obtain ⟨known, s₁⟩ := p
  have hsame := onlyReads_getByTxid hasher islock.txid s₁
  generalize getInstantSendLockByTxid hasher islock.txid s₁ = q at hsame ⊢
  obtain ⟨sameTxIsLock, s₂⟩ := q
  by_cases hstop : known = true ∨ tx.hasChainLock = true
  · exact ⟨s₁, hknown, .inl (by rcases hstop with h | h <;> simp [h])⟩
  obtain ⟨hnew, hchain⟩ := not_or.mp hstop
  cases sameTxIsLock with
  | some found => exact ⟨s₂, hknown.trans hsame, .inl (by simp [hnew, hchain])⟩
  | none =>
    refine ⟨_, (hknown.trans hsame).trans (onlyReads_getByInputs hasher islock.inputs s₂), ?_⟩
    simp only [hnew, hchain]
    cases tx with
    | unknown => exact .inl ⟨rfl, rfl⟩
    | inMempool => exact .inr ⟨rfl, [], by simp, rfl⟩
    | mined nHeight hasChainLock =>
      exact .inr ⟨rfl, [.writeMined nHeight (hasher.serializeHash islock)],
        by simp [BatchOp.bookkeeps], rfl⟩

section

variable (h : Covered hasher s)

include h

lemma Covered.writeNewInstantSendLock (islock : CInstantSendLock Sig) :
    Covered hasher (s.writeNewInstantSendLock (hasher.serializeHash islock) islock) := by
  constructor
  case hashed =>
    intro hash islock' hstored
    rw [CInstantSendDb.writeNewInstantSendLock, islockByHash_writeLock, update_apply] at hstored
    split at hstored
    case isTrue heq =>
      obtain rfl := some.inj hstored
      exact heq.symm
    case isFalse => exact h.hashed hash islock' hstored
  case islock =>
    intro hash islock' hstored ret hret
    simp only [CInstantSendDb.writeNewInstantSendLock, islockByHash_writeLock,
      update_apply] at hstored hret
    split at hstored
    case isTrue heq =>
      rw [if_pos heq] at hret
      exact (some.inj hret).symm.trans hstored
    case isFalse hne =>
      rw [if_neg hne] at hret
      exact h.islock hash islock' hstored ret hret
  case txid =>
    intro txid hash hentry hash' hcached
    simp only [CInstantSendDb.writeNewInstantSendLock, hashByTxid_writeLock,
      update_apply] at hentry hcached
    split at hentry
    case isTrue heq =>
      rw [if_pos heq] at hcached
      exact some.inj (hcached.symm.trans hentry)
    case isFalse hne =>
      rw [if_neg hne] at hcached
      exact h.txid txid hash hentry hash' hcached

lemma Covered.processInstantSendLock (islock : CInstantSendLock Sig)
    (tx : TxPosition) : Covered hasher (processInstantSendLock hasher islock tx s) := by
  obtain ⟨s₁, hreads, ⟨-, heq⟩ | ⟨-, batch, hbooks, heq⟩⟩ :=
    processInstantSendLock_cases hasher s islock tx
  · exact heq ▸ hreads.2 h
  · rw [heq]
    exact (keeps_bookkeeps hbooks ((hreads.2 h).writeNewInstantSendLock islock)).1

/-- The records that the tests have found nothing in. -/
lemma stored_of_isWritten (hc : s.db.Consistent)
    (hwritten : isWritten hasher s islock tx = true) :
    s.db.islockByHash (hasher.serializeHash islock) = none ∧
      s.db.hashByTxid islock.txid = none := by
  have hknown := onlyReads_known hasher (hasher.serializeHash islock) s
  have hstored := @islockByHash_of_known _ hasher s (hasher.serializeHash islock) h
  unfold isWritten at hwritten
  generalize knownInstantSendLock hasher (hasher.serializeHash islock) s = p
    at hwritten hknown hstored
  obtain ⟨known, s₁⟩ := p
  simp only [Bool.and_eq_true, Bool.not_eq_true', isNone_iff_eq_none] at hwritten hknown
  obtain ⟨⟨⟨rfl, -⟩, hnone⟩, -⟩ := hwritten
  refine ⟨hstored rfl, ?_⟩
  have htxid := hashByTxid_of_getByTxid (hknown.2 h) (hknown.1 ▸ hc) hnone
  rwa [hknown.1] at htxid

variable (hasher s) in
/-- A lock that is written has no outpoint that is locked. -/
def LocksNewOutpoints : IsEvent Sig → Prop
  | .processInstantSendLock islock tx =>
    isWritten hasher s islock tx = true →
      ∀ outpoint ∈ islock.inputs, s.db.hashByOutpoint[outpoint]? = none
  | _ => True

lemma consistent_processInstantSendLock_iff (hc : s.db.Consistent) :
    (processInstantSendLock hasher islock tx s).db.Consistent ↔
      (isWritten hasher s islock tx = true →
        ∀ outpoint ∈ islock.inputs, s.db.hashByOutpoint[outpoint]? = none) := by
  obtain ⟨s₁, hreads, ⟨hwritten, heq⟩ | ⟨hwritten, batch, hbooks, heq⟩⟩ :=
    processInstantSendLock_cases hasher s islock tx
  · simp [heq, hreads.1, hwritten, hc]
  · obtain ⟨hnew, htxid⟩ := stored_of_isWritten h hc hwritten
    rw [heq]
    simp only [CInstantSendDb.writeNewInstantSendLock, hwritten, forall_const,
      consistent_writeBatch_of_bookkeeps hbooks]
    rw [hreads.1]
    exact consistent_writeLock_iff hc hnew htxid

/-! ## Runs -/

omit h in
lemma keeps_step {event : IsEvent Sig}
    (h : ∀ islock tx, event ≠ .processInstantSendLock islock tx) :
    Keeps hasher s (step hasher s event) := by
  cases event with
  | processInstantSendLock islock tx => exact absurd rfl (h islock tx)
  | handleFullyConfirmedBlock nHeight =>
    exact (keeps_removeConfirmed nHeight s).trans (keeps_removeArchived _ _)
  | removeConflictingLock islock tipHeight => exact keeps_removeConflictingLock islock tipHeight s
  | transactionRemovedFromMempool txid tipHeight =>
    have hreads := onlyReads_getByTxid hasher txid s
    simp only [step]
    generalize getInstantSendLockByTxid hasher txid s = p at hreads
    obtain ⟨found, s₁⟩ := p
    cases found with
    | none => exact hreads.keeps
    | some islock => exact hreads.keeps.trans (keeps_removeConflictingLock islock tipHeight s₁)
  | blockConnected txids nHeight =>
    refine (onlyReads_lockHashesOf hasher txids s).keeps.trans (keeps_bookkeeps ?_)
    simp [BatchOp.bookkeeps]
  | blockDisconnected txids nHeight =>
    refine (onlyReads_lockHashesOf hasher txids s).keeps.trans (keeps_bookkeeps ?_)
    simp [BatchOp.bookkeeps]
  | askHash hash => exact (onlyReads_known hasher hash s).keeps
  | askTxid txid => exact (onlyReads_getByTxid hasher txid s).keeps
  | askInput outpoint => exact (onlyReads_getByInput hasher outpoint s).keeps
  | evict dropIslock dropTxid dropOutpoint =>
    refine fun hs => ⟨⟨hs.hashed, fun hash islock hstored ret hret => ?_,
      fun txid hash hentry hash' hcached => ?_⟩, id⟩
    · simp only [step] at hret
      split at hret
      · cases hret
      · exact hs.islock hash islock hstored ret hret
    · simp only [step] at hcached
      split at hcached
      · cases hcached
      · exact hs.txid txid hash hentry hash' hcached
  | restart =>
    refine fun hs => ⟨⟨hs.hashed, ?_, ?_⟩, id⟩
    · intro hash islock _ ret hret
      cases hret
    · intro txid hash _ hash' hcached
      cases hcached

lemma Covered.step (event : IsEvent Sig) : Covered hasher (step hasher s event) := by
  cases event with
  | processInstantSendLock islock tx => exact h.processInstantSendLock islock tx
  | _ => exact (keeps_step (by simp) h).1

/-- One event keeps consistent records consistent exactly if it writes no lock over another. -/
lemma consistent_step_iff (hc : s.db.Consistent) (event : IsEvent Sig) :
    (step hasher s event).db.Consistent ↔ LocksNewOutpoints hasher s event := by
  cases event with
  | processInstantSendLock islock tx => exact consistent_processInstantSendLock_iff h hc
  | _ => exact iff_of_true ((keeps_step (by simp) h).2 hc) trivial

end

/-- **Consistency of the database.** The records are consistent in all states of a run, and
no two stored locks spend the same outpoint, exactly if no lock is written whose outpoint is
locked already. -/
theorem consistent_run_iff (hasher : LockHasher Sig) (events : List (IsEvent Sig)) :
    (∀ before, before <+: events →
      (run hasher before).db.Consistent ∧ (run hasher before).db.SpendsOnce) ↔
      ∀ before event, before ++ [event] <+: events →
        LocksNewOutpoints hasher (run hasher before) event := by
  have hruns := @forall_prefix_iff _ _ (step hasher) (Covered hasher) (fun s => s.db.Consistent)
    (LocksNewOutpoints hasher) (fun s event h => h.step event)
    (fun s event h hc => consistent_step_iff h hc event) start covered_start consistent_empty
    events
  refine Iff.trans ?_ hruns
  exact forall₂_congr fun before _ => ⟨fun h => h.1, fun h => ⟨h, h.spendsOnce⟩⟩

end Steps

/-! ## A lock that is written over another -/

/-- Locks of two transactions that spend the same outpoint. -/
def conflictingLock (txid : Uint256) : CInstantSendLock Unit :=
  { inputs := [⟨7, 0⟩], txid := txid, cycleHash := 5, sig := () }

/-- The hash of a lock is that of its transaction, for the purpose of the example. -/
def txidHasher : LockHasher Unit where
  serializeHash islock := islock.txid + 1
  serializeHash_ne islock := Nat.succ_ne_zero islock.txid

/-- Both are received while their transactions are known, the first one mined. Members that
follow the protocol do not sign both. -/
def conflictingLocks : List (IsEvent Unit) :=
  [.processInstantSendLock (conflictingLock 1) (.mined 100 false),
    .processInstantSendLock (conflictingLock 2) .inMempool]

/-- Both locks are stored, and only the second is recorded under the outpoint. -/
theorem conflicting_lock_overwrites :
    ¬ ((run txidHasher conflictingLocks).db.Consistent ∧
      (run txidHasher conflictingLocks).db.SpendsOnce) := by
  intro h
  have hfirst : (run txidHasher conflictingLocks).db.islockByHash 2 = some (conflictingLock 1) :=
    rfl
  have hsecond : (run txidHasher conflictingLocks).db.islockByHash 3 = some (conflictingLock 2) :=
    rfl
  have hsame := h.2 2 _ 3 _ hfirst hsecond ⟨7, 0⟩ (by decide) (by decide)
  cases hsame

end CInstantSendDb

/-! ## Request ids of inputs -/

namespace InputLocks

structure CTxIn where
  prevout : COutPoint
  scriptSig : CScript
  nSequence : Nat
  deriving DecidableEq

structure CTransaction where
  hash : Uint256
  vin : List CTxIn

/-- What is hashed with `INPUTLOCK_REQUESTID_PREFIX`: the hash is injective, and an input is
longer than an outpoint. -/
inductive InputRequestId where
  | ofOutPoint (prevout : COutPoint)
  | ofTxIn (txin : CTxIn)
  deriving DecidableEq

/-- The answers of the signing manager. -/
structure SigningAnswers where
  getVoteForId : InputRequestId → Option Uint256
  isConflicting : InputRequestId → Uint256 → Bool

/-- `ids` of `TrySignInputLocks`. -/
def CTransaction.ids (tx : CTransaction) : List InputRequestId := tx.vin.map (.ofOutPoint ·.prevout)

/-- The first loop of `TrySignInputLocks`: `alreadyVotedCount`, unless it returns. -/
def alreadyVoted (sigman : SigningAnswers) (txHash : Uint256) : List InputRequestId → Option Nat
  | [] => some 0
  | id :: ids =>
    if (sigman.getVoteForId id).any (· ≠ txHash) || sigman.isConflicting id txHash then none
    else (alreadyVoted sigman txHash ids).map (· + (sigman.getVoteForId id).toList.length)

/-- What `TrySignInputLocks` returns, and the ids that it inserts. -/
def trySignInputLocks (sigman : SigningAnswers) (fRetroactive : Bool) (tx : CTransaction) :
    Bool × List InputRequestId :=
  match alreadyVoted sigman tx.hash tx.ids with
  | none => (false, [])
  | some alreadyVotedCount =>
    (true, if !fRetroactive && alreadyVotedCount == tx.ids.length then [] else tx.ids)

/-- `inputRequestIds`. A history variable has the transactions for which ids were inserted and
that have been neither locked nor removed since. -/
structure State where
  inputRequestIds : List InputRequestId := []
  pending : List CTransaction := []

inductive Event (Sig : Type) where
  | trySignInputLocks (sigman : SigningAnswers) (fRetroactive : Bool) (tx : CTransaction)
  | removeConflictedTx (tx : CTransaction)
  | truncateRecoveredSigsForInputs (islock : CInstantSendLock Sig)

variable (s : State)

/-- A transaction is locked or removed, and ids are erased. -/
def State.without (txid : Uint256) (erased : List InputRequestId) : State where
  inputRequestIds := s.inputRequestIds.filter (· ∉ erased)
  pending := s.pending.filter (·.hash ≠ txid)

def step : Event Sig → State
  | .trySignInputLocks sigman fRetroactive tx =>
    let inserted := (trySignInputLocks sigman fRetroactive tx).2
    { inputRequestIds := inserted ++ s.inputRequestIds
      pending := if inserted = [] then s.pending else tx :: s.pending }
  | .removeConflictedTx tx => s.without tx.hash (tx.vin.map .ofTxIn)
  | .truncateRecoveredSigsForInputs islock => s.without islock.txid (islock.inputs.map .ofOutPoint)

/-- There are exactly the ids of the pending transactions. -/
def Exact : Prop := ∀ id, id ∈ s.inputRequestIds ↔ ∃ tx ∈ s.pending, id ∈ tx.ids

/-- What is not an id of another pending transaction is in the lock, and nothing else of them
is; for a conflicting transaction, all ids are those of other pending transactions. -/
def LeavesShared : Event Sig → Prop
  | .trySignInputLocks .. => True
  | .removeConflictedTx tx => ∀ t ∈ s.pending, ∀ id ∈ t.ids,
    ∃ other ∈ s.pending, other.hash ≠ tx.hash ∧ id ∈ other.ids
  | .truncateRecoveredSigsForInputs islock => ∀ t ∈ s.pending, ∀ id ∈ t.ids,
    (id ∉ islock.inputs.map .ofOutPoint ↔
      ∃ other ∈ s.pending, other.hash ≠ islock.txid ∧ id ∈ other.ids)

variable {s}

lemma exact_without_iff (h : Exact s) (txid : Uint256) (erased : List InputRequestId) :
    Exact (s.without txid erased) ↔ ∀ t ∈ s.pending, ∀ id ∈ t.ids,
      (id ∉ erased ↔ ∃ other ∈ s.pending, other.hash ≠ txid ∧ id ∈ other.ids) := by
  unfold Exact at h
  simp only [Exact, State.without, mem_filter, decide_eq_true_eq, h, and_assoc]
  exact ⟨fun hexact t ht id hid => by grind, fun hleaves id => by grind⟩

lemma exact_step_iff (h : Exact s) (event : Event Sig) :
    Exact (step s event) ↔ LeavesShared s event := by
  cases event with
  | trySignInputLocks sigman fRetroactive tx =>
    refine iff_of_true (fun id => ?_) trivial
    obtain hnone | hall : (trySignInputLocks sigman fRetroactive tx).2 = [] ∨
        (trySignInputLocks sigman fRetroactive tx).2 = tx.ids := by
      unfold trySignInputLocks
      grind
    · simp [step, hnone, h id]
    · by_cases hids : tx.ids = [] <;> simp [step, hall, hids, h id]
  | removeConflictedTx tx =>
    refine (exact_without_iff h ..).trans (forall₄_congr fun t ht id hid => ?_)
    have hprevout : id ∉ tx.vin.map .ofTxIn := by
      obtain ⟨txin, -, rfl⟩ := mem_map.mp hid
      simp
    exact iff_true_left hprevout
  | truncateRecoveredSigsForInputs islock => exact exact_without_iff h ..

/-- **Request ids.** `inputRequestIds` has exactly the ids of the pending transactions in all
states of a run, exactly if its steps leave the ids of the other transactions, and
`RemoveConflictedTx`, which erases the ids of other requests, has nothing to erase. -/
theorem inputRequestIds_run_iff (events : List (Event Sig)) :
    (∀ before, before <+: events → Exact (before.foldl step {})) ↔
      ∀ before event, before ++ [event] <+: events → LeavesShared (before.foldl step {}) event :=
  @forall_prefix_iff _ _ step (fun _ => True) Exact LeavesShared (fun _ _ h => h)
    (fun _ event _ h => exact_step_iff h event) {} trivial (by simp [Exact]) events

/-- A transaction that is signed for and then found to conflict. -/
theorem conflictedTx_stays : ¬ Exact ([.trySignInputLocks ⟨fun _ => none, fun _ _ => false⟩ false
    ⟨1, [⟨⟨7, 0⟩, [], 0⟩]⟩, .removeConflictedTx ⟨1, [⟨⟨7, 0⟩, [], 0⟩]⟩].foldl
      (@step Unit) {}) := fun h =>
  absurd ((h (.ofOutPoint ⟨7, 0⟩)).mp (by decide)) (by decide)

end InputLocks

end HootChain.Llmq
