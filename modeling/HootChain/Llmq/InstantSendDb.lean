import HootChain.Llmq.InstantSend

/-!
# The InstantSend Database (`CInstantSendDb` in `llmq/instantsend.cpp`)

A lock is stored under its hash, and its hash is stored under the locked transaction and
under every outpoint that the transaction spends. Locks are written one by one; they are
removed in batches, when a block is fully confirmed, and together with the locks of the
transactions that spend from theirs when they lose against a ChainLock.

`ProcessInstantSendLock` does not store a second lock for a transaction. A lock of another
transaction that spends an outpoint which is locked already is logged as conflicting, and
then written: its hash replaces that of the first lock under the outpoint.

The walk over chained locks ends: it pushes a transaction at most once, and only one whose
lock is recorded under an outpoint (`ChainedWalk.foldl_visit_pending`).
-/

namespace HootChain.Llmq

open Primitives List Function

/-! ## Records -/

/-- `SerializeHash` of locks; no lock hashes to zero. -/
structure LockHasher (Sig : Type) where
  serializeHash : CInstantSendLock Sig → Uint256
  serializeHash_ne : ∀ islock, serializeHash islock ≠ 0

/-- The bytes of an outpoint in a key. The numbers behind them decide nothing between
outpoints whose hash has 256 and whose index has 32 bits. -/
def keyBytes (outpoint : COutPoint) : List Nat :=
  Uint256.bytes outpoint.hash ++ (range 4).map (fun i => outpoint.n / 256 ^ i % 256) ++
    [outpoint.hash, outpoint.n]

lemma keyBytes_injective : Function.Injective keyBytes := by
  intro o o' h
  have hnumbers : [o.hash, o.n] = [o'.hash, o'.n] := (append_inj' h rfl).2
  cases o
  cases o'
  simpa using hnumbers

instance : Std.LawfulEqCmp (compareOn keyBytes) where
  compare_self := Std.ReflCmp.compare_self
  eq_of_compare h := keyBytes_injective (Std.LawfulEqCmp.eq_of_compare h)

/-- The records of the database. The iterations over the two families that are keyed by a
height visit sets of keys, in an order that plays no role. -/
structure IsDb (Sig : Type) where
  /-- `DB_ISLOCK_BY_HASH`. -/
  islockByHash : Uint256 → Option (CInstantSendLock Sig)
  /-- `DB_HASH_BY_TXID`. -/
  hashByTxid : Uint256 → Option Uint256
  /-- `DB_HASH_BY_OUTPOINT`. -/
  hashByOutpoint : Std.TreeMap COutPoint Uint256 (compareOn keyBytes)
  /-- `DB_MINED_BY_HEIGHT_AND_HASH`. -/
  minedByHeightAndHash : List (Nat × Uint256)
  /-- `DB_ARCHIVED_BY_HEIGHT_AND_HASH`. -/
  archivedByHeightAndHash : List (Nat × Uint256)
  /-- `DB_ARCHIVED_BY_HASH`. -/
  archivedByHash : Uint256 → Bool

/-- An entry of a `CDBBatch`. -/
inductive BatchOp (Sig : Type) where
  | writeIslock (hash : Uint256) (islock : CInstantSendLock Sig)
  | eraseIslock (hash : Uint256)
  | writeTxid (txid hash : Uint256)
  | eraseTxid (txid : Uint256)
  | writeOutpoint (outpoint : COutPoint) (hash : Uint256)
  | eraseOutpoint (outpoint : COutPoint)
  | writeMined (nHeight : Nat) (hash : Uint256)
  | eraseMined (nHeight : Nat) (hash : Uint256)
  | writeArchivedAt (nHeight : Nat) (hash : Uint256)
  | eraseArchivedAt (nHeight : Nat) (hash : Uint256)
  | writeArchived (hash : Uint256)
  | eraseArchived (hash : Uint256)

variable {Sig : Type}

namespace IsDb

/-- The database without records. -/
def empty : IsDb Sig where
  islockByHash := fun _ => none
  hashByTxid := fun _ => none
  hashByOutpoint := ∅
  minedByHeightAndHash := []
  archivedByHeightAndHash := []
  archivedByHash := fun _ => false

section

variable (db : IsDb Sig)

/-- One entry of a batch is carried out. -/
def apply : BatchOp Sig → IsDb Sig
  | .writeIslock hash islock =>
    { db with islockByHash := update db.islockByHash hash (some islock) }
  | .eraseIslock hash => { db with islockByHash := update db.islockByHash hash none }
  | .writeTxid txid hash => { db with hashByTxid := update db.hashByTxid txid (some hash) }
  | .eraseTxid txid => { db with hashByTxid := update db.hashByTxid txid none }
  | .writeOutpoint outpoint hash =>
    { db with hashByOutpoint := db.hashByOutpoint.insert outpoint hash }
  | .eraseOutpoint outpoint => { db with hashByOutpoint := db.hashByOutpoint.erase outpoint }
  | .writeMined nHeight hash =>
    { db with minedByHeightAndHash := db.minedByHeightAndHash.insert (nHeight, hash) }
  | .eraseMined nHeight hash =>
    { db with minedByHeightAndHash := db.minedByHeightAndHash.filter (· ≠ (nHeight, hash)) }
  | .writeArchivedAt nHeight hash =>
    { db with archivedByHeightAndHash := db.archivedByHeightAndHash.insert (nHeight, hash) }
  | .eraseArchivedAt nHeight hash =>
    { db with archivedByHeightAndHash := db.archivedByHeightAndHash.filter (· ≠ (nHeight, hash)) }
  | .writeArchived hash => { db with archivedByHash := update db.archivedByHash hash true }
  | .eraseArchived hash => { db with archivedByHash := update db.archivedByHash hash false }

def writeBatch (batch : List (BatchOp Sig)) : IsDb Sig := batch.foldl apply db

/-- The batch of `WriteNewInstantSendLock` is written. -/
def writeLock (hash : Uint256) (islock : CInstantSendLock Sig) : IsDb Sig :=
  db.writeBatch (.writeIslock hash islock :: .writeTxid islock.txid hash ::
    islock.inputs.map (.writeOutpoint · hash))

/-- `db->Read` of a lock, and the test of what was read against the hash. A second read that
is made where the test fails has the same outcome. -/
def readIslock (hasher : LockHasher Sig) (db : IsDb Sig) (hash : Uint256) :
    Option (CInstantSendLock Sig) :=
  (db.islockByHash hash).filter fun islock => hasher.serializeHash islock = hash

def getInstantSendLocksByParent (parent : Uint256) : List Uint256 :=
  let fromFirst := db.hashByOutpoint.toList.dropWhile fun entry =>
    compareOn keyBytes entry.1 ⟨parent, 0⟩ = .lt
  (fromFirst.takeWhile fun entry => entry.1.hash = parent).map Prod.snd

end

end IsDb

/-- The erasures of `RemoveInstantSendLock`. -/
def removalOf (hash : Uint256) (islock : CInstantSendLock Sig) : List (BatchOp Sig) :=
  .eraseIslock hash :: .eraseTxid islock.txid :: islock.inputs.map .eraseOutpoint

/-- `WriteInstantSendLockArchived`. -/
def archiveOf (nHeight : Nat) (hash : Uint256) : List (BatchOp Sig) :=
  [.writeArchivedAt nHeight hash, .writeArchived hash]

/-! ## The database with its caches -/

/-- `CInstantSendDb`. A cached lock can be the null pointer. -/
structure CInstantSendDb (Sig : Type) where
  db : IsDb Sig
  islockCache : Uint256 → Option (Option (CInstantSendLock Sig))
  txidCache : Uint256 → Option Uint256
  outpointCache : COutPoint → Option Uint256
  bestConfirmedHeight : Nat

namespace CInstantSendDb

/-- A node that has not stored a lock yet. -/
def start : CInstantSendDb Sig where
  db := .empty
  islockCache := fun _ => none
  txidCache := fun _ => none
  outpointCache := fun _ => none
  bestConfirmedHeight := 0

def writeNewInstantSendLock (hash : Uint256) (islock : CInstantSendLock Sig)
    (s : CInstantSendDb Sig) : CInstantSendDb Sig :=
  { s with
    db := s.db.writeLock hash islock
    islockCache := update s.islockCache hash (some (some islock))
    txidCache := update s.txidCache islock.txid (some hash)
    outpointCache := fun outpoint =>
      if outpoint ∈ islock.inputs then some hash else s.outpointCache outpoint }

def writeInstantSendLockMined (hash : Uint256) (nHeight : Nat) (s : CInstantSendDb Sig) :
    CInstantSendDb Sig :=
  { s with db := s.db.writeBatch [.writeMined nHeight hash] }

/-- The erasures from the caches in `RemoveInstantSendLock`. -/
def forget (hash : Uint256) (islock : CInstantSendLock Sig) (s : CInstantSendDb Sig) :
    CInstantSendDb Sig :=
  { s with
    islockCache := update s.islockCache hash none
    txidCache := update s.txidCache islock.txid none
    outpointCache := fun outpoint =>
      if outpoint ∈ islock.inputs then none else s.outpointCache outpoint }

section Operations

variable (hasher : LockHasher Sig)

def getInstantSendLockByHashInternal (hash : Uint256) (useCache : Bool) (s : CInstantSendDb Sig) :
    Option (CInstantSendLock Sig) × CInstantSendDb Sig :=
  if hash = 0 then (none, s)
  else
    match if useCache then s.islockCache hash else none with
    | some ret => (ret, s)
    | none =>
      let ret := s.db.readIslock hasher hash
      (ret, { s with islockCache := update s.islockCache hash (some ret) })

def getInstantSendLockHashByTxidInternal (txid : Uint256) (s : CInstantSendDb Sig) :
    Uint256 × CInstantSendDb Sig :=
  match s.txidCache txid with
  | some islockHash => (islockHash, s)
  | none =>
    match s.db.hashByTxid txid with
    | none => (0, s)
    | some islockHash =>
      (islockHash, { s with txidCache := update s.txidCache txid (some islockHash) })

def getInstantSendLockByTxid (txid : Uint256) (s : CInstantSendDb Sig) :
    Option (CInstantSendLock Sig) × CInstantSendDb Sig :=
  let (islockHash, s) := getInstantSendLockHashByTxidInternal txid s
  getInstantSendLockByHashInternal hasher islockHash true s

def getInstantSendLockByInput (outpoint : COutPoint) (s : CInstantSendDb Sig) :
    Option (CInstantSendLock Sig) × CInstantSendDb Sig :=
  match s.outpointCache outpoint with
  | some islockHash => getInstantSendLockByHashInternal hasher islockHash true s
  | none =>
    match s.db.hashByOutpoint[outpoint]? with
    | none => (none, s)
    | some islockHash =>
      getInstantSendLockByHashInternal hasher islockHash true
        { s with outpointCache := update s.outpointCache outpoint (some islockHash) }

def knownInstantSendLock (islockHash : Uint256) (s : CInstantSendDb Sig) :
    Bool × CInstantSendDb Sig :=
  let (islock, s) := getInstantSendLockByHashInternal hasher islockHash true s
  (islock.isSome || s.db.archivedByHash islockHash, s)

/-! ## Batches that remove locks -/

/-- A batch that is being built, what is to be returned, and the state of the caches. -/
structure Removal (Sig ρ : Type) where
  batch : List (BatchOp Sig) := []
  ret : List ρ := []
  state : CInstantSendDb Sig

/-- `RemoveInstantSendLock` for a lock that the caller has. -/
def Removal.removeInstantSendLock {ρ : Type} (hash : Uint256) (islock : CInstantSendLock Sig)
    (keepCache : Bool) (r : Removal Sig ρ) : Removal Sig ρ :=
  { r with
    batch := r.batch ++ removalOf hash islock
    state := if keepCache then r.state else r.state.forget hash islock }

/-- `RemoveInstantSendLock` for a lock that has to be read first. -/
def Removal.removeByHash {ρ : Type} (hash : Uint256) (keepCache : Bool) (r : Removal Sig ρ) :
    Removal Sig ρ :=
  let (islock, state) := getInstantSendLockByHashInternal hasher hash false r.state
  match islock with
  | none => { r with state := state }
  | some islock => Removal.removeInstantSendLock hash islock keepCache { r with state := state }

/-- The batch is written. -/
def Removal.write {ρ : Type} (r : Removal Sig ρ) : CInstantSendDb Sig :=
  { r.state with db := r.state.db.writeBatch r.batch }

/-- The loop of `RemoveConfirmedInstantSendLocks`, for one key. -/
def confirm (r : Removal Sig (Uint256 × CInstantSendLock Sig)) (key : Nat × Uint256) :
    Removal Sig (Uint256 × CInstantSendLock Sig) :=
  let (islock, state) := getInstantSendLockByHashInternal hasher key.2 false r.state
  let r := { r with state := state }
  let r := match islock with
    | none => r
    | some islock =>
      { r.removeInstantSendLock key.2 islock true with ret := r.ret ++ [(key.2, islock)] }
  { r with batch := r.batch ++ archiveOf key.1 key.2 ++ [.eraseMined key.1 key.2] }

def removeConfirmedInstantSendLocks (nUntilHeight : Nat) (s : CInstantSendDb Sig) :
    List (Uint256 × CInstantSendLock Sig) × CInstantSendDb Sig :=
  if nUntilHeight ≤ s.bestConfirmedHeight then ([], s)
  else
    let s := { s with bestConfirmedHeight := nUntilHeight }
    let keys := s.db.minedByHeightAndHash.filter (·.1 ≤ nUntilHeight)
    let r := keys.foldl (confirm hasher) { state := s }
    (r.ret, r.write)

def removeArchivedInstantSendLocks (nUntilHeight : Int) (s : CInstantSendDb Sig) :
    CInstantSendDb Sig :=
  if nUntilHeight ≤ 0 then s
  else
    let keys := s.db.archivedByHeightAndHash.filter fun key => (key.1 : Int) ≤ nUntilHeight
    { s with
      db := s.db.writeBatch
        (keys.flatMap fun key => [.eraseArchived key.2, .eraseArchivedAt key.1 key.2]) }

/-! ## Chained locks -/

/-- The state of the loop of `RemoveChainedInstantSendLocks`; the top of the stack is the
head of the list. -/
structure ChainedWalk (Sig : Type) extends Removal Sig Uint256 where
  stack : List Uint256
  added : List Uint256 := []

open ChainedWalk

/-- The body of the inner loop, for one child. -/
def ChainedWalk.visit (nHeight : Nat) (w : ChainedWalk Sig) (childIslockHash : Uint256) :
    ChainedWalk Sig :=
  let (childIsLock, state) := getInstantSendLockByHashInternal hasher childIslockHash false w.state
  let r := { w.toRemoval with state := state }
  match childIsLock with
  | none => { w with toRemoval := r }
  | some childIsLock =>
    let r := r.removeInstantSendLock childIslockHash childIsLock false
    let r := { r with
      batch := r.batch ++ archiveOf nHeight childIslockHash
      ret := r.ret ++ [childIslockHash] }
    if childIsLock.txid ∈ w.added then { w with toRemoval := r }
    else
      { toRemoval := r
        stack := childIsLock.txid :: w.stack
        added := childIsLock.txid :: w.added }

/-- The transactions whose locks can be found under an outpoint. -/
def lockedTxids (db : IsDb Sig) : List Uint256 :=
  db.hashByOutpoint.toList.filterMap fun entry =>
    (db.readIslock hasher entry.2).map CInstantSendLock.txid

/-- How long the walk can go on at most. -/
def ChainedWalk.pending (w : ChainedWalk Sig) : Nat :=
  ((lockedTxids hasher w.state.db).filter (· ∉ w.added)).length + w.stack.length

lemma mem_lockedTxids {db : IsDb Sig} {parent hash : Uint256} {islock : CInstantSendLock Sig}
    (hchild : hash ∈ db.getInstantSendLocksByParent parent)
    (hread : db.readIslock hasher hash = some islock) : islock.txid ∈ lockedTxids hasher db := by
  obtain ⟨entry, hentry, rfl⟩ := mem_map.mp hchild
  have hentry := (dropWhile_sublist _).subset ((takeWhile_sublist _).subset hentry)
  exact mem_filterMap.mpr ⟨entry, hentry, by rw [hread]; rfl⟩

lemma length_filter_notMem_cons_lt {l added : List Uint256} {txid : Uint256} (hmem : txid ∈ l)
    (hnew : txid ∉ added) :
    (l.filter (· ∉ txid :: added)).length < (l.filter (· ∉ added)).length := by
  have hsplit : l.filter (· ∉ txid :: added) = (l.filter (· ∉ added)).filter (· ≠ txid) := by
    simp
  rw [hsplit, length_filter_lt_length_iff_exists]
  exact ⟨txid, mem_filter.mpr ⟨hmem, by simpa using hnew⟩, by simp⟩

lemma db_getByHash (hash : Uint256) (useCache : Bool) (s : CInstantSendDb Sig) :
    (getInstantSendLockByHashInternal hasher hash useCache s).2.db = s.db := by
  unfold getInstantSendLockByHashInternal
  split
  · rfl
  · split <;> rfl

lemma readIslock_of_getByHash {hash : Uint256} {s : CInstantSendDb Sig}
    {islock : CInstantSendLock Sig}
    (h : (getInstantSendLockByHashInternal hasher hash false s).1 = some islock) :
    s.db.readIslock hasher hash = some islock := by
  unfold getInstantSendLockByHashInternal at h
  split at h
  · cases h
  · exact h

variable {hasher} in
lemma ChainedWalk.visit_pending (nHeight : Nat) {w : ChainedWalk Sig} {parent hash : Uint256}
    (hchild : hash ∈ w.state.db.getInstantSendLocksByParent parent) :
    (w.visit hasher nHeight hash).state.db = w.state.db ∧
      (w.visit hasher nHeight hash).pending hasher ≤ w.pending hasher := by
  have hdb := db_getByHash hasher hash false w.state
  have hread := fun islock => @readIslock_of_getByHash _ hasher hash w.state islock
  unfold visit
  generalize getInstantSendLockByHashInternal hasher hash false w.state = r at hdb hread
  obtain ⟨islock, state⟩ := r
  dsimp only at hdb hread ⊢
  cases islock with
  | none => exact ⟨hdb, by simp only [pending, hdb]; rfl⟩
  | some islock =>
    dsimp only
    split
    · refine ⟨hdb, le_of_eq ?_⟩
      simp [pending, Removal.removeInstantSendLock, forget, hdb]
    case isFalse hnew =>
      refine ⟨hdb, ?_⟩
      -- what is pushed on the stack is no longer to be added
      have hless := length_filter_notMem_cons_lt
        (mem_lockedTxids hasher hchild (hread islock rfl)) hnew
      simp only [pending, Removal.removeInstantSendLock, forget, hdb,
        length_cons, Bool.false_eq_true, if_false]
      omega

variable {hasher} in
lemma ChainedWalk.foldl_visit_pending {nHeight : Nat} {w : ChainedWalk Sig} {parent : Uint256}
    {children : List Uint256}
    (hchildren : children ⊆ w.state.db.getInstantSendLocksByParent parent) :
    (children.foldl (visit hasher nHeight) w).pending hasher ≤ w.pending hasher := by
  induction children generalizing w with
  | nil => exact le_rfl
  | cons hash children ih =>
    obtain ⟨hdb, hle⟩ := visit_pending nHeight (hchildren mem_cons_self)
    refine (ih ?_).trans hle
    rw [hdb]
    exact fun _ hmem => hchildren (mem_cons_of_mem _ hmem)

/-- The outer loop of `RemoveChainedInstantSendLocks`. -/
def ChainedWalk.loop (nHeight : Nat) (w : ChainedWalk Sig) : ChainedWalk Sig :=
  match _hstack : w.stack with
  | [] => w
  | parent :: stack =>
    loop nHeight ((w.state.db.getInstantSendLocksByParent parent).foldl
      (visit hasher nHeight) { w with stack := stack })
termination_by w.pending hasher
decreasing_by
  refine lt_of_le_of_lt (foldl_visit_pending fun _ hmem => hmem) ?_
  simp [pending, _hstack]

def removeChainedInstantSendLocks (islockHash txid : Uint256) (nHeight : Nat)
    (s : CInstantSendDb Sig) : List Uint256 × CInstantSendDb Sig :=
  let w := loop hasher nHeight { state := s, stack := [txid] }
  let r := w.toRemoval.removeByHash hasher islockHash false
  let r := { r with
    batch := r.batch ++ archiveOf nHeight islockHash
    ret := r.ret ++ [islockHash] }
  (r.ret, r.write)

def removeConflictingLock (islock : CInstantSendLock Sig) (tipHeight : Nat)
    (s : CInstantSendDb Sig) : CInstantSendDb Sig :=
  (removeChainedInstantSendLocks hasher (hasher.serializeHash islock) islock.txid tipHeight s).2

/-! ## Events -/

/-- Where the transaction of a lock is found. -/
inductive TxPosition where
  | unknown
  | inMempool
  | mined (nHeight : Nat) (hasChainLock : Bool)

/-- The block of the transaction has a ChainLock. -/
def TxPosition.hasChainLock : TxPosition → Bool
  | .mined _ hasChainLock => hasChainLock
  | _ => false

def processInstantSendLock (islock : CInstantSendLock Sig) (tx : TxPosition)
    (s : CInstantSendDb Sig) : CInstantSendDb Sig :=
  let hash := hasher.serializeHash islock
  let (known, s) := knownInstantSendLock hasher hash s
  if known then s
  -- the ChainLock implies locking of all transactions of its chain
  else if tx.hasChainLock then s
  else
    let (sameTxIsLock, s) := getInstantSendLockByTxid hasher islock.txid s
    if sameTxIsLock.isSome then s
    else
      -- a lock with one of the inputs is only logged
      let s := islock.inputs.foldl (fun s i => (getInstantSendLockByInput hasher i s).2) s
      match tx with
      | .unknown => s
      | .inMempool => s.writeNewInstantSendLock hash islock
      | .mined nHeight _ =>
        (s.writeNewInstantSendLock hash islock).writeInstantSendLockMined hash nHeight

section

variable (txids : List Uint256)

/-- The hashes of the locks of a block's transactions. -/
def lockHashesOf (s : CInstantSendDb Sig) : List Uint256 × CInstantSendDb Sig :=
  txids.foldl
    (fun (hashes, s) txid =>
      let (islockHash, s) := getInstantSendLockHashByTxidInternal txid s
      (if islockHash = 0 then hashes else hashes ++ [islockHash], s))
    ([], s)

/-- `WriteBlockInstantSendLocks`, for the transactions with inputs of a block. -/
def writeBlockInstantSendLocks (nHeight : Nat) (s : CInstantSendDb Sig) : CInstantSendDb Sig :=
  let (hashes, s) := lockHashesOf txids s
  { s with db := s.db.writeBatch (hashes.map (.writeMined nHeight ·)) }

def removeBlockInstantSendLocks (nHeight : Nat) (s : CInstantSendDb Sig) : CInstantSendDb Sig :=
  let (hashes, s) := lockHashesOf txids s
  { s with db := s.db.writeBatch (hashes.map (.eraseMined nHeight ·)) }

end

/-- What happens to the database. -/
inductive IsEvent (Sig : Type) where
  | processInstantSendLock (islock : CInstantSendLock Sig) (tx : TxPosition)
  | handleFullyConfirmedBlock (nHeight : Nat)
  | removeConflictingLock (islock : CInstantSendLock Sig) (tipHeight : Nat)
  | transactionRemovedFromMempool (txid : Uint256) (tipHeight : Nat)
  | blockConnected (txids : List Uint256) (nHeight : Nat)
  | blockDisconnected (txids : List Uint256) (nHeight : Nat)
  /-- Other parts of the node ask for a lock. -/
  | askHash (hash : Uint256)
  | askTxid (txid : Uint256)
  | askInput (outpoint : COutPoint)
  /-- The caches drop entries. -/
  | evict (dropIslock dropTxid : Uint256 → Bool) (dropOutpoint : COutPoint → Bool)
  | restart

def step (s : CInstantSendDb Sig) : IsEvent Sig → CInstantSendDb Sig
  | .processInstantSendLock islock tx => processInstantSendLock hasher islock tx s
  | .handleFullyConfirmedBlock nHeight =>
    let (_, s) := removeConfirmedInstantSendLocks hasher nHeight s
    removeArchivedInstantSendLocks ((nHeight : Int) - 100) s
  | .removeConflictingLock islock tipHeight => removeConflictingLock hasher islock tipHeight s
  | .transactionRemovedFromMempool txid tipHeight =>
    let (islock, s) := getInstantSendLockByTxid hasher txid s
    match islock with
    | none => s
    | some islock => removeConflictingLock hasher islock tipHeight s
  | .blockConnected txids nHeight => writeBlockInstantSendLocks txids nHeight s
  | .blockDisconnected txids nHeight => removeBlockInstantSendLocks txids nHeight s
  | .askHash hash => (knownInstantSendLock hasher hash s).2
  | .askTxid txid => (getInstantSendLockByTxid hasher txid s).2
  | .askInput outpoint => (getInstantSendLockByInput hasher outpoint s).2
  | .evict dropIslock dropTxid dropOutpoint =>
    { s with
      islockCache := fun hash => if dropIslock hash then none else s.islockCache hash
      txidCache := fun txid => if dropTxid txid then none else s.txidCache txid
      outpointCache := fun outpoint =>
        if dropOutpoint outpoint then none else s.outpointCache outpoint }
  | .restart => { start with db := s.db }

/-- A run of the node from an empty database. -/
def run (events : List (IsEvent Sig)) : CInstantSendDb Sig := events.foldl (step hasher) start

end Operations

end CInstantSendDb

end HootChain.Llmq
