import HootChain.Foundation.OverlayStore
import HootChain.Serialize.VarInt

/-!
# The Evo Database (`evo/evodb.h`, `dbwrapper.h`)

Three layers lie over each other: the database on disk, the *root* transaction, which holds
what the blocks since the last flush have changed, and the *current* transaction of the block
that is being connected or disconnected. Keys are compared by their bytes.
-/

namespace HootChain.Evo

open Foundation Serialize List Function Transaction

/-- `CEvoDB`, with values of one type. -/
structure CEvoDB (α : Type) where
  db : Std.TreeMap ByteStream α compare := ∅
  rootDBTransaction : Transaction ByteStream α compare := .clean
  curDBTransaction : Transaction ByteStream α compare := .clean

namespace CEvoDB

variable {α : Type} (evoDb : CEvoDB α)

/-- What the root transaction reads. -/
def rootRead : ByteStream → Option α := evoDb.rootDBTransaction.read fun key => evoDb.db[key]?

def read : ByteStream → Option α := evoDb.curDBTransaction.read evoDb.rootRead

def write (key : ByteStream) (value : α) : CEvoDB α :=
  { evoDb with curDBTransaction := evoDb.curDBTransaction.write key value }

def erase (key : ByteStream) : CEvoDB α :=
  { evoDb with curDBTransaction := evoDb.curDBTransaction.erase key }

/-- `Exists`. -/
def existsKey : ByteStream → Bool :=
  evoDb.curDBTransaction.existsKey <| evoDb.rootDBTransaction.existsKey fun key =>
    (evoDb.db[key]?).isSome

/-- `NewIterator` of the current transaction, after `Seek`: the entries it visits. -/
def newIterator (key : ByteStream) : List (ByteStream × α) :=
  evoDb.curDBTransaction.iterate (evoDb.rootDBTransaction.iterate (storeFrom evoDb.db key) key) key

def commitCurTransaction : CEvoDB α :=
  { evoDb with
    rootDBTransaction := evoDb.curDBTransaction.commit evoDb.rootDBTransaction
    curDBTransaction := .clean }

def rollbackCurTransaction : CEvoDB α := { evoDb with curDBTransaction := .clean }

/-- `CommitRootTransaction`, without the assertion that the current transaction is clean. Values
are read back from the disk as they were written. -/
def commitRootTransaction : CEvoDB α :=
  { evoDb with
    db := evoDb.rootDBTransaction.commitStore evoDb.db
    rootDBTransaction := .clean }

variable {evoDb}

section

variable (key : ByteStream)

@[simp] lemma read_write (value : α) :
    (evoDb.write key value).read = update evoDb.read key (some value) :=
  Transaction.read_write key value

@[simp] lemma read_erase : (evoDb.erase key).read = update evoDb.read key none :=
  Transaction.read_erase key

/-- A commit changes no answer. -/
@[simp] lemma read_commitCurTransaction : evoDb.commitCurTransaction.read = evoDb.read := by
  rw [read, commitCurTransaction, read_clean]
  exact read_commit

@[simp] lemma read_rollbackCurTransaction : evoDb.rollbackCurTransaction.read = evoDb.rootRead :=
  read_clean

/-- Neither does writing to the disk. -/
@[simp] lemma read_commitRootTransaction : evoDb.commitRootTransaction.read = evoDb.read := by
  have hroot : evoDb.commitRootTransaction.rootRead = evoDb.rootRead := by
    exact get_commitStore evoDb.db
  rw [read, hroot]
  rfl

/-- **Iterators.** An iterator visits what can be read from its key on, in the order of the
keys. -/
theorem listsFrom_newIterator : ListsFrom compare evoDb.read key (evoDb.newIterator key) :=
  (listsFrom_storeFrom evoDb.db key).iterate.iterate

lemma existsKey_eq : evoDb.existsKey key = (evoDb.read key).isSome := by
  have hroot : (evoDb.rootDBTransaction.existsKey fun key => (evoDb.db[key]?).isSome) =
      fun key => (evoDb.rootRead key).isSome := funext fun key => Transaction.existsKey_eq key
  rw [existsKey, hroot]
  exact Transaction.existsKey_eq key

end

/-! ## Runs -/

/-- The operations that change something. -/
inductive Event (α : Type) where
  | write (key : ByteStream) (value : α)
  | erase (key : ByteStream)
  | commitCurTransaction
  | rollbackCurTransaction
  | commitRootTransaction

def step (evoDb : CEvoDB α) : Event α → CEvoDB α
  | .write key value => evoDb.write key value
  | .erase key => evoDb.erase key
  | .commitCurTransaction => evoDb.commitCurTransaction
  | .rollbackCurTransaction => evoDb.rollbackCurTransaction
  | .commitRootTransaction => evoDb.commitRootTransaction

/-- What the layers are for: the database and two maps over it. -/
structure Overlay (α : Type) where
  db : ByteStream → Option α
  root : ByteStream → Option α := db
  cur : ByteStream → Option α := root

def Overlay.step (o : Overlay α) : Event α → Overlay α
  | .write key value => { o with cur := update o.cur key (some value) }
  | .erase key => { o with cur := update o.cur key none }
  | .commitCurTransaction => { o with root := o.cur }
  | .rollbackCurTransaction => { o with cur := o.root }
  | .commitRootTransaction => { o with db := o.root }

/-- What is read from each layer. -/
def overlay (evoDb : CEvoDB α) : Overlay α := ⟨fun key => evoDb.db[key]?, evoDb.rootRead, evoDb.read⟩

lemma overlay_step (e : Event α) : (evoDb.step e).overlay = evoDb.overlay.step e := by
  cases e with
  | write key value => exact congrArg (Overlay.mk _ _) (read_write key value)
  | erase key => exact congrArg (Overlay.mk _ _) (read_erase key)
  | commitCurTransaction =>
    exact congrArg (fun root => Overlay.mk _ root root) read_commit
  | rollbackCurTransaction => exact congrArg (Overlay.mk _ _) read_rollbackCurTransaction
  | commitRootTransaction =>
    exact congrArg (fun db => Overlay.mk db db (evoDb.curDBTransaction.read db))
      (get_commitStore evoDb.db)

/-- **Overlays.** From every content of the database and after all operations, reads, tests and
iterations through the transactions are those of the maps. -/
theorem overlay_run (db : Std.TreeMap ByteStream α compare) (events : List (Event α)) :
    let evoDb := events.foldl step { db }
    let o := events.foldl Overlay.step { db := fun key => db[key]? }
    evoDb.overlay = o ∧ (∀ key, evoDb.existsKey key = (o.cur key).isSome) ∧
      ∀ key, ListsFrom compare o.cur key (evoDb.newIterator key) := by
  intro evoDb o
  have hrun : evoDb.overlay = o := (foldl_hom overlay fun _ e => (overlay_step e).symm).symm
  have hcur : evoDb.read = o.cur := congrArg Overlay.cur hrun
  exact ⟨hrun, fun key => hcur ▸ existsKey_eq key, fun key => hcur ▸ listsFrom_newIterator key⟩

end CEvoDB

end HootChain.Evo
