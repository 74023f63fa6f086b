import HootChain.Evo.CommittedRoot
import HootChain.Evo.DiffSerialize
import HootChain.Evo.ReachableList

/-!
# A List From Its Diff (`BuildDiff`, the database, `ApplyDiff`)

The node keeps the diff of each block and makes the list of the block from it again. What
comes out has to be the list that was diffed, with its maps and with the counter that gives
the next masternode its id. The updates of a diff are in a hash table, so they are written in
some order and applied in another one.

The counter is not in the diff: it is found again from the ids of the added masternodes. A
masternode that a block registers and removes again is in neither list. Nor is an operator key
in the diff that a block takes away and gives back in the other scheme.
-/

namespace HootChain.Evo

open Primitives Foundation Serialize CDeterministicMNStateDiff List CDeterministicMN Except Nat

namespace CDeterministicMNList

/-! ## The counter of registrations -/

/-- `AddMN` on the counter. -/
def bumpCount (count id : Nat) : Nat := max (id + 1) count % 2 ^ 32

/-- The counter after the ids of some masternodes, in order: it is where it was if they are
all below it, or follows the last id. -/
lemma foldl_bumpCount {ids : List Nat} (hsorted : ids.Pairwise (· ≤ ·)) {count : Nat}
    (hcount : count < 2 ^ 32) :
    (ids.foldl bumpCount count = count ∧ ∀ id ∈ ids, id < count) ∨
      ∃ id ∈ ids, count ≤ id ∧ (∀ id' ∈ ids, id' ≤ id) ∧
        ids.foldl bumpCount count = (id + 1) % 2 ^ 32 := by
  -- the last id decides, so the induction is from the right
  induction ids using reverseRecOn with
  | nil => exact .inl ⟨rfl, by simp⟩
  | append_singleton ids id ih =>
    rw [pairwise_append] at hsorted
    have hlast : ∀ id' ∈ ids, id' ≤ id := fun id' h => hsorted.2.2 id' h id (by simp)
    have hall : ∀ id' ∈ ids ++ [id], id' ≤ id := by
      intro id' h
      rcases mem_append.mp h with h | h
      · exact hlast id' h
      · exact (mem_singleton.mp h).le
    rw [foldl_append]
    rcases ih hsorted.1 with ⟨hsame, hbelow⟩ | ⟨id', hid', hle, -, hnext⟩
    · by_cases hid : id < count
      · refine .inl ⟨?_, ?_⟩
        · rw [hsame]
          simp only [foldl_cons, foldl_nil, bumpCount]
          rw [max_eq_right hid, mod_eq_of_lt hcount]
        · intro id' h
          exact (hall id' h).trans_lt hid
      · refine .inr ⟨id, by simp, not_lt.mp hid, hall, ?_⟩
        simp only [foldl_cons, foldl_nil, bumpCount]
        rw [max_eq_left (by omega)]
    · refine .inr ⟨id, by simp, hle.trans (hlast id' hid'), hall, ?_⟩
      have hnear := hlast id' hid'
      simp only [foldl_cons, foldl_nil, bumpCount]
      rw [max_eq_left (by omega)]

section Counter

variable {l l' : CDeterministicMNList}

lemma nTotalRegisteredCount_applyRemoved {id : Nat} (hrun : l.applyRemoved id = .ok l') :
    l'.nTotalRegisteredCount = l.nTotalRegisteredCount := by
  unfold applyRemoved at hrun
  split at hrun
  · cases hrun
  · next dmn _ =>
    cases hget : l.getMN dmn.proTxHash with
    | none => simp [removeMN, hget] at hrun
    | some mn =>
      obtain ⟨m, -, rfl⟩ := (removeMN_eq_ok hget).mp hrun
      rfl

/-- An update leaves the counter and the ids. -/
lemma frame_applyUpdated {p : Nat × CDeterministicMNStateDiff}
    (hrun : l.applyUpdated p = .ok l') : l'.nTotalRegisteredCount = l.nTotalRegisteredCount ∧
      l'.mnInternalIdMap = l.mnInternalIdMap := by
  unfold applyUpdated at hrun
  split at hrun
  · cases hrun
  · obtain ⟨m, -, heq⟩ := bind_eq_ok.mp hrun
    cases heq
    exact ⟨rfl, rfl⟩

lemma nTotalRegisteredCount_additions {dmns : List CDeterministicMN}
    (hrun : dmns.foldlM (fun result dmn => result.addMN dmn true) l = .ok l') :
    l'.nTotalRegisteredCount = (dmns.map internalId).foldl bumpCount l.nTotalRegisteredCount := by
  induction dmns generalizing l with
  | nil =>
    cases hrun
    rfl
  | cons dmn dmns ih =>
    rw [foldlM_cons, bind_eq_ok] at hrun
    obtain ⟨l₁, hadd, hrest⟩ := hrun
    rw [ih hrest]
    obtain ⟨-, -, m, -, rfl⟩ := addMN_eq_ok.mp hadd
    rfl

lemma nTotalRegisteredCount_applyDiff {blockHash : Uint256} {nHeight : Int}
    {diff : CDeterministicMNListDiff} (hrun : l.applyDiff blockHash nHeight diff = .ok l') :
    l'.nTotalRegisteredCount =
      (diff.addedMNs.map internalId).foldl bumpCount l.nTotalRegisteredCount := by
  simp only [applyDiff, bind_eq_ok] at hrun
  obtain ⟨l₁, hremoved, l₂, hadded, hupdated⟩ := hrun
  have h₁ := foldlM_preserves (fun cur => cur.nTotalRegisteredCount = l.nTotalRegisteredCount)
    (fun cur id next _ hcur hstep => (nTotalRegisteredCount_applyRemoved hstep).trans hcur)
    rfl hremoved
  have h₂ := nTotalRegisteredCount_additions hadded
  have h₃ := foldlM_preserves (fun cur => cur.nTotalRegisteredCount = l₂.nTotalRegisteredCount)
    (fun cur p next _ hcur hstep => (frame_applyUpdated hstep).1.trans hcur)
    rfl hupdated
  rw [h₃, h₂, h₁]

end Counter

/-! ## Lists that come out of their diffs -/

section

variable (old new : CDeterministicMNList)

/-- A masternode that only the new list has. -/
def Added (dmn : CDeterministicMN) : Prop :=
  new.getMN dmn.proTxHash = some dmn ∧ old.getMN dmn.proTxHash = none

/-- The counter of the new list is the old one, and no masternode was added past it; or it
follows the last id of an added masternode. -/
def LastStays : Prop :=
  (new.nTotalRegisteredCount = old.nTotalRegisteredCount ∧
    ∀ dmn, Added old new dmn → dmn.internalId < old.nTotalRegisteredCount) ∨
  ∃ dmn, Added old new dmn ∧ old.nTotalRegisteredCount ≤ dmn.internalId ∧
    (∀ dmn', Added old new dmn' → dmn'.internalId ≤ dmn.internalId) ∧
    new.nTotalRegisteredCount = (dmn.internalId + 1) % 2 ^ 32

/-- A masternode that stays with its operator key has it in its old scheme. -/
def KeepsSchemes : Prop :=
  ∀ {h dmn dmn'}, old.getMN h = some dmn → new.getMN h = some dmn' →
    dmn.pdmnState.pubKeyOperator.KeepsScheme dmn'.pdmnState.pubKeyOperator

/-- An operator key that a masternode did not have in the old list is in the scheme of its
version, in which payloads are read. -/
def KeysRead : Prop :=
  ∀ {h dmn}, new.getMN h = some dmn →
    (∀ {fromPtr}, old.getMN h = some fromPtr →
      fromPtr.pdmnState.pubKeyOperator.same dmn.pdmnState.pubKeyOperator = false) →
    dmn.pdmnState.keyInScheme = true

end

/-- The values of a list that C++ can hold and the database can take. -/
structure Storable (bls : BlsEncoding) (l : CDeterministicMNList) : Prop where
  fits : ∀ {h dmn}, l.getMN h = some dmn → dmn.Fits bls
  count : l.nTotalRegisteredCount < 2 ^ 32
  size : l.getAllMNsCount ≤ maxSize

/-- The diff of the lists, written with its updates in any order and read back, can be
applied in any order and gives the new list. -/
def RoundTrips (bls : BlsEncoding) (old new : CDeterministicMNList) : Prop :=
  ∀ written, written.Perm (old.buildDiff new).updatedMNs →
    ∃ diff, CDeterministicMNListDiff.unserialize bls
        (CDeterministicMNListDiff.serialize bls { old.buildDiff new with updatedMNs := written }) =
          .ok (diff, []) ∧
      ∀ updates, updates.Perm diff.updatedMNs →
        old.applyDiff new.blockHash new.nHeight { diff with updatedMNs := updates } = .ok new

section Iff

variable {bls : BlsEncoding} {old new l l' : CDeterministicMNList}

lemma sorted_addedMNs : ((old.buildDiff new).addedMNs.map internalId).Pairwise (· ≤ ·) := by
  rw [pairwise_map]
  exact pairwise_insertionSort _ _

lemma count_eq_iff_lastStays (hnew : new.WellIndexed)
    (hcount : old.nTotalRegisteredCount < 2 ^ 32) :
    ((old.buildDiff new).addedMNs.map internalId).foldl bumpCount
        old.nTotalRegisteredCount = new.nTotalRegisteredCount ↔ LastStays old new := by
  have hmem : ∀ dmn, dmn ∈ (old.buildDiff new).addedMNs ↔ Added old new dmn :=
    fun dmn => mem_addedMNs hnew
  rcases foldl_bumpCount sorted_addedMNs hcount with ⟨hsame, hbelow⟩ | ⟨id, hid, hle, hlast, hnext⟩
  · rw [hsame]
    constructor
    · intro heq
      refine .inl ⟨heq.symm, fun dmn hdmn => hbelow _ ?_⟩
      exact mem_map_of_mem ((hmem dmn).mpr hdmn)
    · rintro (⟨heq, -⟩ | ⟨dmn, hdmn, hpast, -⟩)
      · exact heq.symm
      · have hlt := hbelow _ (mem_map_of_mem ((hmem dmn).mpr hdmn))
        exact absurd hlt (not_lt.mpr hpast)
  · obtain ⟨dmn, hdmn, rfl⟩ := mem_map.mp hid
    rw [hnext]
    constructor
    · intro heq
      refine .inr ⟨dmn, (hmem dmn).mp hdmn, hle, fun dmn' hdmn' => hlast _ ?_, heq.symm⟩
      exact mem_map_of_mem ((hmem dmn').mpr hdmn')
    · rintro (⟨-, hbelow⟩ | ⟨dmn', hdmn', -, hlast', heq⟩)
      · exact absurd (hbelow dmn ((hmem dmn).mp hdmn)) (not_lt.mpr hle)
      · have hup := hlast' dmn ((hmem dmn).mp hdmn)
        have hdown := hlast _ (mem_map_of_mem ((hmem dmn').mpr hdmn'))
        rw [heq, le_antisymm hdown hup]

/-! ### The diff on disk -/

lemma length_mns (l : CDeterministicMNList) : l.mns.length = l.getAllMNsCount := by
  rw [mns, length_map, getAllMNsCount, Std.ExtTreeMap.length_toList]

variable (hold : old.WellIndexed)

include hold

lemma sorted_removedMns : (old.buildDiff new).removedMns.Pairwise (· < ·) := by
  have hle : (old.buildDiff new).removedMns.Pairwise (· ≤ ·) := pairwise_insertionSort _ _
  have hnodup : ((old.buildDiff new).removedMns.map old.hashOfId).Nodup := nodup_removedMns hold
  have hne := hnodup.of_map
  exact (hle.and hne).imp fun h => lt_of_le_of_ne h.1 h.2

omit hold in
/-- The additions give each added masternode its entry. -/
lemma getMN_additions {dmns : List CDeterministicMN}
    (hget : ∀ dmn ∈ dmns, new.getMN dmn.proTxHash = some dmn)
    (hrun : dmns.foldlM (fun result dmn => result.addMN dmn true) l = .ok l') (h : Uint256) :
    l'.getMN h =
      if h ∈ dmns.map proTxHash then new.getMN h else l.getMN h := by
  induction dmns generalizing l with
  | nil =>
    cases hrun
    rfl
  | cons dmn dmns ih =>
    rw [foldlM_cons, bind_eq_ok] at hrun
    obtain ⟨l₁, hadd, hrest⟩ := hrun
    rw [ih (fun mn hmn => hget mn (mem_cons_of_mem _ hmn)) hrest, getMN_addMN hadd]
    by_cases hh : h = dmn.proTxHash
    · subst hh
      simp [hget dmn mem_cons_self]
    · simp [hh]

variable (hnew : new.WellIndexed)

include hnew

section

variable (holdStored : old.Storable bls) (hnewStored : new.Storable bls) (hread : KeysRead old new)

include holdStored hnewStored hread

lemma proper_buildDiff {written : List (Nat × CDeterministicMNStateDiff)}
    (hperm : written.Perm (old.buildDiff new).updatedMNs) :
    CDeterministicMNListDiff.Proper bls { old.buildDiff new with updatedMNs := written } where
  nHeight := rfl
  added_fits := by
    intro dmn hdmn
    obtain ⟨hget, hnone⟩ := (mem_addedMNs hnew).mp hdmn
    refine ⟨hnewStored.fits hget, hread hget fun hfrom => ?_⟩
    rw [hnone] at hfrom
    cases hfrom
  updated_proper := by
    intro p hp
    obtain ⟨fromPtr, toPtr, hto, hfrom, -, rfl⟩ := (mem_updatedMNs hnew).mp (hperm.mem_iff.mp hp)
    have hfits := hnewStored.fits hto
    refine ⟨hfits.internalId, proper_diff hfits.state fun hother => hread hto fun hfrom' => ?_⟩
    obtain rfl := Option.some.inj (hfrom.symm.trans hfrom')
    exact hother
  removed_fits := by
    intro id hid
    obtain ⟨h, dmn, hget, rfl, -⟩ := (mem_removedMns hold).mp hid
    exact (holdStored.fits hget).internalId
  updated_nodup := by
    have hnodup := (hperm.map fun p => new.hashOfId p.1).nodup_iff.mpr (nodup_updatedMNs hnew)
    exact List.Nodup.of_map new.hashOfId (by rwa [map_map])
  removed_sorted := sorted_removedMns hold
  added_size := by
    refine le_trans ?_ (length_mns new ▸ hnewStored.size)
    rw [buildDiff, length_insertionSort]
    exact length_filter_le ..
  updated_size := by
    refine le_trans ?_ (length_mns new ▸ hnewStored.size)
    rw [hperm.length_eq]
    exact length_filterMap_le ..
  removed_size := by
    refine le_trans ?_ (length_mns old ▸ holdStored.size)
    rw [buildDiff, length_insertionSort, length_map]
    exact length_filter_le ..

/-- The database gives the diff back, so that only the orders of its updates matter. -/
lemma roundTrips_iff_applyDiff :
    RoundTrips bls old new ↔ ∀ updates, updates.Perm (old.buildDiff new).updatedMNs →
      old.applyDiff new.blockHash new.nHeight { old.buildDiff new with updatedMNs := updates } =
        .ok new := by
  constructor
  · intro htrips updates hperm
    obtain ⟨diff, hstored, happly⟩ := htrips updates hperm
    have hproper := proper_buildDiff hold hnew holdStored hnewStored hread hperm
    have hback := (CDeterministicMNListDiff.reads_unserialize hproper).all
    obtain rfl := congrArg Prod.fst (ok.inj (hback.symm.trans hstored))
    exact happly updates (List.Perm.refl _)
  · intro happly written hperm
    have hproper := proper_buildDiff hold hnew holdStored hnewStored hread hperm
    refine ⟨_, (CDeterministicMNListDiff.reads_unserialize hproper).all, fun updates horder => ?_⟩
    exact happly updates (horder.trans hperm)

end

/-! ### What a diff that was applied shows -/

/-- After the removals and additions: the masternodes that stay still have their entries. -/
lemma applyDiff_halfway
    {updates : List (Nat × CDeterministicMNStateDiff)} {blockHash : Uint256} {nHeight : Int}
    (hrun : old.applyDiff blockHash nHeight { old.buildDiff new with updatedMNs := updates } =
      .ok l') :
    ∃ l, l.WellIndexed ∧ updates.foldlM applyUpdated l = .ok l' ∧
      ∀ h, l.getMN h = if old.getMN h = none ∨ new.getMN h = none then new.getMN h
        else old.getMN h := by
  simp only [applyDiff, bind_eq_ok] at hrun
  obtain ⟨l₁, hremoved, l₂, hadded, hupdated⟩ := hrun
  obtain ⟨l₁', hremoved', hl₁, hget₁⟩ := exists_removals new hold blockHash nHeight
  obtain rfl := ok.inj (hremoved.symm.trans hremoved')
  have hentry : ∀ dmn ∈ (old.buildDiff new).addedMNs, new.getMN dmn.proTxHash = some dmn :=
    fun dmn hdmn => ((mem_addedMNs hnew).mp hdmn).1
  have hl₂ := foldlM_preserves WellIndexed (fun _ _ _ _ hcur hstep => hcur.addMN hstep) hl₁ hadded
  refine ⟨l₂, hl₂, hupdated, fun h => ?_⟩
  simp only [getMN_additions hentry hadded, mem_addedHashes hnew, hget₁]
  by_cases hnone : new.getMN h = none <;> simp [hnone]

variable {p : Nat × CDeterministicMNStateDiff} {h : Uint256} {dmn : CDeterministicMN}

section

variable (hl : ∀ {h dmn}, l.getMN h = some dmn → dmn.proTxHash = h)

include hl

omit hold hnew in
/-- An update changes nothing of a masternode but its state. -/
lemma applyUpdated_same
    (hget : ∃ state, l.getMN h = some (dmn.withState state)) (hrun : l.applyUpdated p = .ok l') :
    ∃ state, l'.getMN h = some (dmn.withState state) := by
  obtain ⟨state, hget⟩ := hget
  unfold applyUpdated at hrun
  split at hrun
  · cases hrun
  · next mn hmn =>
    obtain ⟨k, -, hmn⟩ := Option.bind_eq_some_iff.mp hmn
    rw [getMN_updateMN hrun]
    split
    · next hh =>
      obtain rfl : k = h := (hl hmn).symm.trans hh.symm
      obtain rfl := Option.some.inj (hmn.symm.trans hget)
      exact ⟨_, rfl⟩
    · exact ⟨state, hget⟩

omit hold hnew in
lemma proTxHash_eq_applyUpdated
    (hrun : l.applyUpdated p = .ok l') (hget : l'.getMN h = some dmn) : dmn.proTxHash = h := by
  unfold applyUpdated at hrun
  split at hrun
  · cases hrun
  · rw [getMN_updateMN hrun] at hget
    split at hget
    · next hh =>
      obtain rfl := Option.some.inj hget
      exact hh.symm
    · exact hl hget

end

/-- Masternodes that stay keep all but their state, if the diff can be applied. -/
lemma same_of_applyDiff
    (hrun : old.applyDiff new.blockHash new.nHeight (old.buildDiff new) = .ok new)
    {dmn' : CDeterministicMN} (hget : old.getMN h = some dmn) (hget' : new.getMN h = some dmn') :
    dmn' = dmn.withState dmn'.pdmnState := by
  obtain ⟨l, hl, hupdates, hgetl⟩ := applyDiff_halfway hold hnew hrun
  have hstart : ∃ state, l.getMN h = some (dmn.withState state) := by
    refine ⟨dmn.pdmnState, ?_⟩
    rw [hgetl, hget, hget']
    rfl
  have hkept := foldlM_preserves
    (fun cur => (∀ {h dmn}, cur.getMN h = some dmn → dmn.proTxHash = h) ∧
      ∃ state, cur.getMN h = some (dmn.withState state))
    (fun cur p next _ hcur hstep =>
      ⟨proTxHash_eq_applyUpdated hcur.1 hstep, applyUpdated_same hcur.1 hcur.2 hstep⟩)
    ⟨hl.proTxHash_eq, hstart⟩ hupdates
  obtain ⟨state, hstate⟩ := hkept.2
  obtain rfl := Option.some.inj (hget'.symm.trans hstate)
  rfl

/-- A diff that gives the new list does not have to bring a key back in its other scheme. -/
lemma schemes_of_applyDiff
    (hrun : old.applyDiff new.blockHash new.nHeight (old.buildDiff new) = .ok new) :
    KeepsSchemes old new := by
  intro h dmn dmn' hget hget' hsameKey
  obtain ⟨l, hl, hupdates, hgetl⟩ := applyDiff_halfway hold hnew hrun
  have hstart : l.getMN h = some dmn := by
    rw [hgetl, hget, hget']
    rfl
  have hkept := foldlM_preserves
    (fun cur => (∀ {h dmn}, cur.getMN h = some dmn → dmn.proTxHash = h) ∧
      cur.mnInternalIdMap = l.mnInternalIdMap ∧ ∃ state, cur.getMN h = some (dmn.withState state) ∧
        state.pubKeyOperator = dmn.pdmnState.pubKeyOperator)
    (fun cur p next hp ⟨hkeyed, hids, state, hcur, hkey⟩ hstep => by
      refine ⟨proTxHash_eq_applyUpdated hkeyed hstep, (frame_applyUpdated hstep).2.trans hids, ?_⟩
      unfold applyUpdated at hstep
      split at hstep
      · cases hstep
      · next mn hmn =>
        obtain ⟨k, hid, hmn⟩ := Option.bind_eq_some_iff.mp hmn
        rw [getMN_updateMN hstep]
        split
        · -- the update is that of the masternode, and its diff has no key
          next hh =>
          obtain rfl : k = h := (hkeyed hmn).symm.trans hh.symm
          obtain rfl := Option.some.inj (hmn.symm.trans hcur)
          obtain ⟨fromPtr, toPtr, hto, hfrom, -, rfl⟩ := (mem_updatedMNs hnew).mp hp
          obtain ⟨first, hfirst, hfirstId⟩ := (hl.internalIds _ _).mp (hids ▸ hid)
          obtain rfl := Option.some.inj (hfirst.symm.trans hstart)
          have hsame := same_of_applyDiff hold hnew hrun hget hget'
          have hhash := hnew.internalId_inj hto hget' (by rw [hsame]; exact hfirstId.symm)
          rw [hhash] at hto hfrom
          obtain rfl := Option.some.inj (hto.symm.trans hget')
          obtain rfl := Option.some.inj (hfrom.symm.trans hget)
          refine ⟨_, rfl, ?_⟩
          simpa [applyToState, diff, changed, hsameKey] using hkey
        · exact ⟨state, hcur, hkey⟩)
    ⟨hl.proTxHash_eq, rfl, dmn.pdmnState, hstart, rfl⟩ hupdates
  obtain ⟨-, -, state, hstate, hkey⟩ := hkept
  obtain rfl := Option.some.inj (hget'.symm.trans hstate)
  exact hkey.symm

omit hold hnew in
/-- The update of a masternode that is made first finds the others as they were. -/
lemma wellIndexed_firstUpdate (hl : l.WellIndexed) (hnew : new.WellIndexed)
    {fromPtr toPtr : CDeterministicMN} (hfrom : l.getMN h = some fromPtr)
    (hto : new.getMN h = some toPtr) (hsame : toPtr = fromPtr.withState toPtr.pdmnState)
    (hscheme : fromPtr.pdmnState.pubKeyOperator.KeepsScheme toPtr.pdmnState.pubKeyOperator)
    (hrun : l.applyUpdated (toPtr.internalId, .diff fromPtr.pdmnState toPtr.pdmnState) = .ok l') :
    l'.WellIndexed ∧ ∀ k, l'.getMN k = if k = h then some toPtr else l.getMN k := by
  have hid : l.getMNByInternalId toPtr.internalId = some fromPtr := by
    rw [hsame]
    exact hl.getMNByInternalId hfrom
  have hhash := hl.proTxHash_eq hfrom
  simp only [applyUpdated, hid, updateMNByDiff, applyToState_diff, restored_eq hscheme] at hrun
  refine ⟨hl.updateMN (hhash.symm ▸ hfrom) hscheme (hsame ▸ hnew.keys hto) hrun, fun k => ?_⟩
  rw [getMN_updateMN hrun, hhash, ← hsame]

/-- No masternode that stays loses a property to another one, if the diff can be applied in
every order. -/
lemma kept_of_applyDiff
    (hruns : ∀ updates, updates.Perm (old.buildDiff new).updatedMNs →
      old.applyDiff new.blockHash new.nHeight { old.buildDiff new with updatedMNs := updates } =
        .ok new)
    {h h' : Uint256} {p : UniqueProperty} (hp : new.Holds h p) (hp' : old.Holds h' p) :
    h' = h ∨ new.getMN h' = none := by
  by_contra hnot
  rw [not_or] at hnot
  obtain ⟨hne, hstays⟩ := hnot
  obtain ⟨toPtr, hto, hmem⟩ := hp
  obtain ⟨dmn', hget', hmem'⟩ := hp'
  have hstays' : old.getMN h' ≠ none := by simp [hget']
  cases hfrom : old.getMN h with
  | none =>
    -- the masternode is added while the other one still has the property
    obtain ⟨l, hl, -, hgetl⟩ := applyDiff_halfway hold hnew (hruns _ (List.Perm.refl _))
    have hholds : l.Holds h p := holds_of_mem (by rw [hgetl, hfrom]; simpa using hto) hmem
    have hholds' : l.Holds h' p :=
      holds_of_mem (by rw [hgetl, if_neg (not_or.mpr ⟨hstays', hstays⟩), hget']) hmem'
    exact hne (hl.properties.owner_unique hholds' hholds)
  | some fromPtr =>
    have hsame := same_of_applyDiff hold hnew (hruns _ (List.Perm.refl _)) hfrom hto
    have hscheme := schemes_of_applyDiff hold hnew (hruns _ (List.Perm.refl _)) hfrom hto
    have hchanged : restored fromPtr.pdmnState toPtr.pdmnState ≠ fromPtr.pdmnState := by
      intro heq
      rw [restored_eq hscheme] at heq
      rw [hsame, heq] at hmem
      exact hne (hold.properties.owner_unique ⟨dmn', hget', hmem'⟩ ⟨fromPtr, hfrom, hmem⟩)
    have hh := hnew.proTxHash_eq hto
    have hupdate : (toPtr.internalId, diff fromPtr.pdmnState
        toPtr.pdmnState) ∈ (old.buildDiff new).updatedMNs :=
      (mem_updatedMNs hnew).mpr ⟨fromPtr, toPtr, hh.symm ▸ hto, hh.symm ▸ hfrom, hchanged, rfl⟩
    -- the order in which its update comes first
    obtain ⟨before, after, hsplit⟩ := append_of_mem hupdate
    have hperm : ((toPtr.internalId, diff fromPtr.pdmnState
        toPtr.pdmnState) :: (before ++ after)).Perm (old.buildDiff new).updatedMNs := by
      rw [hsplit]
      exact perm_middle.symm
    obtain ⟨l, hl, hupdates, hgetl⟩ := applyDiff_halfway hold hnew (hruns _ hperm)
    rw [foldlM_cons, bind_eq_ok] at hupdates
    obtain ⟨l₁, hfirst, -⟩ := hupdates
    have hfroml : l.getMN h = some fromPtr := by
      rw [hgetl, hfrom, hto]
      rfl
    obtain ⟨hl₁, hget₁⟩ := wellIndexed_firstUpdate hl hnew hfroml hto hsame hscheme hfirst
    have hholds : l₁.Holds h p := holds_of_mem (by rw [hget₁, if_pos rfl]) hmem
    have hholds' : l₁.Holds h' p := by
      refine holds_of_mem ?_ hmem'
      rw [hget₁, if_neg hne, hgetl, if_neg (not_or.mpr ⟨hstays', hstays⟩), hget']
    exact hne (hl₁.properties.owner_unique hholds' hholds)

omit hold in
lemma replayed_eq (hschemes : KeepsSchemes old new) (h : Uint256) :
    replayed old new h = new.getMN h := by
  cases hget : new.getMN h with
  | none => simp [replayed, hget]
  | some dmn =>
    rw [replayed, hget, Option.map_some, restoredMN]
    split
    · rfl
    · next hfrom =>
      rw [hnew.proTxHash_eq hget] at hfrom
      rw [restored_eq (hschemes hfrom hget)]
      rfl

omit hold in
lemma lastStays_of_applyDiff (hcount : old.nTotalRegisteredCount < 2 ^ 32)
    (hrun : old.applyDiff new.blockHash new.nHeight (old.buildDiff new) = .ok new) :
    LastStays old new :=
  (count_eq_iff_lastStays hnew hcount).mp (nTotalRegisteredCount_applyDiff hrun).symm

/-- The diff gives the new list, in whichever order its updates are made. -/
lemma applyDiff_eq_ok (hcount : old.nTotalRegisteredCount < 2 ^ 32) (hfollows : Follows old new)
    (hlast : LastStays old new) (hschemes : KeepsSchemes old new)
    {updates : List (Nat × CDeterministicMNStateDiff)}
    (hperm : updates.Perm (old.buildDiff new).updatedMNs) :
    old.applyDiff new.blockHash new.nHeight { old.buildDiff new with updatedMNs := updates } =
      .ok new := by
  obtain ⟨l, hrun, hl, hget⟩ :=
    applyDiff_reordered hold hnew hfollows new.blockHash new.nHeight hperm
  obtain ⟨hmap, hids, hproperties⟩ :=
    hl.maps_eq hnew fun h => (hget h).trans (replayed_eq hnew hschemes h)
  have hcount' := (nTotalRegisteredCount_applyDiff hrun).trans
    ((count_eq_iff_lastStays hnew hcount).mpr hlast)
  have hstamp := stamp_applyDiff hrun
  cases l
  obtain ⟨rfl, rfl⟩ := Prod.mk.inj hstamp
  simp_all

/-- **Which lists come out of their diffs.** Masternodes that stay change nothing but their
state, keep the schemes of their keys and lose no property to another one, and the last
registration of the block stays. -/
theorem roundTrips_iff (holdStored : old.Storable bls) (hnewStored : new.Storable bls)
    (hread : KeysRead old new) :
    RoundTrips bls old new ↔ Follows old new ∧ LastStays old new ∧ KeepsSchemes old new := by
  rw [roundTrips_iff_applyDiff hold hnew holdStored hnewStored hread]
  constructor
  · intro hruns
    have hrun := hruns _ (List.Perm.refl _)
    exact ⟨⟨same_of_applyDiff hold hnew hrun, kept_of_applyDiff hold hnew hruns⟩,
      lastStays_of_applyDiff hnew holdStored.count hrun, schemes_of_applyDiff hold hnew hrun⟩
  · intro ⟨hfollows, hlast, hschemes⟩ updates hperm
    exact applyDiff_eq_ok hold hnew holdStored.count hfollows hlast hschemes hperm

end Iff

end CDeterministicMNList

/-! ## The lists of blocks -/

namespace CDeterministicMNList

/-- What `ProcessBlock` makes of the list of the previous block: the list of the block, and
that after the scheduled bans. -/
inductive Produced (env : MnEnv) (old : CDeterministicMNList) : CDeterministicMNList → Prop
  | block {pindexPrev : CBlockIndex} {block : CBlock} {new : CDeterministicMNList}
      (hrun : buildNewListFromBlock env pindexPrev block old = .ok new) : Produced env old new
  | bans {sorter : RegistrationSort} {nHeight : Int} {new : CDeterministicMNList}
      (hrun : old.banOldNodes sorter nHeight = .ok new) : Produced env old new
  | blockThenBans {sorter : RegistrationSort} {nHeight : Int} {mid new : CDeterministicMNList}
      (hmid : Produced env old mid) (hrun : mid.banOldNodes sorter nHeight = .ok new) :
      Produced env old new

section Blocks

variable {l l' : CDeterministicMNList} {env : MnEnv} {pindexPrev : CBlockIndex}

section

variable (hl : l.WellIndexed)

include hl

lemma WellIndexed.removeMN {h : Uint256} (hrun : l.removeMN h = .ok l') : l'.WellIndexed := by
  cases hget : l.getMN h with
  | none => simp [CDeterministicMNList.removeMN, hget] at hrun
  | some dmn =>
    obtain ⟨l₁, hrun₁, hl₁⟩ := exists_removeMN hl hget
    obtain rfl := ok.inj (hrun₁.symm.trans hrun)
    exact hl₁

/-- The step for the updates of a block: the owner stays. -/
lemma WellIndexed.updateMNByHash {h : Uint256} {dmn : CDeterministicMN}
    {state : CDeterministicMNState} (hget : l.getMN h = some dmn)
    (howner : state.keyIDOwner = dmn.pdmnState.keyIDOwner)
    (hscheme : dmn.pdmnState.pubKeyOperator.KeepsScheme state.pubKeyOperator)
    (hrun : l.updateMNByHash h state = .ok l') : l'.WellIndexed := by
  obtain ⟨dmn', hget', hupdate⟩ := updateMNByHash_eq_ok.mp hrun
  obtain rfl := Option.some.inj (hget.symm.trans hget')
  have hkeys : (dmn.withState state).KeysValid := by
    refine ⟨(hl.keys hget).collateral, ?_⟩
    rw [withState_pdmnState, howner]
    exact (hl.keys hget).owner
  exact hl.updateMN (hl.proTxHash_eq hget ▸ hget) hscheme hkeys hupdate

/-- One step, whether the transactions would pass their checks or not. -/
lemma WellIndexed.step {txs : List CTransaction} (hstep : Step txs l l') : l'.WellIndexed := by
  cases hstep with
  | update hget hstate hrun => exact hl.updateMNByHash hget hstate.owner hstate.keepsScheme hrun
  | remove hget hrun => exact hl.removeMN hrun
  | @register _ _ mid _ _ _ _ hreplaced hrun =>
    have hmid : mid.WellIndexed := by
      unfold removeReplaced at hreplaced
      split at hreplaced
      · cases hreplaced
        exact hl
      · exact hl.removeMN hreplaced
    exact hmid.addMN hrun

/-- **The maps of the list of a block** fit together. -/
theorem WellIndexed.buildNewListFromBlock {block : CBlock}
    (hrun : buildNewListFromBlock env pindexPrev block l = .ok l') : l'.WellIndexed := by
  have hsteps := steps_buildNewListFromBlock hl.proTxHash_eq hrun
  clear hrun
  induction hsteps with
  | refl => exact hl.stamped ..
  | tail _ hstep ih => exact ih.step hstep

lemma sameCores_banOldNodes {sorter : RegistrationSort} {nHeight : Int}
    (hrun : l.banOldNodes sorter nHeight = .ok l') : SameCores l l' := by
  obtain ⟨l₁, hrun₁, hpunishing, -⟩ := exists_banOldNodes sorter nHeight hl
  obtain rfl := ok.inj (hrun₁.symm.trans hrun)
  exact hpunishing.sameCores

end

lemma Produced.wellIndexed {old new : CDeterministicMNList} (hold : old.WellIndexed)
    (hproduced : Produced env old new) : new.WellIndexed := by
  induction hproduced with
  | block hrun => exact hold.buildNewListFromBlock hrun
  | bans hrun => exact hold.congr (sameCores_banOldNodes hold hrun)
  | blockThenBans _ hrun ih => exact ih.congr (sameCores_banOldNodes ih hrun)

end Blocks

section Restores

variable {bls : BlsEncoding} {env : MnEnv} {old new : CDeterministicMNList}

/-- **Which blocks have a diff that restores their list**: those whose masternodes that stay
lose nothing to others and get no key back in its other scheme, and whose last registration is
still there at the end. -/
theorem applyDiff_restores_iff (hold : old.WellIndexed) (hproduced : Produced env old new)
    (holdStored : old.Storable bls) (hnewStored : new.Storable bls) (hread : KeysRead old new) :
    RoundTrips bls old new ↔ Follows old new ∧ LastStays old new ∧ KeepsSchemes old new :=
  roundTrips_iff hold (hproduced.wellIndexed hold) holdStored hnewStored hread

/-- An encoding of numbers of 47 bytes. -/
def plainEncoding : BlsEncoding where
  isPoint point := point < 256 ^ 47
  toBytes _ point := 1 :: toLittleEndian 47 point
  fromBytes _ bytes := some (fromLittleEndian bytes.tail)
  length_toBytes _ point := congrArg (· + 1) (length_toLittleEndian 47 point)
  toBytes_ne_zero _ _ heq := absurd (cons.inj heq).1 (by decide)
  fromBytes_toBytes _ _ hpoint := congrArg some (fromLittleEndian_toLittleEndian hpoint)

lemma storable_of_empty {l : CDeterministicMNList} (hmap : l.mnMap = ∅)
    (hcount : l.nTotalRegisteredCount < 2 ^ 32) : l.Storable bls := by
  refine ⟨fun hget => ?_, hcount, ?_⟩
  · rw [getMN, hmap] at hget
    cases hget
  · rw [getAllMNsCount, hmap]
    exact zero_le _

lemma buildDiff_of_empty (hold : old.mnMap = ∅) (hnew : new.mnMap = ∅) :
    old.buildDiff new = ⟨-1, [], [], []⟩ := by
  have hmns : ∀ {l : CDeterministicMNList}, l.mnMap = ∅ → l.mns = [] := by
    intro l hmap
    rw [mns, hmap, map_eq_nil_iff, Std.ExtTreeMap.toList_eq_nil_iff]
  simp [buildDiff, hmns hold, hmns hnew]

lemma fits_registeredMN : registeredMN.Fits plainEncoding := by
  refine ⟨by decide, by decide, by decide, by decide, by decide, trivial, fun f => ?_⟩
  cases f with
  | pubKeyOperator => exact (by decide : 1 < 256 ^ 47)
  | addr => exact ⟨by decide, by decide⟩
  | scriptPayout | scriptOperatorPayout => exact zero_le _
  | nRegisteredHeight | nLastPaidHeight | nPoSePenalty | nPoSeRevivedHeight | nPoSeBanHeight
  | nConsecutivePayments => exact ⟨by decide, by decide⟩
  | nRevocationReason | confirmedHash | confirmedHashWithProRegTxHash | keyIDOwner | keyIDVoting
  | platformNodeID | platformP2PPort | platformHTTPPort | nVersion =>
    simp only [StateField.Fits, CDeterministicMNState.get, registeredMN]
    decide

/-- The list after the block with the registration. -/
lemma exists_list_secondBlock :
    ∃ new, buildNewListFromBlock mainEnv [firstBlock, genesisBlock] secondBlock (initial 1 1) =
        .ok new ∧ new.nTotalRegisteredCount = 1 ∧ new.getAllMNsCount = 1 ∧
      ∀ h, new.getMN h = if h = 7 then some registeredMN else none := by
  refine ⟨_, rfl, rfl, rfl, fun h => ?_⟩
  change ((∅ : Std.ExtTreeMap Uint256 CDeterministicMN).insert 7 registeredMN)[h]? = _
  rw [getElem?_insert_nat, Std.ExtTreeMap.getElem?_empty]

theorem applyDiff_restores_registration :
    ∃ new, buildNewListFromBlock mainEnv [firstBlock, genesisBlock] secondBlock (initial 1 1) =
      .ok new ∧ RoundTrips plainEncoding (initial 1 1) new := by
  obtain ⟨new, hrun, hcount, hsize, hget⟩ := exists_list_secondBlock
  have hmn : ∀ {h dmn}, new.getMN h = some dmn → dmn = registeredMN := by
    intro h dmn hdmn
    rw [hget] at hdmn
    split at hdmn
    · exact (Option.some.inj hdmn).symm
    · cases hdmn
  have hstored : new.Storable plainEncoding :=
    ⟨fun hdmn => hmn hdmn ▸ fits_registeredMN, hcount ▸ by decide, hsize ▸ by decide⟩
  have hempty : ∀ h, (initial 1 1).getMN h = none := fun h => Std.ExtTreeMap.getElem?_empty
  have hread : KeysRead (initial 1 1) new := fun hdmn _ => by
    rw [hmn hdmn]
    rfl
  refine ⟨new, hrun, (applyDiff_restores_iff (WellIndexed.initial 1 1) (.block hrun)
    (storable_of_empty rfl (by decide)) hstored hread).mpr ⟨⟨fun hold => ?_, ?_⟩,
      .inr ⟨registeredMN, ⟨(hget _).trans (if_pos rfl), hempty _⟩, zero_le _, ?_, hcount⟩,
      fun hold => ?_⟩⟩
  · cases hold
  · rintro h h' p - ⟨dmn, hold, -⟩
    cases hold
  · intro dmn hdmn
    rw [hmn hdmn.1]
  · cases hold

/-- A transaction that spends the collateral of the registration. -/
def spending : CTransaction := { hash := 8, vin := [⟨7, 0⟩], payload := .none }

/-- A block that registers a masternode and spends its collateral. -/
def passingBlock : CBlock := { hash := 2, coinbase := .none, txs := [registration, spending] }

/-- A masternode that is registered and removed in one block leaves no trace in the diff, and
its id is given out again after the list was made from the diff. -/
theorem applyDiff_forgets_registration :
    let chain : CBlockIndex := [firstBlock, genesisBlock]
    let old := initial firstBlock.hash 1
    (∀ tx ∈ passingBlock.txs, checkSpecialTx mainEnv chain old tx = .ok ()) ∧
    ∃ new l, buildNewListFromBlock mainEnv chain passingBlock old = .ok new ∧
      (old.buildDiff new).hasChanges = false ∧
      old.applyDiff new.blockHash new.nHeight (old.buildDiff new) = .ok l ∧
      new.nTotalRegisteredCount = 1 ∧ l.nTotalRegisteredCount = 0 ∧
      ∀ bls, ¬ RoundTrips bls old new := by
  intro chain old
  obtain ⟨new, hrun, hmap, hcount⟩ : ∃ new,
      buildNewListFromBlock mainEnv chain passingBlock old = .ok new ∧
        new.mnMap = ∅ ∧ new.nTotalRegisteredCount = 1 := ⟨_, rfl, rfl, rfl⟩
  have hold : old.WellIndexed := WellIndexed.initial _ 1
  have hdiff : old.buildDiff new = ⟨-1, [], [], []⟩ := buildDiff_of_empty rfl hmap
  refine ⟨by decide +kernel, new, _, hrun, by rw [hdiff]; rfl, by rw [hdiff]; rfl, hcount, rfl,
    fun bls htrips => ?_⟩
  have hread : KeysRead old new := fun hget _ => by
    rw [getMN, hmap] at hget
    cases hget
  have happly := (roundTrips_iff_applyDiff hold (hold.buildNewListFromBlock hrun)
    (storable_of_empty rfl (by decide)) (storable_of_empty hmap (hcount ▸ by decide)) hread).mp
    htrips _ (List.Perm.refl _)
  have hreplayed := nTotalRegisteredCount_applyDiff happly
  rw [hcount, hdiff] at hreplayed
  cases hreplayed

end Restores

end CDeterministicMNList

end HootChain.Evo
