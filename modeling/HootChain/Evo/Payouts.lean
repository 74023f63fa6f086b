import HootChain.Evo.NewList
import HootChain.Script.Standard

/-!
# Payout Scripts (`evo/providertx.cpp`, `evo/deterministicmns.cpp`)

Registrations and their updates name the scripts a masternode is paid to. The
checks admit payments to a key hash or to a script hash only, an operator script
only where the registration gives the operator a share, and no share above one.
-/

namespace HootChain.Evo

open Primitives Script List

/-! ## The checks -/

/-- The payout checks of `CProRegTx::IsTriviallyValid`. -/
def CProRegTx.checkPayouts (proTx : CProRegTx) : Except MnFailure Unit :=
  if ¬ isPayoutScript proTx.scriptPayout then
    .error (.invalid "bad-protx-payee")
  else if proTx.nOperatorReward > 10000 then
    .error (.invalid "bad-protx-operator-reward")
  else
    .ok ()

/-- The payout checks of `CheckProUpServTx`. -/
def CProUpServTx.checkPayouts (mnList : CDeterministicMNList) (proTx : CProUpServTx) :
    Except MnFailure Unit :=
  match mnList.getMN proTx.proTxHash with
  | none => .error (.invalid "bad-protx-hash")
  | some mn =>
    if proTx.scriptOperatorPayout ≠ [] ∧
        (mn.nOperatorReward = 0 ∨ ¬ isPayoutScript proTx.scriptOperatorPayout) then
      .error (.invalid "bad-protx-operator-payee")
    else
      .ok ()

/-- The payout checks of `CProUpRegTx::IsTriviallyValid`. -/
def CProUpRegTx.checkPayouts (proTx : CProUpRegTx) : Except MnFailure Unit :=
  if ¬ isPayoutScript proTx.scriptPayout then .error (.invalid "bad-protx-payee") else .ok ()

/-- The payout checks on a special transaction, `mnList` being the list of the previous
block. -/
def checkPayouts (mnList : CDeterministicMNList) (tx : CTransaction) : Except MnFailure Unit :=
  match tx.payload with
  | .proReg (some proTx) => proTx.checkPayouts
  | .proUpServ (some proTx) => proTx.checkPayouts mnList
  | .proUpReg (some proTx) => proTx.checkPayouts
  | _ => .ok ()

/-! ## Admitted payouts -/

/-- The scripts of a state are those the checks let through. -/
structure CDeterministicMNState.PayoutsAdmitted (s : CDeterministicMNState) : Prop where
  owner : isPayoutScript s.scriptPayout = true
  operator : s.scriptOperatorPayout = [] ∨ isPayoutScript s.scriptOperatorPayout = true

/-- The payouts of a masternode are those the checks let through. -/
structure CDeterministicMN.PayoutsAdmitted (dmn : CDeterministicMN) : Prop where
  state : dmn.pdmnState.PayoutsAdmitted
  operatorReward : dmn.nOperatorReward ≤ 10000

/-- All masternodes of the list have admitted payouts. -/
def CDeterministicMNList.PayoutsAdmitted (l : CDeterministicMNList) : Prop :=
  ∀ h dmn, l.getMN h = some dmn → dmn.PayoutsAdmitted

section Payloads

variable {mnList : CDeterministicMNList} {proTx : CProRegTx}

lemma CProRegTx.checkPayouts_eq_ok (h : proTx.checkPayouts = .ok ()) :
    isPayoutScript proTx.scriptPayout = true ∧ proTx.nOperatorReward ≤ 10000 := by
  unfold CProRegTx.checkPayouts at h
  split_ifs at h with hscript hreward
  exact ⟨hscript, Nat.le_of_not_lt hreward⟩

lemma CProUpServTx.checkPayouts_eq_ok {proTx : CProUpServTx}
    (h : proTx.checkPayouts mnList = .ok ()) :
    proTx.scriptOperatorPayout = [] ∨ isPayoutScript proTx.scriptOperatorPayout = true := by
  unfold CProUpServTx.checkPayouts at h
  split at h
  · cases h
  · split_ifs at h with hbad
    by_cases hempty : proTx.scriptOperatorPayout = []
    · exact .inl hempty
    · exact .inr (not_not.mp fun hscript => hbad ⟨hempty, .inr hscript⟩)

lemma CProUpRegTx.checkPayouts_eq_ok {proTx : CProUpRegTx} (h : proTx.checkPayouts = .ok ()) :
    isPayoutScript proTx.scriptPayout = true := by
  unfold CProUpRegTx.checkPayouts at h
  split_ifs at h with hscript
  exact hscript

/-- The state of a registration starts without an operator script. -/
lemma CProRegTx.payoutsAdmitted_newState (h : isPayoutScript proTx.scriptPayout = true)
    (nHeight : Int) : (proTx.newState nHeight).PayoutsAdmitted := by
  have hscripts : (proTx.newState nHeight).scriptPayout = proTx.scriptPayout ∧
      (proTx.newState nHeight).scriptOperatorPayout = [] := by
    unfold CProRegTx.newState CDeterministicMNState.banIfNotBanned
    split_ifs <;> exact ⟨rfl, rfl⟩
  exact ⟨hscripts.1 ▸ h, .inl hscripts.2⟩

end Payloads

/-! ## The operations of the list -/

namespace CDeterministicMNList

variable {l l' : CDeterministicMNList} {dmn : CDeterministicMN} {state : CDeterministicMNState}
  {h : Uint256} {env : MnEnv} {pindexPrev : CBlockIndex}

lemma PayoutsAdmitted.initial (blockHash : Uint256) (height : Int) :
    (CDeterministicMNList.initial blockHash height).PayoutsAdmitted := by
  intro h dmn hget
  simp [getMN, CDeterministicMNList.initial] at hget

lemma PayoutsAdmitted.of_mem (hl : l.PayoutsAdmitted) (hmem : dmn ∈ l.mns) :
    dmn.PayoutsAdmitted := by
  obtain ⟨h, hget⟩ := mem_mns.mp hmem
  exact hl h dmn hget

lemma PayoutsAdmitted.addMN (hl : l.PayoutsAdmitted) (hdmn : dmn.PayoutsAdmitted) {bump : Bool}
    (hrun : l.addMN dmn bump = .ok l') : l'.PayoutsAdmitted := by
  intro h mn hget
  rw [getMN_addMN hrun] at hget
  split at hget
  · cases hget
    exact hdmn
  · exact hl h mn hget

/-! ## The payee -/

/-- A loop that keeps its choice or takes the item at hand ends with one of the items. -/
lemma mem_of_foldl_choice {α : Type} {f : Option α → α → Option α}
    (hf : ∀ best a, f best a = best ∨ f best a = some a) {items : List α} {a : α}
    (h : items.foldl f none = some a) : a ∈ items := by
  revert a
  refine foldlRecOn (motive := fun best => ∀ {a}, best = some a → a ∈ items) items f ?_
    fun best hbest b hb a ha => ?_
  · exact nofun
  rcases hf best b with hkeep | hnew
  · exact hbest (hkeep.symm.trans ha)
  · cases hnew.symm.trans ha
    exact hb

lemma evoPayee_mem (h : l.evoPayee = some dmn) : dmn ∈ l.validMNs := by
  refine mem_of_foldl_choice (fun best a => ?_) h
  split_ifs
  · exact .inr rfl
  · exact .inl rfl

lemma nextPayee_mem (h : l.nextPayee = some dmn) : dmn ∈ l.validMNs := by
  refine mem_of_foldl_choice (fun best a => ?_) h
  cases best with
  | none => exact .inr rfl
  | some b =>
    dsimp only
    split_ifs
    · exact .inr rfl
    · exact .inl rfl

lemma getMNPayee_mem (h : l.getMNPayee env pindexPrev = some dmn) : dmn ∈ l.validMNs := by
  unfold getMNPayee at h
  split_ifs at h
  · rcases Option.or_eq_some_iff.mp h with hfirst | ⟨-, hsecond⟩
    · exact evoPayee_mem hfirst
    · exact nextPayee_mem hsecond
  · exact nextPayee_mem h

variable (hl : l.PayoutsAdmitted)

include hl

/-- The payee is one of the masternodes of the list. -/
lemma PayoutsAdmitted.getMNPayee
    (h : l.getMNPayee env pindexPrev = some dmn) : dmn.PayoutsAdmitted :=
  hl.of_mem (mem_filter.mp (getMNPayee_mem h)).1

/-! ## The steps of a block -/

/-- One step of a block whose transactions pass the payout checks. -/
lemma PayoutsAdmitted.step {old : CDeterministicMNList}
    {txs : List CTransaction} (hchecks : ∀ tx ∈ txs, checkPayouts old tx = .ok ())
    (hstep : Step txs l l') : l'.PayoutsAdmitted := by
  cases hstep with
  | @update h dmn state hget hstate hrun =>
    obtain ⟨dmn', hget', hrun⟩ := updateMNByHash_eq_ok.mp hrun
    cases hget.symm.trans hget'
    obtain ⟨hold, hreward⟩ := hl h dmn hget
    intro k mn hmn
    rw [getMN_updateMN hrun] at hmn
    split at hmn
    case isTrue =>
      cases hmn
      refine ⟨⟨?_, ?_⟩, hreward⟩
      · rcases hstate.payout with heq | ⟨tx, htx, proTx, hpayload, heq⟩
        · exact heq ▸ hold.owner
        · have hcheck := hchecks tx htx
          rw [checkPayouts, hpayload] at hcheck
          exact heq ▸ CProUpRegTx.checkPayouts_eq_ok hcheck
      · rcases hstate.operatorPayout with hnil | heq | ⟨tx, htx, proTx, hpayload, heq⟩
        · exact .inl hnil
        · exact heq ▸ hold.operator
        · have hcheck := hchecks tx htx
          rw [checkPayouts, hpayload] at hcheck
          exact heq ▸ CProUpServTx.checkPayouts_eq_ok hcheck
    case isFalse => exact hl k mn hmn
  | remove hget hrun => exact fun k mn hmn => hl k mn (getMN_of_removeMN hrun hmn)
  | @register _ _ mid _ _ htx hpayload hreplaced hrun =>
    have hmid : mid.PayoutsAdmitted := fun k mn hmn =>
      hl k mn (getMN_of_removeReplaced hreplaced hmn)
    have hcheck := hchecks _ htx
    rw [checkPayouts, hpayload] at hcheck
    obtain ⟨hscript, hreward⟩ := CProRegTx.checkPayouts_eq_ok hcheck
    exact hmid.addMN ⟨CProRegTx.payoutsAdmitted_newState hscript _, hreward⟩ hrun

/-- **The payouts of a list.** If the transactions of a block pass the payout checks, every
masternode of the new list has admitted payouts. -/
theorem PayoutsAdmitted.of_buildNewListFromBlock (hkeyed : l.Keyed)
    {block : CBlock} (hchecks : ∀ tx ∈ block.txs, checkPayouts l tx = .ok ())
    (hrun : buildNewListFromBlock env pindexPrev block l = .ok l') : l'.PayoutsAdmitted := by
  have hsteps := steps_buildNewListFromBlock hkeyed hrun
  clear hrun
  induction hsteps with
  | refl => exact hl
  | tail _ hstep ih => exact ih.step hchecks hstep

end CDeterministicMNList

end HootChain.Evo
