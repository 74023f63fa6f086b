import HootChain.Consensus.Params

/-!
# Hashes, Outpoints and Outputs (`uint256.h`, `primitives/transaction.h`)

Scripts are the byte strings the source compares; a coinbase enters the payment
rules through its outputs only.
-/

namespace HootChain.Primitives

open Consensus List Option

/-! ## Hashes and outpoints -/

/-- `uint256`, as the number its 32 little-endian bytes stand for. -/
abbrev Uint256 := Nat

/-- The bytes of a `uint256` in memory order. -/
def Uint256.bytes (h : Uint256) : List Nat := (range 32).map fun i => h / 256 ^ i % 256

/-- `base_blob::operator<`, a `memcmp` of the bytes. -/
def Uint256.less (a b : Uint256) : Bool := decide (Uint256.bytes a < Uint256.bytes b)

/-- `uint256::ToString`: 64 hexadecimal digits. -/
def Uint256.toString (h : Uint256) : String :=
  let digits := Nat.toDigits 16 h
  String.ofList (replicate (64 - digits.length) '0' ++ digits)

structure COutPoint where
  hash : Uint256
  n : Nat
  deriving DecidableEq

/-- `operator<(COutPoint, COutPoint)`. -/
def COutPoint.less (a b : COutPoint) : Bool :=
  Uint256.less a.hash b.hash || (a.hash == b.hash && decide (a.n < b.n))

def COutPoint.toStringShort (o : COutPoint) : String :=
  Uint256.toString o.hash ++ "-" ++ Nat.repr o.n

/-! ## Outputs -/

abbrev CScript := List UInt8

structure CTxOut where
  nValue : CAmount
  scriptPubKey : CScript
  deriving DecidableEq

/-- The loop of `GetValueOut` from the running sum `nValueOut` on; `none` where the
source throws "value out of range". -/
def getValueOutFrom (nValueOut : CAmount) : List CTxOut → Option CAmount
  | [] => some nValueOut
  | out :: vout =>
    if !moneyRange out.nValue || !moneyRange (nValueOut + out.nValue) then
      none
    else
      getValueOutFrom (nValueOut + out.nValue) vout

def getValueOut (vout : List CTxOut) : Option CAmount := getValueOutFrom 0 vout

lemma COutPoint.ne_of_less {a b : COutPoint} (h : a.less b = true) : a ≠ b := by
  rintro rfl
  simp [COutPoint.less, Uint256.less] at h

lemma moneyRange_iff {nValue : CAmount} :
    moneyRange nValue = true ↔ 0 ≤ nValue ∧ nValue ≤ maxMoney := by
  simp [moneyRange]

variable {n v : CAmount} {vout outs : List CTxOut}

lemma getValueOutFrom_cons {out : CTxOut} (h : getValueOutFrom n (out :: vout) = some v) :
    moneyRange out.nValue = true ∧ moneyRange (n + out.nValue) = true ∧
      getValueOutFrom (n + out.nValue) vout = some v := by
  rw [getValueOutFrom] at h
  split at h
  · cases h
  · next hrange =>
    simp only [Bool.or_eq_true, Bool.not_eq_true', not_or, Bool.not_eq_false] at hrange
    exact ⟨hrange.1, hrange.2, h⟩

lemma getValueOutFrom_append_zeros {pad : List CTxOut} (hn : moneyRange n = true)
    (hpad : ∀ out ∈ pad, out.nValue = 0) (h : getValueOutFrom n vout = some v) :
    getValueOutFrom n (vout ++ pad) = some v := by
  induction vout generalizing n with
  | nil =>
    cases h
    induction pad with
    | nil => rfl
    | cons out pad ih =>
      have hzero : out.nValue = 0 := hpad out mem_cons_self
      rw [nil_append, getValueOutFrom, hzero, add_zero, hn]
      exact ih fun x hx => hpad x (mem_cons_of_mem _ hx)
  | cons out vout ih =>
    obtain ⟨hout, hsum, hrest⟩ := getValueOutFrom_cons h
    rw [cons_append, getValueOutFrom, hout, hsum]
    exact ih hsum hrest

/-- Leaving outputs out keeps the sum defined and does not raise it. -/
lemma getValueOutFrom_sublist {m : CAmount} (hsub : outs.Sublist vout) (hm : 0 ≤ m)
    (hmn : m ≤ n) (h : getValueOutFrom n vout = some v) :
    ∃ w, getValueOutFrom m outs = some w ∧ w ≤ v := by
  induction hsub generalizing m n with
  | slnil => cases h; exact ⟨m, rfl, hmn⟩
  | cons out hsub ih =>
    obtain ⟨hout, hsum, hrest⟩ := getValueOutFrom_cons h
    rw [moneyRange_iff] at hout
    exact ih hm (by linarith [hout.1]) hrest
  | cons_cons out hsub ih =>
    obtain ⟨hout, hsum, hrest⟩ := getValueOutFrom_cons h
    obtain ⟨w, hw, hle⟩ := ih (m := m + out.nValue) (by linarith [(moneyRange_iff.mp hout).1])
      (by linarith) hrest
    refine ⟨w, ?_, hle⟩
    have hsmall : moneyRange (m + out.nValue) = true := by
      rw [moneyRange_iff] at hout hsum ⊢
      exact ⟨by linarith [hout.1], by linarith [hsum.2]⟩
    rw [getValueOutFrom, hout, hsmall]
    exact hw

/-- The sum is defined exactly when all values and the total are in range. -/
lemma getValueOutFrom_eq_some_iff (hn : moneyRange n = true) :
    getValueOutFrom n vout = some v ↔
      (∀ out ∈ vout, moneyRange out.nValue = true) ∧ n + (vout.map CTxOut.nValue).sum = v ∧
        v ≤ maxMoney := by
  induction vout generalizing n with
  | nil =>
    simp only [getValueOutFrom, some.injEq, not_mem_nil, false_implies, implies_true,
      map_nil, sum_nil, add_zero, true_and]
    constructor
    · rintro rfl
      exact ⟨rfl, (moneyRange_iff.mp hn).2⟩
    · exact And.left
  | cons out vout ih =>
    rw [map_cons, sum_cons, ← add_assoc, forall_mem_cons]
    constructor
    · intro h
      obtain ⟨hout, hsum, hrest⟩ := getValueOutFrom_cons h
      obtain ⟨hall, heq⟩ := (ih hsum).mp hrest
      exact ⟨⟨hout, hall⟩, heq⟩
    · rintro ⟨⟨hout, hall⟩, heq, hle⟩
      -- what is still to be added is not negative
      have hrest : 0 ≤ (vout.map CTxOut.nValue).sum := by
        apply sum_nonneg
        intro x hx
        obtain ⟨out', hmem, rfl⟩ := mem_map.mp hx
        exact (moneyRange_iff.mp (hall out' hmem)).1
      have hsum : moneyRange (n + out.nValue) = true := by
        rw [moneyRange_iff] at hn hout ⊢
        exact ⟨add_nonneg hn.1 hout.1, by linarith⟩
      rw [getValueOutFrom, hout, hsum]
      exact (ih hsum).mpr ⟨hall, heq, hle⟩

lemma getValueOut_eq_some_iff :
    getValueOut vout = some v ↔
      (∀ out ∈ vout, moneyRange out.nValue = true) ∧ (vout.map CTxOut.nValue).sum = v ∧
        v ≤ maxMoney := by
  rw [getValueOut, getValueOutFrom_eq_some_iff (by decide), zero_add]

lemma getValueOut_perm {vout' : List CTxOut} (h : vout.Perm vout') :
    getValueOut vout = getValueOut vout' := by
  apply ext
  intro v
  rw [getValueOut_eq_some_iff, getValueOut_eq_some_iff, (h.map CTxOut.nValue).sum_eq]
  simp [h.mem_iff]

lemma getValueOut_sublist (hsub : outs.Sublist vout) (h : getValueOut vout = some v) :
    ∃ w, getValueOut outs = some w ∧ w ≤ v :=
  getValueOutFrom_sublist hsub le_rfl le_rfl h

lemma getValueOut_subperm (hsub : outs.Subperm vout) (h : getValueOut vout = some v) :
    ∃ w, getValueOut outs = some w ∧ w ≤ v := by
  obtain ⟨outs', hperm, hsub⟩ := hsub
  rw [← getValueOut_perm hperm]
  exact getValueOut_sublist hsub h

end HootChain.Primitives
