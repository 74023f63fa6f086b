import HootChain.Consensus.Params
import HootChain.Foundation.Binary64
import Mathlib.Algebra.BigOperators.Intervals

/-!
# Block Subsidy (`validation.cpp`)

`GetBlockSubsidyHelper` computes the subsidy of the block after `nPrevHeight`
in `int64_t` and `double`: a base reward, multiplied once per halving interval
by `0.9375` with the fraction cut off, and split into a block part and a
superblock part.
-/

namespace HootChain.Validation

open Consensus Foundation Binary64 Nat Finset

/-! ## The subsidy function -/

/-- `nSubsidy *= reductionRatio` with `reductionRatio = 0.9375`. -/
def reduceSubsidy (nSubsidy : CAmount) : CAmount :=
  trunc (mul (ofInt nSubsidy) 0.9375)

/-- `for (int i = interval; i <= nPrevHeight; i += interval) nSubsidy *= reductionRatio`,
from loop index `i` on. -/
def reductionLoop (interval nPrevHeight i : Nat) (nSubsidy : CAmount) : CAmount :=
  if 0 < interval ∧ i ≤ nPrevHeight then
    reductionLoop interval nPrevHeight (i + interval) (reduceSubsidy nSubsidy)
  else
    nSubsidy
termination_by nPrevHeight + 1 - i

/-- The base reward in coins: premine, slow start, regular blocks. -/
def nSubsidyBase (nPrevHeight : Nat) : ℚ :=
  if nPrevHeight = 0 then 30000 else if nPrevHeight < 600 then 1 else 5

section

variable (params : Params) (nPrevHeight : Nat)

/-- `GetBlockSubsidyHelper`: block part and superblock part. The source also takes
`nPrevBits` and `fV20Active` and reads neither. -/
def getBlockSubsidyHelper : CAmount × CAmount :=
  let nSubsidy := trunc (mul (nSubsidyBase nPrevHeight) (ofInt coin))
  let nSubsidy := reductionLoop params.nSubsidyHalvingInterval nPrevHeight
    params.nSubsidyHalvingInterval nSubsidy
  -- only devnets set `nHighSubsidyBlocks`, which the source asserts here
  let nSubsidy :=
    if 0 < nPrevHeight ∧ nPrevHeight < params.nHighSubsidyBlocks then
      nSubsidy * params.nHighSubsidyFactor
    else
      nSubsidy
  let nSuperblockPart :=
    if nPrevHeight > params.nSuperblockStartBlock then nSubsidy.tdiv 40 else 0
  (nSubsidy - nSuperblockPart, nSuperblockPart)

def getBlockSubsidyInner : CAmount := (getBlockSubsidyHelper params nPrevHeight).1

def getSuperblockSubsidyInner : CAmount := (getBlockSubsidyHelper params nPrevHeight).2

/-- Block part plus superblock part. -/
def fullSubsidy : CAmount :=
  getBlockSubsidyInner params nPrevHeight + getSuperblockSubsidyInner params nPrevHeight

/-- The full subsidies of the blocks at heights `1` to `h`, added up. -/
def scheduledSupply (h : Nat) : CAmount := ∑ nPrevHeight ∈ range h, fullSubsidy params nPrevHeight

/-! ## Exactness of the `double` arithmetic -/

/-- Cutting off after the `double` product is integer division by 16. -/
lemma reduceSubsidy_exact {n : ℕ} (hn : n < 2 ^ 49) :
    reduceSubsidy (n : ℤ) = ((15 * n / 16 : ℕ) : ℤ) := by
  have hbig : |(n : ℤ)| < 2 ^ 53 := by
    rw [abs_of_nonneg (by positivity)]
    omega
  have hratio : ((n : ℤ) : ℚ) * 0.9375 = ((15 * n : ℕ) : ℚ) / (16 : ℕ) := by
    push_cast
    ring
  unfold reduceSubsidy mul
  rw [ofInt_eq hbig, hratio, trunc_fl_ratio (by norm_num) (by omega)]

/-- The base reward in satoshis. -/
def baseSatoshis (nPrevHeight : Nat) : Nat :=
  if nPrevHeight = 0 then 3000000000000 else if nPrevHeight < 600 then 100000000 else 500000000

lemma trunc_nSubsidyBase (nPrevHeight : Nat) :
    trunc (mul (nSubsidyBase nPrevHeight) (ofInt coin)) = (baseSatoshis nPrevHeight : ℤ) := by
  have hcoin : ofInt coin = ((100000000 : ℕ) : ℚ) := by
    rw [ofInt_eq (by decide)]
    norm_num [coin]
  have hbase : nSubsidyBase nPrevHeight * ((100000000 : ℕ) : ℚ) =
      ((baseSatoshis nPrevHeight : ℕ) : ℚ) / (1 : ℕ) := by
    unfold nSubsidyBase baseSatoshis
    split_ifs <;> norm_num
  have hlt : baseSatoshis nPrevHeight < 2 ^ 53 := by
    unfold baseSatoshis
    split_ifs <;> norm_num
  rw [hcoin, mul, hbase, trunc_fl_ratio (by norm_num) hlt]
  simp

/-- The subsidy after `k` reductions. -/
def decayed : Nat → Nat → Nat
  | 0, n => n
  | k + 1, n => decayed k (15 * n / 16)

lemma decayed_succ (k n : Nat) : decayed (k + 1) n = 15 * decayed k n / 16 := by
  induction k generalizing n with
  | zero => rfl
  | succ k ih => exact ih (15 * n / 16)

/-- The loop runs once for every multiple of the interval up to `nPrevHeight`. -/
lemma reductionLoop_eq {interval nPrevHeight n : Nat} (k : Nat) (hpos : 0 < interval)
    (hn : n < 2 ^ 49) {i : Nat} (hi : i ≤ nPrevHeight + interval)
    (hk : k = (nPrevHeight + interval - i) / interval) :
    reductionLoop interval nPrevHeight i (n : ℤ) = (decayed k n : ℤ) := by
  induction k generalizing i n with
  | zero =>
    have : nPrevHeight + interval - i < interval := by
      by_contra hge
      have := div_pos (by omega : interval ≤ nPrevHeight + interval - i) hpos
      omega
    rw [reductionLoop, if_neg (by omega)]
    rfl
  | succ k ih =>
    have hle : i ≤ nPrevHeight := by
      by_contra hgt
      have : (nPrevHeight + interval - i) / interval = 0 := div_eq_of_lt (by omega)
      omega
    have hnext : k = (nPrevHeight + interval - (i + interval)) / interval := by
      have : nPrevHeight + interval - i = nPrevHeight + interval - (i + interval) + interval := by
        omega
      rw [this, add_div_right _ hpos] at hk
      omega
    rw [reductionLoop, if_pos ⟨hpos, hle⟩, reduceSubsidy_exact hn, ih (by omega) (by omega) hnext]
    rfl

/-- The subsidy before the split, over naturals. -/
def regularSubsidy : Nat :=
  decayed (nPrevHeight / params.nSubsidyHalvingInterval) (baseSatoshis nPrevHeight)

end

/-- The subsidy function without floating point, where no block has a raised subsidy. -/
lemma getBlockSubsidyHelper_eq {params : Params} (hpos : 0 < params.nSubsidyHalvingInterval)
    (hlow : params.nHighSubsidyBlocks = 0) (nPrevHeight : Nat) :
    getBlockSubsidyHelper params nPrevHeight =
      let nSubsidy : ℤ := regularSubsidy params nPrevHeight
      let nSuperblockPart :=
        if nPrevHeight > params.nSuperblockStartBlock then nSubsidy.tdiv 40 else 0
      (nSubsidy - nSuperblockPart, nSuperblockPart) := by
  have hbase : baseSatoshis nPrevHeight < 2 ^ 49 := by
    unfold baseSatoshis
    split_ifs <;> norm_num
  have hloop : reductionLoop params.nSubsidyHalvingInterval nPrevHeight
      params.nSubsidyHalvingInterval (baseSatoshis nPrevHeight : ℤ) =
      (regularSubsidy params nPrevHeight : ℤ) :=
    reductionLoop_eq _ hpos hbase (by omega) (by rw [Nat.add_sub_cancel])
  simp [getBlockSubsidyHelper, trunc_nSubsidyBase, hlow, hloop]

/-- The full mainnet subsidy as a closed form over naturals. -/
lemma fullSubsidy_main (nPrevHeight : Nat) :
    fullSubsidy mainParams nPrevHeight =
      (decayed (nPrevHeight / 129600) (baseSatoshis nPrevHeight) : ℤ) := by
  unfold fullSubsidy getBlockSubsidyInner getSuperblockSubsidyInner
  rw [getBlockSubsidyHelper_eq (by decide) rfl]
  exact sub_add_cancel _ _

/-! ## The mainnet schedule added up -/

lemma sum_range_append_const {f : ℕ → ℤ} {a b : ℕ} {c : ℤ} (hab : a ≤ b)
    (hf : ∀ p, a ≤ p → p < b → f p = c) :
    ∑ p ∈ range b, f p = ∑ p ∈ range a, f p + (b - a : ℕ) * c := by
  have htail : ∑ p ∈ Finset.Ico a b, f p = (b - a : ℕ) * c := by
    rw [sum_congr rfl (fun p hp => hf p (mem_Ico.mp hp).1 (mem_Ico.mp hp).2)]
    simp
  rw [← sum_range_add_sum_Ico f hab, htail]

/-- The first interval: premine, slow start, regular blocks. -/
lemma scheduledSupply_first :
    scheduledSupply mainParams 129600 = 3000000000000 + 599 * 100000000 + 129000 * 500000000 := by
  have h0 : scheduledSupply mainParams 1 = 3000000000000 := by
    unfold scheduledSupply
    rw [sum_range_one, fullSubsidy_main]
    rfl
  have hslow : scheduledSupply mainParams 600 = 3000000000000 + 599 * 100000000 := by
    have := sum_range_append_const (f := fullSubsidy mainParams) (c := 100000000)
      (by norm_num : 1 ≤ 600) (fun p hlo hhi => by
        rw [fullSubsidy_main, div_eq_of_lt (by omega), baseSatoshis, if_neg (by omega), if_pos hhi]
        rfl)
    rw [scheduledSupply, this, ← scheduledSupply, h0]
    norm_num
  have := sum_range_append_const (f := fullSubsidy mainParams) (c := 500000000)
    (by norm_num : 600 ≤ 129600) (fun p hlo hhi => by
      rw [fullSubsidy_main, div_eq_of_lt hhi, baseSatoshis, if_neg (by omega), if_neg (by omega)]
      rfl)
  rw [scheduledSupply, this, ← scheduledSupply, hslow]
  norm_num

/-- Within interval `k ≥ 1` every block carries the same subsidy. -/
lemma scheduledSupply_within {k j : ℕ} (hk : 1 ≤ k) (hj : j ≤ 129600) :
    scheduledSupply mainParams (k * 129600 + j) =
      scheduledSupply mainParams (k * 129600) + j * (decayed k 500000000 : ℤ) := by
  have := sum_range_append_const (f := fullSubsidy mainParams) (c := (decayed k 500000000 : ℤ))
    (by omega : k * 129600 ≤ k * 129600 + j) (fun p hlo hhi => by
      have hdiv : p / 129600 = k := Nat.div_eq_of_lt_le (by omega) (by rw [Nat.succ_mul]; omega)
      rw [fullSubsidy_main, hdiv, baseSatoshis, if_neg (by omega), if_neg (by omega)])
  rw [scheduledSupply, this, ← scheduledSupply, Nat.add_sub_cancel_left]

/-- The supply after `k + 1` whole intervals, with the current subsidy. -/
def intervalSupply : Nat → Nat × Nat
  | 0 => (67559900000000, 500000000)
  | k + 1 =>
    let (total, subsidy) := intervalSupply k
    let subsidy := 15 * subsidy / 16
    (total + 129600 * subsidy, subsidy)

lemma intervalSupply_spec (k : Nat) :
    scheduledSupply mainParams ((k + 1) * 129600) = ((intervalSupply k).1 : ℤ) ∧
      decayed k 500000000 = (intervalSupply k).2 := by
  induction k with
  | zero => exact ⟨by rw [scheduledSupply_first]; norm_num [intervalSupply], rfl⟩
  | succ k ih =>
    have hsub : decayed (k + 1) 500000000 = (intervalSupply (k + 1)).2 := by
      rw [decayed_succ, ih.2]
      rfl
    refine ⟨?_, hsub⟩
    rw [succ_mul (k + 1), scheduledSupply_within (by omega) le_rfl, ih.1, hsub]
    simp [intervalSupply]

lemma fullSubsidy_main_nonneg (nPrevHeight : Nat) : 0 ≤ fullSubsidy mainParams nPrevHeight := by
  rw [fullSubsidy_main]
  positivity

lemma scheduledSupply_mono {h h' : Nat} (hle : h ≤ h') :
    scheduledSupply mainParams h ≤ scheduledSupply mainParams h' :=
  sum_le_sum_of_subset_of_nonneg (range_subset_range.mpr hle)
    (fun p _ _ => fullSubsidy_main_nonneg p)

/-- Interval 48 starts at height 6220800 and pays 22573096 satoshis a block. -/
lemma scheduledSupply_interval48 {j : ℕ} (hj : j ≤ 129600) :
    scheduledSupply mainParams (48 * 129600 + j) = 992752282774400 + j * 22573096 := by
  have htotal := (intervalSupply_spec 47).1
  have hsub := (intervalSupply_spec 48).2
  have hval : intervalSupply 47 = (992752282774400, (intervalSupply 47).2) := by decide +kernel
  have hval' : (intervalSupply 48).2 = 22573096 := by decide +kernel
  rw [scheduledSupply_within (by norm_num) hj, htotal, hsub, hval, hval']
  norm_num

/-- **The scheduled supply and `MAX_MONEY`.** On mainnet the subsidies of all
blocks up to height `h`, block and superblock part, add up to at most
`MAX_MONEY` if and only if `h ≤ 6320375`. -/
theorem scheduledSupply_le_maxMoney_iff (h : Nat) :
    scheduledSupply mainParams h ≤ maxMoney ↔ h ≤ 6320375 := by
  constructor
  · intro hle
    by_contra hgt
    have hcross := scheduledSupply_interval48 (by norm_num : 99576 ≤ 129600)
    have hmono := scheduledSupply_mono (by omega : 48 * 129600 + 99576 ≤ h)
    rw [hcross] at hmono
    exact absurd (le_trans hmono hle) (by norm_num [maxMoney, coin])
  · intro hle
    have hlast := scheduledSupply_interval48 (by norm_num : 99575 ≤ 129600)
    refine le_trans (scheduledSupply_mono (by omega : h ≤ 48 * 129600 + 99575)) ?_
    rw [hlast]
    norm_num [maxMoney, coin]

/-- The block at height 6320376 takes the schedule past `MAX_MONEY`. -/
theorem scheduledSupply_exceeds_maxMoney : ¬ scheduledSupply mainParams 6320376 ≤ maxMoney := by
  have hcross := scheduledSupply_interval48 (by norm_num : 99576 ≤ 129600)
  rw [hcross]
  norm_num [maxMoney, coin]

end HootChain.Validation
