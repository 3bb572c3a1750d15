/-
# Rewards against the fees charged

The transactions of a block pay the base fee in force while they run. `Block::execute`
settles after `update_base_fee`, so the shares for the oracle and the proposer are parts
of the gas at the next base fee. A block over its gas target raises it, and then two
shares that together are all of the fees hand out more than was charged.
-/
import Callchain.Consensus.Execute
import Callchain.Evm.Revm

namespace Callchain

/-! ### The gas of a block -/

namespace Evm

variable {H : Host}

/-- The tracker and the result agree on the gas of a block, below the limit, and both
are the sum over the entries, cut to 64 bits. -/
structure GasCounted (s : BlockState) : Prop where
  tracked : s.result.evmGasUsed = s.gasTracker.gasUsed
  limit : s.gasTracker.gasLimit = 30000000
  below : s.gasTracker.gasUsed.toNat ≤ 30000000
  sum : s.result.evmGasUsed.toNat = (s.result.evmTxResults.map (·.gasUsed.toNat)).sum % 2 ^ 64

theorem executeTx_gasCounted {blk : BlockParams} {s : BlockState} {raw : Bytes}
    (hs : GasCounted s) : GasCounted (executeTx H blk s raw).1 := by
  have hstep := executeTx_step H blk s raw
  generalize executeTx H blk s raw = out at hstep ⊢
  cases hstep with
  | undecodable | duplicate => exact hs
  | @executed tx b c res delta gasTracker hb _ _ hgas =>
    unfold BlockGasTracker.addGas at hgas
    split_ifs at hgas with hlimi
    cases hgas
    refine ⟨?_, hs.limit, ?_, ?_⟩
    · exact congrArg (· + res.gasUsed) hs.tracked
    · rw [BitVec.not_lt] at hlimi
      have hlim : (s.useNonce tx).gasTracker.gasLimit.toNat = 30000000 :=
        congrArg BitVec.toNat hs.limit
      exact hlim ▸ hlimi
    · have hsum := hs.sum
      simp only [commitTx, BlockState.useNonce, BitVec.toNat_add, List.map_append, List.sum_append,
        List.map_cons, List.map_nil, List.sum_cons, List.sum_nil, txEntry, hsum]
      omega
  | _ => exact ⟨hs.1, hs.2, hs.3, hs.4⟩

theorem executeBlockTransactions_gas (H : Host) (txs : List Bytes) (p : InMemoryStateProvider)
    (blk : BlockParams) : (executeBlockTransactions H txs p blk).1.evmGasUsed.toNat ≤ 30000000 ∧
      (executeBlockTransactions H txs p blk).1.evmGasUsed.toNat =
        ((executeBlockTransactions H txs p blk).1.evmTxResults.map (·.gasUsed.toNat)).sum
          % 2 ^ 64 := by
  have hcou : GasCounted (executeLoop H txs p blk) :=
    Run.invariant_mem (fun _ _ _ hs => executeTx_gasCounted hs)
      ⟨rfl, rfl, Nat.zero_le _, rfl⟩
  exact ⟨hcou.tracked ▸ hcou.below, hcou.sum⟩

end Evm

namespace Consensus

/-! ### The next base fee -/

namespace FeeParams

def nextBaseFee (p : FeeParams) (gas : ℕ) : ℕ :=
  let fee := p.baseFee.toNat
  let target := p.targetGasPerBlock.toNat
  let coefficient := p.adjustmentCoefficient.toNat
  if target < gas then
    max (min (fee + fee * ((gas - target) * coefficient) / (target * 8)) p.maxBaseFee.toNat)
      p.minBaseFee.toNat
  else if gas < target then
    max (fee - fee * ((target - gas) * coefficient) / (target * 8)) p.minBaseFee.toNat
  else fee

/-- The fees are 64-bit numbers, and no product of the update leaves `i128`. -/
structure InRange (p : FeeParams) (gas : ℕ) : Prop where
  baseFee : p.baseFee.toNat < 2 ^ 64
  minBaseFee : p.minBaseFee.toNat < 2 ^ 64
  maxBaseFee : p.maxBaseFee.toNat < 2 ^ 64
  up : p.baseFee.toNat * ((gas - p.targetGasPerBlock.toNat) * p.adjustmentCoefficient.toNat) <
    2 ^ 127
  down : p.baseFee.toNat * ((p.targetGasPerBlock.toNat - gas) * p.adjustmentCoefficient.toNat) <
    2 ^ 127
  coefficient : p.adjustmentCoefficient.toNat < 2 ^ 63

variable {p : FeeParams}

theorem InRange.nextBaseFee_lt {gas : ℕ} (h : p.InRange gas) : p.nextBaseFee gas < 2 ^ 64 := by
  have hbase := h.baseFee
  have hmin := h.minBaseFee
  have hmax := h.maxBaseFee
  unfold nextBaseFee
  dsimp only
  split_ifs
  · exact max_lt (lt_of_le_of_lt (min_le_right _ _) hmax) hmin
  · exact max_lt (lt_of_le_of_lt (Nat.sub_le _ _) hbase) hmin
  · exact hbase

theorem toInt_of_lt {x : U128} (h : x.toNat < 2 ^ 127) : x.toInt = x.toNat := by
  rw [BitVec.toInt_eq_toNat_of_lt]
  omega

theorem saturateI128_of_lt {x : ℤ} (h0 : -2 ^ 127 ≤ x) (h : x < 2 ^ 127) : saturateI128 x = x := by
  unfold saturateI128
  omega

theorem min_saturateI128 {x m : ℤ} (hx : 0 ≤ x) (hm : m < 2 ^ 127) :
    min (saturateI128 x) m = min x m := by
  unfold saturateI128
  omega

theorem feeChange_eq {d : ℕ} (hc : p.adjustmentCoefficient.toNat < 2 ^ 63) (hd : d < 2 ^ 64)
    (hbase : p.baseFee.toNat < 2 ^ 64)
    (hprod : p.baseFee.toNat * (d * p.adjustmentCoefficient.toNat) < 2 ^ 127) :
    p.feeChange d = ((p.baseFee.toNat * (d * p.adjustmentCoefficient.toNat) /
      (p.targetGasPerBlock.toNat * 8) : ℕ) : ℤ) := by
  have hmul : d * p.adjustmentCoefficient.toNat < 2 ^ 127 := by
    calc d * p.adjustmentCoefficient.toNat
        ≤ d * 2 ^ 63 := Nat.mul_le_mul_left _ hc.le
      _ < 2 ^ 64 * 2 ^ 63 := Nat.mul_lt_mul_of_pos_right hd (by norm_num)
      _ = 2 ^ 127 := by norm_num
  have hwrap : wrapI128 ((d : ℤ) * p.adjustmentCoefficient.toInt) =
      ((d * p.adjustmentCoefficient.toNat : ℕ) : ℤ) := by
    rw [toInt_of_lt (by omega)]
    exact Int.bmod_eq_of_le (by omega) (by omega)
  unfold feeChange
  dsimp only
  rw [hwrap, toInt_of_lt (by omega), ← Nat.cast_mul, saturateI128_of_lt (by omega) (by omega)]
  have hden : ((p.targetGasPerBlock.toNat : ℤ) * 8) = ((p.targetGasPerBlock.toNat * 8 : ℕ) : ℤ) := by
    rfl
  rw [hden, Int.ofNat_tdiv]

theorem updateBaseFee_toNat {gas : U64} (h : p.InRange gas.toNat) {p' : FeeParams}
    (hp : p.updateBaseFee gas = some p') :
    p'.baseFee.toNat = p.nextBaseFee gas.toNat ∧ p'.oracleFeeShareBps = p.oracleFeeShareBps ∧
      p'.validatorFeeShareBps = p.validatorFeeShareBps := by
  have hbase := h.baseFee
  have hmin := h.minBaseFee
  have hmax := h.maxBaseFee
  have hfee : ∀ n : ℕ, n < 2 ^ 64 → (BitVec.ofInt 128 (n : ℤ)).toNat = n := fun n hn => by
    rw [BitVec.ofInt_natCast, BitVec.toNat_ofNat, Nat.mod_eq_of_lt (by omega)]
  unfold updateBaseFee at hp
  unfold nextBaseFee
  dsimp only at hp ⊢
  by_cases hup : p.targetGasPerBlock.toNat < gas.toNat
  · rw [if_pos (by omega)] at hp
    split_ifs at hp with hzero
    have hdiff : (gas.toNat : ℤ) - p.targetGasPerBlock.toNat =
        ((gas.toNat - p.targetGasPerBlock.toNat : ℕ) : ℤ) := by omega
    rw [hdiff, feeChange_eq h.coefficient (by omega) hbase h.up, toInt_of_lt (by omega),
      toInt_of_lt (by omega), toInt_of_lt (by omega), ← Nat.cast_add,
      min_saturateI128 (Int.natCast_nonneg _) (by omega), ← Nat.cast_min, ← Nat.cast_max] at hp
    rw [if_pos hup, ← Option.some.inj hp]
    exact ⟨hfee _ (max_lt (lt_of_le_of_lt (min_le_right _ _) hmax) hmin), rfl, rfl⟩
  · rw [if_neg (by omega)] at hp
    rw [if_neg hup]
    by_cases hdown : gas.toNat < p.targetGasPerBlock.toNat
    · rw [if_pos (by omega)] at hp
      have hdiff : -((gas.toNat : ℤ) - p.targetGasPerBlock.toNat) =
          ((p.targetGasPerBlock.toNat - gas.toNat : ℕ) : ℤ) := by omega
      have hle := Nat.div_le_self (p.baseFee.toNat * ((p.targetGasPerBlock.toNat - gas.toNat) *
        p.adjustmentCoefficient.toNat)) (p.targetGasPerBlock.toNat * 8)
      have hdow := h.down
      rw [hdiff, feeChange_eq h.coefficient (by omega) hbase h.down, toInt_of_lt (by omega),
        toInt_of_lt (by omega)] at hp
      generalize p.baseFee.toNat * ((p.targetGasPerBlock.toNat - gas.toNat) *
        p.adjustmentCoefficient.toNat) / (p.targetGasPerBlock.toNat * 8) = decrease at hp hle ⊢
      have hnext : max (saturateI128 ((p.baseFee.toNat : ℤ) - decrease)) p.minBaseFee.toNat =
          ((max (p.baseFee.toNat - decrease) p.minBaseFee.toNat : ℕ) : ℤ) := by
        rw [saturateI128_of_lt (by omega) (by omega)]
        omega
      rw [hnext] at hp
      rw [if_pos hdown, ← Option.some.inj hp]
      exact ⟨hfee _ (max_lt (lt_of_le_of_lt (Nat.sub_le _ _) hbase) hmin), rfl, rfl⟩
    · rw [if_neg (by omega)] at hp
      rw [if_neg hdown]
      cases hp
      exact ⟨rfl, rfl, rfl⟩

end FeeParams

/-! ### The settlement -/

def Runtime.OnEvm (R : Runtime) (H : Evm.Host) : Prop :=
  ∀ txs s blk s' r, R.executeBlockTransactions txs s blk = .ok (s', r) →
    ∃ provider, r = (Evm.executeBlockTransactions H txs provider blk).1

/-- The gas of the transactions at the fee of the environment they ran in. -/
def charged (blk : Evm.BlockParams) (r : Evm.BlockTxResult) : ℕ :=
  (r.evmTxResults.map fun e => e.gasUsed.toNat * blk.env.basefee.toNat).sum

def feeShare (gas : U64) (baseFee : U128) (bps : BitVec 16) : U128 :=
  gas.setWidth 128 * baseFee * bps.setWidth 128 / 10000

theorem feeShare_toNat {gas : U64} {baseFee : U128} {bps : BitVec 16} (hgas : gas.toNat ≤ 30000000)
    (hfee : baseFee.toNat < 2 ^ 64) :
    (feeShare gas baseFee bps).toNat = gas.toNat * baseFee.toNat * bps.toNat / 10000 := by
  have hbps := bps.isLt
  have hfees : gas.toNat * baseFee.toNat < 2 ^ 25 * 2 ^ 64 := Nat.mul_lt_mul'' (by omega) hfee
  have hsha : gas.toNat * baseFee.toNat * bps.toNat < 2 ^ 25 * 2 ^ 64 * 2 ^ 16 :=
    Nat.mul_lt_mul'' hfees hbps
  unfold feeShare
  rw [BitVec.toNat_udiv, BitVec.toNat_mul, BitVec.toNat_mul, BitVec.toNat_setWidth,
    BitVec.toNat_setWidth, Nat.mod_eq_of_lt (a := gas.toNat) (by omega),
    Nat.mod_eq_of_lt (a := bps.toNat) (by omega), Nat.mod_eq_of_lt (a := gas.toNat * _) (by omega),
    Nat.mod_eq_of_lt (by omega)]
  rfl

variable (block : Block) (before after : ChainState)

def proposerAddr : Address := before.gov.validators.validatorAddr (block.header.proposer.setWidth 64)

/-- What a block adds to the oracle's pool and the proposer's stake. -/
def credited : ℕ :=
  (after.oracleRewardPool - before.oracleRewardPool).toNat +
    (after.gov.validators.stake (proposerAddr block before) -
      before.gov.validators.stake (proposerAddr block before)).toNat

/-- The shares that are paid out: the proposer's only if it is registered. -/
def paidShareBps (p : FeeParams) : ℕ :=
  p.oracleFeeShareBps.toNat +
    if proposerAddr block before = 0 then 0 else p.validatorFeeShareBps.toNat

variable {block before after} {R : Runtime} {s : ChainState} {p p' : FeeParams} {height : U64}
  {tx : Evm.BlockTxResult} {result : BlockExecutionResult}

theorem u128_add_sub_cancel (x y : U128) : x + y - x = y := by
  rw [BitVec.add_comm, BitVec.add_sub_cancel]

theorem credited_oracle (share : U128) :
    credited block before (before.addOracleReward share) = share.toNat := by
  simp only [credited, ChainState.addOracleReward, u128_add_sub_cancel, BitVec.sub_self]
  rfl

theorem credited_both (share reward : U128) : credited block before
        ((before.addOracleReward share).distributeRewardEvm (proposerAddr block before) reward) =
      share.toNat + reward.toNat := by
  simp only [credited, ChainState.addOracleReward, ChainState.distributeRewardEvm,
    ChainState.withValidators, Function.update_self, u128_add_sub_cancel]

theorem execute_credited (htx : R.executeBlockTransactions block.evmTxs s
      ⟨height, block.header.timestampMillis, p.baseFee⟩ = .ok (before, tx))
    (h : block.execute R s p height = .ok (after, p', result)) :
    p.updateBaseFee tx.evmGasUsed = some p' ∧ credited block before after =
        (feeShare tx.evmGasUsed p'.baseFee p'.oracleFeeShareBps).toNat +
          if proposerAddr block before = 0 then 0
          else (feeShare tx.evmGasUsed p'.baseFee p'.validatorFeeShareBps).toNat := by
  unfold Block.execute at h
  rw [htx] at h
  cases hupd : p.updateBaseFee tx.evmGasUsed with
  | none => simp [hupd] at h
  | some q =>
    simp only [hupd, Except.ok.injEq, Prod.mk.injEq] at h
    obtain ⟨haft, rfl, -⟩ := h
    refine ⟨rfl, ?_⟩
    change (if decide (0 < feeShare tx.evmGasUsed q.baseFee q.validatorFeeShareBps ∧
        proposerAddr block before ≠ 0) = true then
        (before.addOracleReward (feeShare tx.evmGasUsed q.baseFee q.oracleFeeShareBps)).distributeRewardEvm
          (proposerAddr block before) (feeShare tx.evmGasUsed q.baseFee q.validatorFeeShareBps)
      else before.addOracleReward (feeShare tx.evmGasUsed q.baseFee q.oracleFeeShareBps)) =
        after at haft
    by_cases haddr : proposerAddr block before = 0
    · rw [if_neg fun hd => (of_decide_eq_true hd).2 haddr] at haft
      rw [if_pos haddr, ← haft, credited_oracle, Nat.add_zero]
    · rw [if_neg haddr]
      by_cases hsha : 0 < feeShare tx.evmGasUsed q.baseFee q.validatorFeeShareBps
      · rw [if_pos (decide_eq_true ⟨hsha, haddr⟩)] at haft
        rw [← haft, credited_both]
      · have hzero : (feeShare tx.evmGasUsed q.baseFee q.validatorFeeShareBps).toNat = 0 := by
          exact Nat.eq_zero_of_not_pos hsha
        rw [if_neg fun hd => hsha (of_decide_eq_true hd).1] at haft
        rw [← haft, credited_oracle, hzero, Nat.add_zero]

theorem shares_le {gas fee next o v : ℕ} (h : (o + v) * next ≤ 10000 * fee) :
    gas * next * o / 10000 + gas * next * v / 10000 ≤ gas * fee := by
  have htot : gas * next * o + gas * next * v ≤ 10000 * (gas * fee) := by
    calc gas * next * o + gas * next * v = gas * ((o + v) * next) := by ring
      _ ≤ gas * (10000 * fee) := Nat.mul_le_mul_left _ h
      _ = 10000 * (gas * fee) := by ring
  omega

theorem shares_gt {gas fee next o v : ℕ} (hgas : 20000 ≤ gas) (h : 10000 * fee < (o + v) * next) :
    gas * fee < gas * next * o / 10000 + gas * next * v / 10000 := by
  have htot : 10000 * (gas * fee) + gas ≤ gas * next * o + gas * next * v := by
    calc 10000 * (gas * fee) + gas = gas * (10000 * fee + 1) := by ring
      _ ≤ gas * ((o + v) * next) := Nat.mul_le_mul_left _ h
      _ = gas * next * o + gas * next * v := by ring
  omega

/-- **Rewards stay within the fees.** The rewards stay within the base fees charged where the paid
shares of the next base fee are at most the base fee in force. A block whose gas is counted
without a wrap, and that uses none or at least 20000, pays more whenever they are not. -/
theorem rewards_le_charged_iff (R : Runtime) (H : Evm.Host) (hR : R.OnEvm H) (block : Block)
    (s before after : ChainState) (p p' : FeeParams) (height : U64) (tx : Evm.BlockTxResult)
    (result : BlockExecutionResult) (htx : R.executeBlockTransactions block.evmTxs s
      ⟨height, block.header.timestampMillis, p.baseFee⟩ = .ok (before, tx))
    (h : block.execute R s p height = .ok (after, p', result))
    (hrange : p.InRange tx.evmGasUsed.toNat) :
    let gas := tx.evmGasUsed.toNat
    let within := paidShareBps block before p * p.nextBaseFee gas ≤ 10000 * p.baseFee.toNat
    let kept := credited block before after ≤
      charged ⟨height, block.header.timestampMillis, p.baseFee⟩ tx
    (within → kept) ∧
      ((tx.evmTxResults.map (·.gasUsed.toNat)).sum < 2 ^ 64 → gas = 0 ∨ 20000 ≤ gas →
        (kept ↔ gas = 0 ∨ within)) := by
  intro gas within kept
  obtain ⟨provider, hpro⟩ := hR _ _ _ _ _ htx
  obtain ⟨hlim, hsum⟩ := Evm.executeBlockTransactions_gas H block.evmTxs provider
    ⟨height, block.header.timestampMillis, p.baseFee⟩
  rw [← hpro] at hlim hsum
  obtain ⟨hupd, hcre⟩ := execute_credited htx h
  obtain ⟨hfee, ho, hv⟩ := FeeParams.updateBaseFee_toNat hrange hupd
  have hlt : p'.baseFee.toNat < 2 ^ 64 := hfee ▸ hrange.nextBaseFee_lt
  rw [feeShare_toNat hlim hlt, feeShare_toNat hlim hlt, hfee, ho, hv] at hcre
  have hcre : credited block before after =
      gas * p.nextBaseFee gas * p.oracleFeeShareBps.toNat / 10000 + gas * p.nextBaseFee gas *
          (if proposerAddr block before = 0 then 0 else p.validatorFeeShareBps.toNat) / 10000 := by
    rw [hcre]
    split_ifs <;> simp [gas]
  have hcha : charged ⟨height, block.header.timestampMillis, p.baseFee⟩ tx =
      (tx.evmTxResults.map (·.gasUsed.toNat)).sum * p.baseFee.toNat := by
    have henv : (p.baseFee.truncate 64).toNat = p.baseFee.toNat := by
      rw [BitVec.toNat_setWidth, Nat.mod_eq_of_lt hrange.baseFee]
    rw [charged, List.sum_map_mul_right]
    exact congrArg (_ * ·) henv
  refine ⟨fun hwit => ?_, fun hnow hgas => ?_⟩
  · calc credited block before after ≤ gas * p.baseFee.toNat := hcre ▸ shares_le hwit
      _ ≤ (tx.evmTxResults.map (·.gasUsed.toNat)).sum * p.baseFee.toNat :=
        Nat.mul_le_mul_right _ (hsum.le.trans (Nat.mod_le _ _))
      _ = charged ⟨height, block.header.timestampMillis, p.baseFee⟩ tx := hcha.symm
  · have hkept : kept ↔ credited block before after ≤ gas * p.baseFee.toNat := by
      have hgasS : gas = (tx.evmTxResults.map (·.gasUsed.toNat)).sum :=
        hsum.trans (Nat.mod_eq_of_lt hnow)
      rw [hgasS, ← hcha]
    rw [hkept, hcre]
    constructor
    · intro hle
      by_contra hnot
      rw [not_or] at hnot
      exact absurd hle (Nat.not_le.2 (shares_gt (hgas.resolve_left hnot.1) (Nat.lt_of_not_le hnot.2)))
    · rintro (hzero | hwit)
      · simp [hzero]
      · exact shares_le hwit

/-! ### A block over its target -/

def accountsRuntime (json : Bytes → Option Evm.EvmTransaction) : Runtime where
  crypto := ⟨fun bytes => BitVec.ofNat 256 (beValue bytes), fun pubkey _ => pubkey⟩
  executeBlockTransactions := fun txs s blk =>
    let r := Evm.executeBlockTransactions (Evm.Reference.host json) txs s.accounts blk
    .ok ({ s with accounts := s.accounts.applyFromRevmState r.2 }, r.1)
  stateRoot := fun s => s.oracleRewardPool.setWidth 256

theorem accountsRuntime_onEvm (json : Bytes → Option Evm.EvmTransaction) :
    (accountsRuntime json).OnEvm (Evm.Reference.host json) := by
  intro txs s blk s' r h
  cases h
  exact ⟨s.accounts, rfl⟩

def transferAt8 (raw : Bytes) : Option Evm.EvmTransaction :=
  if raw = [0x7b] then
    some { caller := 0x1001, nonce := 0, gasLimit := 21000, gasPrice := 8, maxPriorityFee := none
           txType := 0, toAddr := some 0x1002, value := 5, data := [], chainId := 1 }
  else none

def fundedState : ChainState where
  accounts := ⟨Function.update (fun _ => none) 0x1001 (some { balance := 1000000 })⟩
  gov := { validators := { validatorAddr := fun id => if id = 3 then 0x1003 else 0 } }

def halfAndHalf (target : U64) : FeeParams :=
  { baseFee := 8, targetGasPerBlock := target, oracleFeeShareBps := 5000
    validatorFeeShareBps := 5000 }

def transferBlock : Block := Block.new 1 1 1000 3 ⟨1, 0, 0⟩ [[0x7b]]

def Transferred (p : FeeParams) (before after : ChainState) (tx : Evm.BlockTxResult) : Prop :=
  (accountsRuntime transferAt8).executeBlockTransactions transferBlock.evmTxs fundedState
      ⟨1, 1000, p.baseFee⟩ = .ok (before, tx) ∧
    ∃ p' result, transferBlock.execute (accountsRuntime transferAt8) fundedState p 1 =
      .ok (after, p', result)

theorem rewards_within_fees : ∃ before after tx, Transferred (halfAndHalf 42000) before after tx ∧
    credited transferBlock before after ≤ charged ⟨1, 1000, 8⟩ tx :=
  ⟨_, _, _, ⟨rfl, _, _, rfl⟩, (rewards_le_charged_iff (accountsRuntime transferAt8)
    (Evm.Reference.host transferAt8) (accountsRuntime_onEvm _) transferBlock fundedState _ _
    (halfAndHalf 42000) _ 1 _ _ rfl rfl
    ⟨by decide, by decide, by decide, by decide, by decide, by decide⟩).1 (by decide)⟩

/-- A transfer of 21000 gas with a target of 10000 raises the fee from 8 to 9. -/
theorem rewards_exceed_fees : ∃ before after tx, Transferred (halfAndHalf 10000) before after tx ∧
      charged ⟨1, 1000, 8⟩ tx = 168000 ∧ credited transferBlock before after = 189000 :=
  ⟨_, _, _, ⟨rfl, _, _, rfl⟩, by decide, by decide⟩

end Consensus
end Callchain
