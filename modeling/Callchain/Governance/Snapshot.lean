/-
# Votes and transfers

A vote on a treasury spend or a compliance update weighs as much as the voter's CALL
balance. The power is recorded when the vote is cast, so nobody votes twice; but the
tokens are not held back, and whoever receives them votes with them again.

The weight of an address on a proposal is the power it has recorded, or its balance as
long as it has not voted.
-/
import Callchain.Asset.Methods
import Callchain.Governance.Calls

namespace Callchain

open Function (update update_of_ne update_self)

namespace Asset
namespace AssetStorage

/-- The storage as the methods of `AssetStorage` see it. -/
def slots (assets : AssetStorage) : Slot → U256
  | .balance assetId addr => assets.balance assetId addr
  | .assetMeta assetId .issuer => addressToU256 (assets.issuer assetId)
  | _ => 0

def withSlots (assets : AssetStorage) (slots : Slot → U256) : AssetStorage :=
  { assets with balance := fun assetId addr => slots (.balance assetId addr) }

end AssetStorage
end Asset

namespace Governance

open Asset Precompile

/-- `AssetStorage::transfer` of CALL; a call that fails leaves nothing behind. -/
def State.transferCall (s : State) (sender receiver : Address) (amount : U128) : State :=
  match (transfer callAssetId sender receiver amount).eval s.assets.slots with
  | (slots, .ok ()) => { s with assets := s.assets.withSlots slots }
  | (_, .error _) => s

/-- What a voter can do with a balance while a vote is open. -/
inductive Ballot where
  | transfer (sender receiver : Address) (amount : U128)
  | vote (caller : Address) (proposalId : U64) (voteVal : U8)
  deriving DecidableEq

def Ballot.step (s : State) : U64 × Ballot → State
  | (_, .transfer sender receiver amount) => s.transferCall sender receiver amount
  | (currentBlock, .vote caller proposalId voteVal) =>
    Governance.step s (currentBlock, .method caller (.vote proposalId voteVal))

/-- No balance moves from a voter to a non-voter, and votes have the power of a balance. -/
def Ballot.Fair (proposalId : U64) (s : State) : U64 × Ballot → Prop
  | (_, .transfer sender receiver amount) =>
    s.gov.voter proposalId sender = 0 ∨ s.gov.voter proposalId receiver ≠ 0 ∨ amount = 0
  | (_, .vote caller id _) => id = proposalId →
    (s.gov.proposal proposalId).proposalType = .complianceUpdate → s.isValidator caller = false

def State.weight (s : State) (proposalId : U64) (addr : Address) : ℕ :=
  if s.gov.voter proposalId addr = 0 then (s.assets.balance callAssetId addr).toNat
  else (s.gov.voter proposalId addr).toNat

/-! ### The voting power is a balance -/

section Power

variable {s : State} {caller : Address}

theorem callBalance_le (s : State) (caller : Address) :
    (s.callBalance caller).toNat ≤ (s.assets.balance callAssetId caller).toNat := by
  unfold State.callBalance
  by_cases hlt : (s.assets.balance callAssetId caller).toNat < 2 ^ 128
  · rw [AssetStorage.readBalance_of_lt hlt]
    exact (AssetStorage.setWidth_toNat_of_lt hlt).le
  · rw [AssetStorage.readBalance_of_le (not_lt.1 hlt)]
    exact Nat.zero_le _

theorem votingPower_le {kind : ProposalType} (ht : kind = .treasurySpend ∨ kind = .complianceUpdate)
    (hv : kind = .complianceUpdate → s.isValidator caller = false) :
    (s.votingPower caller kind).toNat ≤ (s.assets.balance callAssetId caller).toNat := by
  have hle := callBalance_le s caller
  rcases ht with rfl | rfl
  · exact hle
  · have hpow : s.votingPower caller .complianceUpdate = U128.saturatingAdd
        (if s.isValidator caller then 1 else 0) (s.callBalance caller) := rfl
    rw [hpow, hv rfl, if_neg Bool.false_ne_true]
    have hzero : BitVec.toNat (0 : U128) = 0 := rfl
    unfold U128.saturatingAdd
    rw [hzero, Nat.zero_add, if_pos (BitVec.isLt _), zero_add]
    exact hle

end Power

/-! ### The weights -/

section Weights

variable {s : State} {pid : U64}

theorem transferCall_cases (s : State) (sender receiver : Address) (amount : U128) :
    (s.transferCall sender receiver amount) = s ∨
      ∃ assets, s.transferCall sender receiver amount = { s with assets := assets } ∧
        sender ≠ receiver ∧
        (assets.balance callAssetId sender).toNat + amount.toNat =
          (s.assets.balance callAssetId sender).toNat ∧
        (assets.balance callAssetId receiver).toNat =
          (s.assets.balance callAssetId receiver).toNat + amount.toNat ∧
        ∀ addr, addr ≠ sender → addr ≠ receiver →
          assets.balance callAssetId addr = s.assets.balance callAssetId addr := by
  unfold State.transferCall
  rcases h : (transfer callAssetId sender receiver amount).eval s.assets.slots with ⟨slots, e | u⟩
  · exact .inl rfl
  rcases transfer_spec h with ⟨-, rfl⟩ | ⟨hne, w, w', rfl, hw, hw'⟩
  · exact .inl rfl
  refine .inr ⟨_, rfl, hne, ?_, ?_, ?_⟩
  · show (update (update s.assets.slots _ w) _ w'
      (.balance callAssetId sender)).toNat + _ = _
    rw [update_of_ne (by simpa using hne), update_self]
    exact hw
  · show (update (update s.assets.slots _ w) _ w'
      (.balance callAssetId receiver)).toNat = _
    rw [update_self]
    exact hw'
  · intro addr hsen hrec
    show update (update s.assets.slots _ w) _ w' (.balance callAssetId addr) = _
    rw [update_of_ne (by simpa using hrec), update_of_ne (by simpa using hsen)]
    rfl

theorem balances_transfer (s : State) (sender receiver : Address) (amount : U128) :
    (s.transferCall sender receiver amount).assets.balances callAssetId =
      s.assets.balances callAssetId := by
  rcases transferCall_cases s sender receiver amount with h | ⟨assets, h, hne, hout, hin, hrest⟩
  · rw [h]
  · rw [h]
    exact Ledger.total_eq_of_moved amount.toNat hne hout hin fun addr hs hr => by
      rw [hrest addr hs hr]

theorem weight_transfer_le {now : U64} {sender receiver : Address} {amount : U128}
    (hfair : Ballot.Fair pid s (now, .transfer sender receiver amount)) :
    Ledger.total ((s.transferCall sender receiver amount).weight pid) ≤
      Ledger.total (s.weight pid) := by
  rcases transferCall_cases s sender receiver amount with h | ⟨assets, h, hne, hout, hin, hrest⟩
  · rw [h]
  rw [h]
  have hoth : ∀ addr, addr ≠ sender → addr ≠ receiver →
      ({ s with assets := assets } : State).weight pid addr = s.weight pid addr := by
    intro addr hs hr
    unfold State.weight
    rw [hrest addr hs hr]
  by_cases hsen : s.gov.voter pid sender = 0
  · -- the sender's weight falls by the amount, the receiver's grows by no more
    refine Ledger.total_le_of_moved amount.toNat hne ?_ ?_ fun addr hs hr => (hoth addr hs hr).le
    · unfold State.weight
      rw [if_pos hsen, if_pos hsen]
      exact hout.le
    · unfold State.weight
      split_ifs
      · exact hin.le
      · exact Nat.le_add_right _ _
  · -- the sender has voted, so its weight stays; so must the receiver's
    refine Ledger.total_le_total fun addr => ?_
    by_cases hs : addr = sender
    · rw [hs]
      unfold State.weight
      rw [if_neg hsen, if_neg hsen]
    by_cases hr : addr = receiver
    · rw [hr]
      unfold State.weight
      split_ifs with hrec
      · have hzero : amount = 0 := (hfair.resolve_left hsen).resolve_left fun hvot => hvot hrec
        rw [hzero] at hin
        exact hin.le
      · exact le_refl _
    · exact (hoth addr hs hr).le

theorem weight_vote_le {now id : U64} {caller : Address} {voteVal : U8}
    (ht : (s.gov.proposal pid).proposalType = .treasurySpend ∨
      (s.gov.proposal pid).proposalType = .complianceUpdate)
    (hfair : Ballot.Fair pid s (now, .vote caller id voteVal)) :
    Ledger.total ((Ballot.step s (now, .vote caller id voteVal)).weight pid) ≤
      Ledger.total (s.weight pid) := by
  rcases step_vote s now caller id voteVal with
    h | ⟨p, -, -, hvote, hpow, -, hvot, hass⟩
  · have h : Ballot.step s (now, .vote caller id voteVal) = s := h
    rw [h]
  have hvot : (Ballot.step s (now, .vote caller id voteVal)).gov.voter = _ := hvot
  have hass : (Ballot.step s (now, .vote caller id voteVal)).assets = s.assets := hass
  refine Ledger.total_le_total fun addr => ?_
  unfold State.weight
  rw [hvot, hass]
  by_cases hid : pid = id
  · subst hid
    rw [update_self]
    by_cases haddr : addr = caller
    · subst haddr
      rw [update_self, if_neg hpow, if_pos hvote]
      exact votingPower_le ht (hfair rfl)
    · rw [update_of_ne haddr]
  · rw [update_of_ne hid]

theorem Ballot.step_keeps (s : State) (pid : U64) (e : U64 × Ballot) :
    ((Ballot.step s e).gov.proposal pid).proposalType = (s.gov.proposal pid).proposalType ∧
      (Ballot.step s e).assets.balances callAssetId = s.assets.balances callAssetId := by
  obtain ⟨currentBlock, ⟨sender, receiver, amount⟩ | ⟨caller, id, voteVal⟩⟩ := e
  · refine ⟨?_, balances_transfer s sender receiver amount⟩
    show ((s.transferCall sender receiver amount).gov.proposal pid).proposalType = _
    rcases transferCall_cases s sender receiver amount with h | ⟨assets, h, -⟩
    · rw [h]
    · rw [h]
  · rcases step_vote s currentBlock caller id voteVal with
      h | ⟨p, hope, -, -, -, hpro, -, hass⟩
    · have h : Ballot.step s (currentBlock, .vote caller id voteVal) = s := h
      rw [h]
      exact ⟨rfl, rfl⟩
    · have hpro : (Ballot.step s (currentBlock, .vote caller id voteVal)).gov.proposal = _ := hpro
      have hass : (Ballot.step s (currentBlock, .vote caller id voteVal)).assets = s.assets := hass
      rw [hpro, hass]
      refine ⟨?_, rfl⟩
      by_cases hid : pid = id
      · rw [hid, update_self, tallied_proposalType, hope.proposalType]
      · rw [update_of_ne hid]

theorem Ballot.run_balances (s : State) (ballots : List (U64 × Ballot)) :
    (Run.run Ballot.step s ballots).assets.balances callAssetId =
      s.assets.balances callAssetId := by
  induction ballots generalizing s with
  | nil => rfl
  | cons e ballots ih =>
    rw [Run.run_cons, ih]
    exact (Ballot.step_keeps s 0 e).2

/-- The invariant of a vote: the type stays, and the weights are covered. -/
structure Covered (proposalId : U64) (supply : ℕ) (s : State) : Prop where
  weighted : (s.gov.proposal proposalId).proposalType = .treasurySpend ∨
    (s.gov.proposal proposalId).proposalType = .complianceUpdate
  weight : Ledger.total (s.weight proposalId) ≤ supply

theorem Covered.step {supply : ℕ} {e : U64 × Ballot} (h : Covered pid supply s)
    (hfair : Ballot.Fair pid s e) : Covered pid supply (Ballot.step s e) := by
  refine ⟨by rw [(Ballot.step_keeps s pid e).1]; exact h.weighted, ?_⟩
  obtain ⟨currentBlock, ⟨sender, receiver, amount⟩ | ⟨caller, id, voteVal⟩⟩ := e
  · exact le_trans (weight_transfer_le hfair) h.weight
  · exact le_trans (weight_vote_le h.weighted hfair) h.weight

end Weights

/-- **No balance votes twice.** On a proposal that is weighted by balances, over any transfers and
votes that are fair, the powers recorded add up to no more than all CALL. -/
theorem recorded_le_balances (s : State) (proposalId : U64)
    (ht : (s.gov.proposal proposalId).proposalType = .treasurySpend ∨
      (s.gov.proposal proposalId).proposalType = .complianceUpdate)
    (hstart : ∀ addr, s.gov.voter proposalId addr = 0) (ballots : List (U64 × Ballot))
    (h : Run.Along Ballot.step (Ballot.Fair proposalId) s ballots) :
    let t := Run.run Ballot.step s ballots
    Ledger.total (fun addr => (t.gov.voter proposalId addr).toNat) ≤
        t.assets.balances callAssetId ∧
      t.assets.balances callAssetId = s.assets.balances callAssetId := by
  have hcov : Covered proposalId (s.assets.balances callAssetId) s := by
    refine ⟨ht, Ledger.total_le_total fun addr => ?_⟩
    unfold State.weight
    rw [if_pos (hstart addr)]
  have hrun := Run.invariant (fun _ _ hi hc => Covered.step hi hc) h hcov
  intro t
  have hle : Ledger.total (fun addr => (t.gov.voter proposalId addr).toNat) ≤
      Ledger.total (t.weight proposalId) := by
    refine Ledger.total_le_total fun addr => ?_
    unfold State.weight
    split_ifs with hvot
    · rw [hvot]
      exact Nat.zero_le _
    · exact le_refl _
  refine ⟨?_, Ballot.run_balances s ballots⟩
  rw [Ballot.run_balances]
  exact le_trans hle hrun.weight

/-! ### One holder of CALL -/

def spendBallot : State where
  gov :=
    { proposalCount := 1
      proposal := fun proposalId =>
        if proposalId = 1 then
          { proposer := 5
            status := .active
            deposit := proposalDeposit
            startBlock := 1
            endBlock := 101
            proposalType := .treasurySpend
            reviewEnd := 1
            quorumRequired := 200000000000000000000000000 }
        else {} }
  assets := { balance := fun assetId addr => if assetId = callAssetId ∧ addr = 5 then 10 else 0 }

theorem spendBallot_balances : spendBallot.assets.balances callAssetId = 10 := by
  have hoth : ∀ x, x ≠ 5 → spendBallot.assets.balance callAssetId x = 0 := by
    intro x hx
    exact if_neg fun h => hx h.2
  rw [AssetStorage.balances_of_single hoth]
  rfl

/-- Address 5 votes, sends all it has to address 6, which votes with it again. Twice the
CALL there is has been counted. -/
theorem tokens_vote_twice :
    let t := Run.run Ballot.step spendBallot
      [(1, .vote 5 1 1), (2, .transfer 5 6 10), (3, .vote 6 1 1)]
    t.gov.voter 1 5 = 10 ∧ t.gov.voter 1 6 = 10 ∧ (t.gov.proposal 1).votesFor = 20 ∧
      t.assets.balances callAssetId = 10 ∧
      20 ≤ Ledger.total fun addr => (t.gov.voter 1 addr).toNat := by
  intro t
  have h₅ : t.gov.voter 1 5 = 10 := by decide
  have h₆ : t.gov.voter 1 6 = 10 := by decide
  refine ⟨h₅, h₆, by decide, ?_, ?_⟩
  · rw [Ballot.run_balances, spendBallot_balances]
  · have hle := Ledger.add_le_total (fun addr => (t.gov.voter 1 addr).toNat)
      (show (5 : Address) ≠ 6 by decide)
    exact hle

theorem recorded_le_balances_at_spend :
    let t := Run.run Ballot.step spendBallot
      [(1, .transfer 5 6 4), (2, .vote 5 1 1), (3, .vote 6 1 2)]
    t.gov.voter 1 5 = 6 ∧ t.gov.voter 1 6 = 4 ∧
      Ledger.total (fun addr => (t.gov.voter 1 addr).toNat) ≤ t.assets.balances callAssetId := by
  intro t
  have hfair : Run.Along Ballot.step (Ballot.Fair 1) spendBallot
      [(1, .transfer 5 6 4), (2, .vote 5 1 1), (3, .vote 6 1 2)] := by
    refine ⟨.inl rfl, ?_, ?_, trivial⟩
    · intro _ ht
      exact absurd ht (by decide)
    · intro _ ht
      exact absurd ht (by decide)
  exact ⟨by decide, by decide,
    (recorded_le_balances spendBallot 1 (.inl rfl) (fun _ => rfl) _ hfair).1⟩

end Governance
end Callchain
