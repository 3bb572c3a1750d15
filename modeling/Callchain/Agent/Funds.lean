/-
# The funds of agents

What an agent has been granted sits in a slot of its own, outside the ledger of
balances. The funds of an asset are the balances of all accounts and of the agents that
exist. Grants, payments, session transfers and taking a balance back keep them
(`funds_exec`). `revoke_agent` deletes the agent and leaves its balances where nobody
reaches them (`funds_revokeAgent`), and the total of `batch_pay` wraps, so that it may
pay out more than the agent loses.
-/
import Callchain.Agent.Storage
import Callchain.Lib.Run

namespace Callchain.Agent

open Asset Run AssetStorage
open State (creditAll withAgents withAssets)
open Function (update update_of_ne)

variable (s : State) (assetId : U64)

def liveBalance (agents : AgentStorage) (agentId : U64) : ℕ :=
  if agents.owner agentId = 0 then 0 else (agents.balance agentId assetId).toNat

/-- The funds of an asset: all balances and those of the agents that exist. -/
def funds : ℕ := s.assets.balances assetId + Ledger.total (liveBalance assetId s.agents)

/-- Ids not yet given out have no owner and no funds. -/
def Unused (agents : AgentStorage) : Prop :=
  ∀ agentId, agents.count.toNat ≤ agentId.toNat →
    agents.owner agentId = 0 ∧ ∀ assetId, agents.balance agentId assetId = 0

/-! ### Moves between an agent and the accounts -/

variable {s assetId} {t : State} {agentId : U64} {amount : U128} {caller : Address}

variable {agents : AgentStorage} {credits : List (Address × U128)} {recipient : Address}
  {block : U64}

theorem liveBalance_write (hlive : agents.owner agentId ≠ 0) (aid' : U64) :
    Ledger.total (liveBalance aid' (agents.writeAgentBalance agentId assetId amount)) +
        (if aid' = assetId then (agents.balance agentId assetId).toNat else 0) =
      Ledger.total (liveBalance aid' agents) + (if aid' = assetId then amount.toNat else 0) := by
  have hagr : ∀ id, id ≠ agentId →
      liveBalance aid' (agents.writeAgentBalance agentId assetId amount) id =
        liveBalance aid' agents id := by
    intro id hid
    simp only [liveBalance, AgentStorage.writeAgentBalance, update_of_ne hid]
  have htot := Ledger.total_of_agree agentId hagr
  have hbef : liveBalance aid' agents agentId = (agents.balance agentId aid').toNat := if_neg hlive
  have haft : liveBalance aid' (agents.writeAgentBalance agentId assetId amount) agentId =
      if aid' = assetId then amount.toNat else (agents.balance agentId aid').toNat := by
    rw [liveBalance, if_neg (show (agents.writeAgentBalance agentId assetId amount).owner agentId ≠ 0
      from hlive)]
    by_cases hid : aid' = assetId
    · subst hid
      simp [AgentStorage.writeAgentBalance]
    · simp [AgentStorage.writeAgentBalance, hid]
  rw [hbef, haft] at htot
  by_cases hid : aid' = assetId
  · subst hid
    rw [if_pos rfl] at htot
    rw [if_pos rfl, if_pos rfl]
    exact htot
  · rw [if_neg hid] at htot
    rw [if_neg hid, if_neg hid, Nat.add_zero, Nat.add_zero]
    exact Nat.add_right_cancel htot

theorem balances_creditAll {assets assets' : AssetStorage}
    (h : creditAll assetId assets credits = (assets', .ok ())) (aid' : U64) :
    assets'.balances aid' = assets.balances aid' +
      if aid' = assetId then (credits.map (·.2.toNat)).sum else 0 := by
  induction credits generalizing assets with
  | nil =>
    cases h
    rw [List.map_nil, List.sum_nil, ite_self, Nat.add_zero]
  | cons credit rest ih =>
    obtain ⟨recipient, amount⟩ := credit
    unfold creditAll at h
    cases hadd : assets.addBalance assetId recipient amount with
    | error => simp [hadd] at h
    | ok =>
      rw [hadd] at h
      have hsum : (if aid' = assetId then amount.toNat else 0) +
          (if aid' = assetId then (rest.map (·.2.toNat)).sum else 0) =
          if aid' = assetId then amount.toNat + (rest.map (·.2.toNat)).sum else 0 := by
        split_ifs <;> rfl
      rw [ih h, balances_add hadd aid', List.map_cons, List.sum_cons, Nat.add_assoc, hsum]

/-! ### What the operations do -/

theorem grantBalance_ok (h : s.grantBalance agentId assetId amount caller = (t, .ok ())) :
    s.agents.owner agentId ≠ 0 ∧ ∃ assets,
      s.assets.deductBalance assetId caller amount = .ok assets ∧
      (s.agents.balance agentId assetId).toNat + amount.toNat < 2 ^ 128 ∧
      t = ⟨s.agents.writeAgentBalance agentId assetId
        (s.agents.balance agentId assetId + amount), assets⟩ := by
  obtain ⟨hlive, h⟩ := ite_failed_eq_ok.1 h
  obtain ⟨-, h⟩ := ite_failed_eq_ok.1 h
  cases hded : s.assets.deductBalance assetId caller amount with rw [hded] at h
  | error => cases h
  | ok assets =>
    obtain ⟨hfits, h⟩ := ite_failed_eq_ok.1 h
    cases h
    exact ⟨not_not.1 hlive, assets, rfl, Nat.lt_of_not_le hfits, rfl⟩

theorem revokeBalance_ok (h : s.revokeBalance agentId assetId caller = (t, .ok ())) :
    s.agents.owner agentId ≠ 0 ∧ t.agents = s.agents.writeAgentBalance agentId assetId 0 ∧
      (s.assets.addBalance assetId caller (s.agents.balance agentId assetId) = .ok t.assets ∨
        s.agents.balance agentId assetId = 0 ∧ t.assets = s.assets) := by
  obtain ⟨hlive, h⟩ := ite_failed_eq_ok.1 h
  obtain ⟨-, h⟩ := ite_failed_eq_ok.1 h
  dsimp only [withAgents] at h
  split_ifs at h with hpos
  · cases hadd : s.assets.addBalance assetId caller (s.agents.balance agentId assetId) with
    | error =>
      rw [hadd] at h
      cases h
    | ok =>
      rw [hadd] at h
      cases h
      exact ⟨not_not.1 hlive, rfl, Or.inl rfl⟩
  · cases h
    have hzero : s.agents.balance agentId assetId = 0 := by
      exact BitVec.eq_of_toNat_eq (Nat.eq_zero_of_not_pos hpos)
    exact ⟨not_not.1 hlive, rfl, Or.inr ⟨hzero, rfl⟩⟩

theorem payOut_ok {total : U128} (h : s.payOut agentId assetId total credits = (t, .ok ())) :
    total.toNat ≤ (s.agents.balance agentId assetId).toNat ∧
      creditAll assetId s.assets credits = (t.assets, .ok ()) ∧
      t.agents = s.agents.writeAgentBalance agentId assetId
        (s.agents.balance agentId assetId - total) := by
  obtain ⟨hle, h⟩ := ite_failed_eq_ok.1 h
  obtain ⟨hsta, hok⟩ := Prod.mk.inj h
  refine ⟨BitVec.le_def.1 (BitVec.not_lt.1 hle), ?_, ?_⟩
  · rw [← hsta]
    exact Prod.ext rfl hok
  · rw [← hsta]
    rfl

theorem findAgent_eq_some (h : agents.findAgent caller = some agentId) :
    agents.owner agentId ≠ 0 := by
  unfold AgentStorage.findAgent at h
  dsimp only at h
  split_ifs at h with hnot
  cases h
  exact not_not.1 (not_or.1 hnot).1

theorem pay_ok (h : s.pay assetId recipient amount caller block = (t, .ok ())) :
    ∃ agentId, s.agents.owner agentId ≠ 0 ∧
      s.payOut agentId assetId amount [(recipient, amount)] = (t, .ok ()) := by
  unfold State.pay at h
  cases hfind : s.agents.findAgent caller with rw [hfind] at h
  | none => cases h
  | some agentId =>
    dsimp only at h
    cases hper : s.agents.requirePerms agentId assetId block with rw [hper] at h
    | error => cases h
    | ok => exact ⟨agentId, findAgent_eq_some hfind, (ite_failed_eq_ok.1 h).2⟩

theorem batchPay_ok {recipients : List Address} {amounts : List U128}
    (h : s.batchPay assetId recipients amounts caller block = (t, .ok ())) :
    recipients.length = amounts.length ∧ ∃ agentId, s.agents.owner agentId ≠ 0 ∧
      s.payOut agentId assetId amounts.sum (recipients.zip amounts) = (t, .ok ()) := by
  obtain ⟨hlen, h⟩ := ite_failed_eq_ok.1 h
  obtain ⟨-, h⟩ := ite_failed_eq_ok.1 h
  cases hfind : s.agents.findAgent caller with rw [hfind] at h
  | none => cases h
  | some agentId =>
    dsimp only at h
    cases hper : s.agents.requirePerms agentId assetId block with rw [hper] at h
    | error => cases h
    | ok => exact ⟨not_not.1 hlen, agentId, findAgent_eq_some hfind, (ite_failed_eq_ok.1 h).2⟩

theorem executeSessionTransfer_ok {sid : U64}
    (h : s.executeSessionTransfer sid assetId recipient amount caller block = (t, .ok ())) :
    ∃ session assets,
      (s.agents.session sid).authorize assetId recipient amount caller block = .ok session ∧
      s.assets.deductBalance assetId session.owner amount = .ok assets ∧
      assets.addBalance assetId recipient amount = .ok t.assets ∧
      t.agents = s.agents.setSession sid session := by
  unfold State.executeSessionTransfer at h
  cases hauth : (s.agents.session sid).authorize assetId recipient amount caller block with
  | error =>
    rw [hauth] at h
    cases h
  | ok session =>
    rw [hauth] at h
    dsimp only [withAgents, withAssets] at h
    cases hded : s.assets.deductBalance assetId session.owner amount with rw [hded] at h
    | error => cases h
    | ok assets =>
      dsimp only at h
      cases hadd : assets.addBalance assetId recipient amount with rw [hadd] at h
      | error => cases h
      | ok =>
        cases h
        exact ⟨session, assets, rfl, hded, hadd, rfl⟩

theorem revokeAgent_ok (h : s.revokeAgent agentId caller = (t, .ok ())) :
    s.agents.owner agentId ≠ 0 ∧ t.assets = s.assets ∧ t.agents.count = s.agents.count ∧
      t.agents.owner = update s.agents.owner agentId 0 ∧ t.agents.balance = s.agents.balance := by
  obtain ⟨hlive, h⟩ := ite_failed_eq_ok.1 h
  obtain ⟨-, h⟩ := ite_failed_eq_ok.1 h
  cases h
  exact ⟨not_not.1 hlive, rfl, rfl, rfl, rfl⟩

/-! ### The funds after them -/

theorem ite_add (aid' : U64) (m n : ℕ) : (if aid' = assetId then m + n else 0) =
      (if aid' = assetId then m else 0) + if aid' = assetId then n else 0 := by
  split_ifs <;> rfl

theorem funds_grantBalance (h : s.grantBalance agentId assetId amount caller = (t, .ok ()))
    (aid' : U64) : funds t aid' = funds s aid' := by
  obtain ⟨hlive, assets, hded, hfits, rfl⟩ := grantBalance_ok h
  have hsum : (s.agents.balance agentId assetId + amount).toNat =
      (s.agents.balance agentId assetId).toNat + amount.toNat := by
    rw [BitVec.toNat_add, Nat.mod_eq_of_lt hfits]
  have hbal := balances_deduct hded aid'
  have hliv : Ledger.total (liveBalance aid' (s.agents.writeAgentBalance agentId assetId
      (s.agents.balance agentId assetId + amount))) + _ = _ := liveBalance_write hlive aid'
  rw [hsum, ite_add] at hliv
  have hadd : ∀ B B' L L' d b : ℕ, B' + d = B → L' + b = L + (b + d) → B' + L' = B + L := by omega
  exact hadd _ _ _ _ _ _ hbal hliv

theorem funds_revokeBalance (h : s.revokeBalance agentId assetId caller = (t, .ok ()))
    (aid' : U64) : funds t aid' = funds s aid' := by
  obtain ⟨hlive, hage, hass⟩ := revokeBalance_ok h
  have hliv : Ledger.total (liveBalance aid' (s.agents.writeAgentBalance agentId assetId 0)) +
      _ = _ := liveBalance_write hlive aid'
  have hzero : (if aid' = assetId then (0 : U128).toNat else 0) = 0 := ite_self _
  have hbala : t.assets.balances aid' = s.assets.balances aid' +
      if aid' = assetId then (s.agents.balance agentId assetId).toNat else 0 := by
    rcases hass with hadd | ⟨hbal, hass⟩
    · exact balances_add hadd aid'
    · have hnone : (if aid' = assetId then (0 : U128).toNat else 0) = 0 := hzero
      rw [hass, hbal, hnone, Nat.add_zero]
  have hadd : ∀ B B' L L' z b : ℕ, z = 0 → B' = B + b → L' + b = L + z → B' + L' = B + L := by omega
  rw [funds, funds, hage]
  exact hadd _ _ _ _ _ _ hzero hbala hliv

theorem funds_payOut {total : U128}
    (hlive : s.agents.owner agentId ≠ 0) (hsum : (credits.map (·.2.toNat)).sum = total.toNat)
    (h : s.payOut agentId assetId total credits = (t, .ok ())) (aid' : U64) :
    funds t aid' = funds s aid' := by
  obtain ⟨hle, hcre, hage⟩ := payOut_ok h
  have hsub : (s.agents.balance agentId assetId).toNat =
      (s.agents.balance agentId assetId - total).toNat + total.toNat := by
    rw [BitVec.toNat_sub_of_le (BitVec.le_def.2 hle)]
    omega
  have hbal := balances_creditAll hcre aid'
  rw [hsum] at hbal
  have hliv : Ledger.total (liveBalance aid' (s.agents.writeAgentBalance agentId assetId
      (s.agents.balance agentId assetId - total))) + _ = _ := liveBalance_write hlive aid'
  rw [hsub, ite_add] at hliv
  have hadd : ∀ B B' L L' d b : ℕ, B' = B + d → L' + (b + d) = L + b → B' + L' = B + L := by omega
  rw [funds, funds, hage]
  exact hadd _ _ _ _ _ _ hbal hliv

theorem funds_executeSessionTransfer {sid : U64}
    (h : s.executeSessionTransfer sid assetId recipient amount caller block = (t, .ok ()))
    (aid' : U64) : funds t aid' = funds s aid' := by
  obtain ⟨session, assets, -, hded, hadd, hage⟩ := executeSessionTransfer_ok h
  have hout := balances_deduct hded aid'
  have hin := balances_add hadd aid'
  have hliv : liveBalance aid' t.agents = liveBalance aid' s.agents := by
    rw [hage]
    rfl
  rw [funds, funds, hliv, hin, hout]

theorem funds_registerAgent {agentAddress : Address} (hs : Unused s.agents)
    (h : s.registerAgent agentAddress caller = (t, .ok ())) (aid' : U64) :
    funds t aid' = funds s aid' := by
  obtain ⟨-, h⟩ := ite_failed_eq_ok.1 h
  obtain ⟨-, h⟩ := ite_failed_eq_ok.1 h
  cases h
  obtain ⟨hown, hbal⟩ := hs s.agents.count le_rfl
  refine congrArg (s.assets.balances aid' + ·) (Ledger.total_congr fun id => ?_)
  by_cases hid : id = s.agents.count
  · subst hid
    have hnone : (s.agents.balance s.agents.count aid').toNat = 0 := by
      rw [hbal]
      rfl
    simp only [liveBalance, withAgents, hnone, ite_self]
  · simp only [liveBalance, withAgents, update_of_ne hid]

theorem funds_revokeAgent (h : s.revokeAgent agentId caller = (t, .ok ())) (aid' : U64) :
    funds t aid' + (s.agents.balance agentId aid').toNat = funds s aid' := by
  obtain ⟨hlive, hass, -, hown, hbal⟩ := revokeAgent_ok h
  have hagr : ∀ id, id ≠ agentId → liveBalance aid' t.agents id = liveBalance aid' s.agents id := by
    intro id hid
    simp only [liveBalance, hown, hbal, update_of_ne hid]
  have htot := Ledger.total_of_agree agentId hagr
  have hgone : liveBalance aid' t.agents agentId = 0 := by
    rw [liveBalance, hown, Function.update_self, if_pos rfl]
  have hhad : liveBalance aid' s.agents agentId =
      (s.agents.balance agentId aid').toNat := if_neg hlive
  rw [hhad] at htot
  have hadd : ∀ B L L' z b : ℕ, z = 0 → L' + b = L + z → B + L' + b = B + L := by omega
  rw [funds, funds, hass]
  exact hadd _ _ _ _ _ hgone htot

/-! ### Runs -/

structure SameAgents (a b : AgentStorage) : Prop where
  count : b.count = a.count
  owner : b.owner = a.owner
  balance : ∀ id, a.owner id = 0 → b.balance id = a.balance id

theorem Unused.of_same {a b : AgentStorage} (ha : Unused a) (h : SameAgents a b) : Unused b := by
  intro id hid
  obtain ⟨hown, hbal⟩ := ha id (h.count ▸ hid)
  exact ⟨by rw [h.owner, hown], by rw [h.balance id hown]; exact hbal⟩

theorem sameAgents_write (hlive : agents.owner agentId ≠ 0) :
    SameAgents agents (agents.writeAgentBalance agentId assetId amount) :=
  ⟨rfl, rfl, fun id hid =>
    update_of_ne (show id ≠ agentId from fun he => hlive (he ▸ hid)) _ _⟩

theorem Unused.registerAgent {agentAddress : Address} (hs : Unused s.agents)
    (hcou : s.agents.count ≠ BitVec.allOnes 64)
    (h : s.registerAgent agentAddress caller = (t, .ok ())) : Unused t.agents := by
  obtain ⟨-, h⟩ := ite_failed_eq_ok.1 h
  obtain ⟨-, h⟩ := ite_failed_eq_ok.1 h
  cases h
  have hlt : s.agents.count.toNat + 1 < 2 ^ 64 := by
    have hne : s.agents.count.toNat ≠ 2 ^ 64 - 1 := fun he => hcou (BitVec.eq_of_toNat_eq he)
    omega
  have hnext : (s.agents.count + 1).toNat = s.agents.count.toNat + 1 := by
    exact Nat.mod_eq_of_lt hlt
  intro id hid
  have hid : s.agents.count.toNat + 1 ≤ id.toNat := hnext ▸ hid
  have hne : id ≠ s.agents.count := fun he => by
    rw [he] at hid
    omega
  obtain ⟨hown, hbal⟩ := hs id (by omega)
  exact ⟨(update_of_ne hne _ _).trans hown, hbal⟩

theorem Unused.revokeAgent (hs : Unused s.agents)
    (h : s.revokeAgent agentId caller = (t, .ok ())) : Unused t.agents := by
  obtain ⟨hlive, -, hcou, hown, hbal⟩ := revokeAgent_ok h
  intro id hid
  obtain ⟨hnone, hzero⟩ := hs id (hcou ▸ hid)
  have hne : id ≠ agentId := fun he => hlive (he ▸ hnone)
  exact ⟨by rw [hown, update_of_ne hne, hnone], by rw [hbal]; exact hzero⟩

/-- The owner revokes an agent only without a balance, a batch is paid only if its sum is an
amount, and ids do not run out. -/
def SafeCall (s : State) (c : AgentCall) : Prop :=
  match c.op with
  | .revokeAgent agentId caller => s.agents.owner agentId = caller →
    ∀ assetId, s.agents.balance agentId assetId = 0
  | .batchPay _ _ amounts _ => (amounts.map BitVec.toNat).sum < 2 ^ 128
  | .registerAgent _ _ => s.agents.count ≠ BitVec.allOnes 64
  | _ => True

theorem sum_toNat {amounts : List U128} (h : (amounts.map BitVec.toNat).sum < 2 ^ 128) :
    amounts.sum.toNat = (amounts.map BitVec.toNat).sum := by
  induction amounts with
  | nil => rfl
  | cons x xs ih =>
    rw [List.map_cons, List.sum_cons] at h ⊢
    rw [List.sum_cons, BitVec.toNat_add, ih (by omega), Nat.mod_eq_of_lt h]

theorem funds_exec {c : AgentCall} (hs : Unused s.agents) (hsafe : SafeCall s c)
    (h : c.op.exec s c.block = (t, .ok ())) :
    Unused t.agents ∧ ∀ assetId, funds t assetId = funds s assetId := by
  obtain ⟨op, block, reverts⟩ := c
  cases op with
  | registerAgent =>
    exact ⟨hs.registerAgent hsafe h, funds_registerAgent hs h⟩
  | grantBalance =>
    obtain ⟨hlive, assets, -, -, ht⟩ := grantBalance_ok h
    exact ⟨hs.of_same (ht ▸ sameAgents_write hlive), funds_grantBalance h⟩
  | revokeBalance =>
    obtain ⟨hlive, hage, -⟩ := revokeBalance_ok h
    exact ⟨hs.of_same (hage ▸ sameAgents_write hlive), funds_revokeBalance h⟩
  | pay =>
    obtain ⟨agentId, hlive, hpay⟩ := pay_ok h
    have hage := (payOut_ok hpay).2.2
    exact ⟨hs.of_same (hage ▸ sameAgents_write hlive), funds_payOut hlive (by simp) hpay⟩
  | batchPay assetId recipients amounts =>
    obtain ⟨hlen, agentId, hlive, hpay⟩ := batchPay_ok h
    have hage := (payOut_ok hpay).2.2
    have hsum : ((recipients.zip amounts).map (·.2.toNat)).sum = amounts.sum.toNat := by
      rw [sum_toNat hsafe]
      have hsnd : (recipients.zip amounts).map Prod.snd = amounts := List.map_snd_zip hlen.ge
      conv_rhs => rw [← hsnd, List.map_map]
      rfl
    exact ⟨hs.of_same (hage ▸ sameAgents_write hlive), funds_payOut hlive hsum hpay⟩
  | revokeAgent agentId caller =>
    refine ⟨hs.revokeAgent h, fun assetId => ?_⟩
    have hown : s.agents.owner agentId = caller :=
      not_not.1 (ite_failed_eq_ok.1 (ite_failed_eq_ok.1 h).2).1
    have hzero : (s.agents.balance agentId assetId).toNat = 0 := by
      rw [hsafe hown assetId]
      rfl
    rw [← funds_revokeAgent h assetId, hzero, Nat.add_zero]
  | createSession =>
    cases h
    exact ⟨hs.of_same ⟨rfl, rfl, fun _ _ => rfl⟩, fun _ => rfl⟩
  | revokeSession sessionId caller =>
    have hrev : s.revokeSession sessionId caller = (t, .ok ()) := h
    obtain ⟨-, h⟩ := ite_failed_eq_ok.1 hrev
    obtain ⟨-, h⟩ := ite_failed_eq_ok.1 h
    cases h
    exact ⟨hs.of_same ⟨rfl, rfl, fun _ _ => rfl⟩, fun _ => rfl⟩
  | executeSessionTransfer =>
    obtain ⟨session, assets, -, -, -, hage⟩ := executeSessionTransfer_ok h
    exact ⟨hs.of_same (hage ▸ ⟨rfl, rfl, fun _ _ => rfl⟩), funds_executeSessionTransfer h⟩

theorem funds_step {c : AgentCall} (hs : Unused s.agents) (hsafe : SafeCall s c)
    (hrev : c.reverts = true) :
    Unused (s.step c).agents ∧ ∀ assetId, funds (s.step c) assetId = funds s assetId := by
  unfold State.step
  cases hexec : c.op.exec s c.block with
  | mk t result =>
    cases result with
    | error =>
      dsimp only
      rw [if_pos hrev]
      exact ⟨hs, fun _ => rfl⟩
    | ok => exact funds_exec hs hsafe hexec

theorem funds_run {calls : List AgentCall} (hs : Unused s.agents)
    (h : Along State.step (fun s c => SafeCall s c ∧ c.reverts = true) s calls) :
    Unused (run State.step s calls).agents ∧
      ∀ assetId, funds (run State.step s calls) assetId = funds s assetId := by
  refine invariant (I := fun t => Unused t.agents ∧ ∀ assetId, funds t assetId = funds s assetId)
    (fun t c ht hc => ?_) h ⟨hs, fun _ => rfl⟩
  obtain ⟨hunu, hfun⟩ := funds_step ht.1 hc.1 hc.2
  exact ⟨hunu, fun assetId => (hfun assetId).trans (ht.2 assetId)⟩

/-- The owner of an agent can take its balance back. -/
def Recoverable (s : State) (assetId : U64) : Prop :=
  ∀ agentId, s.agents.owner agentId ≠ 0 → ∃ t : State,
    s.revokeBalance agentId assetId (s.agents.owner agentId) = (t, .ok ()) ∧
      t.agents.balance agentId assetId = 0 ∧
      (t.assets.balance assetId (s.agents.owner agentId)).toNat =
        (s.assets.balance assetId (s.agents.owner agentId)).toNat +
          (s.agents.balance agentId assetId).toNat

theorem recoverable_of_funds (h : funds s assetId < 2 ^ 128) : Recoverable s assetId := by
  intro agentId hlive
  have hbal : (s.assets.balance assetId (s.agents.owner agentId)).toNat ≤
      s.assets.balances assetId :=
    Ledger.le_total (fun addr => (s.assets.balance assetId addr).toNat) _
  have hage : (s.agents.balance agentId assetId).toNat ≤
      Ledger.total (liveBalance assetId s.agents) := by
    have hle := Ledger.le_total (liveBalance assetId s.agents) agentId
    rwa [liveBalance, if_neg hlive] at hle
  have hfits := lt_of_le_of_lt (Nat.add_le_add hbal hage) h
  have hexists : s.agents.agentExists agentId := hlive
  unfold State.revokeBalance
  rw [if_neg (not_not.2 hexists), if_neg (not_not.2 rfl)]
  dsimp only [withAgents]
  split_ifs with hpos
  · have hadd := addBalance_eq_ok.2 ⟨hfits, rfl⟩
    rw [hadd]
    refine ⟨_, rfl, ?_, ?_⟩
    · simp [AgentStorage.writeAgentBalance, withAssets]
    · rw [withAssets, addBalance_toNat hadd, if_pos ⟨rfl, rfl⟩]
  · refine ⟨_, rfl, ?_, ?_⟩
    · simp [AgentStorage.writeAgentBalance]
    · have hzero : (s.agents.balance agentId assetId).toNat = 0 := Nat.eq_zero_of_not_pos hpos
      rw [hzero]
      rfl

/-- **The funds of agents.** In every run that revokes agents only when they are empty, pays
batches whose sum is an amount and does not run out of ids, the funds of every asset stay as they
are, and what an agent has can be taken back. -/
theorem agent_funds_conserved (s : State) (hs : Unused s.agents) (calls : List AgentCall)
    (hreverts : ∀ c ∈ calls, c.reverts = true) (h : Along State.step SafeCall s calls)
    (assetId : U64) : funds (run State.step s calls) assetId = funds s assetId ∧
      (funds s assetId < 2 ^ 128 → Recoverable (run State.step s calls) assetId) := by
  have hkept := (funds_run hs (h.and (along_of_forall hreverts))).2 assetId
  exact ⟨hkept, fun hlt => recoverable_of_funds (hkept ▸ hlt)⟩

/-! ### An agent that is revoked with a balance -/

def fundedState : State where
  assets := { balance := fun _ addr => if addr = 7 then 100 else 0 }

def grantCalls : List AgentCall :=
  [⟨.registerAgent 5 7, 1, true⟩, ⟨.grantBalance 0 1 10 7, 1, true⟩]

theorem unused_fundedState : Unused fundedState.agents := fun _ _ => ⟨rfl, fun _ => rfl⟩

theorem grantCalls_safe : Along State.step SafeCall fundedState grantCalls :=
  ⟨(by decide : (0 : U64) ≠ BitVec.allOnes 64), trivial, trivial⟩

/-- Account 6 is refused; account 7 takes the 10 back and then revokes the agent. -/
def emptyCalls : List AgentCall :=
  [⟨.revokeAgent 0 6, 2, true⟩, ⟨.revokeBalance 0 1 7, 2, true⟩, ⟨.revokeAgent 0 7, 3, true⟩]

theorem emptyCalls_safe :
    Along State.step SafeCall (run State.step fundedState grantCalls) emptyCalls := by
  refine ⟨fun h => absurd h (by decide), trivial, fun _ assetId => ?_, trivial⟩
  have hbal : (run State.step fundedState (grantCalls ++ emptyCalls.take 2)).agents.balance 0 =
      update (update (fun _ => 0) 1 10) 1 0 := rfl
  by_cases hid : assetId = 1
  · rw [hid]
    decide
  · exact (congrFun hbal assetId).trans (by rw [update_of_ne hid, update_of_ne hid])

theorem funds_kept_by_grant :
    let t := run State.step fundedState (grantCalls ++ emptyCalls)
    t.agents.owner 0 = 0 ∧ t.assets.balance 1 7 = 100 ∧ funds t 1 = funds fundedState 1 :=
  ⟨by decide, by decide, (agent_funds_conserved fundedState unused_fundedState
    (grantCalls ++ emptyCalls) (by decide)
    (along_append.2 ⟨grantCalls_safe, emptyCalls_safe⟩) 1).1⟩

/-- Account 7 revokes the agent, which still has the 10, and cannot take them back. -/
theorem revoked_agent_strands_funds :
    funds (run State.step fundedState (grantCalls ++ [⟨.revokeAgent 0 7, 2, true⟩])) 1 + 10 =
        funds fundedState 1 ∧
      ((run State.step fundedState (grantCalls ++ [⟨.revokeAgent 0 7, 2, true⟩])).revokeBalance
        0 1 7).2 = .error .notFound := by
  have hgra := (funds_run unused_fundedState
    (grantCalls_safe.and (along_of_forall (by decide)))).2 1
  have hrev : (run State.step fundedState grantCalls).revokeAgent 0 7 =
      (run State.step fundedState (grantCalls ++ [⟨.revokeAgent 0 7, 2, true⟩]), .ok ()) := rfl
  have hbal : ((run State.step fundedState grantCalls).agents.balance 0 1).toNat = 10 := by
    decide
  have hlost := funds_revokeAgent hrev 1
  rw [hbal, hgra] at hlost
  exact ⟨hlost, by decide⟩

end Callchain.Agent
