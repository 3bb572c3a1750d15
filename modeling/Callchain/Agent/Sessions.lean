/-
# The policy of a session

A session lets its delegate move the owner's balance within a policy: a window of
blocks, limits for one transfer, for a day and for all, a number of transfers, an
interval between them and two lists of what is allowed. `execute_session_transfer`
compares the counters of the session with it.
-/
import Callchain.Agent.Storage
import Callchain.Lib.Run

namespace Callchain.Agent

open Asset Run
open Function (update_of_ne update_self)
open BitVec (allOnes le_def toNat_add_of_lt)

/-- What a call of `execute_session_transfer` asks for. -/
structure Transfer where
  assetId : U64
  recipient : Address
  amount : U128
  caller : Address
  block : U64

def Transfer.day (t : Transfer) : U64 := t.block / blocksPerDay

def spentOn (ts : List Transfer) (day : U64) : ℕ :=
  ((ts.filter (·.day = day)).map (·.amount.toNat)).sum

def spentInAll (ts : List Transfer) : ℕ := (ts.map (·.amount.toNat)).sum

theorem spentOn_snoc (ts : List Transfer) (t : Transfer) (day : U64) :
    spentOn (ts ++ [t]) day = spentOn ts day + if t.day = day then t.amount.toNat else 0 := by
  by_cases h : t.day = day
  · simp [spentOn, h]
  · simp [spentOn, h]

theorem spentInAll_snoc (ts : List Transfer) (t : Transfer) :
    spentInAll (ts ++ [t]) = spentInAll ts + t.amount.toNat := by
  simp [spentInAll]

/-- The policy of the session `x`, in exact arithmetic. -/
structure Obeys (x : Session) (ts : List Transfer) : Prop where
  delegate : ∀ t ∈ ts, t.caller = x.delegate
  effective : ∀ t ∈ ts, x.effectiveAt ≤ t.block
  expires : x.expiresAt ≠ 0 → ∀ t ∈ ts, t.block ≤ x.expiresAt
  perTx : ∀ t ∈ ts, t.amount ≤ x.perTxLimit
  daily : ∀ day, spentOn ts day ≤ x.dailyLimit.toNat
  total : x.maxTotalSpend ≠ 0 → spentInAll ts ≤ x.maxTotalSpend.toNat
  executions : x.maxExecutions ≠ 0 → ts.length ≤ x.maxExecutions.toNat
  interval : ts.Pairwise fun a b => a.block.toNat + x.minIntervalBlocks.toNat ≤ b.block.toNat
  assets : x.allowedAssets ≠ [] → ∀ t ∈ ts, t.assetId ∈ x.allowedAssets
  recipients : x.allowedRecipients ≠ [] → ∀ t ∈ ts, t.recipient ∈ x.allowedRecipients

theorem obeys_nil (x : Session) : Obeys x [] where
  delegate := by simp
  effective := by simp
  expires := by simp
  perTx := by simp
  daily := by simp [spentOn]
  total := by simp [spentInAll]
  executions := by simp
  interval := List.Pairwise.nil
  assets := by simp
  recipients := by simp

/-! ### What the checks say -/

namespace Session

variable (x : Session) (t : Transfer)

def spentBefore (block : U64) : U128 := if x.lastDay < block / blocksPerDay then 0 else x.spent

def count : Session :=
  { x with
    spent := x.spentBefore t.block + t.amount
    lastDay := if x.lastDay < t.day then t.day else x.lastDay
    executionCount := x.executionCount + 1
    lastExecutionBlock := t.block
    totalSpent := x.totalSpent + t.amount }

/-- What the session's policy requires of a transfer. -/
structure Authorized : Prop where
  owner : x.owner ≠ 0
  delegate : t.caller = x.delegate
  expires : x.expiresAt ≠ 0 → t.block ≤ x.expiresAt
  effective : x.effectiveAt ≤ t.block
  interval : x.minIntervalBlocks ≠ 0 → x.lastExecutionBlock ≠ 0 →
    x.minIntervalBlocks ≤ t.block - x.lastExecutionBlock
  executions : x.maxExecutions ≠ 0 → x.executionCount < x.maxExecutions
  perTx : t.amount ≤ x.perTxLimit
  daily : x.spentBefore t.block + t.amount ≤ x.dailyLimit
  total : x.maxTotalSpend ≠ 0 → x.totalSpent + t.amount ≤ x.maxTotalSpend
  assets : x.allowedAssets ≠ [] → t.assetId ∈ x.allowedAssets
  recipients : x.allowedRecipients ≠ [] → t.recipient ∈ x.allowedRecipients

variable {x t}

theorem authorize_ok {y : Session}
    (h : x.authorize t.assetId t.recipient t.amount t.caller t.block = .ok y) :
    x.Authorized t ∧ y = x.count t := by
  obtain ⟨hown, h⟩ := ite_error_eq_ok.1 h
  obtain ⟨hdel, h⟩ := ite_error_eq_ok.1 h
  obtain ⟨hexpires, h⟩ := ite_error_eq_ok.1 h
  obtain ⟨heff, h⟩ := ite_error_eq_ok.1 h
  obtain ⟨hint, h⟩ := ite_error_eq_ok.1 h
  obtain ⟨hexecutions, h⟩ := ite_error_eq_ok.1 h
  obtain ⟨hper, h⟩ := ite_error_eq_ok.1 h
  obtain ⟨hdai, h⟩ := ite_error_eq_ok.1 h
  obtain ⟨htot, h⟩ := ite_error_eq_ok.1 h
  obtain ⟨hass, h⟩ := ite_error_eq_ok.1 h
  obtain ⟨hrec, h⟩ := ite_error_eq_ok.1 h
  cases h
  refine ⟨⟨hown, not_not.1 hdel, fun hne => BitVec.not_lt.1 fun hlt => hexpires ⟨hne, hlt⟩,
    ?_, fun hne hlast => BitVec.not_lt.1 fun hlt => hint ⟨hne, hlast, hlt⟩,
    fun hne => BitVec.not_le.1 fun hle => hexecutions ⟨hne, hle⟩, BitVec.not_lt.1 hper,
    BitVec.not_lt.1 hdai, fun hne => BitVec.not_lt.1 fun hlt => htot ⟨hne, hlt⟩,
    fun hne => not_not.1 fun hmem => hass ⟨hne, hmem⟩,
    fun hne => not_not.1 fun hmem => hrec ⟨hne, hmem⟩⟩, rfl⟩
  by_cases hzero : x.effectiveAt = 0
  · rw [hzero]
    exact Nat.zero_le _
  · exact BitVec.not_lt.1 fun hlt => heff ⟨hzero, hlt⟩

theorem not_authorized (h : x.owner = 0) : ¬ x.Authorized t := fun hauth => hauth.owner h

end Session

/-! ### The counters and the history -/

/-- The sums do not wrap, and it is not in block 0 if there is an interval to keep. -/
structure SafeTransfer (x : Session) (amount : U128) (block : U64) : Prop where
  daily : (x.spentBefore block).toNat + amount.toNat < 2 ^ 128
  total : x.maxTotalSpend ≠ 0 → x.totalSpent.toNat + amount.toNat < 2 ^ 128
  block : x.minIntervalBlocks ≠ 0 → block ≠ 0

structure SameTerms (x y : Session) : Prop where
  policy : y.toSessionPolicy = x.toSessionPolicy
  delegate : y.delegate = x.delegate
  perTxLimit : y.perTxLimit = x.perTxLimit
  dailyLimit : y.dailyLimit = x.dailyLimit
  expiresAt : y.expiresAt = x.expiresAt

/-- Session `x` was created, its transfers up to block `now` are `ts`, and `y` is in its
slots. -/
structure Tracks (x : Session) (ts : List Transfer) (now : U64) (y : Session) : Prop where
  terms : SameTerms x y
  days : ∀ t ∈ ts, t.day ≤ y.lastDay
  today : spentOn ts y.lastDay ≤ y.spent.toNat
  total : x.maxTotalSpend ≠ 0 → spentInAll ts ≤ y.totalSpent.toNat
  executions : x.maxExecutions ≠ 0 → ts.length ≤ y.executionCount.toNat
  blocks : ∀ t ∈ ts, t.block ≤ y.lastExecutionBlock
  nonzero : x.minIntervalBlocks ≠ 0 → ts ≠ [] → y.lastExecutionBlock ≠ 0
  last : y.lastExecutionBlock ≤ now
  lastDay : y.lastDay ≤ now / blocksPerDay

variable {x y : Session} {ts : List Transfer} {t : Transfer} {now : U64}

theorem forall_mem_snoc {P : Transfer → Prop} (hts : ∀ a ∈ ts, P a) (ht : P t) :
    ∀ a ∈ ts ++ [t], P a := List.forall_mem_append.2 ⟨hts, List.forall_mem_singleton.2 ht⟩

theorem day_mono {a b : U64} (h : a ≤ b) : a / blocksPerDay ≤ b / blocksPerDay := by
  exact Nat.div_le_div_right (BitVec.le_def.1 h)

theorem Tracks.later {now' : U64} (h : Tracks x ts now y) (hle : now ≤ now') : Tracks x ts now' y :=
  { h with
    last := BitVec.le_trans h.last hle
    lastDay := BitVec.le_trans h.lastDay (day_mono hle) }

theorem Tracks.spentOn_le (h : Tracks x ts t.block y) :
    spentOn ts t.day ≤ (y.spentBefore t.block).toNat := by
  unfold Session.spentBefore
  split_ifs with hday
  · have hnone : ts.filter (·.day = t.day) = [] := by
      refine List.filter_eq_nil_iff.2 fun a ha => ?_
      have hle := h.days a ha
      simp only [decide_eq_true_eq]
      intro heq
      rw [heq] at hle
      exact BitVec.not_le.2 hday hle
    simp [spentOn, hnone]
  · have hsame : t.day = y.lastDay := BitVec.le_antisymm (BitVec.not_lt.1 hday) h.lastDay
    rw [hsame]
    exact h.today

theorem Tracks.gap (h : Tracks x ts t.block y) (hauth : y.Authorized t) :
    ∀ a ∈ ts, a.block.toNat + x.minIntervalBlocks.toNat ≤ t.block.toNat := by
  intro a ha
  have hlast := BitVec.le_def.1 h.last
  have hblo := BitVec.le_def.1 (h.blocks a ha)
  by_cases hzero : x.minIntervalBlocks = 0
  · rw [hzero]
    exact hblo.trans hlast
  · have hint := hauth.interval (h.terms.policy ▸ hzero)
      (h.nonzero hzero (List.ne_nil_of_mem ha))
    rw [h.terms.policy, le_def, BitVec.toNat_sub_of_le h.last] at hint
    omega

theorem Obeys.snoc (hobe : Obeys x ts) (h : Tracks x ts t.block y) (hauth : y.Authorized t)
    (hsafe : SafeTransfer y t.amount t.block) : Obeys x (ts ++ [t]) := by
  obtain ⟨hpol, hdel, hper, hdai, hexpires⟩ := h.terms
  constructor
  case delegate => exact forall_mem_snoc hobe.delegate (hauth.delegate.trans hdel)
  case effective => exact forall_mem_snoc hobe.effective (hpol ▸ hauth.effective)
  case expires =>
    intro hne
    exact forall_mem_snoc (hobe.expires hne) (hexpires ▸ hauth.expires (hexpires.symm ▸ hne))
  case perTx => exact forall_mem_snoc hobe.perTx (hper ▸ hauth.perTx)
  case daily =>
    intro day
    rw [spentOn_snoc]
    split_ifs with hday
    · have hsum := hauth.daily
      rw [le_def, toNat_add_of_lt hsafe.daily, hdai] at hsum
      have hspe := h.spentOn_le
      rw [hday] at hspe
      omega
    · exact hobe.daily day
  case total =>
    intro hne
    have hney : y.maxTotalSpend ≠ 0 := by rwa [hpol]
    have hsum := hauth.total hney
    rw [le_def, toNat_add_of_lt (hsafe.total hney), hpol] at hsum
    rw [spentInAll_snoc]
    exact (Nat.add_le_add_right (h.total hne) _).trans hsum
  case executions =>
    intro hne
    have hlt := hauth.executions (by rwa [hpol])
    rw [BitVec.lt_def, hpol] at hlt
    have hcou := h.executions hne
    rw [List.length_append, List.length_singleton]
    omega
  case interval =>
    refine List.pairwise_append.2
      ⟨hobe.interval, List.pairwise_singleton _ _, fun a ha b hb => ?_⟩
    rw [List.mem_singleton.1 hb]
    exact h.gap hauth a ha
  case assets =>
    intro hne
    refine forall_mem_snoc (hobe.assets hne) ?_
    rw [← hpol] at hne ⊢
    exact hauth.assets hne
  case recipients =>
    intro hne
    refine forall_mem_snoc (hobe.recipients hne) ?_
    rw [← hpol] at hne ⊢
    exact hauth.recipients hne

theorem Tracks.snoc (h : Tracks x ts t.block y) (hauth : y.Authorized t)
    (hsafe : SafeTransfer y t.amount t.block) : Tracks x (ts ++ [t]) t.block (y.count t) := by
  -- the slot of the day is the day of the transfer, whether it starts one or not
  have hday : (y.count t).lastDay = t.day := by
    unfold Session.count
    split_ifs with hlt
    · rfl
    · exact (BitVec.le_antisymm (BitVec.not_lt.1 hlt) h.lastDay).symm
  constructor
  case terms => exact ⟨h.terms.policy, h.terms.delegate, h.terms.perTxLimit, h.terms.dailyLimit,
    h.terms.expiresAt⟩
  case days =>
    rw [hday]
    exact forall_mem_snoc (fun a ha => BitVec.le_trans (h.days a ha) h.lastDay) (BitVec.le_refl _)
  case today =>
    rw [hday, spentOn_snoc, if_pos rfl]
    show _ ≤ (y.spentBefore t.block + t.amount).toNat
    rw [toNat_add_of_lt hsafe.daily]
    exact Nat.add_le_add_right h.spentOn_le _
  case total =>
    intro hne
    show _ ≤ (y.totalSpent + t.amount).toNat
    rw [toNat_add_of_lt (hsafe.total (h.terms.policy ▸ hne)), spentInAll_snoc]
    exact Nat.add_le_add_right (h.total hne) _
  case executions =>
    intro hne
    have hlt := BitVec.lt_def.1 (hauth.executions (h.terms.policy ▸ hne))
    have hcou := h.executions hne
    show _ ≤ (y.executionCount + 1).toNat
    rw [toNat_add_of_lt (by simp; omega), List.length_append]
    exact Nat.add_le_add_right hcou 1
  case blocks =>
    exact forall_mem_snoc (fun a ha => BitVec.le_trans (h.blocks a ha) h.last) (BitVec.le_refl _)
  case nonzero => exact fun hne _ => hsafe.block (h.terms.policy ▸ hne)
  case last => exact BitVec.le_refl _
  case lastDay =>
    rw [hday]
    exact BitVec.le_refl _

theorem Tracks.of_snoc (h : Tracks x (ts ++ [t]) now y) : Tracks x ts now y := by
  have hmem : ∀ a ∈ ts, a ∈ ts ++ [t] := fun a ha => List.mem_append_left _ ha
  have htod := h.today
  rw [spentOn_snoc] at htod
  constructor
  case terms => exact h.terms
  case days => exact fun a ha => h.days a (hmem a ha)
  case today => exact (Nat.le_add_right _ _).trans htod
  case total =>
    intro hne
    have htot := h.total hne
    rw [spentInAll_snoc] at htot
    exact (Nat.le_add_right _ _).trans htot
  case executions =>
    intro hne
    have hcou := h.executions hne
    rw [List.length_append] at hcou
    exact (Nat.le_add_right _ _).trans hcou
  case blocks => exact fun a ha => h.blocks a (hmem a ha)
  case nonzero => exact fun hne _ => h.nonzero hne (by simp)
  case last => exact h.last
  case lastDay => exact h.lastDay

/-! ### A step of the state -/

def transferOf (sessionId : U64) (s : State) (c : AgentCall) : List Transfer :=
  match c.op with
  | .executeSessionTransfer id assetId recipient amount caller =>
    match s.executeSessionTransfer id assetId recipient amount caller c.block with
    | (_, .ok ()) => if id = sessionId then [⟨assetId, recipient, amount, caller, c.block⟩] else []
    | (_, .error _) => []
  | _ => []

def transfers (sessionId : U64) : State → List AgentCall → List Transfer :=
  collect State.step (transferOf sessionId)

inductive SessionMove (sessionId : U64) (c : AgentCall) (x : Session) :
    Session → List Transfer → Prop
  | kept : SessionMove sessionId c x x []
  | revoked : SessionMove sessionId c x {} []
  | counted {t : Transfer} {y : Session} {ts : List Transfer} :
    c.op = .executeSessionTransfer sessionId t.assetId t.recipient t.amount t.caller →
    c.block = t.block → x.authorize t.assetId t.recipient t.amount t.caller t.block = .ok y →
    ts = [] ∨ ts = [t] → SessionMove sessionId c x y ts

/-- The delegate's transfers within the limit wrap no counter of the session, and its id
is not given out again. -/
def SafeSessionCall (sessionId : U64) (s : State) (c : AgentCall) : Prop :=
  match c.op with
  | .executeSessionTransfer id _ _ amount caller =>
    id = sessionId → caller = (s.agents.session id).delegate →
      amount ≤ (s.agents.session id).perTxLimit → SafeTransfer (s.agents.session id) amount c.block
  | .createSession .. => s.agents.sessionCount ≠ BitVec.allOnes 64
  | _ => True

structure SameSessions (s t : State) : Prop where
  count : t.agents.sessionCount = s.agents.sessionCount
  session : t.agents.session = s.agents.session

def AgentOp.onAgents : AgentOp → Bool
  | .createSession .. | .revokeSession .. | .executeSessionTransfer .. => false
  | _ => true

theorem sameSessions_exec (s : State) (block : U64) {op : AgentOp} (h : op.onAgents = true) :
    SameSessions s (op.exec s block).1 := by
  cases op with
  | createSession | revokeSession | executeSessionTransfer => exact absurd h Bool.false_ne_true
  | _ =>
    dsimp only [AgentOp.exec, State.registerAgent, State.grantBalance, State.revokeBalance,
      State.pay, State.batchPay, State.payOut, State.revokeAgent]
    repeat' split
    all_goals exact ⟨rfl, rfl⟩

section
variable {s : State} {sid : U64} {c : AgentCall}

theorem SameSessions.move {s' : State} (h : SameSessions s s') :
    SessionMove sid c (s.agents.session sid) (s'.agents.session sid) [] := by
  rw [h.session]
  exact .kept

variable {caller : Address}

theorem createSession_move {delegate : Address} {perTxLimit dailyLimit : U128} {expiresAt : U64}
    {policy : SessionPolicy} (hcre : sid.toNat < s.agents.sessionCount.toNat) :
    SessionMove sid c (s.agents.session sid)
      ((s.createSession delegate perTxLimit dailyLimit expiresAt policy caller).1.agents.session
        sid) [] := by
  have hne : sid ≠ s.agents.sessionCount := by
    rintro rfl
    exact lt_irrefl _ hcre
  have hsame : (s.createSession delegate perTxLimit dailyLimit expiresAt policy
      caller).1.agents.session sid = s.agents.session sid :=
    update_of_ne hne _ _
  rw [hsame]
  exact .kept

theorem revokeSession_move (id : U64) (caller : Address) : SessionMove sid c (s.agents.session sid)
      ((s.revokeSession id caller).1.agents.session sid) [] := by
  unfold State.revokeSession
  dsimp only
  split_ifs with hgone hown
  · exact .kept
  · exact .kept
  · by_cases hid : sid = id
    · rw [hid]
      dsimp only [State.withAgents, AgentStorage.setSession]
      rw [update_self]
      exact .revoked
    · dsimp only [State.withAgents, AgentStorage.setSession]
      rw [update_of_ne hid]
      exact .kept

theorem executeSessionTransfer_session {id aid : U64} {recipient : Address} {amount : U128}
    {block : U64} {s' : State} {r : Except AgentError Unit}
    (h : s.executeSessionTransfer id aid recipient amount caller block = (s', r)) :
    (s' = s ∧ r ≠ .ok ()) ∨ ∃ y,
      (s.agents.session id).authorize aid recipient amount caller block = .ok y ∧
        s'.agents = s.agents.setSession id y := by
  unfold State.executeSessionTransfer at h
  cases hauth : (s.agents.session id).authorize aid recipient amount caller block with
  | error =>
    rw [hauth] at h
    cases h
    exact .inl ⟨rfl, fun hok => by cases hok⟩
  | ok y =>
    refine .inr ⟨y, rfl, ?_⟩
    rw [hauth] at h
    dsimp only at h
    repeat' split at h
    all_goals
      cases h
      rfl

theorem executeSessionTransfer_move {id aid : U64} {recipient : Address} {amount : U128}
    (hop : c.op = .executeSessionTransfer id aid recipient amount caller) :
    SessionMove sid c (s.agents.session sid) ((s.step c).agents.session sid)
      (transferOf sid s c) := by
  unfold State.step transferOf
  rw [hop]
  dsimp only [AgentOp.exec]
  cases hexec : s.executeSessionTransfer id aid recipient amount caller c.block with
  | mk s' r =>
    rcases executeSessionTransfer_session hexec with ⟨rfl, hfai⟩ | ⟨y, hauth, hage⟩
    · cases r with
      | ok => exact absurd rfl hfai
      | error => simpa using SessionMove.kept
    · by_cases hid : id = sid
      · subst hid
        have hslo : s'.agents.session id = y := by
          rw [hage]
          exact update_self _ _ _
        have hcou : ∀ ts : List Transfer,
            ts = [] ∨ ts = [⟨aid, recipient, amount, caller, c.block⟩] →
            SessionMove id c (s.agents.session id) y ts :=
          fun ts hts =>
            .counted (t := ⟨aid, recipient, amount, caller, c.block⟩) hop rfl hauth hts
        cases r with
        | ok =>
          rw [hslo, if_pos rfl]
          exact hcou _ (.inr rfl)
        | error =>
          dsimp only
          split_ifs
          · exact .kept
          · rw [hslo]
            exact hcou _ (.inl rfl)
      · have hslo : s'.agents.session sid = s.agents.session sid := by
          rw [hage]
          exact update_of_ne (Ne.symm hid) _ _
        cases r with
        | ok =>
          rw [hslo, if_neg hid]
          exact .kept
        | error =>
          split_ifs
          · exact .kept
          · rw [hslo]
            exact .kept

theorem step_eq (s : State) (c : AgentCall) : s.step c = s ∨ s.step c = (c.op.exec s c.block).1 := by
  unfold State.step
  cases c.op.exec s c.block with
  | mk s' r =>
    cases r with
    | ok => exact .inr rfl
    | error =>
      split_ifs
      · exact .inl rfl
      · exact .inr rfl

theorem step_of_exec (hcre : sid.toNat < s.agents.sessionCount.toNat)
    (htra : transferOf sid s c = []) (hmove : SessionMove sid c (s.agents.session sid)
      ((c.op.exec s c.block).1.agents.session sid) [])
    (hcou : s.agents.sessionCount.toNat ≤ (c.op.exec s c.block).1.agents.sessionCount.toNat) :
    SessionMove sid c (s.agents.session sid) ((s.step c).agents.session sid) (transferOf sid s c) ∧
      sid.toNat < (s.step c).agents.sessionCount.toNat := by
  rw [htra]
  rcases step_eq s c with heq | heq
  · rw [heq]
    exact ⟨.kept, hcre⟩
  · rw [heq]
    exact ⟨hmove, hcre.trans_le hcou⟩

theorem sessionCount_lt_succ {n : U64} (h : n ≠ allOnes 64) : n.toNat < (n + 1).toNat := by
  have hne : n.toNat ≠ 2 ^ 64 - 1 := fun heq => h (BitVec.eq_of_toNat_eq (by simpa using heq))
  rw [toNat_add_of_lt (by simp; omega)]
  exact Nat.lt_succ_self _

theorem session_step (hcre : sid.toNat < s.agents.sessionCount.toNat)
    (hsafe : SafeSessionCall sid s c) :
    SessionMove sid c (s.agents.session sid) ((s.step c).agents.session sid) (transferOf sid s c) ∧
      sid.toNat < (s.step c).agents.sessionCount.toNat := by
  have hsame : c.op.onAgents = true → transferOf sid s c = [] →
      SessionMove sid c (s.agents.session sid) ((s.step c).agents.session sid)
          (transferOf sid s c) ∧
        sid.toNat < (s.step c).agents.sessionCount.toNat := by
    intro hage htra
    have h := sameSessions_exec s c.block hage
    exact step_of_exec hcre htra h.move (congrArg BitVec.toNat h.count).ge
  obtain ⟨op, block, reverts⟩ := c
  cases op with
  | createSession =>
    exact step_of_exec hcre rfl (createSession_move hcre) (sessionCount_lt_succ hsafe).le
  | revokeSession id caller =>
    refine step_of_exec hcre rfl (revokeSession_move id caller) (le_of_eq ?_)
    show _ = (s.revokeSession id caller).1.agents.sessionCount.toNat
    unfold State.revokeSession
    dsimp only
    split_ifs <;> rfl
  | executeSessionTransfer id assetId recipient amount caller =>
    refine ⟨executeSessionTransfer_move rfl, ?_⟩
    rcases step_eq s ⟨.executeSessionTransfer id assetId recipient amount caller, block, reverts⟩
      with heq | heq
    · rwa [heq]
    · rw [heq]
      dsimp only [AgentOp.exec]
      cases hexec : s.executeSessionTransfer id assetId recipient amount caller block with
      | mk =>
        rcases executeSessionTransfer_session hexec with ⟨rfl, -⟩ | ⟨y, -, hage⟩
        · exact hcre
        · rwa [hage]
  | _ => exact hsame rfl rfl

end

/-! ### Whole runs -/

structure Followed (x : Session) (sessionId now : U64) (s : State) (ts : List Transfer) :
    Prop where
  created : sessionId.toNat < s.agents.sessionCount.toNat
  obeys : Obeys x ts
  tracks : (s.agents.session sessionId).owner ≠ 0 → Tracks x ts now (s.agents.session sessionId)

section
variable {s : State} {sid : U64}

theorem Followed.step {c : AgentCall} (h : Followed x sid now s ts) (hnow : now ≤ c.block)
    (hsafe : SafeSessionCall sid s c) :
    Followed x sid c.block (s.step c) (ts ++ transferOf sid s c) := by
  obtain ⟨hmove, hcre⟩ := session_step h.created hsafe
  have hfol : ∀ z us, SessionMove sid c (s.agents.session sid) z us →
      Obeys x (ts ++ us) ∧ (z.owner ≠ 0 → Tracks x (ts ++ us) c.block z) := by
    intro z us hmove
    cases hmove with
    | kept =>
      rw [List.append_nil]
      exact ⟨h.obeys, fun hown => (h.tracks hown).later hnow⟩
    | revoked =>
      rw [List.append_nil]
      exact ⟨h.obeys, fun hown => absurd rfl hown⟩
    | @counted t y ts' hop hblo hauth hts =>
      obtain ⟨hche, rfl⟩ := Session.authorize_ok hauth
      rw [hblo] at hnow ⊢
      have htra := (h.tracks hche.owner).later hnow
      have hsafe : SafeTransfer (s.agents.session sid) t.amount t.block := by
        unfold SafeSessionCall at hsafe
        rw [hop, hblo] at hsafe
        exact hsafe rfl hche.delegate hche.perTx
      have haft := htra.snoc hche hsafe
      rcases hts with rfl | rfl
      · rw [List.append_nil]
        exact ⟨h.obeys, fun _ => haft.of_snoc⟩
      · exact ⟨h.obeys.snoc htra hche hsafe, fun _ => haft⟩
  exact ⟨hcre, (hfol _ _ hmove).1, (hfol _ _ hmove).2⟩

variable {calls : List AgentCall}

theorem Followed.run (h : Followed x sid now s ts)
    (hnow : ∀ c ∈ calls, now ≤ c.block) (hsor : calls.Pairwise fun a b => a.block ≤ b.block)
    (hsafe : Along State.step (SafeSessionCall sid) s calls) :
    Obeys x (ts ++ transfers sid s calls) := by
  induction calls generalizing s ts now with
  | nil =>
    rw [transfers, collect, List.append_nil]
    exact h.obeys
  | cons c calls ih =>
    obtain ⟨hle, hrest⟩ := List.pairwise_cons.1 hsor
    have hstep := ih (h.step (hnow c List.mem_cons_self) hsafe.1) hle hrest hsafe.2
    rwa [List.append_assoc] at hstep

theorem transfers_revoked (hcre : sid.toNat < s.agents.sessionCount.toNat)
    (hown : (s.agents.session sid).owner = 0)
    (hsafe : Along State.step (SafeSessionCall sid) s calls) : transfers sid s calls = [] := by
  induction calls generalizing s with
  | nil => rfl
  | cons c calls ih =>
    obtain ⟨hmove, hcre'⟩ := session_step hcre hsafe.1
    have hgone : ∀ z us, SessionMove sid c (s.agents.session sid) z us → us = [] ∧ z.owner = 0 := by
      intro z us hmove
      cases hmove with
      | kept => exact ⟨rfl, hown⟩
      | revoked => exact ⟨rfl, rfl⟩
      | counted hop hblo hauth =>
        exact absurd (Session.authorize_ok hauth).1 (Session.not_authorized hown)
    obtain ⟨hnone, hown'⟩ := hgone _ _ hmove
    have hrest := ih hcre' hown' hsafe.2
    rw [transfers] at hrest ⊢
    rw [collect, hnone, hrest]
    rfl

theorem created_run (hcre : sid.toNat < s.agents.sessionCount.toNat)
    (hsafe : Along State.step (SafeSessionCall sid) s calls) :
    sid.toNat < (run State.step s calls).agents.sessionCount.toNat :=
  invariant (I := fun s => sid.toNat < s.agents.sessionCount.toNat)
    (fun _ _ hcre hc => (session_step hcre hc).2) hsafe hcre

theorem revokeSession_owner {c : AgentCall} {revoker : Address}
    (hop : c.op = .revokeSession sid revoker) (h : (s.revokeSession sid revoker).2 = .ok ()) :
    ((s.step c).agents.session sid).owner = 0 := by
  cases hexec : s.revokeSession sid revoker with
  | mk s' r =>
    rw [hexec] at h
    have hr : r = .ok () := h
    subst hr
    have hstep : s.step c = s' := by
      unfold State.step
      rw [hop, AgentOp.exec, hexec]
    obtain ⟨-, hexec⟩ := ite_failed_eq_ok.1 hexec
    obtain ⟨-, hexec⟩ := ite_failed_eq_ok.1 hexec
    cases hexec
    rw [hstep]
    dsimp only [State.withAgents, AgentStorage.setSession]
    rw [update_self]

theorem followed_createSession {delegate caller : Address} {perTxLimit dailyLimit : U128}
    {expiresAt : U64} {policy : SessionPolicy} {s' : State}
    (hcou : s.agents.sessionCount ≠ allOnes 64)
    (h : s.createSession delegate perTxLimit dailyLimit expiresAt policy caller = (s', .ok sid)) :
    Followed (.new caller delegate perTxLimit dailyLimit expiresAt policy) sid 0 s' [] := by
  cases h
  refine ⟨sessionCount_lt_succ hcou, obeys_nil _, fun _ => ?_⟩
  dsimp only [State.withAgents, AgentStorage.setSession]
  rw [update_self]
  constructor
  case terms => exact ⟨rfl, rfl, rfl, rfl, rfl⟩
  case days => simp
  case today => simp [spentOn]
  case total => simp [spentInAll]
  case executions => simp
  case blocks => simp
  case nonzero => simp
  case last => exact BitVec.le_refl _
  case lastDay => exact BitVec.le_refl _

end

/-- **Sessions obey their policy.** In every run from the creation of a session on, in blocks that
do not go back, its transfers obey its policy, as long as no sum of its counters wraps and a
session with an interval does not transfer in block 0; once it is revoked there are none. -/
theorem session_transfers_obey (s s' : State) (delegate caller : Address)
    (perTxLimit dailyLimit : U128) (expiresAt : U64) (policy : SessionPolicy) (sessionId : U64)
    (hcount : s.agents.sessionCount ≠ BitVec.allOnes 64)
    (hcreate : s.createSession delegate perTxLimit dailyLimit expiresAt policy caller =
      (s', .ok sessionId))
    (calls : List AgentCall) (hsorted : calls.Pairwise fun a b => a.block ≤ b.block)
    (hsafe : Along State.step (SafeSessionCall sessionId) s' calls) :
    Obeys (.new caller delegate perTxLimit dailyLimit expiresAt policy)
        (transfers sessionId s' calls) ∧ ∀ before c after revoker, calls = before ++ c :: after →
        c.op = .revokeSession sessionId revoker →
        ((run State.step s' before).revokeSession sessionId revoker).2 = .ok () →
        transfers sessionId (run State.step s' (before ++ [c])) after = [] := by
  have hsta := followed_createSession hcount hcreate
  refine ⟨?_, ?_⟩
  · exact hsta.run (fun c _ => BitVec.le_def.2 (Nat.zero_le _)) hsorted hsafe
  · rintro before c after revoker rfl hop hrev
    rw [List.append_cons] at hsafe
    obtain ⟨hbef, haft⟩ := along_append.1 hsafe
    refine transfers_revoked (created_run hsta.created hbef) ?_ haft
    rw [run_append]
    exact revokeSession_owner hop hrev

/-! ### Two transfers that the counters do not see -/

def richState : State :=
  { assets := { balance := fun assetId addr => if assetId = 1 ∧ addr = 7 then 2 ^ 127 else 0 } }

def transferCalls (amount : U128) (blocks : List U64) : List AgentCall :=
  blocks.map fun block => ⟨.executeSessionTransfer 0 1 7 amount 8, block, true⟩

theorem transfers_within_limit : Obeys (.new 7 8 10 15 0 { minIntervalBlocks := 5 })
      (transfers 0 (richState.createSession 8 10 15 0 { minIntervalBlocks := 5 } 7).1
        (transferCalls 7 [1, 6, 8])) :=
  (session_transfers_obey richState _ 8 7 10 15 0 { minIntervalBlocks := 5 } 0 (by decide) rfl
    (transferCalls 7 [1, 6, 8]) (by decide)
    ⟨fun _ _ _ => ⟨by decide +kernel, by decide +kernel, by decide +kernel⟩,
      fun _ _ _ => ⟨by decide +kernel, by decide +kernel, by decide +kernel⟩,
      fun _ _ _ => ⟨by decide +kernel, by decide +kernel, by decide +kernel⟩, trivial⟩).1

/-- A limit of 2^127 a day lets two transfers of 2^127 through, since their sum wraps;
after a transfer in block 0 the interval of 100 blocks is not kept. -/
theorem transfers_beyond_policy : ¬ Obeys (.new 7 8 (2 ^ 127) (2 ^ 127) 0 {})
        (transfers 0 (richState.createSession 8 (2 ^ 127) (2 ^ 127) 0 {} 7).1
          (transferCalls (2 ^ 127) [1, 2])) ∧
      ¬ Obeys (.new 7 8 10 15 0 { minIntervalBlocks := 100 })
        (transfers 0 (richState.createSession 8 10 15 0 { minIntervalBlocks := 100 } 7).1
          (transferCalls 7 [0, 1])) := by
  refine ⟨fun h => ?_, fun h => ?_⟩
  · exact absurd (h.daily 0) (by decide +kernel)
  · exact absurd h.interval (by decide +kernel)

end Callchain.Agent
