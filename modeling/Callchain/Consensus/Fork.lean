/-
# Upgrades by height

A `ForkManager` holds the version in force and the scheduled upgrades in order of their
activation height. `check_upgrades_at_height` applies those that are due, and skips the
ones whose version too few validators are ready for. `version_at_height` answers for any
height, past ones too: it starts from the version in force now and overwrites it with
every entry up to that height, applied or not.
-/
import Callchain.Primitives
import Callchain.Lib.Latest
import Callchain.Lib.Run
import Mathlib.Data.Finset.Card
import Mathlib.Data.List.AList
import Mathlib.Data.List.Sort

namespace Callchain.Consensus

open Latest

abbrev ValidatorId := BitVec 32

structure ProtocolVersion where
  major : BitVec 16
  minor : BitVec 16
  patch : BitVec 16
  deriving DecidableEq

structure UpgradeEntry where
  version : ProtocolVersion
  activationHeight : U64
  applied : Bool := false
  proposalId : Option U64 := none
  approvedAtHeight : Option U64 := none
  deriving DecidableEq

/-- Emergency rollback state: the target, and the signatures collected so far
for it, one a validator. -/
structure EmergencyRollback where
  targetHeight : U64
  targetVersion : ProtocolVersion
  signatures : AList fun _ : ValidatorId => Bytes
  totalValidators : BitVec 32

inductive ForkError where
  | validatorNotFound (validatorId : ValidatorId)
  | invalidSignature
  | versionMismatch (blockHeight : U64) (expected actual : ProtocolVersion)
  | duplicateRollbackSignature
  | rollbackTargetMismatch
  | rollbackNonceMismatch (expected got : U64)
  deriving DecidableEq

structure ForkManager where
  currentVersion : ProtocolVersion
  scheduledUpgrades : List UpgradeEntry := []
  activeRollback : Option EmergencyRollback := none
  totalValidators : BitVec 32
  validatorKeys : ValidatorId → Option Bytes32 := fun _ => none
  rollbackNonces : ValidatorId → U64 := fun _ => 0
  validatorReadiness : ProtocolVersion → Finset ValidatorId := fun _ => ∅
  requireValidatorReadiness : Bool := false

def divCeil (a b : BitVec 32) : BitVec 32 := if a % b = 0 then a / b else a / b + 1

/-- The product wraps, as in a release build. -/
def rollbackQuorum (totalValidators : BitVec 32) : BitVec 32 := divCeil (2 * totalValidators) 3

/-- An entry that is not applied and whose height is reached. -/
def UpgradeEntry.pendingAt (e : UpgradeEntry) (height : U64) : Bool :=
  !e.applied && e.activationHeight ≤ height

namespace ForkManager

variable (fm : ForkManager)

def new (initialVersion : ProtocolVersion) (totalValidators : BitVec 32) : ForkManager :=
  { currentVersion := initialVersion, totalValidators }

def registerValidator (validatorId : ValidatorId) (publicKey : Bytes32) : ForkManager :=
  { fm with validatorKeys := Function.update fm.validatorKeys validatorId (some publicKey) }

/-- A push and a stable sort. -/
def scheduleUpgrade (entry : UpgradeEntry) : ForkManager :=
  { fm with
    scheduledUpgrades := (fm.scheduledUpgrades ++ [entry]).insertionSort
      fun a b => a.activationHeight ≤ b.activationHeight }

def checkUpgradeReadiness (version : ProtocolVersion) : BitVec 32 × BitVec 32 :=
  (BitVec.ofNat 32 (fm.validatorReadiness version).card, rollbackQuorum fm.totalValidators)

def clearUpgradeReadiness (version : ProtocolVersion) : ForkManager :=
  { fm with validatorReadiness := Function.update fm.validatorReadiness version ∅ }

/-- The versions that the first loop of `check_upgrades_at_height` collects. -/
def skipVersions (height : U64) : List ProtocolVersion :=
  if fm.requireValidatorReadiness then
    (fm.scheduledUpgrades.filter fun e =>
      e.pendingAt height &&
        (fm.checkUpgradeReadiness e.version).1 < (fm.checkUpgradeReadiness e.version).2).map
      (·.version)
  else []

/-- The second loop of `check_upgrades_at_height`, with the version in force
and the last version applied. -/
def activate (skip : List ProtocolVersion) (height : U64) :
    List UpgradeEntry → ProtocolVersion → Option ProtocolVersion →
      List UpgradeEntry × ProtocolVersion × Option ProtocolVersion
  | [], current, last => ([], current, last)
  | e :: es, current, last =>
    if e.pendingAt height ∧ e.version ∉ skip then
      let r := activate skip height es e.version (some e.version)
      ({ e with applied := true } :: r.1, r.2)
    else
      let r := activate skip height es current last
      (e :: r.1, r.2)

def checkUpgradesAtHeight (height : U64) : ForkManager × Option ProtocolVersion :=
  let r := activate (fm.skipVersions height) height fm.scheduledUpgrades fm.currentVersion none
  let fm := { fm with scheduledUpgrades := r.1, currentVersion := r.2.1 }
  (match r.2.2 with
    | some version => fm.clearUpgradeReadiness version
    | none => fm, r.2.2)

def versionAtHeight (height : U64) : ProtocolVersion :=
  latest UpgradeEntry.version (·.activationHeight ≤ height) fm.currentVersion
    fm.scheduledUpgrades

def validateBlockVersion (blockHeight : U64) (blockVersion : ProtocolVersion) :
    Except ForkError Unit :=
  let expected := fm.versionAtHeight blockHeight
  if blockVersion ≠ expected then .error (.versionMismatch blockHeight expected blockVersion)
  else .ok ()

/-! ### What one check does -/

def Ready (version : ProtocolVersion) : Prop :=
  fm.requireValidatorReadiness = true →
    (fm.checkUpgradeReadiness version).2 ≤ (fm.checkUpgradeReadiness version).1

instance : DecidablePred fm.Ready := fun version => by unfold Ready; infer_instance

def Due (height : U64) (e : UpgradeEntry) : Prop :=
  e.pendingAt height = true ∧ fm.Ready e.version

instance (height : U64) : DecidablePred (fm.Due height) :=
  fun e => by unfold Due; infer_instance

end ForkManager

def UpgradeEntry.mark (p : UpgradeEntry → Prop) [DecidablePred p] (e : UpgradeEntry) :
    UpgradeEntry :=
  { e with applied := e.applied || decide (p e) }

section Mark

variable (p : UpgradeEntry → Prop) [DecidablePred p] (e : UpgradeEntry)

@[simp] theorem mark_version : (e.mark p).version = e.version := rfl

@[simp] theorem mark_activationHeight : (e.mark p).activationHeight = e.activationHeight := rfl

@[simp] theorem mark_applied : (e.mark p).applied = (e.applied || decide (p e)) := rfl

theorem mark_mark {q r : UpgradeEntry → Prop} [DecidablePred q] [DecidablePred r]
    (h : r e ↔ p e ∨ q (e.mark p)) : (e.mark p).mark q = e.mark r := by
  have hdec : decide (r e) = (decide (p e) || decide (q (e.mark p))) := by
    rw [← Bool.decide_or]
    exact decide_eq_decide.2 h
  have happ : (e.applied || decide (p e) || decide (q (e.mark p))) =
      (e.applied || decide (r e)) := by
    rw [hdec, Bool.or_assoc]
  exact congrArg (fun applied => { e with applied }) happ

end Mark

namespace ForkManager

variable (fm : ForkManager)

theorem activate_eq (skip : List ProtocolVersion) (height : U64) :
    ∀ (es : List UpgradeEntry) (current : ProtocolVersion) (last : Option ProtocolVersion),
      activate skip height es current last =
        (es.map (UpgradeEntry.mark fun e => e.pendingAt height = true ∧ e.version ∉ skip),
          latest UpgradeEntry.version (fun e => e.pendingAt height = true ∧ e.version ∉ skip)
            current es, latest (fun e => some e.version)
            (fun e => e.pendingAt height = true ∧ e.version ∉ skip) last es)
  | [], _, _ => rfl
  | e :: es, current, last => by
    by_cases he : e.pendingAt height = true ∧ e.version ∉ skip
    · simp only [activate, he, if_true, activate_eq skip height es, List.map_cons, latest,
        UpgradeEntry.mark, decide_true, Bool.or_true, and_self, not_false_eq_true]
    · simp only [activate, he, if_false, activate_eq skip height es, List.map_cons, latest,
        UpgradeEntry.mark, decide_false, Bool.or_false]

variable {e : UpgradeEntry}

theorem mem_skipVersions {height : U64} (hmem : e ∈ fm.scheduledUpgrades)
    (hpen : e.pendingAt height = true) :
    e.version ∈ fm.skipVersions height ↔ ¬ fm.Ready e.version := by
  unfold skipVersions Ready
  by_cases hreq : fm.requireValidatorReadiness = true
  · simp only [hreq, if_true, List.mem_map, List.mem_filter, Bool.and_eq_true,
      decide_eq_true_eq, forall_const, BitVec.not_le]
    constructor
    · rintro ⟨x, ⟨_, _, hx⟩, hv⟩
      rwa [hv] at hx
    · intro he
      exact ⟨e, ⟨hmem, hpen, he⟩, rfl⟩
  · simp [hreq]

theorem checkUpgradesAtHeight_fst (height : U64) : (fm.checkUpgradesAtHeight height).1 = { fm with
        scheduledUpgrades := fm.scheduledUpgrades.map (UpgradeEntry.mark (fm.Due height))
        currentVersion := latest UpgradeEntry.version (fm.Due height) fm.currentVersion
          fm.scheduledUpgrades
        validatorReadiness := fun version =>
          if latest (fun e => some e.version) (fm.Due height) none fm.scheduledUpgrades =
            some version
          then ∅ else fm.validatorReadiness version } := by
  have hdue : ∀ e ∈ fm.scheduledUpgrades,
      ((e.pendingAt height = true ∧ e.version ∉ fm.skipVersions height) ↔ fm.Due height e) := by
    intro e he
    refine and_congr_right fun hpen => ?_
    rw [fm.mem_skipVersions he hpen, not_not]
  have hmark : fm.scheduledUpgrades.map (UpgradeEntry.mark fun e =>
      e.pendingAt height = true ∧ e.version ∉ fm.skipVersions height) =
      fm.scheduledUpgrades.map (UpgradeEntry.mark (fm.Due height)) := by
    refine List.map_congr_left fun e he => ?_
    simp only [UpgradeEntry.mark, hdue e he]
  simp only [checkUpgradesAtHeight, activate_eq, hmark, latest_congr hdue]
  cases latest (fun e => some e.version) (fm.Due height) none fm.scheduledUpgrades with
  | none => simp
  | some version =>
    have hcle : Function.update fm.validatorReadiness version ∅ = fun v =>
        if some version = some v then ∅ else fm.validatorReadiness v := by
      funext v
      rw [Function.update_apply]
      exact if_congr (eq_comm.trans Option.some_inj.symm) rfl rfl
    simp only [clearUpgradeReadiness, hcle]

def timeline : List (U64 × ProtocolVersion) :=
  fm.scheduledUpgrades.map fun e => (e.activationHeight, e.version)

theorem versionAtHeight_eq (height : U64) : fm.versionAtHeight height =
      latest Prod.snd (fun e => e.1 ≤ height) fm.currentVersion fm.timeline := by
  rw [timeline, latest_map, versionAtHeight]

theorem timeline_check (height : U64) :
    (fm.checkUpgradesAtHeight height).1.timeline = fm.timeline := by
  rw [checkUpgradesAtHeight_fst, timeline, List.map_map]
  rfl

variable {version : ProtocolVersion} {h : U64} {k : ℕ}

theorem ready_of_ready_check {height : U64}
    (h : (fm.checkUpgradesAtHeight height).1.Ready version) : fm.Ready version := by
  rw [checkUpgradesAtHeight_fst] at h
  intro hreq
  have hquo := h hreq
  simp only [checkUpgradeReadiness] at hquo ⊢
  split at hquo
  · have hzero : rollbackQuorum fm.totalValidators ≤ 0 := by simpa using hquo
    exact BitVec.le_trans hzero (BitVec.le_def.2 (Nat.zero_le _))
  · exact hquo

/-! ### Checks at several heights -/

def checks (heights : List U64) : ForkManager :=
  Run.run (fun fm height => (checkUpgradesAtHeight fm height).1) fm heights

theorem timeline_checks (heights : List U64) : (fm.checks heights).timeline = fm.timeline :=
  Run.invariant_mem (I := fun f : ForkManager => f.timeline = fm.timeline)
    (fun f k _ hf => (timeline_check f k).trans hf) rfl

def Ordered : Prop :=
  fm.scheduledUpgrades.Pairwise fun a b => a.activationHeight < b.activationHeight

theorem Ordered.toNat {fm : ForkManager} (h : fm.Ordered) : fm.scheduledUpgrades.Pairwise
    fun a b => a.activationHeight.toNat < b.activationHeight.toNat :=
  h.imp fun hab => BitVec.lt_def.1 hab

theorem ordered_scheduleUpgrade {fm : ForkManager} (h : fm.Ordered) {entry : UpgradeEntry}
    (hnew : ∀ e ∈ fm.scheduledUpgrades, e.activationHeight ≠ entry.activationHeight) :
    (fm.scheduleUpgrade entry).Ordered := by
  let r : UpgradeEntry → UpgradeEntry → Prop := fun a b => a.activationHeight ≤ b.activationHeight
  have hsor := List.pairwise_insertionSort r (fm.scheduledUpgrades ++ [entry])
  have hdis : ((fm.scheduledUpgrades ++ [entry]).insertionSort r).Pairwise
      fun a b => a.activationHeight ≠ b.activationHeight := by
    refine ((List.perm_insertionSort r _).pairwise_iff fun hab => hab.symm).2 ?_
    refine List.pairwise_append.2 ⟨h.imp fun hab => ?_, List.pairwise_singleton _ _, ?_⟩
    · exact BitVec.ne_of_lt hab
    · intro a ha b hb
      rw [List.mem_singleton.1 hb]
      exact hnew a ha
  refine hsor.imp₂ (fun a b hle hne => ?_) hdis
  have hne' : a.activationHeight.toNat ≠ b.activationHeight.toNat :=
    fun h => hne (BitVec.eq_of_toNat_eq h)
  exact BitVec.lt_def.2 (lt_of_le_of_ne (BitVec.le_def.1 hle) hne')

theorem versionAtHeight_checks (hex : ∃ e ∈ fm.scheduledUpgrades, e.activationHeight ≤ h)
    (heights : List U64) : (fm.checks heights).versionAtHeight h = fm.versionAtHeight h := by
  obtain ⟨e, he, hle⟩ := hex
  rw [versionAtHeight_eq, versionAtHeight_eq, timeline_checks]
  exact latest_of_mem ⟨_, List.mem_map_of_mem he, hle⟩

theorem versionAtHeight_eq_current (hnone : ∀ e ∈ fm.scheduledUpgrades, ¬ e.activationHeight ≤ h) :
    fm.versionAtHeight h = fm.currentVersion := latest_of_none hnone

def Settled : Prop :=
  ∀ e ∈ fm.scheduledUpgrades, e.applied = false → fm.Ready e.version →
    e.version = fm.currentVersion

theorem settled_check {fm : ForkManager} (h : fm.Settled) (height : U64) :
    (fm.checkUpgradesAtHeight height).1.Settled ∧
      (fm.checkUpgradesAtHeight height).1.currentVersion = fm.currentVersion := by
  have hdue : ∀ e ∈ fm.scheduledUpgrades, fm.Due height e → e.version = fm.currentVersion := by
    intro e he ⟨hpen, hrea⟩
    simp only [UpgradeEntry.pendingAt, Bool.and_eq_true, Bool.not_eq_true'] at hpen
    exact h e he hpen.1 hrea
  have hcur : (fm.checkUpgradesAtHeight height).1.currentVersion = fm.currentVersion := by
    rw [checkUpgradesAtHeight_fst]
    exact latest_of_forall hdue
  refine ⟨fun e he happ hrea => ?_, hcur⟩
  have hrea' := fm.ready_of_ready_check hrea
  rw [checkUpgradesAtHeight_fst] at he
  obtain ⟨x, hx, rfl⟩ := List.mem_map.1 he
  rw [mark_applied, Bool.or_eq_false_iff] at happ
  rw [hcur]
  exact h x hx happ.1 hrea'

theorem currentVersion_checks {fm : ForkManager} (h : fm.Settled) (heights : List U64) :
    (fm.checks heights).currentVersion = fm.currentVersion := by
  have hrun : (fm.checks heights).Settled ∧
      (fm.checks heights).currentVersion = fm.currentVersion :=
    Run.invariant_mem
      (I := fun f : ForkManager => f.Settled ∧ f.currentVersion = fm.currentVersion)
      (fun f k _ hf => ⟨(settled_check hf.1 k).1, (settled_check hf.1 k).2.trans hf.2⟩) ⟨h, rfl⟩
  exact hrun.2

theorem currentVersion_check_activation {fm : ForkManager} (hord : fm.Ordered)
    (he : e ∈ fm.scheduledUpgrades) (happ : e.applied = false) (hrea : fm.Ready e.version) :
    (fm.checkUpgradesAtHeight e.activationHeight).1.currentVersion = e.version := by
  have hdue : fm.Due e.activationHeight e := ⟨by simp [UpgradeEntry.pendingAt, happ], hrea⟩
  have hlast : IsLatest (fun e : UpgradeEntry => e.activationHeight.toNat)
      (fm.Due e.activationHeight) fm.scheduledUpgrades e := by
    refine ⟨he, hdue, fun x _ hx => ?_⟩
    have hpen := hx.1
    simp only [UpgradeEntry.pendingAt, Bool.and_eq_true, decide_eq_true_eq] at hpen
    exact BitVec.le_def.1 hpen.2
  rw [checkUpgradesAtHeight_fst]
  exact latest_of_isLatest hord.toNat hlast

/-- What `version_at_height` says about a height that no entry has reached is kept by
later checks exactly if only the version in force can still be applied. -/
theorem versionAtHeight_kept_iff {fm : ForkManager} (hord : fm.Ordered)
    (hnone : ∀ e ∈ fm.scheduledUpgrades, ¬ e.activationHeight ≤ h) :
    (∀ heights : List U64, (∀ k ∈ heights, h < k) →
      (fm.checks heights).versionAtHeight h = fm.versionAtHeight h) ↔ fm.Settled := by
  have hcur : ∀ heights,
      (fm.checks heights).versionAtHeight h = (fm.checks heights).currentVersion := by
    intro heights
    rw [versionAtHeight_eq, timeline_checks]
    refine latest_of_none fun x hx => ?_
    obtain ⟨e, he, rfl⟩ := List.mem_map.1 hx
    exact hnone e he
  simp only [hcur, versionAtHeight_eq_current fm hnone]
  constructor
  · intro hkept e he happ hrea
    rw [← hkept [e.activationHeight] fun k hk => ?_]
    · exact (currentVersion_check_activation hord he happ hrea).symm
    · rw [List.mem_singleton.1 hk]
      exact BitVec.not_le.1 (hnone e he)
  · intro hset heights _
    exact currentVersion_checks hset heights

/-! ### Checks at every height -/

/-- Applying an upgrade uses up the readiness for its version. -/
def Spends : Prop :=
  fm.requireValidatorReadiness = true ∧ rollbackQuorum fm.totalValidators ≠ 0

/-- The entry is applied when the checks go up from height 0: its version is
ready, and where readiness is used up it is the first open entry of that
version. -/
def Applies (e : UpgradeEntry) : Prop :=
  e.applied = false ∧ fm.Ready e.version ∧
    (fm.Spends → ∀ x ∈ fm.scheduledUpgrades, x.applied = false → x.version = e.version →
      e.activationHeight ≤ x.activationHeight)

instance : DecidablePred fm.Applies := fun e => by
  unfold Applies Spends
  infer_instance

def AppliedBelow (k : ℕ) (e : UpgradeEntry) : Prop :=
  fm.Applies e ∧ e.activationHeight.toNat < k

instance (k : ℕ) : DecidablePred (fm.AppliedBelow k) := fun e => by
  unfold AppliedBelow
  infer_instance

/-- The manager after checks at all heights below `k`. -/
def after (k : ℕ) : ForkManager :=
  { fm with
    scheduledUpgrades := fm.scheduledUpgrades.map (UpgradeEntry.mark (fm.AppliedBelow k))
    currentVersion := latest UpgradeEntry.version (fm.AppliedBelow k) fm.currentVersion
      fm.scheduledUpgrades
    validatorReadiness := fun version =>
      if ∃ e ∈ fm.scheduledUpgrades, fm.AppliedBelow k e ∧ e.version = version then ∅
      else fm.validatorReadiness version }

theorem after_of_none (hnone : ∀ e ∈ fm.scheduledUpgrades, ¬ fm.AppliedBelow k e) :
    fm.after k = fm := by
  have hmark : fm.scheduledUpgrades.map (UpgradeEntry.mark (fm.AppliedBelow k)) =
      fm.scheduledUpgrades := by
    refine (List.map_congr_left fun e he => ?_).trans (List.map_id _)
    simp [UpgradeEntry.mark, hnone e he]
  have hcur : latest UpgradeEntry.version (fm.AppliedBelow k) fm.currentVersion
      fm.scheduledUpgrades = fm.currentVersion := latest_of_none hnone
  have hrea : ∀ version,
      ¬ ∃ e ∈ fm.scheduledUpgrades, fm.AppliedBelow k e ∧ e.version = version := by
    rintro version ⟨e, he, hbel, _⟩
    exact hnone e he hbel
  simp only [after, hmark, hcur, hrea, if_false]

theorem exists_applies (he : e ∈ fm.scheduledUpgrades)
    (happl : e.applied = false) (hrea : fm.Ready e.version) :
    ∃ x ∈ fm.scheduledUpgrades, fm.Applies x ∧ x.version = e.version ∧
      x.activationHeight.toNat ≤ e.activationHeight.toNat := by
  induction hn : e.activationHeight.toNat using Nat.strong_induction_on generalizing e with
  | _ n ih =>
    by_cases happ : fm.Applies e
    · exact ⟨e, he, happ, rfl, hn.le⟩
    · -- an earlier open entry of the version stands in the way
      have hear : ∃ x ∈ fm.scheduledUpgrades, x.applied = false ∧ x.version = e.version ∧
          x.activationHeight.toNat < e.activationHeight.toNat := by
        by_contra hnone
        refine happ ⟨happl, hrea, fun _ x hx hxa hxv => ?_⟩
        by_contra hlt
        exact hnone ⟨x, hx, hxa, hxv, BitVec.lt_def.1 (BitVec.not_le.1 hlt)⟩
      obtain ⟨x, hx, hxa, hxv, hlt⟩ := hear
      obtain ⟨y, hy, hya, hyv, hle⟩ := ih _ (hn ▸ hlt) hx hxa (hxv ▸ hrea) rfl
      exact ⟨y, hy, hya, hyv.trans hxv, (hle.trans_lt hlt).le.trans hn.le⟩

theorem ready_after_iff : (fm.after k).Ready version ↔ fm.Ready version ∧
      (fm.Spends → ∀ e ∈ fm.scheduledUpgrades, fm.AppliedBelow k e → e.version ≠ version) := by
  by_cases hcle : ∃ e ∈ fm.scheduledUpgrades, fm.AppliedBelow k e ∧ e.version = version
  · obtain ⟨x, hx, hbel, hv⟩ := hcle
    have hrea : fm.Ready version := hv ▸ hbel.1.2.1
    have hleft : (fm.after k).Ready version ↔ ¬ fm.Spends := by
      have hemp : (fm.after k).validatorReadiness version = ∅ := if_pos ⟨x, hx, hbel, hv⟩
      simp only [Ready, Spends, checkUpgradeReadiness, hemp, Finset.card_empty]
      simp [after, BitVec.le_def, BitVec.toNat_eq]
    rw [hleft]
    constructor
    · intro hspe
      exact ⟨hrea, fun h => absurd h hspe⟩
    · rintro ⟨_, hnone⟩ hspe
      exact hnone hspe x hx hbel hv
  · have hleft : (fm.after k).Ready version ↔ fm.Ready version := by
      have hsame : (fm.after k).validatorReadiness version = fm.validatorReadiness version :=
        if_neg hcle
      simp only [Ready, checkUpgradeReadiness, hsame]
      rfl
    rw [hleft]
    constructor
    · intro hrea
      exact ⟨hrea, fun _ e he hbel hv => hcle ⟨e, he, hbel, hv⟩⟩
    · intro h
      exact h.1

theorem due_after_iff (hk : k < 2 ^ 64) :
    (fm.after k).Due (BitVec.ofNat 64 k) (e.mark (fm.AppliedBelow k)) ↔
      fm.Applies e ∧ e.activationHeight.toNat = k := by
  have hhei : e.activationHeight ≤ BitVec.ofNat 64 k ↔ e.activationHeight.toNat ≤ k := by
    rw [BitVec.le_def, BitVec.toNat_ofNat, Nat.mod_eq_of_lt hk]
  simp only [Due, UpgradeEntry.pendingAt, mark_applied, mark_activationHeight, mark_version,
    Bool.and_eq_true, Bool.not_eq_true', Bool.or_eq_false_iff, decide_eq_false_iff_not,
    decide_eq_true_eq, hhei, ready_after_iff]
  constructor
  · rintro ⟨⟨⟨happl, hbel⟩, hle⟩, hrea, hspen⟩
    have happ : fm.Applies e := by
      refine ⟨happl, hrea, fun hspe x hx hxa hxv => ?_⟩
      -- an earlier open entry would have used up the readiness below `k`
      by_contra hlt
      obtain ⟨y, hy, hya, hyv, hyx⟩ := fm.exists_applies hx hxa (hxv ▸ hrea)
      have hyk : y.activationHeight.toNat < k :=
        (hyx.trans_lt (BitVec.lt_def.1 (BitVec.not_le.1 hlt))).trans_le hle
      exact hspen hspe y hy ⟨hya, hyk⟩ (hyv.trans hxv)
    exact ⟨happ, le_antisymm hle (not_lt.1 fun hlt => hbel ⟨happ, hlt⟩)⟩
  · rintro ⟨happ, hk⟩
    have hnot : ¬ fm.AppliedBelow k e := fun hbel => absurd hbel.2 (by omega)
    refine ⟨⟨⟨happ.1, hnot⟩, hk.le⟩, happ.2.1, fun hspe x hx hbel hxv => ?_⟩
    have hle := BitVec.le_def.1 (happ.2.2 hspe x hx hbel.1.1 hxv)
    have hlt := hbel.2
    omega

theorem appliedBelow_succ : fm.AppliedBelow (k + 1) e ↔
      fm.AppliedBelow k e ∨ (fm.Applies e ∧ e.activationHeight.toNat = k) := by
  rw [AppliedBelow, AppliedBelow, Nat.lt_succ_iff_lt_or_eq, and_or_left]

theorem scheduledUpgrades_after_succ (hk : k < 2 ^ 64) : (fm.after k).scheduledUpgrades.map
      (UpgradeEntry.mark ((fm.after k).Due (BitVec.ofNat 64 k))) =
      (fm.after (k + 1)).scheduledUpgrades := by
  refine List.map_map.trans (List.map_congr_left fun e _ => ?_)
  exact mark_mark _ e (fm.appliedBelow_succ.trans (or_congr_right (fm.due_after_iff hk).symm))

section

variable {fm} (hord : fm.Ordered) (hk : k < 2 ^ 64)
include hord hk

theorem currentVersion_after_succ :
    latest UpgradeEntry.version ((fm.after k).Due (BitVec.ofNat 64 k))
      (fm.after k).currentVersion (fm.after k).scheduledUpgrades =
      (fm.after (k + 1)).currentVersion := by
  have hlat : fm.scheduledUpgrades.Pairwise fun a b =>
      (fm.Applies a ∧ a.activationHeight.toNat = k) → ¬ fm.AppliedBelow k b := by
    refine hord.toNat.imp fun hab ha hb => ?_
    have hbk := hb.2
    omega
  calc latest UpgradeEntry.version ((fm.after k).Due (BitVec.ofNat 64 k))
        (fm.after k).currentVersion (fm.after k).scheduledUpgrades
      = latest UpgradeEntry.version (fun e => fm.Applies e ∧ e.activationHeight.toNat = k)
          (fm.after k).currentVersion fm.scheduledUpgrades :=
        (latest_map _).trans (latest_congr fun _ _ => fm.due_after_iff hk)
    _ = latest UpgradeEntry.version (fun e => fm.AppliedBelow k e ∨
          fm.Applies e ∧ e.activationHeight.toNat = k) fm.currentVersion
          fm.scheduledUpgrades := latest_latest hlat
    _ = (fm.after (k + 1)).currentVersion := latest_congr fun _ _ => fm.appliedBelow_succ.symm

theorem applied_after_iff :
    latest (fun e => some e.version) ((fm.after k).Due (BitVec.ofNat 64 k)) none
      (fm.after k).scheduledUpgrades = some version ↔
      ∃ e ∈ fm.scheduledUpgrades, (fm.Applies e ∧ e.activationHeight.toNat = k) ∧
        e.version = version := by
  have hlat : latest (fun e => some e.version) ((fm.after k).Due (BitVec.ofNat 64 k)) none
      (fm.after k).scheduledUpgrades =
      latest (fun e => some e.version) (fun e => fm.Applies e ∧ e.activationHeight.toNat = k)
        none fm.scheduledUpgrades :=
    (latest_map _).trans (latest_congr fun _ _ => fm.due_after_iff hk)
  rw [hlat, latest_eq_iff hord.toNat]
  constructor
  · rintro (⟨e, he, hv⟩ | ⟨_, hv⟩)
    · exact ⟨e, he.mem, he.meets, Option.some_inj.1 hv⟩
    · exact absurd hv (by simp)
  · rintro ⟨e, he, hat, hv⟩
    refine .inl ⟨e, ⟨he, hat, fun x _ hx => ?_⟩, congrArg some hv⟩
    rw [hx.2, hat.2]

theorem validatorReadiness_after_succ : (fun version =>
      if latest (fun e => some e.version) ((fm.after k).Due (BitVec.ofNat 64 k)) none
        (fm.after k).scheduledUpgrades = some version
      then ∅ else (fm.after k).validatorReadiness version) =
      (fm.after (k + 1)).validatorReadiness := by
  funext version
  have hor : (∃ e ∈ fm.scheduledUpgrades, fm.AppliedBelow (k + 1) e ∧ e.version = version) ↔
      (∃ e ∈ fm.scheduledUpgrades, (fm.Applies e ∧ e.activationHeight.toNat = k) ∧
        e.version = version) ∨
      ∃ e ∈ fm.scheduledUpgrades, fm.AppliedBelow k e ∧ e.version = version := by
    simp only [appliedBelow_succ, or_and_right, and_or_left, exists_or]
    exact or_comm
  rw [if_congr (applied_after_iff hord hk) rfl rfl]
  by_cases hnew : ∃ e ∈ fm.scheduledUpgrades, (fm.Applies e ∧ e.activationHeight.toNat = k) ∧
      e.version = version
  · rw [if_pos hnew]
    exact (if_pos (hor.2 (Or.inl hnew))).symm
  · rw [if_neg hnew]
    exact if_congr (hor.trans (or_iff_right hnew)).symm rfl rfl

theorem check_after :
    ((fm.after k).checkUpgradesAtHeight (BitVec.ofNat 64 k)).1 = fm.after (k + 1) := by
  rw [checkUpgradesAtHeight_fst, scheduledUpgrades_after_succ fm hk,
    currentVersion_after_succ hord hk, validatorReadiness_after_succ hord hk]
  rfl

end

def heightsTo (h : U64) : List U64 := (List.range (h.toNat + 1)).map (BitVec.ofNat 64)

theorem checks_range {fm : ForkManager} (hord : fm.Ordered) : ∀ {k : ℕ}, k ≤ 2 ^ 64 →
    fm.checks ((List.range k).map (BitVec.ofNat 64)) = fm.after k
  | 0, _ => (fm.after_of_none fun _ _ h => absurd h.2 (Nat.not_lt_zero _)).symm
  | k + 1, hk => by
    have hprev : fm.checks ((List.range k).map (BitVec.ofNat 64)) = fm.after k :=
      checks_range hord (by omega)
    rw [List.range_succ, List.map_append, checks, Run.run_append]
    change ((fm.checks _).checkUpgradesAtHeight _).1 = _
    rw [hprev, check_after hord (by omega)]

theorem checks_heightsTo {fm : ForkManager} (hord : fm.Ordered) (h : U64) :
    fm.checks (heightsTo h) = fm.after (h.toNat + 1) := checks_range hord h.isLt

/-! ### The version in force and the version scheduled -/

/-- What a chain that has checked every height up to `h` should say about `h`:
the same after any later checks, and now the version in force. -/
structure VersionKept (h : U64) : Prop where
  stable : ∀ heights : List U64, (∀ k ∈ heights, h < k) →
    ((fm.checks (heightsTo h)).checks heights).versionAtHeight h =
      (fm.checks (heightsTo h)).versionAtHeight h
  validates : ∀ heights : List U64, (∀ k ∈ heights, h < k) → ∀ version,
    ((fm.checks (heightsTo h)).checks heights).validateBlockVersion h version =
      (fm.checks (heightsTo h)).validateBlockVersion h version
  inForce : (fm.checks (heightsTo h)).currentVersion = (fm.checks (heightsTo h)).versionAtHeight h

def LastScheduled (h : U64) (e : UpgradeEntry) : Prop :=
  IsLatest (fun e : UpgradeEntry => e.activationHeight.toNat) (·.activationHeight ≤ h)
    fm.scheduledUpgrades e

def LastApplied (h : U64) (e : UpgradeEntry) : Prop :=
  IsLatest (fun e : UpgradeEntry => e.activationHeight.toNat)
    (fun e => fm.Applies e ∧ e.activationHeight ≤ h) fm.scheduledUpgrades e

theorem versionKept_iff_stable : fm.VersionKept h ↔ (∀ heights : List U64, (∀ k ∈ heights, h < k) →
        ((fm.checks (heightsTo h)).checks heights).versionAtHeight h =
          (fm.checks (heightsTo h)).versionAtHeight h) ∧
      (fm.checks (heightsTo h)).currentVersion = (fm.checks (heightsTo h)).versionAtHeight h := by
  constructor
  · intro hkept
    exact ⟨hkept.stable, hkept.inForce⟩
  · rintro ⟨hsta, hfor⟩
    refine ⟨hsta, fun heights hk version => ?_, hfor⟩
    simp only [validateBlockVersion, hsta heights hk]

theorem appliedBelow_toNat_succ :
    fm.AppliedBelow (h.toNat + 1) e ↔ fm.Applies e ∧ e.activationHeight ≤ h := by
  rw [AppliedBelow, BitVec.le_def, Nat.lt_succ_iff]

theorem versionKept_of_none {fm : ForkManager} (hord : fm.Ordered)
    (hnone : ∀ e ∈ fm.scheduledUpgrades, ¬ e.activationHeight ≤ h) :
    fm.VersionKept h ↔ fm.Settled := by
  have hche : fm.checks (heightsTo h) = fm := by
    rw [checks_heightsTo hord]
    refine fm.after_of_none fun e he hbel => hnone e he ?_
    exact (fm.appliedBelow_toNat_succ.1 hbel).2
  rw [versionKept_iff_stable, hche, versionAtHeight_kept_iff hord hnone]
  exact and_iff_left (fm.versionAtHeight_eq_current hnone).symm

theorem versionKept_of_lastScheduled {fm : ForkManager} (hord : fm.Ordered)
    (he : fm.LastScheduled h e) :
    fm.VersionKept h ↔ (∃ x, fm.LastApplied h x ∧ x.version = e.version) ∨
        (∀ x ∈ fm.scheduledUpgrades, ¬ (fm.Applies x ∧ x.activationHeight ≤ h)) ∧
          fm.currentVersion = e.version := by
  have hmem : ∃ x ∈ (fm.checks (heightsTo h)).scheduledUpgrades, x.activationHeight ≤ h := by
    rw [checks_heightsTo hord]
    exact ⟨_, List.mem_map_of_mem he.mem, he.meets⟩
  have hver : (fm.checks (heightsTo h)).versionAtHeight h = e.version := by
    rw [checks_heightsTo hord]
    exact (latest_map _).trans (latest_of_isLatest hord.toNat he)
  have hcur : (fm.checks (heightsTo h)).currentVersion =
      latest UpgradeEntry.version (fun x => fm.Applies x ∧ x.activationHeight ≤ h)
        fm.currentVersion fm.scheduledUpgrades := by
    rw [checks_heightsTo hord]
    exact latest_congr fun x _ => fm.appliedBelow_toNat_succ
  rw [versionKept_iff_stable, hver, hcur, latest_eq_iff hord.toNat]
  refine and_iff_right fun heights _ => ?_
  rw [versionAtHeight_checks _ hmem, hver]

/-- **Versions are kept.** For a schedule with distinct heights: `version_at_height` of a height
that the chain has reached is kept, and is the version in force, exactly if no entry lies there
and only the version in force can still be applied, or the last entry there has the version of the
last one that applies. -/
theorem version_kept_iff (hord : fm.Ordered) (h : U64) :
    fm.VersionKept h ↔ ((∀ e ∈ fm.scheduledUpgrades, ¬ e.activationHeight ≤ h) ∧ fm.Settled) ∨
      ∃ e, fm.LastScheduled h e ∧ ((∃ x, fm.LastApplied h x ∧ x.version = e.version) ∨
          (∀ x ∈ fm.scheduledUpgrades, ¬ (fm.Applies x ∧ x.activationHeight ≤ h)) ∧
            fm.currentVersion = e.version) := by
  by_cases hex : ∃ e ∈ fm.scheduledUpgrades, e.activationHeight ≤ h
  · obtain ⟨e, he⟩ := exists_isLatest hord.toNat hex
    constructor
    · intro hkept
      exact .inr ⟨e, he, (versionKept_of_lastScheduled hord he).1 hkept⟩
    · rintro (⟨hnone, _⟩ | ⟨x, hx, happ⟩)
      · exact absurd he.meets (hnone e he.mem)
      · exact (versionKept_of_lastScheduled hord hx).2 happ
  · have hnone : ∀ e ∈ fm.scheduledUpgrades, ¬ e.activationHeight ≤ h :=
      fun e he hle => hex ⟨e, he, hle⟩
    rw [versionKept_of_none hord hnone]
    constructor
    · intro hset
      exact .inl ⟨hnone, hset⟩
    · rintro (⟨_, hset⟩ | ⟨e, he, _⟩)
      · exact hset
      · exact absurd he.meets (hnone e he.mem)

end ForkManager

def upgradeAt1000 : ForkManager :=
  (ForkManager.new ⟨1, 0, 0⟩ 21).scheduleUpgrade { version := ⟨2, 0, 0⟩, activationHeight := 1000 }

def earlierUpgrade : UpgradeEntry := { version := ⟨1, 5, 0⟩, activationHeight := 500 }

/-- A second upgrade, scheduled later for an earlier height. -/
def twoUpgrades : ForkManager := upgradeAt1000.scheduleUpgrade earlierUpgrade

theorem version_kept_at_activation : twoUpgrades.Ordered ∧
    twoUpgrades.scheduledUpgrades.length = 2 ∧ twoUpgrades.VersionKept 999 := by
  have hone : upgradeAt1000.Ordered := List.pairwise_singleton _ _
  have hord : twoUpgrades.Ordered := ForkManager.ordered_scheduleUpgrade hone (by decide)
  refine ⟨hord, by decide, (twoUpgrades.version_kept_iff hord 999).2 (Or.inr ?_)⟩
  have hearlier : ∀ x ∈ twoUpgrades.scheduledUpgrades, x.activationHeight ≤ 999 →
      x.activationHeight = 500 := by decide
  have hmem : earlierUpgrade ∈ twoUpgrades.scheduledUpgrades := by decide
  refine ⟨earlierUpgrade, ⟨hmem, by decide, fun x hx hle => ?_⟩,
    Or.inl ⟨earlierUpgrade, ⟨hmem, by decide, fun x hx hle => ?_⟩, rfl⟩⟩
  · rw [hearlier x hx hle]
    exact le_rfl
  · rw [hearlier x hx hle.2]
    exact le_rfl

/-- One block before the activation the manager expects 1.0.0, as its blocks have it,
and rejects them once the upgrade is applied. -/
theorem past_version_changes : upgradeAt1000.Ordered ∧ ¬ upgradeAt1000.VersionKept 999 ∧
      (upgradeAt1000.validateBlockVersion 999 ⟨1, 0, 0⟩).isOk = true ∧
      ((upgradeAt1000.checks [999, 1000]).validateBlockVersion 999 ⟨1, 0, 0⟩).isOk = false ∧
      (upgradeAt1000.checks [999, 1000]).versionAtHeight 999 = ⟨2, 0, 0⟩ := by
  have hord : upgradeAt1000.Ordered := List.pairwise_singleton _ _
  refine ⟨hord, fun hkept => ?_, by decide⟩
  have hset := (ForkManager.versionKept_of_none hord (by decide)).1 hkept
  have hcur := hset _ (List.mem_singleton_self _) (by decide) (by decide)
  exact absurd hcur (by decide)

end Callchain.Consensus
