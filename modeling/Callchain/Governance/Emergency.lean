/-
# The signatures of an emergency

`emergencyPause` and `emergencyResume` collect signatures of validators in rounds: a
signature counts for the round in which it was given, and the call that reaches the
threshold turns the switch and opens the next round. An executed proposal turns the
switch too, and opens no round: signatures for a pause that were given before stay, and
count after the chain was resumed.
-/
import Callchain.Governance.Calls

namespace Callchain.Governance

open Asset Precompile GovernanceStorage

/-! ### What turns the switch -/

namespace State

variable (s : State)

def signatures (pause : Bool) : Signatures :=
  if pause then s.gov.pauseSigs else s.gov.resumeSigs

def threshold : U64 :=
  s.gov.ensureConfigInitialized.governanceConfig.emergencyPauseThreshold
    s.validators.validatorCount

end State

structure SameSwitch (s t : State) : Prop where
  paused : t.gov.paused = s.gov.paused
  signatures : ∀ pause, t.signatures pause = s.signatures pause

theorem SameSwitch.trans {s t u : State} (h : SameSwitch s t) (h' : SameSwitch t u) :
    SameSwitch s u :=
  ⟨h'.paused.trans h.paused, fun pause => (h'.signatures pause).trans (h.signatures pause)⟩

variable {s t : State}

theorem SameSwitch.of_gov (hpau : t.gov.paused = s.gov.paused)
    (hpaus : t.gov.pauseSigs = s.gov.pauseSigs) (hres : t.gov.resumeSigs = s.gov.resumeSigs) :
    SameSwitch s t := by
  refine ⟨hpau, ?_⟩
  intro pause
  unfold State.signatures
  rw [hpaus, hres]

structure Signed (s : State) (pause : Bool) (caller : Address) (t : State) : Prop where
  position : s.gov.paused = !pause
  validator : s.isValidator caller = true
  other : t.signatures (!pause) = s.signatures (!pause)
  signed : ∃ sigs already, (s.signatures pause).sign caller already = (sigs, .ok ()) ∧
    (sigs.sigCount < s.threshold ∧ t.gov.paused = s.gov.paused ∧ t.signatures pause = sigs ∨
      s.threshold ≤ sigs.sigCount ∧ t.gov.paused = pause ∧ t.signatures pause = sigs.nextRound)

def Method.signs : Method → Option Bool
  | .emergencyPause _ => some true
  | .emergencyResume => some false
  | .submitProposal _ _ | .vote _ _ | .queue _ | .execute _ | .cancelProposal _ => none

/-- The validator whose signature a call takes, and for what. -/
def Call.signer (s : State) (currentBlock : U64) : Call → Option (Bool × Address)
  | .method caller m =>
    if (s.exec caller currentBlock m).2.isOk ∧ s.isValidator caller
    then m.signs.map fun pause => (pause, caller) else none
  | .advance => none

def State.Pauses (s : State) (currentBlock proposalId : U64) : Prop :=
  let p := s.gov.proposal proposalId
  p.proposalType = .emergencyPause ∧ p.status = .queued ∧ p.executionBlock ≤ currentBlock ∧
    ¬ p.TimedOut s.gov.executionTimeout currentBlock

inductive Switched (s : State) (currentBlock : U64) (c : Call) (t : State) : Prop where
  | same (unsigned : c.signer s currentBlock = none) (h : SameSwitch s t)
  | proposal {proposalId : U64} (unsigned : c.signer s currentBlock = none)
      (call : c = .advance ∨ ∃ caller, c = .method caller (.execute proposalId))
      (pauses : s.Pauses currentBlock proposalId) (paused : t.gov.paused = true)
      (signatures : ∀ pause, t.signatures pause = s.signatures pause)
  | signature {pause : Bool} {caller : Address}
      (taken : c.signer s currentBlock = some (pause, caller)) (h : Signed s pause caller t)

section Switch

variable {s t : State} {caller : Address} {now pid : U64}

theorem ensureConfigInitialized_switch (g : GovernanceStorage) :
    g.ensureConfigInitialized.paused = g.paused ∧
      g.ensureConfigInitialized.pauseSigs = g.pauseSigs ∧
      g.ensureConfigInitialized.resumeSigs = g.resumeSigs := by
  obtain ⟨config, initialized, h⟩ := g.ensureConfigInitialized_eq
  rw [h]
  exact ⟨rfl, rfl, rfl⟩

variable {u : Unit} {m : Method}

theorem signPause_signed {reason : B256}
    (h : s.signPause reason caller = (t, .ok u)) : Signed s true caller t := by
  obtain ⟨hsame, -, hoth⟩ := ensureConfigInitialized_switch s.gov
  obtain ⟨hpau, hval, sigs, already, hsign, ⟨hfew, rfl⟩ | ⟨hmany, rfl⟩⟩ := signPause_eq_ok h
  · exact ⟨hpau, hval, hoth, sigs, already, hsign, .inl ⟨hfew, hsame, rfl⟩⟩
  · exact ⟨hpau, hval, hoth, sigs, already, hsign, .inr ⟨BitVec.not_lt.1 hmany, rfl, rfl⟩⟩

theorem signResume_signed (h : s.signResume caller = (t, .ok u)) : Signed s false caller t := by
  obtain ⟨hsame, hoth, -⟩ := ensureConfigInitialized_switch s.gov
  obtain ⟨hpau, hval, sigs, already, hsign, ⟨hfew, rfl⟩ | ⟨hmany, rfl⟩⟩ := signResume_eq_ok h
  · exact ⟨hpau, hval, hoth, sigs, already, hsign, .inl ⟨hfew, hsame, rfl⟩⟩
  · exact ⟨hpau, hval, hoth, sigs, already, hsign, .inr ⟨BitVec.not_lt.1 hmany, rfl, rfl⟩⟩

theorem sameSwitch_setProposal (s : State) (pid : U64) (p : Proposal) :
    SameSwitch s (s.setProposal pid p) :=
  .of_gov rfl rfl rfl

theorem sameSwitch_autoAdvance (s : State) (pid now : U64) :
    SameSwitch s (s.autoAdvance pid now) := by
  obtain ⟨p, config, initialized, h⟩ := s.autoAdvance_gov pid now
  rw [h]
  exact .of_gov rfl rfl rfl

theorem sameSwitch_refund {reason : String}
    (h : s.refund pid reason = (t, .ok u)) : SameSwitch s t := by
  rcases s.refund_cases pid reason with ⟨-, hr⟩ | ⟨-, ⟨assets, -, hr⟩ | ⟨-, hr⟩⟩
  · rw [hr] at h
    obtain ⟨rfl, -⟩ := Prod.mk.inj h
    exact .of_gov rfl rfl rfl
  · rw [hr] at h
    obtain ⟨rfl, -⟩ := Prod.mk.inj h
    exact .of_gov rfl rfl rfl
  · rw [hr] at h
    cases h

theorem sameSwitch_refundEvm (s : State) (pid : U64) : SameSwitch s (s.refundEvm pid) := by
  unfold State.refundEvm
  dsimp only
  split_ifs
  · exact .of_gov rfl rfl rfl
  · exact .of_gov rfl rfl rfl

theorem sameSwitch_submit {kind : ProposalType} {data : Bytes}
    (h : s.exec caller now (.submitProposal kind data) = (t, .ok u)) : SameSwitch s t := by
  obtain ⟨id, hsub⟩ := exec_submit h
  obtain ⟨assets, -, -, rfl⟩ := State.submitProposal_eq_ok hsub
  obtain ⟨hpau, hpaus, hres⟩ := ensureConfigInitialized_switch s.gov
  obtain ⟨config, initialized, lastSubmission, -, hrec⟩ :=
    State.recordProposal_gov { s with gov := s.gov.ensureConfigInitialized, assets := assets }
      kind data caller now
  rw [hrec]
  exact .of_gov hpau hpaus hres

theorem State.Effected.switch {kind : ProposalType} (h : State.Effected kind s t) :
    SameSwitch s t ∨ kind = .emergencyPause ∧ t.gov.paused = true ∧
      ∀ pause, t.signatures pause = s.signatures pause := by
  have hsig : ∀ pause, t.signatures pause = s.signatures pause := by
    intro pause
    unfold State.signatures
    rw [h.gov.pauseSigs, h.gov.resumeSigs]
  rcases h.gov.paused with hsame | ⟨htype, hpau⟩
  · exact .inl ⟨hsame, hsig⟩
  · exact .inr ⟨htype, hpau, hsig⟩

theorem signer_of_signs (h : m.signs = none) : (Call.method caller m).signer s now = none := by
  dsimp only [Call.signer]
  rw [h, Option.map_none, ite_self]

theorem signer_of_signed {pause : Bool} (h : s.exec caller now m = (t, .ok u))
    (hsign : m.signs = some pause) (hsig : Signed s pause caller t) :
    (Call.method caller m).signer s now = some (pause, caller) := by
  dsimp only [Call.signer]
  rw [h, hsign]
  exact if_pos ⟨rfl, hsig.validator⟩

theorem switched_execute (h : s.execute pid now = (t, .ok u)) :
    Switched s now (.method caller (.execute pid)) t := by
  obtain ⟨-, hque, hdue, hear, hcar⟩ := State.execute_eq_ok h
  obtain ⟨e, r, he, hr, rfl⟩ := State.carryOut_eq_ok hcar
  have heff := s.effected_applyEffect (s.gov.proposal pid).readExecutionData
    (s.gov.proposal pid).proposalType
  rw [he] at heff
  have hrest : SameSwitch e (r.setStatus pid .executed) :=
    (sameSwitch_refund hr).trans (sameSwitch_setProposal r pid _)
  have huns : (Call.method caller (.execute pid)).signer s now = none := signer_of_signs rfl
  rcases heff.switch with hsame | ⟨htype, hpau, hsig⟩
  · exact .same huns (hsame.trans hrest)
  · exact .proposal huns (.inr ⟨caller, rfl⟩) ⟨htype, hque, hdue, hear⟩
      (hrest.paused.trans hpau)
      fun pause => (hrest.signatures pause).trans (hsig pause)

theorem switched_exec (h : s.exec caller now m = (t, .ok u)) :
    Switched s now (.method caller m) t := by
  cases m with
  | submitProposal =>
    exact .same (signer_of_signs rfl) (sameSwitch_submit h)
  | vote pid =>
    obtain ⟨-, -, -, -, -, -, rfl⟩ := State.vote_eq_ok (exec_ok h)
    exact .same (signer_of_signs rfl)
      ((sameSwitch_autoAdvance s pid now).trans (.of_gov rfl rfl rfl))
  | queue pid =>
    obtain ⟨-, -, -, -, -, -, rfl⟩ := State.queue_eq_ok (exec_queue h)
    exact .same (signer_of_signs rfl)
      ((sameSwitch_autoAdvance s pid now).trans
        (sameSwitch_setProposal _ pid _))
  | execute => exact switched_execute (exec_ok h)
  | cancelProposal pid =>
    obtain ⟨-, -, -, r, hr, rfl⟩ := State.cancelProposal_eq_ok (exec_ok h)
    exact .same (signer_of_signs rfl)
      ((sameSwitch_refund hr).trans (sameSwitch_setProposal r pid _))
  | emergencyPause =>
    have hsig := signPause_signed (exec_ok h)
    exact .signature (signer_of_signed h rfl hsig) hsig
  | emergencyResume =>
    have hsig := signResume_signed (exec_ok h)
    exact .signature (signer_of_signed h rfl hsig) hsig

theorem Switched.advanced {u v : State} (hu : Switched s now .advance u)
    (hi : u.gov.proposal pid = s.gov.proposal pid)
    (h : State.Advanced s.advanceConfig now u pid v) : Switched s now .advance v := by
  have hsame : SameSwitch u v → Switched s now .advance v := by
    intro huv
    cases hu with
    | same unsigned hu => exact .same unsigned (hu.trans huv)
    | proposal unsigned call pauses paused signatures =>
      exact .proposal unsigned call pauses (huv.paused.trans paused)
        fun pause => (huv.signatures pause).trans (signatures pause)
    | signature taken => cases taken
  cases h with
  | stay => exact hu
  | @executes e queued due early effect =>
    have hrest : SameSwitch e ((e.refundEvm pid).setStatus pid .executed) :=
      (sameSwitch_refundEvm e pid).trans (sameSwitch_setProposal _ pid _)
    rcases (State.effected_applySideEffects effect).switch with hue | ⟨htype, hpau, hsig⟩
    · exact hsame (hue.trans hrest)
    · rw [hi] at htype queued due early
      have hsigs : ∀ pause, u.signatures pause = s.signatures pause := by
        cases hu with
        | same unsigned hu => exact hu.signatures
        | proposal unsigned call pauses paused signatures => exact signatures
        | signature taken => cases taken
      exact .proposal rfl (.inl rfl) ⟨htype, queued, due, early⟩ (hrest.paused.trans hpau)
        fun pause => ((hrest.signatures pause).trans (hsig pause)).trans (hsigs pause)
  | _ => exact hsame (sameSwitch_setProposal u pid _)

theorem switched_step (s : State) (now : U64) (c : Call) : Switched s now c (step s (now, c)) := by
  cases c with dsimp only [step]
  | method caller m =>
    rcases hexec : s.exec caller now m with ⟨t, e | ⟨⟩⟩
    · refine .same ?_ (.of_gov rfl rfl rfl)
      dsimp only [Call.signer]
      rw [hexec]
      exact if_neg fun h => absurd h.1 Bool.false_ne_true
    · exact switched_exec hexec
  | advance =>
    cases hadv : s.advance now with
    | none => exact .same rfl (.of_gov rfl rfl rfl)
    | some =>
      refine State.advance_induction (P := fun u => Switched s now .advance u) hadv
        (.same rfl (.of_gov rfl rfl rfl)) ?_
      intro u i v hu hi hv
      exact hu.advanced hi hv

end Switch

/-! ### The signers of a round -/

/-- The validators that signed since the switch was last turned, for either position. -/
abbrev Signers := Bool → List Address

/-- The signers after an event; turning the switch empties both lists. -/
def Signers.next (s : State) (e : U64 × Event) (r : Signers) : Signers :=
  if (Event.step s e).gov.paused ≠ s.gov.paused then fun _ => []
  else match e.2 with
    | .call c =>
      match c.signer s e.1 with
      | some (pause, caller) => Function.update r pause (caller :: r pause)
      | none => r
    | .elsewhere _ _ _ => r

section Next

variable {s : State} {now : U64} {c : Call} {r : Signers}

theorem Signers.next_turned (h : (step s (now, c)).gov.paused ≠ s.gov.paused) :
    Signers.next s (now, .call c) r = fun _ => [] :=
  if_pos h

theorem Signers.next_unsigned (h : c.signer s now = none)
    (hpau : (step s (now, c)).gov.paused = s.gov.paused) : Signers.next s (now, .call c) r = r := by
  refine (if_neg (not_not.2 hpau)).trans ?_
  dsimp only
  rw [h]

theorem Signers.next_signed {pause : Bool} {caller : Address}
    (h : c.signer s now = some (pause, caller)) : Signers.next s (now, .call c) r =
      if (step s (now, c)).gov.paused ≠ s.gov.paused then fun _ => []
      else Function.update r pause (caller :: r pause) := by
  unfold Signers.next
  dsimp only
  rw [h]
  rfl

theorem Signers.next_elsewhere {assets : AssetStorage} {validators : Validator.ValidatorStorage}
    {compliance : ComplianceStorage} :
    Signers.next s (now, .elsewhere assets validators compliance) r = r :=
  if_neg (not_not.2 rfl)

end Next

/-- A proposal pauses the chain only while no signatures for a pause are collected. -/
def Event.NoRound (s : State) (e : U64 × Event) : Prop :=
  s.gov.paused = false → ∀ proposalId,
    (e.2 = .call .advance ∨ ∃ caller, e.2 = .call (.method caller (.execute proposalId))) →
      s.Pauses e.1 proposalId → s.gov.pauseSigs.sigCount = 0

structure Round (sigs : Signatures) (signers : List Address) : Prop where
  nodup : signers.Nodup
  count : sigs.sigCount.toNat ≤ signers.length
  signed : ∀ a ∈ signers, sigs.epoch ≠ 0 ∧ sigs.epoch ≤ sigs.sigEpoch a

theorem Round.empty {sigs : Signatures} (h : sigs.sigCount = 0) : Round sigs [] :=
  ⟨List.nodup_nil, by rw [h]; exact le_refl 0, fun _ ha => absurd ha List.not_mem_nil⟩

theorem Round.sign {sigs sigs' : Signatures} {signers : List Address} {caller : Address}
    {already : String} (h : Round sigs signers)
    (hsign : sigs.sign caller already = (sigs', .ok ())) : Round sigs' (caller :: signers) := by
  unfold Signatures.sign at hsign
  rw [ite_failed_eq_ok] at hsign
  obtain ⟨huns, hsigs⟩ := hsign
  obtain ⟨rfl, -⟩ := Prod.mk.inj hsigs
  -- the round that the first signature of all opens is round 1
  have hepo : (if sigs.epoch = 0 then 1 else sigs.epoch) ≠ 0 := by
    split_ifs with h₀
    · decide
    · exact h₀
  have hsig : ∀ a ∈ signers, (if sigs.epoch = 0 then 1 else sigs.epoch) ≤ sigs.sigEpoch a := by
    intro a ha
    rw [if_neg (h.signed a ha).1]
    exact (h.signed a ha).2
  have hfre : caller ∉ signers := fun ha => huns (hsig caller ha)
  refine ⟨List.nodup_cons.2 ⟨hfre, h.nodup⟩, ?_, ?_⟩
  · exact le_trans (Nat.mod_le _ _) (Nat.add_le_add_right h.count 1)
  · intro a ha
    refine ⟨hepo, ?_⟩
    show _ ≤ Function.update sigs.sigEpoch caller _ a
    rcases List.mem_cons.1 ha with rfl | ha
    · rw [Function.update_self]
      exact BitVec.le_refl _
    · have hne : a ≠ caller := fun hac => hfre (hac ▸ ha)
      rw [Function.update_of_ne hne]
      exact hsig a ha

structure Rounds (s : State) (r : Signers) : Prop where
  round : ∀ pause, Round (s.signatures pause) (r pause)
  closed : (s.signatures s.gov.paused).sigCount = 0

variable {r : Signers}

theorem Rounds.same (h : Rounds s r) (hst : SameSwitch s t) : Rounds t r := by
  refine ⟨?_, ?_⟩
  · intro pause
    rw [hst.signatures]
    exact h.round pause
  · rw [hst.signatures, hst.paused]
    exact h.closed

theorem Rounds.turned {s : State} (h : ∀ pause, (s.signatures pause).sigCount = 0) :
    Rounds s fun _ => [] :=
  ⟨fun pause => .empty (h pause), h _⟩

theorem Rounds.signed {pause : Bool} {caller : Address}
    (h : Rounds s r) (hst : Signed s pause caller t) :
    Rounds t (if t.gov.paused ≠ s.gov.paused then fun _ => []
      else Function.update r pause (caller :: r pause)) := by
  have hclo : (s.signatures (!pause)).sigCount = 0 := hst.position ▸ h.closed
  obtain ⟨sigs, already, hsign, ⟨-, hpau, hsigs⟩ | ⟨-, hpau, hsigs⟩⟩ := hst.signed
  · rw [if_neg (not_not.2 hpau)]
    refine ⟨?_, ?_⟩
    · intro k
      by_cases hk : k = pause
      · subst hk
        rw [Function.update_self, hsigs]
        exact (h.round k).sign hsign
      · obtain rfl : k = !pause := Bool.eq_not_of_ne hk
        rw [Function.update_of_ne hk, hst.other]
        exact h.round (!pause)
    · rw [hpau, hst.position, hst.other]
      exact hclo
  · have htur : t.gov.paused ≠ s.gov.paused := by
      rw [hpau, hst.position]
      exact Bool.self_ne_not pause
    rw [if_pos htur]
    refine .turned ?_
    intro k
    by_cases hk : k = pause
    · rw [hk, hsigs]
      rfl
    · obtain rfl : k = !pause := Bool.eq_not_of_ne hk
      rw [hst.other]
      exact hclo

theorem Rounds.step {s : State} (h : Rounds s r) {e : U64 × Event}
    (he : Event.NoRound s e) : Rounds (Event.step s e) (Signers.next s e r) := by
  obtain ⟨currentBlock, c | ⟨assets, validators, compliance⟩⟩ := e
  · have hsame : SameSwitch s (Governance.step s (currentBlock, c)) →
        c.signer s currentBlock = none → Rounds (Governance.step s (currentBlock, c))
          (Signers.next s (currentBlock, .call c) r) := by
      intro hst huns
      rw [Signers.next_unsigned huns hst.paused]
      exact h.same hst
    cases switched_step s currentBlock c with
    | same unsigned hst => exact hsame hst unsigned
    | @proposal proposalId unsigned call pauses paused signatures =>
      cases hbef : s.gov.paused with
      | true => exact hsame ⟨paused.trans hbef.symm, signatures⟩ unsigned
      | false =>
        have htur : (Governance.step s (currentBlock, c)).gov.paused ≠ s.gov.paused := by
          rw [paused, hbef]
          decide
        have hcall : Event.call c = .call .advance ∨
            ∃ caller, Event.call c = .call (.method caller (.execute proposalId)) := by
          rcases call with rfl | ⟨caller, rfl⟩
          · exact .inl rfl
          · exact .inr ⟨caller, rfl⟩
        rw [Signers.next_turned htur]
        refine .turned ?_
        intro pause
        rw [show Event.step s (currentBlock, .call c) = Governance.step s (currentBlock, c) from rfl,
          signatures]
        cases pause with
        | true => exact he hbef proposalId hcall pauses
        | false => exact hbef ▸ h.closed
    | signature taken hsig =>
      rw [Signers.next_signed taken]
      exact h.signed hsig
  · rw [Signers.next_elsewhere]
    exact h.same (.of_gov rfl rfl rfl)

/-- **Validators turn the switch.** In every run in which no proposal pauses the chain while
signatures wait, the signers since the switch was last turned are distinct, each was a validator
when it signed, and with the caller they are as many as the threshold asks for. -/
theorem switch_by_validators (s : State)
    (hs : s.gov.pauseSigs = {} ∧ s.gov.resumeSigs = {}) (events : List (U64 × Event))
    (h : Run.Along Event.step Event.NoRound s events) (currentBlock : U64) (caller : Address)
    (m : Method) (pause : Bool) (hsigns : m.signs = some pause) :
    let u := Run.run Event.step s events
    let signers := (Run.run (Run.watched Event.step Signers.next) (s, fun _ => []) events).2 pause
    (step u (currentBlock, .method caller m)).gov.paused ≠ u.gov.paused →
      u.isValidator caller = true ∧ (caller :: signers).Nodup ∧
        u.threshold.toNat ≤ (caller :: signers).length := by
  intro u signers htur
  have hsta : Rounds s fun _ => [] := by
    refine .turned ?_
    intro k
    unfold State.signatures
    rw [hs.1, hs.2, ite_self]
  have hrou := Run.watched_invariant (I := Rounds) (fun _ _ _ hi hc => hi.step hc) h hsta
  cases switched_step u currentBlock (.method caller m) with
  | same unsigned hsame => exact absurd hsame.paused htur
  | proposal unsigned call =>
    rcases call with hadv | ⟨caller', hexecute⟩
    · cases hadv
    · cases hexecute
      cases hsigns
  | @signature pause' caller' taken hsig =>
    have htak : pause' = pause ∧ caller' = caller := by
      dsimp only [Call.signer] at taken
      split_ifs at taken
      rw [hsigns] at taken
      obtain ⟨rfl, rfl⟩ := Prod.mk.inj (Option.some.inj taken)
      exact ⟨rfl, rfl⟩
    obtain ⟨rfl, rfl⟩ := htak
    obtain ⟨sigs, already, hsign, ⟨-, hpau, -⟩ | ⟨heno, -, -⟩⟩ := hsig.signed
    · exact absurd hpau htur
    · have hroun := (hrou.round pause').sign hsign
      exact ⟨hsig.validator, hroun.nodup, le_trans heno hroun.count⟩

/-! ### Signatures that outlast a pause -/

def waitingSignatures : List (U64 × Event) :=
  [(1, .call (.method 7 (.emergencyPause 0))), (1, .call (.method 8 (.emergencyPause 0)))]

def pauseExecuted : List (U64 × Event) :=
  [(1, .call (.method 5 (.submitProposal .emergencyPause []))),
    (1, .call (.method 7 (.vote 1 1))), (1, .call (.method 8 (.vote 1 1))),
    (1, .call (.method 9 (.vote 1 1))), (2, .call (.method 5 (.queue 1))),
    (2, .call (.method 5 (.execute 1)))]

def resumption : List (U64 × Event) :=
  [(3, .call (.method 7 .emergencyResume)), (3, .call (.method 8 .emergencyResume)),
    (3, .call (.method 9 .emergencyResume))]

/-- The signatures that the other two gave before the chain was paused and resumed are
counted again. -/
theorem stale_signatures_counted :
    let events := waitingSignatures ++ pauseExecuted ++ resumption
    let u := Run.run Event.step threeValidators events
    let signers :=
      (Run.run (Run.watched Event.step Signers.next) (threeValidators, fun _ => []) events).2 true
    u.gov.paused = false ∧ u.threshold = 3 ∧ signers = [] ∧
      (step u (4, .method 9 (.emergencyPause 0))).gov.paused = true := by
  decide

theorem switch_by_validators_at_three :
    let u := Run.run Event.step threeValidators waitingSignatures
    let signers := (Run.run (Run.watched Event.step Signers.next)
      (threeValidators, fun _ => []) waitingSignatures).2 true
    (step u (1, .method 9 (.emergencyPause 0))).gov.paused ≠ u.gov.paused ∧
      u.threshold.toNat ≤ (9 :: signers).length := by
  have htur : (step (Run.run Event.step threeValidators waitingSignatures)
      (1, .method 9 (.emergencyPause 0))).gov.paused ≠
        (Run.run Event.step threeValidators waitingSignatures).gov.paused := by decide
  have hcal : Run.Along Event.step Event.NoRound threeValidators waitingSignatures := by
    refine ⟨?_, ?_, trivial⟩
    all_goals
      rintro - proposalId (h | ⟨caller, h⟩)
      · cases h
      · cases h
  have hval := switch_by_validators threeValidators ⟨rfl, rfl⟩ waitingSignatures hcal 1 9
    (.emergencyPause 0) true rfl htur
  exact ⟨htur, hval.2.2⟩

end Callchain.Governance
