/-
# Verified headers as one parent-hash chain

The verified headers of the light client are to be one chain: every header has its own
number, its block hash is the hash of its bytes, and its parent hash is the block hash
of the header below. The direct insertion of `submit_header` checks all of this. The
flush of the buffer checks none of it, and `handle_reorg` looks for the parent hash
anywhere in the chain and inserts the header at its own number, wherever the parent was.
-/
import Callchain.LightClient.Client
import Callchain.LightClient.Inclusion

namespace Callchain.LightClient

open Run

variable {keccak : Bytes → B256} {s : EthLightClient}

/-- `h` is the block after `parent`, which has the number `n`. -/
structure Linked (keccak : Bytes → B256) (n : ℕ) (parent h : EthHeader) : Prop where
  number : h.number = .ok (n + 1)
  hash : keccak h.rlpBytes = h.blockHash
  parent : h.parentHash = .ok parent.blockHash

def EthLightClient.Stored (s : EthLightClient) (n : ℕ) : Prop := ∃ h, s.verifiedHeaders n = some h

variable {n fork : ℕ} {h p : EthHeader}

theorem not_stored (h : s.verifiedHeaders n = none) : ¬ s.Stored n := by
  rintro ⟨g, hg⟩
  rw [h] at hg
  exact absurd hg (by simp)

/-- What holds in every state, beside the links: the kept numbers are an
interval up to the latest block, and a buffered header is at its own number. -/
structure ChainInv (keccak : Bytes → B256) (s : EthLightClient) : Prop where
  upper : ∀ n, s.Stored n → n ≤ s.latestBlock
  interval : ∀ m k n, s.Stored m → s.Stored n → m ≤ k → k ≤ n → s.Stored k
  linked : ∀ n p h, s.verifiedHeaders n = some p → s.verifiedHeaders (n + 1) = some h →
    Linked keccak n p h
  keys : ∀ e ∈ s.buffer, e.2.number = .ok e.1

theorem ChainInv.lt_of_free (hI : ChainInv keccak s) {m : ℕ} (hfree : s.verifiedHeaders n = none)
    (hbel : s.Stored (n - 1)) (hm : s.Stored m) : m < n := by
  by_contra hle
  exact not_stored hfree (hI.interval (n - 1) n m hbel hm (by omega) (by omega))

theorem stored_insertHeader {m : ℕ} : (s.insertHeader n h).Stored m ↔ m = n ∨ s.Stored m := by
  by_cases hm : m = n
  · exact iff_of_true ⟨h, by rw [hm]; exact insertAt_self _ _ _⟩ (Or.inl hm)
  · have hkept : (s.insertHeader n h).verifiedHeaders m = s.verifiedHeaders m := insertAt_of_ne h hm
    rw [or_iff_right hm, EthLightClient.Stored, hkept, EthLightClient.Stored]

section

variable (hI : ChainInv keccak s) (hfree : s.verifiedHeaders n = none)
  (hp : s.verifiedHeaders (n - 1) = some p)
include hI hfree hp

theorem ChainInv.interval_insert (h : EthHeader) (a b c : ℕ) (ha : (s.insertHeader n h).Stored a)
    (hc : (s.insertHeader n h).Stored c) (hab : a ≤ b) (hbc : b ≤ c) : (s.insertHeader n h).Stored b := by
  have hlt : ∀ m, s.Stored m → m < n := fun m => hI.lt_of_free hfree ⟨p, hp⟩
  rw [stored_insertHeader] at ha hc ⊢
  by_cases hb : b = n
  · exact .inl hb
  -- the rest is between two old numbers, the upper one `n - 1` if it was `n`
  refine .inr ?_
  have hcn : c ≤ n := by
    rcases hc with rfl | hc
    · exact le_rfl
    · exact (hlt c hc).le
  have ha' : s.Stored a := by
    rcases ha with rfl | ha
    · omega
    · exact ha
  rcases hc with rfl | hc
  · exact hI.interval a b (c - 1) ha' ⟨p, hp⟩ hab (by omega)
  · exact hI.interval a b c ha' hc hab hbc

theorem ChainInv.linked_insert (hlink : Linked keccak (n - 1) p h) (m : ℕ) (q g : EthHeader)
    (hq : (s.insertHeader n h).verifiedHeaders m = some q)
    (hg : (s.insertHeader n h).verifiedHeaders (m + 1) = some g) : Linked keccak m q g := by
  have hmn : m ≠ n := by
    rintro rfl
    rcases stored_insertHeader.1 ⟨g, hg⟩ with h1 | h1
    · omega
    · have := hI.lt_of_free hfree ⟨p, hp⟩ h1
      omega
  have hq' : s.verifiedHeaders m = some q := (insertAt_of_ne h hmn).symm.trans hq
  by_cases hm1 : m + 1 = n
  · subst hm1
    obtain rfl : p = q := Option.some.inj (hp.symm.trans hq')
    obtain rfl : h = g := Option.some.inj ((insertAt_self _ _ _).symm.trans hg)
    exact hlink
  · exact hI.linked m q g hq' ((insertAt_of_ne h hm1).symm.trans hg)

theorem ChainInv.insert (hlink : Linked keccak (n - 1) p h) : ChainInv keccak (s.insertHeader n h) := by
  refine ⟨fun m hm => ?_, hI.interval_insert hfree hp h, hI.linked_insert hfree hp hlink, hI.keys⟩
  show m ≤ if n > s.latestBlock then n else s.latestBlock
  rcases stored_insertHeader.1 hm with rfl | hm
  · split_ifs <;> omega
  · have := hI.upper m hm
    split_ifs <;> omega

end

theorem unwind_verifiedHeaders (hI : ChainInv keccak s) (hf : fork + 1 < 2 ^ 64)
    (n : ℕ) : (s.unwind fork).verifiedHeaders n =
      if n ≤ fork then s.verifiedHeaders n else none := by
  show (if (fork + 1) % 2 ^ 64 ≤ n ∧ n ≤ s.latestBlock then none else s.verifiedHeaders n) = _
  by_cases hn : n ≤ fork
  · rw [if_neg (by omega), if_pos hn]
  · rw [if_neg hn]
    by_cases hl : n ≤ s.latestBlock
    · rw [if_pos ⟨by omega, hl⟩]
    · rw [if_neg (by omega)]
      by_contra hne
      obtain ⟨g, hg⟩ := Option.ne_none_iff_exists'.1 hne
      exact hl (hI.upper n ⟨g, hg⟩)

theorem ChainInv.unwind (hI : ChainInv keccak s) (hf : fork + 1 < 2 ^ 64) :
    ChainInv keccak (s.unwind fork) := by
  have hv := unwind_verifiedHeaders hI hf
  have hold : ∀ {n : ℕ} {h : EthHeader}, (s.unwind fork).verifiedHeaders n = some h →
      n ≤ fork ∧ s.verifiedHeaders n = some h := by
    intro n h hh
    rw [hv] at hh
    split_ifs at hh with hn
    exact ⟨hn, hh⟩
  refine ⟨fun n ⟨g, hg⟩ => (hold hg).1, fun a b c ⟨g, hg⟩ ⟨g', hg'⟩ hab hbc => ?_,
    fun n p h hp hh => hI.linked n p h (hold hp).2 (hold hh).2, hI.keys⟩
  obtain ⟨hc, hc'⟩ := hold hg'
  obtain ⟨k, hk⟩ := hI.interval a b c ⟨g, (hold hg).2⟩ ⟨g', hc'⟩ hab hbc
  exact ⟨k, by rw [hv, if_pos (by omega), hk]⟩

theorem retainFrom_some {k : ℕ} :
    (s.retainFrom n).verifiedHeaders k = some h ↔ n ≤ k ∧ s.verifiedHeaders k = some h := by
  show (if n ≤ k then s.verifiedHeaders k else none) = some h ↔ _
  split_ifs with hk <;> simp [hk]

theorem ChainInv.retainFrom (hI : ChainInv keccak s) (n : ℕ) :
    ChainInv keccak (s.retainFrom n) := by
  refine ⟨fun m ⟨g, hg⟩ => hI.upper m ⟨g, (retainFrom_some.1 hg).2⟩,
    fun a b c ⟨g, hg⟩ ⟨g', hg'⟩ hab hbc => ?_,
    fun m p h hp hh => hI.linked m p h (retainFrom_some.1 hp).2 (retainFrom_some.1 hh).2, hI.keys⟩
  obtain ⟨ha, hga⟩ := retainFrom_some.1 hg
  obtain ⟨k, hk⟩ := hI.interval a b c ⟨g, hga⟩ ⟨g', (retainFrom_some.1 hg').2⟩ hab hbc
  exact ⟨k, retainFrom_some.2 ⟨by omega, hk⟩⟩

theorem chainInv_init (genesis : GenesisState) : ChainInv keccak (.init genesis) := by
  have hold : ∀ {n : ℕ} {h : EthHeader},
      (EthLightClient.init genesis).verifiedHeaders n = some h → n = genesis.anchorBlock := by
    intro n h hh
    by_contra hn
    have hnone : insertAt (fun _ => none) genesis.anchorBlock ⟨[], genesis.anchorHash⟩ n = none :=
      insertAt_of_ne _ hn
    exact absurd (hnone.symm.trans hh) (by simp)
  refine ⟨fun n ⟨g, hg⟩ => (hold hg).le, fun a b c ⟨g, hg⟩ ⟨g', hg'⟩ hab hbc => ?_,
    fun n p h hp hh => ?_, fun e he => absurd he List.not_mem_nil⟩
  · have := hold hg
    have := hold hg'
    obtain rfl : b = a := by omega
    exact ⟨g, hg⟩
  · have := hold hp
    have := hold hh
    omega

/-! ### The flush -/

def BufferLinked (keccak : Bytes → B256) (s : EthLightClient) : Prop :=
  ∀ e ∈ s.buffer, keccak e.2.rlpBytes = e.2.blockHash ∧
    ∀ q, s.verifiedHeaders (e.1 - 1) = some q ∨ (e.1 - 1, q) ∈ s.buffer →
      e.2.parentHash = .ok q.blockHash

def EthLightClient.dropBuffered (s : EthLightClient) (n : ℕ) : EthLightClient :=
  { s with buffer := s.buffer.filter (·.1 ≠ n) }

theorem takeBuffered_of_number (hn : h.number = .ok n) :
    s.takeBuffered n h = if (s.verifiedHeaders n).isSome then s.dropBuffered n
      else (s.dropBuffered n).insertHeader n h := by
  unfold EthLightClient.takeBuffered EthLightClient.insertVerifiedHeader
  rw [orInvalidHeader_eq_ok.2 hn]
  simp only [bind, Except.bind]
  by_cases hv : (s.verifiedHeaders n).isSome = true
  · rw [if_pos hv, if_pos hv]
    rfl
  · rw [if_neg hv, if_neg hv]
    rfl

theorem ChainInv.dropBuffered (hI : ChainInv keccak s) (n : ℕ) :
    ChainInv keccak (s.dropBuffered n) :=
  ⟨hI.upper, hI.interval, hI.linked, fun e he => hI.keys e (List.mem_filter.1 he).1⟩

theorem BufferLinked.dropBuffered (hB : BufferLinked keccak s) (n : ℕ) :
    BufferLinked keccak (s.dropBuffered n) := by
  intro e he
  obtain ⟨hhash, hpar⟩ := hB e (List.mem_filter.1 he).1
  exact ⟨hhash, fun q hq => hpar q (hq.imp_right fun h => (List.mem_filter.1 h).1)⟩

section

variable (hI : ChainInv keccak s) (hB : BufferLinked keccak s)
  (hnext : s.nextBuffered = some (n, h))
include hI hB hnext

/-- A turn of the flush inserts the next block of the chain, or drops a header
whose number is taken. -/
theorem takeBuffered_cases : s.takeBuffered n h = s.dropBuffered n ∨
      ∃ p, s.verifiedHeaders n = none ∧ s.verifiedHeaders (n - 1) = some p ∧
        Linked keccak (n - 1) p h ∧ s.takeBuffered n h = (s.dropBuffered n).insertHeader n h := by
  obtain ⟨hmem, p, hp⟩ := nextBuffered_some hnext
  have hnum : h.number = .ok n := hI.keys (n, h) hmem
  obtain ⟨hhash, hpar⟩ := hB (n, h) hmem
  rw [takeBuffered_of_number hnum]
  by_cases hv : (s.verifiedHeaders n).isSome = true
  · exact .inl (if_pos hv)
  · have hfree : s.verifiedHeaders n = none := by simpa using hv
    have hn : n - 1 + 1 = n := by
      have : n - 1 ≠ n := fun he => by rw [he, hfree] at hp; exact absurd hp (by simp)
      omega
    exact .inr ⟨p, hfree, hp, ⟨by rw [hn]; exact hnum, hhash, hpar p (Or.inl hp)⟩, if_neg hv⟩

theorem BufferLinked.takeBuffered : BufferLinked keccak (s.takeBuffered n h) := by
  rcases takeBuffered_cases hI hB hnext with he | ⟨p, hfree, hp, hlink, he⟩
  · rw [he]
    exact hB.dropBuffered n
  · rw [he]
    intro e hmem
    obtain ⟨hhash, hpar⟩ := hB e (List.mem_filter.1 hmem).1
    refine ⟨hhash, fun q hq => hpar q ?_⟩
    rcases hq with hq | hq
    · -- the header below is an old one, or the one just taken from the buffer
      by_cases hen : e.1 - 1 = n
      · have hqh : insertAt s.verifiedHeaders n h n = some q := by rw [← hq, ← hen]; rfl
        rw [insertAt_self, Option.some.injEq] at hqh
        rw [hen, ← hqh]
        exact .inr (nextBuffered_some hnext).1
      · exact .inl ((insertAt_of_ne h hen).symm.trans hq)
    · exact .inr (List.mem_filter.1 hq).1

theorem ChainInv.takeBuffered : ChainInv keccak (s.takeBuffered n h) := by
  rcases takeBuffered_cases hI hB hnext with he | ⟨p, hfree, hp, hlink, he⟩
  · rw [he]
    exact hI.dropBuffered n
  · rw [he]
    exact (hI.dropBuffered n).insert hfree hp hlink

end

theorem ChainInv.flushBuffer (hI : ChainInv keccak s) (hB : BufferLinked keccak s) :
    ChainInv keccak s.flushBuffer := by
  have h : ChainInv keccak s.flushBuffer ∧ BufferLinked keccak s.flushBuffer :=
    flushBuffer_induction (P := fun s => ChainInv keccak s ∧ BufferLinked keccak s)
      (fun s n h hs hnext => ⟨hs.1.takeBuffered hs.2 hnext, hs.2.takeBuffered hs.1 hnext⟩) ⟨hI, hB⟩
  exact h.1

/-! ### Runs -/

/-- What `handle_reorg` would insert is the next block after the header it
finds. -/
def ReorgLinked (keccak : Bytes → B256) (s : EthLightClient) (h : EthHeader) : Prop :=
  ∀ n parentHash fork, h.number = .ok n → h.parentHash = .ok parentHash →
    s.forkPoint parentHash = some fork → s.isConsensusVerified fork = false →
    n = fork + 1 ∧ keccak h.rlpBytes = h.blockHash

/-- A submission that is inserted above its parent finds a buffer that links to it, and
one that leads to a reorganisation is the next block after the header whose hash is its
parent hash. -/
def Sound (keccak : Bytes → B256) (s : EthLightClient) : HeaderOp → Prop
  | .submitHeader h => ∀ n p, h.number = .ok n → s.verifiedHeaders (n - 1) = some p →
    (h.parentHash = .ok p.blockHash → BufferLinked keccak (s.insertHeader n h)) ∧
      (h.parentHash ≠ .ok p.blockHash → ReorgLinked keccak s h)
  | .handleReorg h => ReorgLinked keccak s h
  | _ => True

section

variable {parentHash : B256} (hr : ReorgLinked keccak s h) (hn : h.number = .ok n)
  (hp : h.parentHash = .ok parentHash) (hf : s.forkPoint parentHash = some fork)
  (hopen : s.isConsensusVerified fork = false)
include hr hn hp hf hopen

theorem ReorgLinked.unwound (hI : ChainInv keccak s) :
    n = fork + 1 ∧ fork + 1 < 2 ^ 64 ∧ (s.unwind fork).verifiedHeaders n = none ∧
      ∃ p, s.verifiedHeaders fork = some p ∧ (s.unwind fork).verifiedHeaders (n - 1) = some p ∧
        Linked keccak (n - 1) p h := by
  obtain ⟨rfl, hhash⟩ := hr n parentHash fork hn hp hf hopen
  have hlt := EthHeader.number_lt hn
  obtain ⟨p, hpf, hph⟩ := forkSearch_some hf
  have hv := unwind_verifiedHeaders hI hlt
  refine ⟨rfl, hlt, by rw [hv, if_neg (by omega)], p, hpf, ?_, ?_⟩
  · rw [Nat.add_sub_cancel, hv, if_pos le_rfl, hpf]
  · exact ⟨hn, hhash, by rw [hph]; exact hp⟩

/-- A submission that differs from its verified parent does not link: the header it
would follow is the one it differs from. -/
theorem ReorgLinked.not_differs (hs : s.verifiedHeaders (n - 1) = some p) :
    parentHash = p.blockHash := by
  obtain ⟨rfl, -⟩ := hr n parentHash fork hn hp hf hopen
  obtain ⟨q, hq, rfl⟩ := forkSearch_some hf
  rw [Nat.add_sub_cancel, hq, Option.some.injEq] at hs
  rw [hs]

end

theorem ChainInv.step (hI : ChainInv keccak s) {op : HeaderOp} (hs : Sound keccak s op) :
    ChainInv keccak (headerStep keccak s op) := by
  have heff := HeaderEffect.of_step keccak s op
  generalize headerStep keccak s op = s' at heff
  cases heff with
  | failed => exact hI
  | @buffered h n number =>
    refine ⟨hI.upper, hI.interval, hI.linked, fun e he => ?_⟩
    rcases mem_bufferInsert he with rfl | he
    · exact number
    · exact hI.keys e he
  | @inserted h p n number above free stored links hash =>
    have hn : n - 1 + 1 = n := by omega
    exact (hI.insert free stored ⟨by rw [hn]; exact number, hash, links⟩).flushBuffer
      ((hs n p number stored).1 links)
  | @reorgSubmitted h p n fork parentHash number stored parentOk differs found open_ =>
    have hr : ReorgLinked keccak s h := (hs n p number stored).2 fun he => by
      rw [parentOk, Except.ok.injEq] at he
      exact differs he
    exact absurd (hr.not_differs number parentOk found open_ stored) differs
  | @reorged h n fork parentHash number parentOk found open_ =>
    obtain ⟨-, hlt, hfree, p, -, hp, hlink⟩ := hs.unwound number parentOk found open_ hI
    exact (hI.unwind hlt).insert hfree hp hlink
  | finalized => exact ⟨hI.upper, hI.interval, hI.linked, hI.keys⟩
  | @advanced block hash n =>
    have hI' : ChainInv keccak (s.setAnchor block hash) :=
      ⟨hI.upper, hI.interval, hI.linked, hI.keys⟩
    exact hI'.retainFrom n
  | pruned _ n => exact hI.retainFrom n

/-- **One chain.** The verified headers are one chain along every run whose calls all meet the
condition. -/
theorem chain_linked (genesis : GenesisState) (ops : List HeaderOp)
    (h : Along (headerStep keccak) (Sound keccak) (.init genesis) ops) (n : ℕ) (p hd : EthHeader)
    (hp : (run (headerStep keccak) (.init genesis) ops).verifiedHeaders n = some p)
    (hh : (run (headerStep keccak) (.init genesis) ops).verifiedHeaders (n + 1) = some hd) :
    Linked keccak n p hd :=
  (invariant (I := ChainInv keccak) (fun _ _ hI hs => hI.step hs) h (chainInv_init genesis)).linked
    n p hd hp hh

/-- A short header: the parent hash, seven empty fields and the number. -/
def headerRlp (parent : B256) (number : UInt8) : Bytes :=
  0xE9 :: 0xA0 :: (parent.asSlice ++ List.replicate 7 0 ++ [number])

def anchorZero : GenesisState := ⟨5, 0, 0⟩

def firstHeader : EthHeader := .fromRlp plainHash (headerRlp 5 1)

def secondHeader : EthHeader := .fromRlp plainHash (headerRlp firstHeader.blockHash 2)

/-- The second header comes first, is buffered, and is flushed above the first. -/
def gapClosed : List HeaderOp := [.submitHeader secondHeader, .submitHeader firstHeader]

theorem gapClosed_sound :
    Along (headerStep plainHash) (Sound plainHash) (.init anchorZero) gapClosed := by
  refine ⟨fun n p hn hp => ?_, fun n p hn hp => ?_, trivial⟩
  · have hn2 : secondHeader.number = .ok 2 := by decide
    obtain rfl : n = 2 := by simpa [hn2] using hn.symm
    have hfree : (EthLightClient.init anchorZero).verifiedHeaders 1 = none := by decide
    simp [hfree] at hp
  · have hn1 : firstHeader.number = .ok 1 := by decide
    obtain rfl : n = 1 := by simpa [hn1] using hn.symm
    set s := headerStep plainHash (.init anchorZero) (.submitHeader secondHeader)
    have hanc : s.verifiedHeaders 0 = some ⟨[], 5⟩ := by decide
    obtain rfl : p = ⟨[], 5⟩ := by simpa [hanc] using hp.symm
    refine ⟨fun _ e he => ?_, fun hne => absurd (by decide) hne⟩
    have hbuf : (s.insertHeader 1 firstHeader).buffer = [(2, secondHeader)] := by decide
    rw [hbuf] at he
    obtain rfl := List.mem_singleton.1 he
    refine ⟨by decide, fun q hq => ?_⟩
    have hone : (s.insertHeader 1 firstHeader).verifiedHeaders 1 = some firstHeader := by decide
    rcases hq with hq | hq
    · obtain rfl : firstHeader = q := Option.some.inj (hone.symm.trans hq)
      decide
    · rw [hbuf] at hq
      simp at hq

theorem chain_linked_over_gap : Linked plainHash 1 firstHeader secondHeader :=
  chain_linked anchorZero gapClosed gapClosed_sound 1 firstHeader secondHeader (by decide)
    (by decide)

def rogueHeader : EthHeader := ⟨headerRlp 77 2, 9⟩

/-- Sent before block 1, it is buffered and flushed above block 1 without a check. -/
theorem flush_inserts_unlinked : (run (headerStep plainHash) (.init anchorZero)
        [.submitHeader rogueHeader, .submitHeader firstHeader]).verifiedHeaders 1 =
        some firstHeader ∧ (run (headerStep plainHash) (.init anchorZero)
        [.submitHeader rogueHeader, .submitHeader firstHeader]).verifiedHeaders 2 =
        some rogueHeader ∧
      anchorZero.anchorBlock < 2 ∧ plainHash rogueHeader.rlpBytes ≠ rogueHeader.blockHash ∧
      rogueHeader.parentHash ≠ .ok firstHeader.blockHash := by
  refine ⟨by decide, by decide, by decide, by decide, by decide⟩

/-! ### The buffer -/

section Buffer

open EthLightClient

variable {s' : EthLightClient}

theorem nextBuffered_eq_none : s.nextBuffered = none ↔
    ∀ e ∈ s.buffer, s.verifiedHeaders (e.1 - 1) = none := by
  simp [nextBuffered]

theorem submitHeader_flushes (hs : s.nextBuffered = none)
    (hok : s.submitHeader keccak h = .ok s') : s'.nextBuffered = none := by
  obtain ⟨n, -, hok⟩ := except_bind_eq_ok.1 hok
  obtain ⟨-, hok⟩ := ite_error_eq_ok.1 hok
  obtain ⟨-, hok⟩ := ite_error_eq_ok.1 hok
  obtain ⟨-, hok⟩ := ite_error_eq_ok.1 hok
  cases hpar : s.verifiedHeaders (n - 1) with rw [hpar] at hok
  | none =>
    dsimp only [bufferHeader] at hok
    split_ifs at hok
    cases hok
    refine nextBuffered_eq_none.2 fun e he => ?_
    rcases mem_bufferInsert he with rfl | he
    · exact hpar
    · exact nextBuffered_eq_none.1 hs e he
  | some =>
    obtain ⟨_, -, hok⟩ := except_bind_eq_ok.1 hok
    split_ifs at hok
    · obtain ⟨_, -, hok⟩ := except_bind_eq_ok.1 hok
      cases hok
      exact flushBuffer_done _
    · cases hok
      exact flushBuffer_done _

theorem nextBuffered_step {op : HeaderOp} (hop : ∀ h, .handleReorg h ≠ op)
    (hs : s.nextBuffered = none) : (headerStep keccak s op).nextBuffered = none := by
  have hret : ∀ {t : EthLightClient} (n : ℕ), t.nextBuffered = none →
      (t.retainFrom n).nextBuffered = none := fun n ht =>
    nextBuffered_eq_none.2 fun e he => by
      simp [retainFrom, nextBuffered_eq_none.1 ht e he]
  cases op with
  | submitHeader h =>
    rw [headerStep]
    cases hr : s.submitHeader keccak h with
    | error => exact hs
    | ok => exact submitHeader_flushes hs hr
  | handleReorg h => exact absurd rfl (hop h)
  | setFinalizedBlock => exact hs
  | advanceAnchor block hash =>
    have heff := HeaderEffect.of_step keccak s (.advanceAnchor block hash)
    generalize headerStep keccak s (.advanceAnchor block hash) = t at heff ⊢
    cases heff with
    | failed => exact hs
    | advanced n => exact hret n hs
  | pruneHeaders => exact hret _ hs

/-- **No header waits.** As long as `handle_reorg` is called by `submit_header` only, no header
waits in the buffer for a parent that is verified. -/
theorem no_header_waits (genesis : GenesisState) (ops : List HeaderOp)
    (hops : ∀ h, .handleReorg h ∉ ops) :
    let s := run (headerStep keccak) (.init genesis) ops
    ∀ e ∈ s.buffer, s.verifiedHeaders (e.1 - 1) = none :=
  nextBuffered_eq_none.1 <| invariant_mem (I := fun s : EthLightClient => s.nextBuffered = none)
    (fun _ _ hx hs => nextBuffered_step (fun h he => hops h (he ▸ hx)) hs) rfl

theorem rogueHeader_waits :
    let s := run (headerStep plainHash) (.init anchorZero) [.submitHeader rogueHeader]
    s.buffer = [(2, rogueHeader)] ∧ ∀ e ∈ s.buffer, s.verifiedHeaders (e.1 - 1) = none :=
  ⟨by decide, no_header_waits anchorZero [.submitHeader rogueHeader] (by simp)⟩

end Buffer

end Callchain.LightClient
