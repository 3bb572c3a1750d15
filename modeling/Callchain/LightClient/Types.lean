/-
# Headers and errors of the Ethereum light client

A header is kept as its RLP bytes and a block hash; its fields are read from the bytes
on demand by `decode_rlp_field`, which does not check that the header as a whole is well
formed.
-/
import Callchain.LightClient.Verifier

namespace Callchain.LightClient

/-- Why a field of a header is not read: the function returns `None`, or it
panics. -/
inductive Fault
  | none
  | panic
  deriving DecidableEq

structure GenesisState where
  anchorHash : B256
  anchorBlock : ℕ
  stateRoot : B256

/-- The fields are public, and nothing ties the hash to the bytes. -/
structure EthHeader where
  rlpBytes : Bytes
  blockHash : B256
  deriving DecidableEq

def EthHeader.fromRlp (keccak : Bytes → B256) (rlpBytes : Bytes) : EthHeader :=
  ⟨rlpBytes, keccak rlpBytes⟩

/-- The first item and the bytes it takes. Sums of `usize` wrap; a slice whose start is
behind its end panics. -/
def decodeRlpItem (data : Bytes) : Except Fault (Bytes × ℕ) :=
  match data with
  | [] => .error .none
  | b :: tail =>
    let first := b.toNat
    if first < 0x80 then .ok ([b], 1)
    else if first < 0xB8 then
      let len := first - 0x80
      if 1 + len > data.length then .error .none else .ok (tail.take len, 1 + len)
    else if first < 0xC0 then
      let lenOfLen := first - 0xB7
      if 1 + lenOfLen > data.length then .error .none
      else
        let total := (1 + lenOfLen + beValue (tail.take lenOfLen)) % 2 ^ 64
        if total > data.length then .error .none
        else if total < 1 + lenOfLen then .error .panic
        else .ok ((data.take total).drop (1 + lenOfLen), total)
    else if first < 0xF8 then
      let listLen := first - 0xC0
      if 1 + listLen > data.length then .error .none
      else .ok (data.take (1 + listLen), 1 + listLen)
    else
      let lenOfLen := first - 0xF7
      if 1 + lenOfLen > data.length then .error .none
      else
        let total := (1 + lenOfLen + beValue (tail.take lenOfLen)) % 2 ^ 64
        if total > data.length then .error .none else .ok (data.take total, total)

/-- The loop of `decode_rlp_field`. -/
def decodeRlpFieldFrom : ℕ → Bytes → Except Fault Bytes
  | 0, cursor => do
    let (item, _) ← decodeRlpItem cursor
    .ok item
  | idx + 1, cursor => do
    let (_, consumed) ← decodeRlpItem cursor
    decodeRlpFieldFrom idx (cursor.drop consumed)

/-- A first byte below `0xF8` counts as the header of a short list, whatever it is. -/
def decodeRlpField (data : Bytes) (idx : ℕ) : Except Fault Bytes :=
  match data with
  | [] => .error .none
  | b :: _ =>
    let payloadStart := if b.toNat < 0xF8 then 1 else 1 + (b.toNat - 0xF7)
    if payloadStart ≥ data.length then .error .none
    else decodeRlpFieldFrom idx (data.drop payloadStart)

namespace EthHeader

def hashField (h : EthHeader) (idx : ℕ) : Except Fault B256 := do
  let item ← decodeRlpField h.rlpBytes idx
  if item.length = 32 then .ok (B256.fromSlice item) else .error .none

def parentHash (h : EthHeader) : Except Fault B256 := h.hashField 0

def transactionsRoot (h : EthHeader) : Except Fault B256 := h.hashField 4

def receiptsRoot (h : EthHeader) : Except Fault B256 := h.hashField 5

/-- Copying more than eight bytes into the buffer panics. -/
def number (h : EthHeader) : Except Fault ℕ := do
  let item ← decodeRlpField h.rlpBytes 8
  if item.length ≤ 8 then .ok (beValue item) else .error .panic

theorem number_lt {h : EthHeader} {n : ℕ} (hn : h.number = .ok n) : n < 2 ^ 64 := by
  unfold number at hn
  cases hf : decodeRlpField h.rlpBytes 8 with
  | error => rw [hf] at hn; simp [bind, Except.bind] at hn
  | ok item =>
    rw [hf] at hn
    simp only [bind, Except.bind] at hn
    split_ifs at hn with hlen
    obtain rfl : beValue item = n := by simpa using hn
    calc beValue item < 256 ^ item.length := beValue_lt item
      _ ≤ 256 ^ 8 := Nat.pow_le_pow_right (by norm_num) hlen
      _ = 2 ^ 64 := by norm_num

end EthHeader

structure MptProofNode where
  rlpBytes : Bytes
  deriving DecidableEq

structure TxInclusionProof where
  nodes : List MptProofNode
  deriving DecidableEq

def TxInclusionProof.nodeRlps (p : TxInclusionProof) : List Bytes := p.nodes.map (·.rlpBytes)

structure ReceiptProof where
  receiptIndex : U64
  nodes : List MptProofNode
  deriving DecidableEq

/-- The variants that the modelled functions return. The text of an `MptProofError` is a
fixed one or that of an `MptError`. `panicked` is not of the source: it stands for a
call that panics. -/
inductive LightClientError
  | invalidHeader (reason : String)
  | headerNotFound (block : ℕ)
  | headerNotVerified (block latest : ℕ)
  | txNotFound
  | receiptNotFound
  | bridgeEventNotFound
  | logParseError (reason : String)
  | mptProofError (reason : String ⊕ MptError)
  | notInitialized
  | beforeAnchor (block : ℕ)
  | duplicateHeader (block : ℕ)
  | beforeFinalized (block : ℕ)
  | bufferFull
  | anchorNotVerified (block : ℕ)
  | syncCommitteeSignatureInvalid (reason : String)
  | alreadyInitialized
  | insufficientSyncParticipation (got required : ℕ)
  | panicked
  deriving DecidableEq

/-- `ok_or_else(|| InvalidHeader(reason))` -/
def orInvalidHeader {α : Type} (reason : String) : Except Fault α → Except LightClientError α
  | .ok a => .ok a
  | .error .none => .error (.invalidHeader reason)
  | .error .panic => .error .panicked

theorem orInvalidHeader_eq_ok {α : Type} {reason : String} {x : Except Fault α} {a : α} :
    orInvalidHeader reason x = .ok a ↔ x = .ok a := by
  cases x with
  | ok => simp [orInvalidHeader]
  | error f => cases f <;> simp [orInvalidHeader]

end Callchain.LightClient
