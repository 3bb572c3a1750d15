/-
# Receipts and the bridge event

A receipt is parsed down to its logs, and the first log that reads as a bridge deposit
is the event. The parser has its own reading of RLP: it returns every error as a text,
and a list item with its header.
-/
import Callchain.LightClient.Types

namespace Callchain.LightClient

structure ReceiptLog where
  address : Bytes
  topics : List B256
  data : Bytes
  deriving DecidableEq

structure BridgeEvent where
  sourceChain : U64
  sourceTxHash : B256
  sourceBlock : U64
  sender : Bytes
  recipient : Address
  assetId : U64
  amount : U128
  deriving DecidableEq

/-- The text of an error. `noReturn` is not of the source: it stands for a call
that panics or never ends. -/
inductive ParseError
  | text (reason : String)
  | noReturn
  deriving DecidableEq

def rlpEncodeU64 (value : U64) : Bytes :=
  if value = 0 then [0x80]
  else
    let data := (beBytes 8 value.toNat).dropWhile (· = 0)
    match data with
    | [b] => if b < 0x80 then [b] else [0x81, b]
    | data => UInt8.ofNat (0x80 + data.length) :: data

namespace Receipt

def hexByte (n : ℕ) : String := String.ofList [Nat.digitChar (n / 16), Nat.digitChar (n % 16)]

/-- Sums of `usize` wrap, and a slice whose start is behind its end panics. -/
def decodeOneRlpItem (data : Bytes) : Except ParseError (Bytes × ℕ) :=
  match data with
  | [] => .error (.text "empty data")
  | b :: tail =>
    let first := b.toNat
    if first < 0x80 then .ok ([b], 1)
    else if first < 0xB8 then
      let len := first - 0x80
      if 1 + len > data.length then .error (.text "short RLP string")
      else .ok (tail.take len, 1 + len)
    else if first < 0xC0 then
      let lenOfLen := first - 0xB7
      if 1 + lenOfLen > data.length then .error (.text "short RLP long string")
      else
        let total := (1 + lenOfLen + beValue (tail.take lenOfLen)) % 2 ^ 64
        if total > data.length then .error (.text "truncated RLP long string")
        else if total < 1 + lenOfLen then .error .noReturn
        else .ok ((data.take total).drop (1 + lenOfLen), total)
    else if first < 0xF8 then
      let listLen := first - 0xC0
      if 1 + listLen > data.length then .error (.text "short RLP list")
      else .ok (data.take (1 + listLen), 1 + listLen)
    else
      let lenOfLen := first - 0xF7
      if 1 + lenOfLen > data.length then .error (.text "invalid long RLP list")
      else
        let total := (1 + lenOfLen + beValue (tail.take lenOfLen)) % 2 ^ 64
        if total > data.length then .error (.text "long RLP list length mismatch")
        else .ok (data.take total, total)

/-- The `while` loop of `parse_rlp_list_items`. At an item of no bytes the
source would stay forever; every other one takes at least one. -/
def parseItems : ℕ → Bytes → Except ParseError (List Bytes)
  | _, [] => .ok []
  | 0, _ :: _ => .error .noReturn
  | fuel + 1, b :: data => do
    let (item, consumed) ← decodeOneRlpItem (b :: data)
    let items ← parseItems fuel ((b :: data).drop consumed)
    .ok (item :: items)

def parseRlpListItems (data : Bytes) : Except ParseError (List Bytes) :=
  match data with
  | [] => .error (.text "empty data")
  | b :: tail =>
    let first := b.toNat
    if first < 0xC0 then .error (.text ("not an RLP list: first byte = 0x" ++ hexByte first))
    else if first < 0xF8 then
      let listLen := first - 0xC0
      if listLen = 0 ∨ 1 + listLen ≠ data.length then .error (.text "RLP list length mismatch")
      else parseItems tail.length tail
    else
      let lenOfLen := first - 0xF7
      if 1 + lenOfLen > data.length then .error (.text "invalid long RLP list")
      else if (1 + lenOfLen + beValue (tail.take lenOfLen)) % 2 ^ 64 ≠ data.length then
        .error (.text "long RLP list length mismatch")
      else parseItems (tail.drop lenOfLen).length (tail.drop lenOfLen)

/-- The loop body of `parse_logs_rlp`; a topic that is not 32 bytes is dropped. -/
def parseLog (entry : Bytes) : Except ParseError ReceiptLog := do
  let fields ← parseRlpListItems entry
  match fields with
  | address :: topics :: data :: _ =>
    let topicsItems ← parseRlpListItems topics
    .ok ⟨address, (topicsItems.filter (·.length = 32)).map B256.fromSlice, data⟩
  | _ => .error (.text "log entry has too few fields")

def parseLogsRlp (logsRlp : Bytes) : Except ParseError (List ReceiptLog) := do
  let logEntries ← parseRlpListItems logsRlp
  logEntries.mapM parseLog

/-- `decode_u64` and `decode_u128`, of up to `n` bytes. -/
def decodeUint (n : ℕ) (data : Bytes) : Option (BitVec (8 * n)) :=
  if data = [] ∨ data.length > n then none else some (BitVec.ofNat (8 * n) (beValue data))

def decodeU64 (data : Bytes) : Option U64 := decodeUint 8 data

def decodeU128 (data : Bytes) : Option U128 := decodeUint 16 data

def bridgeDepositEventSig : B256 :=
  0x3a957f168e13a027b53e7f6fe958a0bca90d515b66bf4b5a6c61608479135406

def bridgeEventOfFields (topics : List B256) (fields : List Bytes) : Option BridgeEvent :=
  match fields with
  | chain :: block :: sender :: asset :: amount :: _ => do
    let sourceChain ← decodeU64 chain
    let sourceBlock ← decodeU64 block
    let assetId ← decodeU64 asset
    let amount ← decodeU128 amount
    some {
      sourceChain, sourceBlock, assetId, amount
      sourceTxHash := topics.getD 1 0
      sender := if sender = [] ∨ sender = [0x80] then [] else sender
      recipient := (topics.getD 2 0).setWidth 160 }
  | _ => none

/-- The signature check is off for a zero constant. -/
def tryParseBridgeLog (log : ReceiptLog) : Except ParseError (Option BridgeEvent) :=
  match log.topics.head? with
  | none => .ok none
  | some eventSig =>
    if eventSig ≠ bridgeDepositEventSig ∧ bridgeDepositEventSig ≠ 0 then .ok none
    else match parseRlpListItems log.data with
      | .error .noReturn => .error .noReturn
      | .error (.text _) => .ok none
      | .ok fields => .ok (bridgeEventOfFields log.topics fields)

end Receipt

open Receipt

/-- A first byte up to `0x7f` is the type of the receipt. -/
def parseReceiptLogs (receiptRlp : Bytes) : Except ParseError (List ReceiptLog) :=
  match receiptRlp with
  | [] => .error (.text "empty receipt")
  | b :: tail => do
    let items ← parseRlpListItems (if b ≤ 0x7f then tail else receiptRlp)
    match items with
    | _ :: _ :: _ :: logsRlp :: _ => parseLogsRlp logsRlp
    | items =>
      .error (.text ("receipt has " ++ toString items.length ++ " fields, expected >= 4"))

def parseBridgeEventFromLogs : List ReceiptLog → Except ParseError (Option BridgeEvent)
  | [] => .ok none
  | log :: logs =>
    match tryParseBridgeLog log with
    | .error e => .error e
    | .ok (some event) => .ok (some event)
    | .ok none => parseBridgeEventFromLogs logs

end Callchain.LightClient
