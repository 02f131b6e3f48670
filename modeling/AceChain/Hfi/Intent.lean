import AceChain.Runtime.HfiPayload

namespace AceChain.Hfi

inductive ChainId where
  | native
  | evm
  | svm
  | bvm
  | tvm
deriving DecidableEq

namespace ChainId

def tag : ChainId → UInt8
  | native => 0
  | evm => 1
  | svm => 2
  | bvm => 3
  | tvm => 4

def fromTag (tag : UInt8) : Option ChainId :=
  if tag = 0 then some native
  else if tag = 1 then some evm
  else if tag = 2 then some svm
  else if tag = 3 then some bvm
  else if tag = 4 then some tvm
  else none

def name : ChainId → String
  | native => "Native"
  | evm => "Evm"
  | svm => "Svm"
  | bvm => "Bvm"
  | tvm => "Tvm"

def domain : ChainId → String
  | native => "hfipay:native:"
  | evm => "hfipay:evm:"
  | svm => "hfipay:svm:"
  | bvm => "hfipay:bvm:"
  | tvm => "hfipay:tvm:"

@[simp] theorem fromTag_tag (chain : ChainId) : fromTag chain.tag = some chain := by cases chain <;> rfl

end ChainId

inductive IntentStatus where
  | created
  | funded
  | claimed
  | expired
  | refunded
deriving DecidableEq

namespace IntentStatus

def tag : IntentStatus → UInt8
  | created => 0
  | funded => 1
  | claimed => 2
  | expired => 3
  | refunded => 4

def fromTag (tag : UInt8) : Option IntentStatus :=
  if tag = 0 then some created
  else if tag = 1 then some funded
  else if tag = 2 then some claimed
  else if tag = 3 then some expired
  else if tag = 4 then some refunded
  else none

def name : IntentStatus → String
  | created => "Created"
  | funded => "Funded"
  | claimed => "Claimed"
  | expired => "Expired"
  | refunded => "Refunded"

@[simp] theorem fromTag_tag (status : IntentStatus) : fromTag status.tag = some status := by cases status <;> rfl

end IntentStatus

structure OnChainIntent where
  intentId : Hash
  blindedBinding : Hash
  amount : Nat
  chain : ChainId
  mint : Option Hash
  depositAddress : AccountId
  bindingEpoch : Nat
  expiry : Nat
  refundDest : Option AccountId
  refundAuthorizer : Option AccountId
  createdAt : Nat
  status : IntentStatus
  claimNonce : Nat
  refundNonce : Nat
  withdrawnAmount : Nat
  owner : Option AccountId
deriving DecidableEq

def onchainIntentLen : Nat := 287

/-- An optional word: a presence byte and thirty-two bytes, zeros where it is absent. -/
def flaggedBytes (word : Option Hash) : List UInt8 :=
  match word with
  | some word => 1 :: hashBytes word
  | none => 0 :: List.replicate 32 0

variable (bytes : List UInt8)

def readHash : Hash × List UInt8 := (beHash (bytes.take 32), bytes.drop 32)

def readU64 : Nat × List UInt8 := (leNat (bytes.take 8), bytes.drop 8)

def readByte : UInt8 × List UInt8 := (bytes.headD 0, bytes.tail)

def readFlagged : Option Hash × List UInt8 :=
  (if bytes.headD 0 ≠ 0 then some (beHash (bytes.tail.take 32)) else none, bytes.tail.drop 32)

section

variable (rest : List UInt8)

@[simp] theorem length_flaggedBytes (word : Option Hash) : (flaggedBytes word).length = 33 := by
  cases word <;> simp [flaggedBytes]

@[simp] theorem readHash_append (h : Hash) : readHash (hashBytes h ++ rest) = (h, rest) := by
  unfold readHash
  rw [List.take_left' (length_hashBytes h), List.drop_left' (length_hashBytes h), beHash_hashBytes]

theorem readU64_append {n : Nat} (small : n < 2 ^ 64) : readU64 (leBytes 8 n ++ rest) = (n, rest) := by
  unfold readU64
  have fits : n < 256 ^ 8 := small
  rw [List.take_left' (length_leBytes 8 n), List.drop_left' (length_leBytes 8 n), leNat_leBytes, Nat.mod_eq_of_lt fits]

@[simp] theorem readByte_cons (b : UInt8) : readByte (b :: rest) = (b, rest) := rfl

@[simp] theorem readFlagged_append (word : Option Hash) : readFlagged (flaggedBytes word ++ rest) = (word, rest) := by
  cases word with
  | none =>
    change (none, ((List.replicate 32 (0 : UInt8) ++ rest).drop 32)) = _
    rw [List.drop_left' (List.length_replicate)]
  | some word =>
    change (some (beHash ((hashBytes word ++ rest).take 32)), (hashBytes word ++ rest).drop 32) = _
    rw [List.take_left' (length_hashBytes word), List.drop_left' (length_hashBytes word), beHash_hashBytes]

end

namespace OnChainIntent

def encode (i : OnChainIntent) : List UInt8 :=
  0x01 :: (hashBytes i.intentId ++ (hashBytes i.blindedBinding ++ (leBytes 8 i.amount ++ (i.chain.tag ::
    (flaggedBytes i.mint ++ (hashBytes i.depositAddress.bytes ++ (leBytes 8 i.bindingEpoch ++ (leBytes 8 i.expiry ++
      (flaggedBytes (i.refundDest.map (·.bytes)) ++ (flaggedBytes (i.refundAuthorizer.map (·.bytes)) ++
        (leBytes 8 i.createdAt ++ (i.status.tag :: (leBytes 8 i.claimNonce ++ (leBytes 8 i.refundNonce ++
          (leBytes 8 i.withdrawnAmount ++ flaggedBytes (i.owner.map (·.bytes)))))))))))))))))

def decode (bytes : List UInt8) : Except String OnChainIntent :=
  if bytes.length ≠ onchainIntentLen then
    .error ("OnChainIntent: expected " ++ toString onchainIntentLen ++ " bytes, got " ++ toString bytes.length)
  else if bytes.headD 0 ≠ 0x01 then .error ("OnChainIntent: unknown version " ++ toString (bytes.headD 0))
  else
    let (intentId, bytes) := readHash bytes.tail
    let (blindedBinding, bytes) := readHash bytes
    let (amount, bytes) := readU64 bytes
    let (chainTag, bytes) := readByte bytes
    match ChainId.fromTag chainTag with
    | none => .error ("OnChainIntent: invalid chain tag " ++ toString chainTag)
    | some chain =>
      let (mint, bytes) := readFlagged bytes
      let (depositAddress, bytes) := readHash bytes
      let (bindingEpoch, bytes) := readU64 bytes
      let (expiry, bytes) := readU64 bytes
      let (refundDest, bytes) := readFlagged bytes
      let (refundAuthorizer, bytes) := readFlagged bytes
      let (createdAt, bytes) := readU64 bytes
      let (statusTag, bytes) := readByte bytes
      match IntentStatus.fromTag statusTag with
      | none => .error ("OnChainIntent: invalid status tag " ++ toString statusTag)
      | some status =>
        let (claimNonce, bytes) := readU64 bytes
        let (refundNonce, bytes) := readU64 bytes
        let (withdrawnAmount, bytes) := readU64 bytes
        let (owner, _) := readFlagged bytes
        .ok
          { intentId := intentId
            blindedBinding := blindedBinding
            amount := amount
            chain := chain
            mint := mint
            depositAddress := ⟨depositAddress⟩
            bindingEpoch := bindingEpoch
            expiry := expiry
            refundDest := refundDest.map AccountId.mk
            refundAuthorizer := refundAuthorizer.map AccountId.mk
            createdAt := createdAt
            status := status
            claimNonce := claimNonce
            refundNonce := refundNonce
            withdrawnAmount := withdrawnAmount
            owner := owner.map AccountId.mk }

structure Sized (i : OnChainIntent) : Prop where
  amount : i.amount < 2 ^ 64
  bindingEpoch : i.bindingEpoch < 2 ^ 64
  expiry : i.expiry < 2 ^ 64
  createdAt : i.createdAt < 2 ^ 64
  claimNonce : i.claimNonce < 2 ^ 64
  refundNonce : i.refundNonce < 2 ^ 64
  withdrawnAmount : i.withdrawnAmount < 2 ^ 64

theorem length_encode (i : OnChainIntent) : i.encode.length = onchainIntentLen := by
  simp [encode, onchainIntentLen]

theorem map_bytes (id : Option AccountId) : (id.map (·.bytes)).map AccountId.mk = id := by cases id <;> rfl

theorem decode_encode {i : OnChainIntent} (sized : i.Sized) : decode i.encode = .ok i := by
  have last : readFlagged (flaggedBytes (i.owner.map (·.bytes))) = (i.owner.map (·.bytes), []) := by
    have whole := readFlagged_append [] (i.owner.map (·.bytes))
    rwa [List.append_nil] at whole
  unfold decode
  rw [if_neg (not_not_intro i.length_encode)]
  unfold encode
  simp only [List.headD_cons, List.tail_cons, ne_eq, not_true_eq_false, if_false, readHash_append,
    readU64_append _ sized.amount, readByte_cons, ChainId.fromTag_tag, readFlagged_append,
    readU64_append _ sized.bindingEpoch, readU64_append _ sized.expiry, readU64_append _ sized.createdAt,
    IntentStatus.fromTag_tag, readU64_append _ sized.claimNonce, readU64_append _ sized.refundNonce,
    readU64_append _ sized.withdrawnAmount, last, map_bytes]

theorem readU64_lt (bytes : List UInt8) : (readU64 bytes).1 < 2 ^ 64 := by
  have bound := leNat_lt (bytes.take 8)
  have short : (bytes.take 8).length ≤ 8 := List.length_take_le 8 bytes
  calc (readU64 bytes).1 < 256 ^ (bytes.take 8).length := bound
    _ ≤ 256 ^ 8 := Nat.pow_le_pow_right (by decide) short

theorem sized_of_decode {bytes : List UInt8} {i : OnChainIntent} (decoded : decode bytes = .ok i) : i.Sized := by
  unfold decode at decoded
  dsimp only at decoded
  split at decoded
  · cases decoded
  split at decoded
  · cases decoded
  split at decoded
  · cases decoded
  split at decoded
  · cases decoded
  · cases decoded
    exact ⟨readU64_lt _, readU64_lt _, readU64_lt _, readU64_lt _, readU64_lt _, readU64_lt _, readU64_lt _⟩

end OnChainIntent

end AceChain.Hfi
