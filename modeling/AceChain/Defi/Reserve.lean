import AceChain.Defi.Storage

namespace AceChain.Defi

open State Lib Handler Vm

/-- Amounts shrink by flooring; one that vanishes is refused. -/
def normalizeAmount (amount : Nat) (fromDecimals toDecimals : UInt8) : Except BridgeError Nat :=
  if 18 < fromDecimals then .error (.invalidDecimals fromDecimals)
  else if 18 < toDecimals then .error (.invalidDecimals toDecimals)
  else if amount = 0 then .error .invalidAmount
  else if fromDecimals = toDecimals then .ok amount
  else if fromDecimals < toDecimals then
    match u64CheckedPow 10 (toDecimals.toNat - fromDecimals.toNat) with
    | none => .error .arithmeticOverflow
    | some scale =>
      match u64CheckedMul amount scale with
      | none => .error .arithmeticOverflow
      | some scaled => .ok scaled
  else
    match u64CheckedPow 10 (fromDecimals.toNat - toDecimals.toNat) with
    | none => .error .arithmeticOverflow
    | some scale => if amount / scale = 0 then .error .amountTooSmall else .ok (amount / scale)

def ReservePosition.empty (asset : ExternalAsset) (canonical : Hash) : ReservePosition := ⟨asset, canonical, 0, 0, 0, 0, 0⟩

def CanonicalSupply.empty (canonical : Hash) : CanonicalSupply := ⟨canonical, 0, 0, 0, 0⟩

def CanonicalReserveTotal.empty (canonical : Hash) : CanonicalReserveTotal := ⟨canonical, 0⟩

namespace RiskConfig

variable (r : RiskConfig)

def checkSupportedQuorum : BridgeM Unit :=
  require (r.requiredRelayerQuorum = 1) (.limitExceeded ("required relayer quorum " ++ toString r.requiredRelayerQuorum ++
    " is not supported by single-signature wire format"))

def checkDeposit (amount : Nat) : BridgeM Unit := do
  r.checkSupportedQuorum
  require (r.depositPaused = false) .depositPaused
  require (amount ≤ r.maxSingleDeposit) (.limitExceeded ("deposit amount " ++ toString amount ++
    " exceeds single deposit limit " ++ toString r.maxSingleDeposit))

def checkWithdrawal (amount : Nat) : BridgeM Unit := do
  r.checkSupportedQuorum
  require (r.withdrawPaused = false) .withdrawPaused
  require (amount ≤ r.maxSingleWithdrawal) (.limitExceeded ("withdrawal amount " ++ toString amount ++
    " exceeds single withdrawal limit " ++ toString r.maxSingleWithdrawal))

end RiskConfig

namespace Bridge

variable [Formats] (b : Bridge)

def slotsPerDay : Nat := max (86400000 / b.slotDurationMs) 1

def dayOf (slot : Nat) : Nat := slot / b.slotsPerDay

/-- The largest limit stands for none, and then nothing is counted. -/
def recordDailyLimit (counter : Nat → Cell) (amount slot limit : Nat) : BridgeM Unit :=
  if limit = u64Max then pure ()
  else do
    let current ← read (fun t => b.number t (counter (b.dayOf slot)))
    let next ← demand (fun _ => u64CheckedAdd current amount) .arithmeticOverflow
    require (next ≤ limit) (.limitExceeded ("daily amount " ++ toString next ++ " exceeds limit " ++ toString limit))
    write (b.setNumber (counter (b.dayOf slot)) next)

def checkAndRecordDeposit (risk : RiskConfig) (asset : ExternalAsset) (amount slot : Nat) : BridgeM Unit := do
  risk.checkDeposit amount
  b.recordDailyLimit (.dailyDeposit asset) amount slot risk.dailyDepositLimit

def checkAndRecordWithdrawal (risk : RiskConfig) (asset : ExternalAsset) (amount slot : Nat) : BridgeM Unit := do
  risk.checkWithdrawal amount
  b.recordDailyLimit (.dailyWithdraw asset) amount slot risk.dailyWithdrawalLimit

variable (asset : ExternalAsset)

def putPosition (p : ReservePosition) : BridgeM Unit :=
  write (b.putRecord positionCodec (.record (.position asset)) p)

variable (id : Hash)

def putSupply (s : CanonicalSupply) : BridgeM Unit := write (b.putRecord supplyCodec (.record (.supply id)) s)

def putReserveTotal (r : CanonicalReserveTotal) : BridgeM Unit :=
  write (b.putRecord reserveTotalCodec (.record (.reserveTotal id)) r)

variable (amount : Nat)

def increaseReserveTotal : BridgeM Unit := do
  let found ← fetch (b.getReserveTotal id)
  let total := found.getD (.empty id)
  let backing ← demand (fun _ => u64CheckedAdd total.backingTotal amount) .arithmeticOverflow
  b.putReserveTotal id { total with backingTotal := backing }

def decreaseReserveTotal : BridgeM Unit := do
  let found ← fetch (b.getReserveTotal id)
  let total ← demand (fun _ => found) (.canonicalAssetNotFound id)
  require (amount ≤ total.backingTotal) (.insufficientReserve total.backingTotal amount)
  b.putReserveTotal id { total with backingTotal := total.backingTotal - amount }

variable (amount slot : Nat)

def recordDeposit : BridgeM Unit := do
  require (amount ≠ 0) .invalidAmount
  let found ← fetch (b.getPosition asset)
  let position := found.getD (.empty asset id)
  require (position.canonicalAsset = id) .mappingMismatch
  let deposited ← demand (fun _ => u64CheckedAdd position.totalDeposited amount) .arithmeticOverflow
  let available ← demand (fun _ => u64CheckedAdd position.available amount) .arithmeticOverflow
  b.putPosition asset { position with totalDeposited := deposited, available := available, lastUpdatedSlot := slot }
  b.increaseReserveTotal id amount

def reserveWithdrawal : BridgeM Unit := do
  require (amount ≠ 0) .invalidAmount
  let found ← fetch (b.getPosition asset)
  let position ← demand (fun _ => found) (.assetNotMapped asset)
  require (position.canonicalAsset = id) .mappingMismatch
  require (amount ≤ position.available) (.insufficientReserve position.available amount)
  let pending ← demand (fun _ => u64CheckedAdd position.pendingWithdrawal amount) .arithmeticOverflow
  b.putPosition asset
    { position with available := position.available - amount, pendingWithdrawal := pending, lastUpdatedSlot := slot }

def finalizeWithdrawal : BridgeM Unit := do
  let found ← fetch (b.getPosition asset)
  let position ← demand (fun _ => found) (.assetNotMapped asset)
  require (amount ≤ position.pendingWithdrawal) (.insufficientReserve position.pendingWithdrawal amount)
  let withdrawn ← demand (fun _ => u64CheckedAdd position.totalWithdrawn amount) .arithmeticOverflow
  b.putPosition asset { position with
    pendingWithdrawal := position.pendingWithdrawal - amount, totalWithdrawn := withdrawn, lastUpdatedSlot := slot }
  b.decreaseReserveTotal position.canonicalAsset amount

def increaseSupply : BridgeM Unit := do
  let found ← fetch (b.getSupply id)
  let supply := found.getD (.empty id)
  let minted ← demand (fun _ => u64CheckedAdd supply.totalMinted amount) .arithmeticOverflow
  let active ← demand (fun _ => u64CheckedAdd supply.activeSupply amount) .arithmeticOverflow
  b.putSupply id { supply with totalMinted := minted, activeSupply := active }

def decreaseSupply : BridgeM Unit := do
  let found ← fetch (b.getSupply id)
  let supply ← demand (fun _ => found) (.canonicalAssetNotFound id)
  require (amount ≤ supply.activeSupply) (.insufficientBalance supply.activeSupply amount)
  let burned ← demand (fun _ => u64CheckedAdd supply.totalBurned amount) .arithmeticOverflow
  b.putSupply id { supply with totalBurned := burned, activeSupply := supply.activeSupply - amount }

def checkInvariant : BridgeM Unit := do
  let found ← fetch (b.getSupply id)
  let supply := found.getD (.empty id)
  let total ← fetch (b.getReserveTotal id)
  let backing := (total.map (·.backingTotal)).getD 0
  let required ← demand (fun _ => u64CheckedAdd supply.activeSupply supply.safetyBuffer) .arithmeticOverflow
  require (required ≤ backing) (.reserveInvariantViolation ("active supply " ++ toString required ++
    " exceeds reserve total " ++ toString backing))

end Bridge

end AceChain.Defi
