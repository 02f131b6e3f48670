import AceChain.Liquid.Exchange
import AceChain.State.Frames

namespace AceChain.Liquid

open AceChain.Runtime Lib Handler State Exchange

def subCreateMarket : UInt8 := 0x01

def subPlaceOrder : UInt8 := 0x02

def subCancelOrder : UInt8 := 0x03

def subDeposit : UInt8 := 0x04

def subWithdraw : UInt8 := 0x05

inductive LiquidOutcome where
  | marketCreated (id : MarketId)
  | orderPlaced (orderId fills : Nat)
  | orderCancelled (orderId : Nat)
  | deposited (asset : UInt8) (amount : Nat)
  | withdrawn (asset : UInt8) (amount : Nat)
deriving DecidableEq

def decodeSide (b : UInt8) : Except LiquidError OrderSide :=
  if b = 0 then .ok .buy else if b = 1 then .ok .sell else .error (.invalidPayload "invalid side")

def decodeOrderType (b : UInt8) : Except LiquidError OrderType :=
  if b = 0 then .ok .limit else if b = 1 then .ok .market else .error (.invalidPayload "invalid order_type")

def decodeTif (b : UInt8) : Except LiquidError TimeInForce :=
  if b = 0 then .ok .goodTilCancelled
  else if b = 1 then .ok .immediateOrCancel
  else .error (.invalidPayload "invalid time_in_force")

def decodeCreateMarket (deriveMarketId : AccountId → AccountId → MarketId) (body : List UInt8) :
    Except LiquidError (Nat × Market) :=
  if body.length ≠ 92 then .error (.invalidPayload "create_market has invalid length")
  else
    let base := accountAt body 8
    let quote := accountAt body 40
    let tickSize := u64At body 72
    let lotSize := u64At body 80
    if tickSize = 0 ∨ lotSize = 0 then .error (.invalidPayload "tick_size and lot_size must be non-zero")
    else
      .ok (u64At body 0, ⟨deriveMarketId base quote, base, quote, tickSize, lotSize, leNat (slice body 88 2),
        leNat (slice body 90 2), true⟩)

variable (body : List UInt8)

/-- The side is looked at before the order type, and that before the time in force. -/
def decodePlaceOrder (owner : AccountId) : Except LiquidError (Nat × MarketId × PlaceOrder) :=
  if body.length ≠ 59 then .error (.invalidPayload "place_order has invalid length")
  else do
    let side ← decodeSide (body.getD 40 0)
    let orderType ← decodeOrderType (body.getD 41 0)
    let timeInForce ← decodeTif (body.getD 42 0)
    .ok (u64At body 0, beHash (slice body 8 32),
      ⟨owner, side, orderType, u64At body 43, u64At body 51, timeInForce, u64At_le body 43, u64At_le body 51⟩)

def decodeCancelOrder : Except LiquidError (Nat × MarketId × Nat) :=
  if body.length ≠ 48 then .error (.invalidPayload "cancel_order has invalid length")
  else .ok (u64At body 0, beHash (slice body 8 32), u64At body 40)

def decodeDepositWithdraw : Except LiquidError (Nat × MarketId × UInt8 × Nat) :=
  if body.length ≠ 49 then .error (.invalidPayload "deposit/withdraw has invalid length")
  else .ok (u64At body 0, beHash (slice body 8 32), body.getD 40 0, u64At body 41)

def consumeNonce (sender : AccountId) (nonce : Nat) : ExchangeM Unit := do
  let account ← demand (fun e => e.tree.get sender) (.error (.invalidPayload "sender account not found"))
  require (account.nonce = nonce) (.error (.nonceMismatch account.nonce nonce))
  let next ← demand (fun _ => u64CheckedAdd account.nonce 1) (.error .arithmeticOverflow)
  write (fun e => { e with tree := e.tree.modify sender (fun a => { a with nonce := next }) })

/-- Whoever sends a payload is the actor in it; it names none. -/
def Venue.executeLiquidTxInner (v : Venue) (sender : AccountId) (payload : List UInt8) : ExchangeM LiquidOutcome := do
  require (payload.head? = some opLiquid) (.error (.invalidPayload "not an ACE Liquid payload"))
  let sub ← demand (fun _ => payload[1]?) (.error (.invalidPayload "missing sub-opcode"))
  let body := payload.drop 2
  if sub = subCreateMarket then do
    let decoded ← fetch (fun _ => (decodeCreateMarket v.deriveMarketId body).mapError .error)
    consumeNonce sender decoded.1
    let id ← v.createMarket decoded.2
    pure (.marketCreated id)
  else if sub = subPlaceOrder then do
    let decoded ← fetch (fun _ => (decodePlaceOrder body sender).mapError .error)
    consumeNonce sender decoded.1
    let placed ← inMarket decoded.2.1 (Book.placeOrder decoded.2.1 decoded.2.2)
    pure (.orderPlaced placed.1 (placed.2.length % 2 ^ 32))
  else if sub = subCancelOrder then do
    let decoded ← fetch (fun _ => (decodeCancelOrder body).mapError .error)
    consumeNonce sender decoded.1
    let _ ← inMarket decoded.2.1 (Book.cancelOrder decoded.2.1 sender decoded.2.2)
    pure (.orderCancelled decoded.2.2)
  else if sub = subDeposit then do
    let decoded ← fetch (fun _ => (decodeDepositWithdraw body).mapError .error)
    consumeNonce sender decoded.1
    v.deposit decoded.2.1 sender decoded.2.2.1 decoded.2.2.2
    pure (.deposited decoded.2.2.1 decoded.2.2.2)
  else if sub = subWithdraw then do
    let decoded ← fetch (fun _ => (decodeDepositWithdraw body).mapError .error)
    consumeNonce sender decoded.1
    v.withdraw decoded.2.1 sender decoded.2.2.1 decoded.2.2.2
    pure (.withdrawn decoded.2.2.1 decoded.2.2.2)
  else fun e => (.error (.error (.invalidPayload ("unknown ACE Liquid sub-opcode: 0x" ++ sub.toBitVec.toHex))), e)

def Venue.executeLiquidTx (v : Venue) (sender : AccountId) (payload : List UInt8) : ExchangeM LiquidOutcome :=
  atomically (v.executeLiquidTxInner sender payload)

/-- Outside `ids`, no record and no storage changes; a market's book is the storage of the market's account. -/
structure Exchange.Frame (v : Venue) (ids : List AccountId) (e e' : Exchange) : Prop where
  tree : State.Frame ids e.tree e'.tree
  book : ∀ m, v.marketBookId m ∉ ids → e'.book m = e.book m

variable {v : Venue} {ids : List AccountId} {sender : AccountId} {e e' : Exchange} {m : MarketId} {α : Type}

theorem Exchange.Frame.trans {e'' : Exchange} (first : Frame v ids e e') (second : Frame v ids e' e'') :
    Frame v ids e e'' where
  tree := first.tree.trans second.tree
  book m outside := (second.book m outside).trans (first.book m outside)

theorem consumeNonce_frame {nonce : Nat} {u : Unit} (done : consumeNonce sender nonce e = (.ok u, e'))
    (member : sender ∈ ids) : Frame v ids e e' := by
  obtain ⟨account, _, looked, done⟩ := ok_bind.mp done
  obtain ⟨-, rfl⟩ := ok_demand.mp looked
  obtain ⟨_, _, checked, done⟩ := ok_bind.mp done
  obtain ⟨-, rfl⟩ := ok_require.mp checked
  obtain ⟨next, _, counted, done⟩ := ok_bind.mp done
  obtain ⟨-, rfl⟩ := ok_demand.mp counted
  obtain rfl := ok_write.mp done
  exact ⟨frame_modify _ member, fun _ _ => rfl⟩

theorem inMarket_frame {x : BookM α} {a : α} (done : inMarket m x e = (.ok a, e'))
    (member : v.marketBookId m ∈ ids) : Frame v ids e e' := by
  obtain ⟨b', -, rfl⟩ := inMarket_ok done
  refine ⟨.refl ids e.tree, fun other outside => ?_⟩
  have differ : other ≠ m := fun same => outside (same ▸ member)
  exact Function.update_of_ne differ _ _

theorem decodePlaceOrder_market {body : List UInt8} {decoded : Nat × MarketId × PlaceOrder}
    (read : decodePlaceOrder body sender = .ok decoded) : decoded.2.1 = beHash (slice body 8 32) := by
  unfold decodePlaceOrder at read
  split at read <;> rename_i size
  · cases read
  cases side : decodeSide (body.getD 40 0) with
  | error error =>
    rw [side] at read
    cases read
  | ok side_ =>
    rw [side] at read
    cases type : decodeOrderType (body.getD 41 0) with
    | error error =>
      rw [type] at read
      cases read
    | ok type_ =>
      rw [type] at read
      cases tif : decodeTif (body.getD 42 0) with
      | error error =>
        rw [tif] at read
        cases read
      | ok tif_ =>
        rw [tif] at read
        cases read
        rfl

theorem decodeCancelOrder_market {body : List UInt8} {decoded : Nat × MarketId × Nat}
    (read : decodeCancelOrder body = .ok decoded) : decoded.2.1 = beHash (slice body 8 32) := by
  unfold decodeCancelOrder at read
  split at read <;> rename_i size
  · cases read
  cases read
  rfl

theorem executeLiquidTx_opcode {payload : List UInt8} {outcome : LiquidOutcome}
    (done : v.executeLiquidTx sender payload e = (.ok outcome, e')) : payload.head? = some opLiquid := by
  have inner := ok_atomically.mp done
  obtain ⟨_, _, checked, -⟩ := ok_bind.mp inner
  exact (ok_require.mp checked).1

theorem executeLiquidTx_frame {payload : List UInt8} {outcome : LiquidOutcome}
    (order : payload.getD 1 0 = subPlaceOrder ∨ payload.getD 1 0 = subCancelOrder) (actor : sender ∈ ids)
    (market : v.marketBookId (beHash (slice payload 10 32)) ∈ ids)
    (done : v.executeLiquidTx sender payload e = (.ok outcome, e')) : Frame v ids e e' := by
  have named : slice (payload.drop 2) 8 32 = slice payload 10 32 := by
    unfold slice
    rw [List.drop_drop]
  have inner := ok_atomically.mp done
  obtain ⟨_, _, checked, inner⟩ := ok_bind.mp inner
  obtain ⟨-, rfl⟩ := ok_require.mp checked
  obtain ⟨sub, _, looked, inner⟩ := ok_bind.mp inner
  obtain ⟨found, rfl⟩ := ok_demand.mp looked
  have byte : payload.getD 1 0 = sub := by rw [List.getD_eq_getElem?_getD, found, Option.getD_some]
  rw [byte] at order
  rcases order with rfl | rfl
  · rw [if_neg (by decide), if_pos rfl] at inner
    obtain ⟨decoded, _, looked, inner⟩ := ok_bind.mp inner
    obtain ⟨read, rfl⟩ := ok_fetch.mp looked
    obtain ⟨_, mid, counted, inner⟩ := ok_bind.mp inner
    obtain ⟨placed, _, placing, last⟩ := ok_bind.mp inner
    obtain ⟨-, rfl⟩ := ok_pure.mp last
    have same := decodePlaceOrder_market (ok_of_mapError read)
    rw [named] at same
    exact (consumeNonce_frame counted actor).trans (inMarket_frame placing (same ▸ market))
  · rw [if_neg (by decide), if_neg (by decide), if_pos rfl] at inner
    obtain ⟨decoded, _, looked, inner⟩ := ok_bind.mp inner
    obtain ⟨read, rfl⟩ := ok_fetch.mp looked
    obtain ⟨_, mid, counted, inner⟩ := ok_bind.mp inner
    obtain ⟨cancelled, _, cancelling, last⟩ := ok_bind.mp inner
    obtain ⟨-, rfl⟩ := ok_pure.mp last
    have same := decodeCancelOrder_market (ok_of_mapError read)
    rw [named] at same
    exact (consumeNonce_frame counted actor).trans (inMarket_frame cancelling (same ▸ market))

end AceChain.Liquid
