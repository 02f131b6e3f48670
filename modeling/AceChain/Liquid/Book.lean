import AceChain.Lib.Handler
import AceChain.Liquid.Ladder

namespace AceChain.Liquid

open Lib Handler Function

/-- The state of one market. Each field stands for a family of storage words of the market's account, under SHA-256 slots
that are taken to be distinct; a word never written is zero and a record never written is absent. -/
structure Book where
  market : Option Market
  order : Nat → Option Order
  balance : AccountId → UInt8 → Nat
  orderIdCounter : Nat
  sequenceCounter : Nat
  ladder : Ladder
  level : OrderSide → Nat → Nat × Nat
  node : Nat → Nat × Nat

inductive Stop where
  | error (error : LiquidError)
  | fault (fault : Fault)
deriving DecidableEq

abbrev BookM := Handler Book Stop

def assetBase : UInt8 := 0

def assetQuote : UInt8 := 1

/-- No path of a ladder is longer, see `Ladder.calls_refine_sets`. -/
def ladderRounds : Nat := 65

namespace Book

def empty : Book := ⟨none, fun _ => none, fun _ _ => 0, 0, 0, .empty, fun _ _ => (0, 0), fun _ => (0, 0)⟩

def fail {α : Type} (e : LiquidError) : BookM α := fun b => (.error (.error e), b)

def putOrder (o : Order) (b : Book) : Book := { b with order := update b.order o.orderId (some o) }

variable (user : AccountId) (asset : UInt8) (amount : Nat)

def setBalance (b : Book) : Book :=
  { b with balance := update b.balance user (update (b.balance user) asset amount) }

def creditBalance : BookM Unit :=
  if amount = 0 then pure ()
  else do
    let have_ ← read (fun b => b.balance user asset)
    let new ← demand (fun _ => u64CheckedAdd have_ amount) (.error .arithmeticOverflow)
    write (setBalance user asset new)

def debitBalance : BookM Unit :=
  if amount = 0 then pure ()
  else do
    let have_ ← read (fun b => b.balance user asset)
    require (amount ≤ have_) (.error (.insufficientBalance have_ amount))
    write (setBalance user asset (have_ - amount))

def nextOrderId : BookM Nat := do
  let current ← read (fun b => max b.orderIdCounter 1)
  let next ← demand (fun _ => u64CheckedAdd current 1) (.error .arithmeticOverflow)
  write (fun b => { b with orderIdCounter := next })
  pure current

def nextSequence : BookM Nat := do
  let current ← read (fun b => max b.sequenceCounter 1)
  let next ← demand (fun _ => u64CheckedAdd current 1) (.error .arithmeticOverflow)
  write (fun b => { b with sequenceCounter := next })
  pure current

def askLadder {α : Type} (f : Ladder → Except Fault α) : BookM α := fun b =>
  match f b.ladder with
  | .ok a => (.ok a, b)
  | .error fault => (.error (.fault fault), b)

def onLadder (f : Ladder → Except Fault Ladder) : BookM Unit := fun b =>
  match f b.ladder with
  | .ok l => (.ok (), { b with ladder := l })
  | .error fault => (.error (.fault fault), b)

def bestPrice : OrderSide → BookM (Option Nat)
  | .buy => askLadder (fun l => l.max ladderRounds .buy)
  | .sell => askLadder (fun l => l.min ladderRounds .sell)

variable (side : OrderSide)

def writeLevel (price : Nat) (ends : Nat × Nat) (b : Book) : Book :=
  { b with level := update b.level side (update (b.level side) price ends) }

def writeNode (id : Nat) (neighbours : Nat × Nat) (b : Book) : Book := { b with node := update b.node id neighbours }

def enqueueOrder (price id : Nat) : BookM Unit := do
  let (head, tail) ← read (fun b => b.level side price)
  if tail = 0 then
    write (writeNode id (0, 0))
    write (writeLevel side price (id, id))
    onLadder (fun l => l.insert ladderRounds side price)
  else
    let (prevTailPrev, _) ← read (fun b => b.node tail)
    write (writeNode tail (prevTailPrev, id))
    write (writeNode id (tail, 0))
    write (writeLevel side price (head, id))

def frontOrderAt (price : Nat) (b : Book) : Option Nat :=
  if (b.level side price).1 ≠ 0 then some (b.level side price).1 else none

def removeOrderFromQueue (price id : Nat) : BookM Unit := do
  let (head, tail) ← read (fun b => b.level side price)
  let (prev, next) ← read (fun b => b.node id)
  if prev ≠ 0 then
    write (fun b => writeNode prev ((b.node prev).1, next) b)
  if next ≠ 0 then
    write (fun b => writeNode next (prev, (b.node next).2) b)
  let newHead := if head = id then next else head
  let newTail := if tail = id then prev else tail
  write (writeNode id (0, 0))
  if newHead = 0 then
    write (writeLevel side price (0, 0))
    onLadder (fun l => l.remove ladderRounds side price)
  else
    write (writeLevel side price (newHead, newTail))

end Book

def lockedQuote (o : Order) : Option Nat :=
  if o.remainingQuantity * o.price ≤ u64Max then some (o.remainingQuantity * o.price) else none

def priceCrosses (taker : Order) (makerPrice : Nat) : Bool :=
  match taker.side with
  | .buy => makerPrice ≤ taker.price
  | .sell => taker.price ≤ makerPrice

namespace Book

def settleFill (taker maker : Order) (quantity quote : Nat) : BookM Unit :=
  match taker.side with
  | .buy => do
    debitBalance taker.owner assetQuote quote
    creditBalance taker.owner assetBase quantity
    creditBalance maker.owner assetQuote quote
  | .sell => do
    debitBalance taker.owner assetBase quantity
    creditBalance taker.owner assetQuote quote
    creditBalance maker.owner assetBase quantity

def lockRestingFunds (o : Order) : BookM Unit :=
  match o.side with
  | .buy => do
    let lock ← demand (fun _ => lockedQuote o) (.error .arithmeticOverflow)
    debitBalance o.owner assetQuote lock
  | .sell => debitBalance o.owner assetBase o.remainingQuantity

def refundRestingFunds (o : Order) : BookM Unit :=
  match o.side with
  | .buy => do
    let refund ← demand (fun _ => lockedQuote o) (.error .arithmeticOverflow)
    creditBalance o.owner assetQuote refund
  | .sell => creditBalance o.owner assetBase o.remainingQuantity

def filledBy (maker : Order) (quantity : Nat) : Order :=
  { maker with
    remainingQuantity := maker.remainingQuantity - quantity
    status := if maker.remainingQuantity - quantity = 0 then .filled else .partiallyFilled }

/-- One fill against the order at the front of the best level. The product of two words fits in 128 bits. -/
def fill (taker maker : Order) : BookM (Order × Trade) := do
  let quantity := min taker.remainingQuantity maker.remainingQuantity
  let quote := quantity * maker.price
  require (quote ≤ u64Max) (.error .arithmeticOverflow)
  settleFill taker maker quantity quote
  let filled := filledBy maker quantity
  if filled.remainingQuantity = 0 then
    removeOrderFromQueue (oppositeSide taker.side) maker.price maker.orderId
  write (putOrder filled)
  pure ({ taker with remainingQuantity := taker.remainingQuantity - quantity },
    ⟨taker.marketId, maker.orderId, taker.orderId, maker.owner, taker.owner, taker.side, maker.price, quantity, quote⟩)

def matchTaker : Nat → Order → List Trade → BookM (Order × List Trade × Bool)
  | 0, _, _ => fun b => (.error (.fault .outOfFuel), b)
  | fuel + 1, taker, trades =>
    if taker.remainingQuantity = 0 then pure (taker, trades, false)
    else do
      let best ← bestPrice (oppositeSide taker.side)
      match best with
      | none => pure (taker, trades, false)
      | some makerPrice =>
        if taker.orderType = .limit ∧ priceCrosses taker makerPrice = false then pure (taker, trades, false)
        else do
          let front ← read (frontOrderAt (oppositeSide taker.side) makerPrice)
          match front with
          | none => pure (taker, trades, false)
          | some makerId => do
            let maker ← demand (fun b => b.order makerId) (.error (.orderNotFound makerId))
            if maker.owner = taker.owner then pure (taker, trades, true)
            else do
              let (taker, trade) ← fill taker maker
              matchTaker fuel taker (trades ++ [trade])

end Book

def timeInForceAllowsResting (tif : TimeInForce) : Bool := tif = .goodTilCancelled

def ensureMarketActive (market : Market) : Except LiquidError Unit :=
  if market.active then .ok () else .error (.marketInactive market.marketId)

def validateOrder (market : Market) (r : PlaceOrder) : Except LiquidError Unit :=
  if market.tickSize = 0 ∨ market.lotSize = 0 then .error (.invalidMarketConfig "tick_size and lot_size must be non-zero")
  else if r.quantity = 0 then .error .zeroAmount
  else if r.orderType = .limit ∧ r.price = 0 then .error .zeroPrice
  else if r.quantity % market.lotSize ≠ 0 then .error .zeroAmount
  else if r.orderType = .limit ∧ r.price % market.tickSize ≠ 0 then .error .zeroPrice
  else .ok ()

def matchedStatus (o : Order) : OrderStatus :=
  if o.remainingQuantity = 0 then .filled
  else if o.remainingQuantity < o.quantity then .partiallyFilled
  else o.status

namespace Book

def settleRemainder (r : PlaceOrder) (taker : Order) (trades : List Trade) (blocked : Bool) : BookM Order := do
  let taker := { taker with status := matchedStatus taker }
  if 0 < taker.remainingQuantity ∧ taker.orderType = .limit ∧ blocked = false ∧
      timeInForceAllowsResting r.timeInForce = true then
    lockRestingFunds taker
    let taker := { taker with
      status := if taker.remainingQuantity < taker.quantity then .partiallyFilled else .open }
    enqueueOrder taker.side taker.price taker.orderId
    pure taker
  else if 0 < taker.remainingQuantity ∧ taker.orderType = .market ∧ trades = [] then fail .noLiquidity
  else if 0 < taker.remainingQuantity then
    pure { taker with
      remainingQuantity := 0
      status := if trades = [] then .cancelled else .partiallyFilled }
  else pure taker

/-- Every round but the last takes an order off the book, so there are at most as many as orders were ever placed. -/
def matchRounds (b : Book) : Nat := b.orderIdCounter + 1

variable (marketId : MarketId)

def placeOrderInner (r : PlaceOrder) : BookM (Nat × List Trade) := do
  let market ← demand (fun b => b.market) (.error (.marketNotFound marketId))
  fetch (fun _ => (ensureMarketActive market).mapError .error)
  fetch (fun _ => (validateOrder market r).mapError .error)
  let orderId ← nextOrderId
  let sequence ← nextSequence
  let taker : Order := ⟨orderId, marketId, r.owner, r.side, r.orderType, r.price, r.quantity, r.quantity, .open, sequence⟩
  let rounds ← read matchRounds
  let (taker, trades, blocked) ← matchTaker rounds taker []
  require (¬ (blocked = true ∧ trades = [])) (.error .selfTrade)
  let taker ← settleRemainder r taker trades blocked
  write (putOrder taker)
  pure (orderId, trades)

def placeOrder (r : PlaceOrder) : BookM (Nat × List Trade) := atomically (placeOrderInner marketId r)

def cancelOrderInner (owner : AccountId) (orderId : Nat) : BookM Order := do
  let _ ← demand (fun b => b.market) (.error (.marketNotFound marketId))
  let order ← demand (fun b => b.order orderId) (.error (.orderNotFound orderId))
  require (order.owner = owner) (.error .notOrderOwner)
  require ((order.status = .open ∨ order.status = .partiallyFilled) ∧ order.remainingQuantity ≠ 0)
    (.error (.orderNotOpen orderId))
  refundRestingFunds order
  removeOrderFromQueue order.side order.price orderId
  let order := { order with status := .cancelled, remainingQuantity := 0 }
  write (putOrder order)
  pure order

def cancelOrder (owner : AccountId) (orderId : Nat) : BookM Order :=
  atomically (cancelOrderInner marketId owner orderId)

end Book

end AceChain.Liquid
