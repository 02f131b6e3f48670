import AceChain.Basic

namespace AceChain.Liquid

abbrev MarketId := Hash

inductive OrderSide where
  | buy
  | sell
deriving DecidableEq

inductive OrderType where
  | limit
  | market
deriving DecidableEq

inductive TimeInForce where
  | goodTilCancelled
  | immediateOrCancel
deriving DecidableEq

inductive OrderStatus where
  | open
  | partiallyFilled
  | filled
  | cancelled
deriving DecidableEq

structure Market where
  marketId : MarketId
  baseMint : AccountId
  quoteMint : AccountId
  tickSize : Nat
  lotSize : Nat
  makerFeeBps : Nat
  takerFeeBps : Nat
  active : Bool
deriving DecidableEq

structure PlaceOrder where
  owner : AccountId
  side : OrderSide
  orderType : OrderType
  price : Nat
  quantity : Nat
  timeInForce : TimeInForce
  price_le : price ≤ u64Max
  quantity_le : quantity ≤ u64Max
deriving DecidableEq

structure Order where
  orderId : Nat
  marketId : MarketId
  owner : AccountId
  side : OrderSide
  orderType : OrderType
  price : Nat
  quantity : Nat
  remainingQuantity : Nat
  status : OrderStatus
  sequence : Nat
deriving DecidableEq

structure Trade where
  marketId : MarketId
  makerOrderId : Nat
  takerOrderId : Nat
  maker : AccountId
  taker : AccountId
  side : OrderSide
  price : Nat
  quantity : Nat
  quoteQuantity : Nat
deriving DecidableEq

inductive LiquidError where
  | marketNotFound (market : MarketId)
  | marketAlreadyExists (market : MarketId)
  | marketInactive (market : MarketId)
  | invalidMarketConfig (text : String)
  | orderNotFound (id : Nat)
  | orderNotOpen (id : Nat)
  | zeroAmount
  | zeroPrice
  | noLiquidity
  | selfTrade
  | arithmeticOverflow
  | insufficientBalance (have_ need : Nat)
  | settlement (text : String)
  | invalidPayload (text : String)
  | nonceMismatch (expected got : Nat)
  | notOrderOwner
deriving DecidableEq

/-- How a call can end other than by returning: a loop that was cut short, or a branch the code declares unreachable. -/
inductive Fault where
  | outOfFuel
  | unreachable
deriving DecidableEq

def oppositeSide : OrderSide → OrderSide
  | .buy => .sell
  | .sell => .buy

end AceChain.Liquid
