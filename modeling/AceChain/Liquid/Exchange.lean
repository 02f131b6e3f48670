import AceChain.Liquid.BookRuns
import AceChain.Vm.TokenRuntime

namespace AceChain.Liquid

open Lib Handler State Engine Vm Book Function

/-- What the exchange takes from elsewhere: the token ledger and the hashes that name markets and their accounts. -/
structure Venue where
  tokens : TokenSlots
  derive : Derivations
  marketBookId : MarketId → AccountId
  deriveMarketId : AccountId → AccountId → MarketId

structure Exchange where
  tree : StateTree
  book : MarketId → Book

abbrev ExchangeM := Handler Exchange Stop

namespace Exchange

def opening (tree : StateTree) : Exchange := ⟨tree, fun _ => .empty⟩

def inMarket {α : Type} (m : MarketId) (x : BookM α) : ExchangeM α := fun e =>
  match x (e.book m) with
  | (result, b) => (result, { e with book := update e.book m b })

end Exchange

def validateMarketConfig (v : Venue) (market : Market) : Except LiquidError Unit :=
  if market.baseMint = market.quoteMint then .error (.invalidMarketConfig "base_mint and quote_mint must differ")
  else if market.marketId ≠ v.deriveMarketId market.baseMint market.quoteMint then
    .error (.invalidMarketConfig "market_id does not match base/quote mints")
  else if market.tickSize = 0 ∨ market.lotSize = 0 then
    .error (.invalidMarketConfig "tick_size and lot_size must be non-zero")
  else if market.makerFeeBps ≠ 0 ∨ market.takerFeeBps ≠ 0 then
    .error (.invalidMarketConfig "non-zero fees are not supported yet")
  else .ok ()

theorem ok_of_mapError {α : Type} {check : Except LiquidError α} {a : α} (passed : check.mapError Stop.error = .ok a) :
    check = .ok a := by
  cases check with
  | ok _ =>
    cases passed
    rfl
  | error _ => cases passed

def mintForAsset (market : Market) (asset : UInt8) : Except LiquidError AccountId :=
  if asset = assetBase then .ok market.baseMint
  else if asset = assetQuote then .ok market.quoteMint
  else .error (.invalidPayload "invalid asset index")

namespace Venue

variable (v : Venue)

def createMarket (market : Market) : ExchangeM MarketId := do
  fetch (fun _ => (validateMarketConfig v market).mapError .error)
  let existing ← read (fun e => (e.book market.marketId).market)
  require (existing.isNone = true) (.error (.marketAlreadyExists market.marketId))
  write (fun e => { e with tree := ensureAccount v.derive e.tree (v.marketBookId market.marketId) })
  Exchange.inMarket market.marketId (write (fun b => { b with market := some market }))
  pure market.marketId

def transfer (mint : AccountId) (sender recipient : AccountId) (amount : Nat) : ExchangeM Unit := fun e =>
  match v.tokens.transferBetweenOwners v.derive e.tree mint.bytes sender recipient amount with
  | (.ok _, t) => (.ok (), { e with tree := t })
  | (.error text, t) => (.error (.error (.settlement text)), { e with tree := t })

def moveTokens (mint : AccountId) (sender recipient : AccountId) (amount : Nat) : ExchangeM Unit :=
  if amount = 0 then pure ()
  else do
    write (fun e => { e with tree := ensureAccount v.derive e.tree recipient })
    v.transfer mint sender recipient amount

def deposit (m : MarketId) (user : AccountId) (asset : UInt8) (amount : Nat) : ExchangeM Unit := do
  require (amount ≠ 0) (.error .zeroAmount)
  let market ← demand (fun e => (e.book m).market) (.error (.marketNotFound m))
  fetch (fun _ => (ensureMarketActive market).mapError .error)
  let mint ← fetch (fun _ => (mintForAsset market asset).mapError .error)
  atomically (do
    v.moveTokens mint user (v.marketBookId m) amount
    Exchange.inMarket m (creditBalance user asset amount))

/-- Unlike a deposit, this does not ask whether the market is active. -/
def withdraw (m : MarketId) (user : AccountId) (asset : UInt8) (amount : Nat) : ExchangeM Unit := do
  require (amount ≠ 0) (.error .zeroAmount)
  let market ← demand (fun e => (e.book m).market) (.error (.marketNotFound m))
  let mint ← fetch (fun _ => (mintForAsset market asset).mapError .error)
  atomically (do
    Exchange.inMarket m (debitBalance user asset amount)
    v.moveTokens mint (v.marketBookId m) user amount)

end Venue

inductive ExchangeOp where
  | createMarket (market : Market)
  | deposit (m : MarketId) (user : AccountId) (asset : UInt8) (amount : UInt64)
  | withdraw (m : MarketId) (user : AccountId) (asset : UInt8) (amount : UInt64)
  | placeOrder (m : MarketId) (r : PlaceOrder)
  | cancelOrder (m : MarketId) (owner : AccountId) (orderId : UInt64)
deriving DecidableEq

def Venue.step (v : Venue) (e : Exchange) : ExchangeOp → Exchange
  | .createMarket market => (v.createMarket market e).2
  | .deposit m user asset amount => (v.deposit m user asset amount.toNat e).2
  | .withdraw m user asset amount => (v.withdraw m user asset amount.toNat e).2
  | .placeOrder m r => (Exchange.inMarket m (placeOrder m r) e).2
  | .cancelOrder m owner orderId => (Exchange.inMarket m (cancelOrder m owner orderId.toNat) e).2

namespace Exchange

def Sound (e : Exchange) : Prop := ∀ m, ∃ queue, Orderly m (e.book m) queue

variable {e : Exchange} {m : MarketId} {α : Type}

theorem opening_sound (tree : StateTree) : Sound (opening tree) := by
  intro m
  refine ⟨fun _ _ => [], ⟨⟨fun _ _ => LinkedQueue.holds_nil, ?_, ?_, ⟨fun _ => ∅, Ladder.represents_empty, ?_⟩⟩, ?_, ?_, ?_,
    fun _ _ => .nil, fun _ => Nat.zero_lt_one, Nat.le_refl 1⟩⟩
  · intro _ _ _ _ _ member
    cases member
  · intro _ _ filled
    exact absurd rfl filled
  · intro _ _
    simp
  · intro _ _ _
    simp [opening, empty]
  · intro _ _ stored
    cases stored
  · intro _ _ filled
    exact absurd rfl filled

theorem inMarket_ok {x : BookM α} {a : α} {e' : Exchange} (done : Exchange.inMarket m x e = (.ok a, e')) :
    ∃ b', x (e.book m) = (.ok a, b') ∧ e' = { e with book := update e.book m b' } := by
  unfold Exchange.inMarket at done
  cases ran : x (e.book m) with
  | mk result b' =>
    rw [ran] at done
    cases done
    exact ⟨b', rfl, rfl⟩

theorem Sound.update {e' : Exchange} {b' : Book} (sound : Sound e) (books : e'.book = update e.book m b')
    (kept : ∀ queue, Orderly m (e.book m) queue → ∃ queue', Orderly m b' queue') : Sound e' := by
  intro other
  rw [books]
  by_cases same : other = m
  · subst same
    rw [update_self]
    obtain ⟨queue, orderly⟩ := sound other
    exact kept queue orderly
  · rw [update_of_ne same]
    exact sound other

variable (v : Venue)

theorem createMarket_cases (market : Market) (e : Exchange) :
    (v.createMarket market e).2 = e ∨ validateMarketConfig v market = .ok () ∧ (e.book market.marketId).market = none ∧
      (v.createMarket market e).2 = ⟨ensureAccount v.derive e.tree (v.marketBookId market.marketId),
        update e.book market.marketId { e.book market.marketId with market := some market }⟩ := by
  have clean : Clean (v.createMarket market) := by
    refine Clean.bind (Keeps.fetch _) (fun _ => Clean.bind (Keeps.read _)
      (fun _ => Clean.bind (Keeps.require _ _) (fun _ => ?_)))
    intro _ _ _ failed
    cases failed
  rcases clean.cases e with same | ⟨id, e', done⟩
  · exact Or.inl same
  refine Or.inr ?_
  rw [done]
  obtain ⟨_, _, checked, done⟩ := ok_bind.mp done
  obtain ⟨passed, rfl⟩ := ok_fetch.mp checked
  obtain ⟨_, _, looked, done⟩ := ok_bind.mp done
  obtain ⟨rfl, rfl⟩ := ok_read.mp looked
  obtain ⟨_, _, required, done⟩ := ok_bind.mp done
  obtain ⟨fresh, rfl⟩ := ok_require.mp required
  cases done
  exact ⟨ok_of_mapError passed, Option.isNone_iff_eq_none.mp fresh, rfl⟩

theorem moveTokens_ok {v : Venue} {mint sender recipient : AccountId} {amount : Nat} {u : Unit} {e' : Exchange}
    (positive : amount ≠ 0)
    (done : v.moveTokens mint sender recipient amount e = (.ok u, e')) :
    ∃ changes, v.tokens.transferBetweenOwners v.derive (ensureAccount v.derive e.tree recipient) mint.bytes sender recipient
      amount = (.ok changes, e'.tree) ∧ e'.book = e.book := by
  unfold Venue.moveTokens at done
  rw [if_neg positive, run_write] at done
  unfold Venue.transfer at done
  cases ran : v.tokens.transferBetweenOwners v.derive (ensureAccount v.derive e.tree recipient) mint.bytes sender recipient
      amount with
  | mk result t =>
    rw [ran] at done
    cases result with
    | error text => cases done
    | ok changes =>
      cases done
      exact ⟨changes, rfl, rfl⟩

theorem deposit_cases (m : MarketId) (user : AccountId) (asset : UInt8) (amount : Nat) (e : Exchange) :
    (v.deposit m user asset amount e).2 = e ∨ ∃ market mint changes t', amount ≠ 0 ∧ (e.book m).market = some market ∧
      mintForAsset market asset = .ok mint ∧
      v.tokens.transferBetweenOwners v.derive (ensureAccount v.derive e.tree (v.marketBookId m)) mint.bytes user
        (v.marketBookId m) amount = (.ok changes, t') ∧
      (v.deposit m user asset amount e).2 = ⟨t', update e.book m
        (setBalance user asset ((e.book m).balance user asset + amount) (e.book m))⟩ := by
  have clean : Clean (v.deposit m user asset amount) := by
    exact Clean.bind (Keeps.require _ _) (fun _ => Clean.bind (Keeps.demand _ _) (fun _ => Clean.bind (Keeps.fetch _) (fun _ =>
      Clean.bind (Keeps.fetch _) (fun _ => Clean.atomically _))))
  rcases clean.cases e with same | ⟨u, e', done⟩
  · exact Or.inl same
  refine Or.inr ?_
  rw [done]
  obtain ⟨_, _, required, done⟩ := ok_bind.mp done
  obtain ⟨positive, rfl⟩ := ok_require.mp required
  obtain ⟨market, _, demanded, done⟩ := ok_bind.mp done
  obtain ⟨found, rfl⟩ := ok_demand.mp demanded
  obtain ⟨_, _, active, done⟩ := ok_bind.mp done
  obtain ⟨-, rfl⟩ := ok_fetch.mp active
  obtain ⟨mint, _, minted, done⟩ := ok_bind.mp done
  obtain ⟨passed, rfl⟩ := ok_fetch.mp minted
  obtain ⟨_, mid, moved, credited⟩ := ok_bind.mp (ok_atomically.mp done)
  obtain ⟨changes, transferred, books⟩ := moveTokens_ok positive moved
  obtain ⟨b', ran, rfl⟩ := inMarket_ok credited
  have after := creditBalance_yields.elim ran
  refine ⟨market, mint, changes, mid.tree, positive, found, ok_of_mapError passed, transferred, ?_⟩
  rw [after, books]

theorem withdraw_cases (m : MarketId) (user : AccountId) (asset : UInt8) (amount : Nat) (e : Exchange) :
    (v.withdraw m user asset amount e).2 = e ∨ ∃ market mint changes t', amount ≠ 0 ∧ (e.book m).market = some market ∧
      mintForAsset market asset = .ok mint ∧ amount ≤ (e.book m).balance user asset ∧
      v.tokens.transferBetweenOwners v.derive (ensureAccount v.derive e.tree user) mint.bytes (v.marketBookId m) user
        amount = (.ok changes, t') ∧
      (v.withdraw m user asset amount e).2 = ⟨t', update e.book m
        (setBalance user asset ((e.book m).balance user asset - amount) (e.book m))⟩ := by
  have clean : Clean (v.withdraw m user asset amount) := by
    exact Clean.bind (Keeps.require _ _) (fun _ => Clean.bind (Keeps.demand _ _) (fun _ => Clean.bind (Keeps.fetch _) (fun _ =>
      Clean.atomically _)))
  rcases clean.cases e with same | ⟨u, e', done⟩
  · exact Or.inl same
  refine Or.inr ?_
  rw [done]
  obtain ⟨_, _, required, done⟩ := ok_bind.mp done
  obtain ⟨positive, rfl⟩ := ok_require.mp required
  obtain ⟨market, _, demanded, done⟩ := ok_bind.mp done
  obtain ⟨found, rfl⟩ := ok_demand.mp demanded
  obtain ⟨mint, _, minted, done⟩ := ok_bind.mp done
  obtain ⟨passed, rfl⟩ := ok_fetch.mp minted
  obtain ⟨_, mid, debited, moved⟩ := ok_bind.mp (ok_atomically.mp done)
  obtain ⟨b', ran, rfl⟩ := inMarket_ok debited
  obtain ⟨enough, after⟩ := debitBalance_yields.elim ran
  obtain ⟨changes, transferred, books⟩ := moveTokens_ok positive moved
  refine ⟨market, mint, changes, e'.tree, positive, found, ok_of_mapError passed, enough, transferred, ?_⟩
  cases e'
  dsimp only at books ⊢
  rw [books, after]

theorem Sound.atomic {x : BookM α} {I : Book → Prop} (sound : Sound e) (start : I (e.book m))
    (yields : ∀ queue, Orderly m (e.book m) queue →
      Yields Stop.Plain x (e.book m) (fun _ b' => (∃ queue', Orderly m b' queue') ∧ I b')) :
    Sound (Exchange.inMarket m (atomically x) e).2 ∧ I (atomically x (e.book m)).2 := by
  obtain ⟨queue, orderly⟩ := sound m
  have after : (∃ queue', Orderly m (atomically x (e.book m)).2 queue') ∧ I (atomically x (e.book m)).2 := by
    unfold atomically
    cases done : x (e.book m) with
    | mk result b' =>
      cases result with
      | ok a => exact (yields queue orderly).elim done
      | error _ => exact ⟨⟨queue, orderly⟩, start⟩
  exact ⟨sound.update rfl (fun _ _ => after.1), after.2⟩

/-- The market has numbered fewer than half of the orders it could: an order may take two handles of the ladder. -/
def Roomy (e : Exchange) : ExchangeOp → Prop
  | .placeOrder m _ => (e.book m).orderIdCounter < 2 ^ 63 - 1
  | _ => True

instance (e : Exchange) (op : ExchangeOp) : Decidable (Roomy e op) := by
  cases op <;> unfold Roomy <;> infer_instance

theorem step_sound (op : ExchangeOp) (sound : Sound e) (few : Roomy e op) : Sound (v.step e op) := by
  cases op with
  | createMarket market =>
    change Sound (v.createMarket market e).2
    rcases createMarket_cases v market e with same | ⟨-, -, done⟩
    · rw [same]
      exact sound
    · refine sound.update (congrArg Exchange.book done) (fun queue orderly => ⟨queue, ?_⟩)
      exact orderly.aside rfl
  | deposit m user asset amount =>
    change Sound (v.deposit m user asset amount.toNat e).2
    rcases deposit_cases v m user asset amount.toNat e with same | ⟨_, _, _, _, -, -, -, -, done⟩
    · rw [same]
      exact sound
    · exact sound.update (congrArg Exchange.book done) (fun queue orderly => ⟨queue, orderly.rebalanced rfl⟩)
  | withdraw m user asset amount =>
    change Sound (v.withdraw m user asset amount.toNat e).2
    rcases withdraw_cases v m user asset amount.toNat e with same | ⟨_, _, _, _, -, -, -, -, -, done⟩
    · rw [same]
      exact sound
    · exact sound.update (congrArg Exchange.book done) (fun queue orderly => ⟨queue, orderly.rebalanced rfl⟩)
  | placeOrder m r =>
    exact (sound.atomic True.intro (fun _ orderly => placeOrderInner_yields .trivial orderly True.intro r few)).1
  | cancelOrder m owner orderId =>
    exact (sound.atomic True.intro (fun _ orderly =>
      cancelOrderInner_yields .trivial orderly True.intro owner orderId.toNat)).1

theorem run_sound {v : Venue} {tree : StateTree} {ops : List ExchangeOp} (few : Meets v.step Roomy (opening tree) ops) :
    Sound (run v.step (opening tree) ops) :=
  run_invariant (fun _ op _ sound few => step_sound v op sound few) (opening_sound tree) few

/-- The next order or cancellation ends no loop early and meets no branch declared unreachable. -/
def Faultless (m : MarketId) (b : Book) : Prop :=
  (∀ r fault, b.orderIdCounter < 2 ^ 63 - 1 → (placeOrder m r b).1 ≠ .error (.fault fault)) ∧
    ∀ owner id fault, (cancelOrder m owner id b).1 ≠ .error (.fault fault)

theorem atomically_plain {x : BookM α} {b : Book} {Q : α → Book → Prop} (yields : Yields Stop.Plain x b Q) (fault : Fault) :
    (atomically x b).1 ≠ .error (.fault fault) := by
  intro failed
  unfold atomically at failed
  cases done : x b with
  | mk result b' =>
    rw [done] at failed
    cases result with
    | ok a => cases failed
    | error e =>
      obtain rfl : e = .fault fault := Except.error.inj failed
      exact yields.elim_error done

theorem faultless {queue : Queues} {b : Book} (orderly : Orderly m b queue) : Faultless m b :=
  ⟨fun r fault few => atomically_plain (placeOrderInner_yields .trivial orderly True.intro r few) fault,
    fun owner id fault => atomically_plain (cancelOrderInner_yields .trivial orderly True.intro owner id) fault⟩

open LinkedQueue in
theorem reached_resting {queue : Queues} {b : Book} (orderly : Orderly m b queue) {side : OrderSide} {price id : Nat}
    (reached : Reached b.node (b.level side price) id) :
    ∃ o, b.order id = some o ∧ o.side = side ∧ o.price = price ∧ o.Resting :=
  (orderly.listed side price id).mp (((orderly.linked.held side price).reached_iff id).mp reached)

open LinkedQueue in
/-- In every market, after any calls by anyone: both best prices can be read and the bid is below the ask, the orders met
from a level are open ones with something left, at their own side and price, and no further call faults. -/
theorem run_book_wellFormed (v : Venue) (tree : StateTree) (ops : List ExchangeOp) (m : MarketId)
    (few : Meets v.step Roomy (opening tree) ops) :
    let b := (run v.step (opening tree) ops).book m
    Faultless m b ∧ (∃ bid ask, bestPrice .buy b = (.ok bid, b) ∧ bestPrice .sell b = (.ok ask, b) ∧
      ∀ p q, bid = some p → ask = some q → p < q) ∧
    ∀ side price id, Reached b.node (b.level side price) id →
      ∃ o, b.order id = some o ∧ (o.status = .open ∨ o.status = .partiallyFilled) ∧ 0 < o.remainingQuantity ∧
        o.side = side ∧ o.price = price := by
  intro b
  obtain ⟨queue, orderly⟩ := run_sound few m
  obtain ⟨bid, readBid, bidSpec⟩ := bestPrice_linked orderly.linked .buy
  obtain ⟨ask, readAsk, askSpec⟩ := bestPrice_linked orderly.linked .sell
  refine ⟨faultless orderly, ⟨bid, ask, readBid, readAsk, ?_⟩, ?_⟩
  · rintro p q rfl rfl
    exact orderly.uncrossed p q bidSpec.1 askSpec.1
  · intro side price id reached
    obtain ⟨o, stored, sameSide, samePrice, status, more⟩ := reached_resting orderly reached
    exact ⟨o, stored, status, more, sameSide, samePrice⟩

open LinkedQueue in
/-- In every market, after any calls by anyone: the ladders hold the prices of the levels that are not empty, each level is a
doubly linked list, each resting order is met from exactly one level and nothing filled or cancelled from any, and no
further call faults. -/
theorem run_queues_represented (v : Venue) (tree : StateTree) (ops : List ExchangeOp) (m : MarketId)
    (few : Meets v.step Roomy (opening tree) ops) :
    let b := (run v.step (opening tree) ops).book m
    Faultless m b ∧ (∀ side price, b.ladder.Contains side price ↔ (b.level side price).1 ≠ 0) ∧
    (∀ side price, WellLinked b.node (b.level side price)) ∧
    (∀ id o, b.order id = some o → o.Resting →
      ∃! place : OrderSide × Nat, Reached b.node (b.level place.1 place.2) id) ∧
    ∀ side price id, Reached b.node (b.level side price) id →
      ∃ o, b.order id = some o ∧ o.status ≠ .filled ∧ o.status ≠ .cancelled := by
  intro b
  obtain ⟨queue, orderly⟩ := run_sound few m
  have held := orderly.linked.held
  refine ⟨faultless orderly, ?_, fun side price => (held side price).wellLinked, ?_, ?_⟩
  · intro side price
    obtain ⟨sets, rep, keys⟩ := orderly.linked.ladder
    rw [(rep.refines (by decide : 64 < ladderRounds)).members, keys, ne_eq, ne_eq, ← (ends_eq_zero (held side price)).1]
  · intro id o stored rests
    have member := (orderly.listed o.side o.price id).mpr ⟨o, stored, rfl, rfl, rests⟩
    refine ⟨(o.side, o.price), ((held _ _).reached_iff id).mpr member, ?_⟩
    rintro ⟨side, price⟩ reached
    obtain ⟨rfl, rfl⟩ := orderly.linked.apart _ _ _ _ id (((held side price).reached_iff id).mp reached) member
    rfl
  · intro side price id reached
    obtain ⟨o, stored, -, -, status, -⟩ := reached_resting orderly reached
    refine ⟨o, stored, ?_, ?_⟩
    · rcases status with status | status <;> simp [status]
    · rcases status with status | status <;> simp [status]

end Exchange

namespace SmallVenue

def base : AccountId := ⟨11⟩

def quote : AccountId := ⟨12⟩

def seller : AccountId := ⟨1⟩

def buyer : AccountId := ⟨2⟩

def tokens : TokenSlots where
  program := ⟨999⟩
  mintSlot mint := mint + 1000000
  authoritySlot mint := mint + 2000000
  balanceSlot mint owner := mint * 1000 + owner.bytes
  allowanceSlot mint owner spender := mint + owner.bytes + spender.bytes
  contractSlot _ := 0

def venue : Venue where
  tokens := tokens
  derive := ⟨fun _ => 0, fun _ => 0, fun _ => ⟨0⟩, fun _ => ⟨0⟩, fun _ _ => 0, fun _ => 0⟩
  marketBookId m := ⟨m + 500⟩
  deriveMarketId b q := b.bytes * 2 + q.bytes

def pair : Market := ⟨34, base, quote, 1, 1, 0, 0, true⟩

def book : AccountId := venue.marketBookId 34

def tree : StateTree :=
  (((StateTree.new.setStorage ⟨999⟩ (tokens.mintSlot base.bytes) 1).setStorage ⟨999⟩ (tokens.mintSlot quote.bytes)
    1).setStorage
    ⟨999⟩ (tokens.balanceSlot base.bytes seller) (u64Word 100)).setStorage ⟨999⟩
      (tokens.balanceSlot quote.bytes buyer) (u64Word 1000)

def ask : PlaceOrder := ⟨seller, .sell, .limit, 10, 20, .goodTilCancelled, by decide, by decide⟩

def bid : PlaceOrder := ⟨buyer, .buy, .limit, 11, 8, .goodTilCancelled, by decide, by decide⟩

def traded : List ExchangeOp :=
  [.createMarket pair, .deposit 34 seller 0 50, .deposit 34 buyer 1 500, .placeOrder 34 ask, .placeOrder 34 bid]

def cancelled : List ExchangeOp := traded ++ [.cancelOrder 34 seller 1]

end SmallVenue

open SmallVenue Exchange

theorem cancelled_book_wellFormed : ((run venue.step (opening tree) cancelled).book 34).orderIdCounter = 3 ∧
    ((run venue.step (opening tree) cancelled).book 34).balance seller assetQuote = 80 ∧
    Faultless 34 ((run venue.step (opening tree) cancelled).book 34) :=
  ⟨by decide +kernel, by decide +kernel, (run_book_wellFormed venue tree cancelled 34 (by decide +kernel)).1⟩

theorem cancelled_queues_represented : ((run venue.step (opening tree) traded).book 34).level .sell 10 = (1, 1) ∧
    ((run venue.step (opening tree) cancelled).book 34).level .sell 10 = (0, 0) ∧
    ¬((run venue.step (opening tree) cancelled).book 34).ladder.Contains .sell 10 := by
  refine ⟨by decide +kernel, by decide +kernel, ?_⟩
  rw [(run_queues_represented venue tree cancelled 34 (by decide +kernel)).2.1]
  decide +kernel

end AceChain.Liquid
