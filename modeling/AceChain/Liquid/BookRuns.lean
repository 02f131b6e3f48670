import AceChain.Liquid.BookShape

namespace AceChain.Liquid

open Lib Handler Yields Stop Function

/-- The call stopped because the code said so, not because a loop of the model was cut short. -/
def Stop.Plain : Stop → Prop
  | .error _ => True
  | .fault _ => False

def Order.Resting (o : Order) : Prop := (o.status = .open ∨ o.status = .partiallyFilled) ∧ 0 < o.remainingQuantity

instance (o : Order) : Decidable o.Resting := by
  unfold Order.Resting
  infer_instance

namespace Book

def Rebalanced (b b' : Book) : Prop := b' = { b with balance := b'.balance }

section

variable {b : Book} {user : AccountId} {asset : UInt8} {amount : Nat}

theorem setBalance_self : setBalance user asset (b.balance user asset) b = b := by
  unfold setBalance
  rw [update_eq_self, update_eq_self]

theorem creditBalance_yields : Yields Plain (creditBalance user asset amount) b
    (fun _ b' => b' = setBalance user asset (b.balance user asset + amount) b) := by
  unfold creditBalance
  by_cases zero : amount = 0
  · rw [if_pos zero, zero, Nat.add_zero, setBalance_self]
    exact pure rfl
  · rw [if_neg zero]
    refine read ?_
    refine bind (demand trivial) ?_
    rintro new _ ⟨found, rfl⟩
    exact write (by rw [u64CheckedAdd_eq found])

theorem debitBalance_yields : Yields Plain (debitBalance user asset amount) b
    (fun _ b' => amount ≤ b.balance user asset ∧ b' = setBalance user asset (b.balance user asset - amount) b) := by
  unfold debitBalance
  by_cases zero : amount = 0
  · rw [if_pos zero, zero, Nat.sub_zero, setBalance_self]
    exact pure ⟨Nat.zero_le _, rfl⟩
  · rw [if_neg zero]
    refine read ?_
    refine bind (require trivial) ?_
    rintro _ _ ⟨enough, rfl⟩
    exact write ⟨enough, rfl⟩

end

def sequenceOf (b : Book) (id : Nat) : Nat := ((b.order id).map (·.sequence)).getD 0

/-- The book of a market: its queues hold the resting orders, each at its own side and price and behind those placed
before it, and no bid reaches an ask. An order takes at most two handles of the ladder. -/
structure Orderly (m : MarketId) (b : Book) (queue : Queues) : Prop where
  linked : Linked b queue
  listed : ∀ side price id, id ∈ queue side price ↔
    ∃ o, b.order id = some o ∧ o.side = side ∧ o.price = price ∧ o.Resting
  numbered : ∀ id o, b.order id = some o → o.orderId = id ∧ o.marketId = m ∧ 0 < id ∧ id < b.orderIdCounter
  uncrossed : ∀ p q, queue .buy p ≠ [] → queue .sell q ≠ [] → p < q
  timed : ∀ side price, (queue side price).Pairwise (fun x y => b.sequenceOf x < b.sequenceOf y)
  sequenced : ∀ id, b.sequenceOf id < max b.sequenceCounter 1
  handles : b.ladder.upcoming ≤ 2 * b.orderIdCounter + 1

structure Steady (b b' : Book) : Prop where
  counter : b'.orderIdCounter = b.orderIdCounter
  clock : b'.sequenceCounter = b.sequenceCounter
  sequences : b'.sequenceOf = b.sequenceOf
  handles : b'.ladder.upcoming = b.ladder.upcoming

theorem Steady.refl (b : Book) : Steady b b := ⟨rfl, rfl, rfl, rfl⟩

theorem Steady.trans {b b' b'' : Book} (first : Steady b b') (second : Steady b' b'') : Steady b b'' :=
  ⟨second.counter.trans first.counter, second.clock.trans first.clock, second.sequences.trans first.sequences,
    second.handles.trans first.handles⟩

def onBook (b : Book) (id : Nat) : Bool := (b.order id).any (fun o => decide o.Resting)

def load (b : Book) : Nat := ((Finset.range b.orderIdCounter).filter (fun id => b.onBook id = true)).card

section

variable {m : MarketId} {b b' : Book} {queue queue' : Queues} {o : Order} {id : Nat}

theorem Linked.congr (linked : Linked b queue) (node : b'.node = b.node) (level : b'.level = b.level)
    (ladder : b'.ladder = b.ladder) : Linked b' queue := by
  obtain ⟨held, apart, small, keys⟩ := linked
  refine ⟨?_, apart, small, ?_⟩
  · rw [node, level]
    exact held
  · rw [ladder]
    exact keys

theorem onBook_iff : b.onBook id = true ↔ ∃ o, b.order id = some o ∧ o.Resting := by
  unfold onBook
  cases b.order id <;> simp

theorem Orderly.aside (orderly : Orderly m b queue) (same : b' = { b with balance := b'.balance, market := b'.market }) :
    Orderly m b' queue := by
  rw [same]
  exact ⟨orderly.linked.congr rfl rfl rfl, orderly.listed, orderly.numbered, orderly.uncrossed, orderly.timed,
    orderly.sequenced, orderly.handles⟩

theorem Orderly.rebalanced (orderly : Orderly m b queue) (same : Rebalanced b b') : Orderly m b' queue :=
  orderly.aside (by rw [same])

theorem order_putOrder_self : (putOrder o b).order o.orderId = some o := update_self ..

theorem order_putOrder_other (other : id ≠ o.orderId) : (putOrder o b).order id = b.order id :=
  update_of_ne other ..

theorem sequenceOf_stored (stored : b.order id = some o) : b.sequenceOf id = o.sequence := by
  unfold sequenceOf
  rw [stored]
  rfl

theorem sequenceOf_putOrder (orders : b'.order = b.order) :
    (putOrder o b').sequenceOf = update b.sequenceOf o.orderId o.sequence := by
  funext x
  unfold sequenceOf
  by_cases self : x = o.orderId
  · rw [self, order_putOrder_self, update_self]
    rfl
  · rw [order_putOrder_other self, orders, update_of_ne self]

theorem Orderly.put (orderly : Orderly m b queue) (linked : Linked b' queue') (orders : b'.order = b.order)
    (counter : b'.orderIdCounter = b.orderIdCounter) (clock : b'.sequenceCounter = b.sequenceCounter)
    (market : o.marketId = m) (range : 0 < o.orderId ∧ o.orderId < b.orderIdCounter)
    (others : ∀ side price x, x ≠ o.orderId → (x ∈ queue' side price ↔ x ∈ queue side price))
    (own : ∀ side price, o.orderId ∈ queue' side price ↔ o.side = side ∧ o.price = price ∧ o.Resting)
    (uncrossed : ∀ p q, queue' .buy p ≠ [] → queue' .sell q ≠ [] → p < q)
    (timed : ∀ side price, (queue' side price).Pairwise (fun x y =>
      update b.sequenceOf o.orderId o.sequence x < update b.sequenceOf o.orderId o.sequence y))
    (sequence : o.sequence < max b.sequenceCounter 1) (handles : b'.ladder.upcoming ≤ 2 * b.orderIdCounter + 1) :
    Orderly m (putOrder o b') queue' := by
  have sequences := sequenceOf_putOrder (o := o) orders
  refine ⟨linked.congr rfl rfl rfl, ?_, ?_, uncrossed, sequences ▸ timed, ?_, ?_⟩
  · intro side price x
    by_cases self : x = o.orderId
    · subst self
      rw [own, order_putOrder_self]
      simp
    · rw [others side price x self, order_putOrder_other self, orders]
      exact orderly.listed side price x
  · intro x found stored
    change _ ∧ _ ∧ _ ∧ x < b'.orderIdCounter
    rw [counter]
    by_cases self : x = o.orderId
    · subst self
      rw [order_putOrder_self, Option.some.injEq] at stored
      subst stored
      exact ⟨rfl, market, range⟩
    · rw [order_putOrder_other self, orders] at stored
      exact orderly.numbered x found stored
  · intro x
    change _ < max b'.sequenceCounter 1
    rw [sequences, clock]
    by_cases self : x = o.orderId
    · rw [self, update_self]
      exact sequence
    · rw [update_of_ne self]
      exact orderly.sequenced x
  · change b'.ladder.upcoming ≤ 2 * b'.orderIdCounter + 1
    rw [counter]
    exact handles

theorem Orderly.timed_others (orderly : Orderly m b queue)
    (fewer : ∀ side price, (queue' side price).Sublist (queue side price))
    (absent : ∀ side price, o.orderId ∉ queue' side price) (side : OrderSide) (price : Nat) :
    (queue' side price).Pairwise (fun x y =>
      update b.sequenceOf o.orderId o.sequence x < update b.sequenceOf o.orderId o.sequence y) := by
  refine ((orderly.timed side price).sublist (fewer side price)).imp_of_mem ?_
  intro x y first second earlier
  have other : ∀ z ∈ queue' side price, z ≠ o.orderId := by
    rintro z member rfl
    exact absent side price member
  rwa [update_of_ne (other x first), update_of_ne (other y second)]

theorem mem_setQueue_drop {side side' : OrderSide} {price price' x : Nat} {xs ys : List Nat} (linked : Linked b queue)
    (here : queue side price = xs ++ id :: ys) :
    x ∈ setQueue queue side price (xs ++ ys) side' price' ↔ x ∈ queue side' price' ∧ x ≠ id := by
  have nodup := (linked.held side price).nodup
  have self : id ∈ queue side price := by simp [here]
  by_cases same : side' = side ∧ price' = price
  · obtain ⟨rfl, rfl⟩ := same
    rw [setQueue_same, here]
    rw [here, List.nodup_append, List.nodup_cons] at nodup
    obtain ⟨-, ⟨notBack, -⟩, apart⟩ := nodup
    have notFront : id ∉ xs := fun member => apart id member id List.mem_cons_self rfl
    constructor
    · intro member
      refine ⟨?_, ?_⟩
      · rcases List.mem_append.mp member with front | back
        · exact List.mem_append_left _ front
        · exact List.mem_append_right _ (List.mem_cons_of_mem _ back)
      · rintro rfl
        exact (List.mem_append.mp member).elim notFront notBack
    · rintro ⟨member, other⟩
      rcases List.mem_append.mp member with front | back
      · exact List.mem_append_left _ front
      · exact List.mem_append_right _ ((List.mem_cons.mp back).resolve_left other)
  · rw [setQueue_other same]
    exact ⟨fun member => ⟨member, linked.elsewhere same member (Or.inl self)⟩, fun both => both.1⟩

theorem setQueue_sublist {side : OrderSide} {price : Nat} {xs ys : List Nat} (here : queue side price = xs ++ id :: ys)
    (side' : OrderSide) (price' : Nat) :
    (setQueue queue side price (xs ++ ys) side' price').Sublist (queue side' price') := by
  by_cases same : side' = side ∧ price' = price
  · obtain ⟨rfl, rfl⟩ := same
    rw [setQueue_same, here]
    exact List.Sublist.append_left (List.sublist_cons_self id ys) xs
  · rw [setQueue_other same]

def Shrinks (queue queue' : Queues) : Prop := ∀ side price, queue' side price ≠ [] → queue side price ≠ []

theorem shrinks_of_mem (fewer : ∀ side price x, x ∈ queue' side price → x ∈ queue side price) : Shrinks queue queue' := by
  intro side price filled
  obtain ⟨x, member⟩ := List.exists_mem_of_ne_nil _ filled
  exact List.ne_nil_of_mem (fewer side price x member)

theorem Shrinks.uncrossed (shrinks : Shrinks queue queue')
    (before : ∀ p q, queue .buy p ≠ [] → queue .sell q ≠ [] → p < q) :
    ∀ p q, queue' .buy p ≠ [] → queue' .sell q ≠ [] → p < q :=
  fun p q bids asks => before p q (shrinks .buy p bids) (shrinks .sell q asks)

theorem Orderly.leave {side : OrderSide} {price : Nat} {xs ys : List Nat} (orderly : Orderly m b queue)
    (here : queue side price = xs ++ id :: ys) (relinked : Relinked b b')
    (given : b'.ladder.upcoming = b.ladder.upcoming) (linked : Linked b' (setQueue queue side price (xs ++ ys)))
    (same : o.orderId = id) (market : o.marketId = m) (sequence : o.sequence = b.sequenceOf id) (gone : ¬ o.Resting) :
    Orderly m (putOrder o b') (setQueue queue side price (xs ++ ys)) ∧
      Shrinks queue (setQueue queue side price (xs ++ ys)) := by
  have shrinks : Shrinks queue (setQueue queue side price (xs ++ ys)) :=
    shrinks_of_mem (fun _ _ _ member => ((mem_setQueue_drop orderly.linked here).mp member).1)
  obtain ⟨held, stored, -⟩ := (orderly.listed side price id).mp (by simp [here])
  obtain ⟨-, -, range⟩ := orderly.numbered id held stored
  refine ⟨orderly.put linked (by rw [relinked]) (by rw [relinked]) (by rw [relinked]) market (same ▸ range) ?_ ?_
    (shrinks.uncrossed orderly.uncrossed) (orderly.timed_others (setQueue_sublist here) ?_)
    (sequence ▸ orderly.sequenced id) (given ▸ orderly.handles), shrinks⟩
  · intro side' price' x other
    rw [mem_setQueue_drop orderly.linked here]
    exact ⟨fun both => both.1, fun member => ⟨member, same ▸ other⟩⟩
  · intro side' price'
    rw [mem_setQueue_drop orderly.linked here]
    exact ⟨fun both => absurd same both.2, fun rests => absurd rests.2.2 gone⟩
  · intro side' price' member
    exact ((mem_setQueue_drop orderly.linked here).mp member).2 same

theorem load_le (same : b'.orderIdCounter = b.orderIdCounter) (fewer : ∀ x, b'.onBook x = true → b.onBook x = true) :
    b'.load ≤ b.load := by
  unfold load
  rw [same]
  exact Finset.card_le_card (Finset.monotone_filter_right _ (fun x _ there => fewer x there))

theorem load_lt (same : b'.orderIdCounter = b.orderIdCounter) (fewer : ∀ x, b'.onBook x = true → b.onBook x = true)
    (below : id < b.orderIdCounter) (was : b.onBook id = true) (gone : b'.onBook id = false) : b'.load < b.load := by
  unfold load
  rw [same]
  refine Finset.card_lt_card ((Finset.ssubset_iff_of_subset
    (Finset.monotone_filter_right _ (fun x _ there => fewer x there))).mpr ⟨id, ?_, ?_⟩)
  · rw [Finset.mem_filter, Finset.mem_range]
    exact ⟨below, was⟩
  · rw [Finset.mem_filter, gone]
    simp

end

section

variable {m : MarketId} {b b' : Book} {queue queue' : Queues} {taker maker o : Order} {id : Nat}

theorem Rebalanced.trans {b'' : Book} (first : Rebalanced b b') (second : Rebalanced b' b'') : Rebalanced b b'' := by
  unfold Rebalanced at *
  rw [second, first]

theorem creditBalance_rebalanced (user : AccountId) (asset : UInt8) (amount : Nat) :
    Yields Plain (creditBalance user asset amount) b (fun _ b' => Rebalanced b b') := by
  refine creditBalance_yields.mono ?_
  rintro _ _ rfl
  rfl

theorem debitBalance_rebalanced (user : AccountId) (asset : UInt8) (amount : Nat) :
    Yields Plain (debitBalance user asset amount) b (fun _ b' => Rebalanced b b') := by
  refine debitBalance_yields.mono ?_
  rintro _ _ ⟨-, rfl⟩
  rfl

theorem settleFill_rebalanced (taker maker : Order) (quantity quote : Nat) :
    Yields Plain (settleFill taker maker quantity quote) b (fun _ b' => Rebalanced b b') := by
  have chain : ∀ (payer getter third : AccountId) (paid got : UInt8) (x y z : Nat) (last : UInt8),
      Yields Plain (do debitBalance payer paid x; creditBalance getter got y; creditBalance third last z) b
        (fun _ b' => Rebalanced b b') := by
    intro payer getter third paid got x y z last
    refine bind (debitBalance_rebalanced payer paid x) ?_
    intro _ b₁ first
    refine bind (creditBalance_rebalanced getter got y) ?_
    intro _ b₂ second
    exact (creditBalance_rebalanced third last z).mono (fun _ _ third => (first.trans second).trans third)
  unfold settleFill
  cases taker.side with
  | buy => exact chain ..
  | sell => exact chain ..

structure Filled (m : MarketId) (b : Book) (queue : Queues) (taker : Order) (id : Nat) (taker' : Order) (b' : Book) :
    Prop where
  orderly : ∃ queue', Orderly m b' queue' ∧ Shrinks queue queue'
  same : taker' = { taker with remainingQuantity := taker'.remainingQuantity }
  steady : Steady b b'
  others : ∀ x, x ≠ id → b'.order x = b.order x
  progress : (taker'.remainingQuantity = 0 ∧ b'.load ≤ b.load) ∨ b'.load < b.load

theorem onBook_congr {x : Nat} (same : b'.order x = b.order x) : b'.onBook x = b.onBook x := by
  unfold onBook
  rw [same]

theorem fill_overflow (beyond : ¬ min taker.remainingQuantity maker.remainingQuantity * maker.price ≤ u64Max) :
    fill taker maker b = (.error (.error .arithmeticOverflow), b) := run_require_not beyond _

theorem fill_refused {e : Stop} (fits : min taker.remainingQuantity maker.remainingQuantity * maker.price ≤ u64Max)
    (refused : settleFill taker maker (min taker.remainingQuantity maker.remainingQuantity)
      (min taker.remainingQuantity maker.remainingQuantity * maker.price) b = (.error e, b')) :
    fill taker maker b = (.error e, b') := by
  unfold fill
  rw [run_require fits]
  exact run_bind_error refused

def queuesAfter (queue : Queues) (taker maker : Order) (rest : List Nat) : Queues :=
  if maker.remainingQuantity - min taker.remainingQuantity maker.remainingQuantity = 0 then
    setQueue queue (oppositeSide taker.side) maker.price rest
  else queue

theorem fill_settled {rest : List Nat} {u : Unit} {b₁ : Book} (orderly : Orderly m b queue) (stored : b.order id = some maker)
    (front : queue (oppositeSide taker.side) maker.price = id :: rest)
    (fits : min taker.remainingQuantity maker.remainingQuantity * maker.price ≤ u64Max)
    (settled : settleFill taker maker (min taker.remainingQuantity maker.remainingQuantity)
      (min taker.remainingQuantity maker.remainingQuantity * maker.price) b = (.ok u, b₁)) :
    ∃ b', fill taker maker b = (.ok
        ({ taker with remainingQuantity := taker.remainingQuantity - min taker.remainingQuantity maker.remainingQuantity },
          ⟨taker.marketId, maker.orderId, taker.orderId, maker.owner, taker.owner, taker.side, maker.price,
            min taker.remainingQuantity maker.remainingQuantity,
            min taker.remainingQuantity maker.remainingQuantity * maker.price⟩), b') ∧
      b'.balance = b₁.balance ∧ Steady b b' ∧ b'.market = b.market ∧
      b'.order = update b.order id (some (filledBy maker (min taker.remainingQuantity maker.remainingQuantity))) ∧
      Orderly m b' (queuesAfter queue taker maker rest) ∧ Shrinks queue (queuesAfter queue taker maker rest) := by
  obtain ⟨found, stored', side, price, rests⟩ := (orderly.listed _ _ id).mp (front ▸ List.mem_cons_self)
  obtain rfl : maker = found := Option.some.inj (stored.symm.trans stored')
  obtain ⟨named, market, range⟩ := orderly.numbered id maker stored
  have rebalanced := (settleFill_rebalanced taker maker _ _).elim settled
  have orderly₁ := orderly.rebalanced rebalanced
  have orders : b₁.order = b.order := by rw [rebalanced]
  have counter : b₁.orderIdCounter = b.orderIdCounter := by rw [rebalanced]
  unfold fill queuesAfter
  rw [run_require fits, run_bind settled]
  generalize amount : min taker.remainingQuantity maker.remainingQuantity = quantity
  have namedFilled : (filledBy maker quantity).orderId = id := named
  have marketFilled : (filledBy maker quantity).marketId = m := market
  have written : ∀ b₂ : Book, b₂.order = b.order →
      (putOrder (filledBy maker quantity) b₂).order = update b.order id (some (filledBy maker quantity)) := by
    intro b₂ same
    change update b₂.order (filledBy maker quantity).orderId _ = _
    rw [same, namedFilled]
  have sequence : (filledBy maker quantity).sequence = b.sequenceOf id := (sequenceOf_stored stored).symm
  have sequences : ∀ b₂ : Book, b₂.order = b.order → (putOrder (filledBy maker quantity) b₂).sequenceOf = b.sequenceOf := by
    intro b₂ same
    rw [sequenceOf_putOrder same, namedFilled, sequence, update_eq_self]
  have ladder : b₁.ladder = b.ladder := by rw [rebalanced]
  have clock : b₁.sequenceCounter = b.sequenceCounter := by rw [rebalanced]
  by_cases done : (filledBy maker quantity).remainingQuantity = 0
  · -- the maker is used up: it leaves its queue
    have here : queue (oppositeSide taker.side) maker.price = [] ++ id :: rest := front
    obtain ⟨b₂, removed, relinked, given, linked⟩ := removeOrderFromQueue_linked orderly₁.linked here
    have sequence₁ : b₁.sequenceOf id = b.sequenceOf id := by rw [rebalanced]; rfl
    have gone : ¬ (filledBy maker quantity).Resting := fun rests => by
      have := rests.2
      omega
    obtain ⟨orderly₂, shrinks⟩ := orderly₁.leave here relinked given linked namedFilled marketFilled
      (sequence.trans sequence₁.symm) gone
    have orders₂ : b₂.order = b.order := by rw [relinked, orders]
    have steady₂ : Steady b (putOrder (filledBy maker quantity) b₂) := by
      refine ⟨?_, ?_, sequences b₂ orders₂, given.trans (congrArg Ladder.upcoming ladder)⟩
      · exact Eq.trans (by rw [relinked]; rfl) counter
      · exact Eq.trans (by rw [relinked]; rfl) clock
    have balance₂ : b₂.balance = b₁.balance := by rw [relinked]
    have market₂ : b₂.market = b.market := by rw [relinked, rebalanced]
    refine ⟨putOrder (filledBy maker quantity) b₂, ?_, balance₂, steady₂, market₂, written b₂ orders₂, ?_⟩
    · rw [if_pos done, named, run_bind removed]
      rfl
    · have used : maker.remainingQuantity - quantity = 0 := done
      rw [if_pos used]
      exact ⟨orderly₂, shrinks⟩
  · -- the taker is used up and the maker keeps its place
    have left : 0 < maker.remainingQuantity - quantity := Nat.pos_of_ne_zero done
    have stays : (filledBy maker quantity).Resting := ⟨Or.inr (if_neg done), left⟩
    have market₁ : b₁.market = b.market := by rw [rebalanced]
    have steady₁ : Steady b (putOrder (filledBy maker quantity) b₁) :=
      ⟨counter, clock, sequences b₁ orders, congrArg Ladder.upcoming ladder⟩
    refine ⟨putOrder (filledBy maker quantity) b₁, ?_, rfl, steady₁, market₁, written b₁ orders, ?_⟩
    · rw [if_neg done]
      rfl
    · rw [if_neg left.ne']
      refine ⟨?_, fun _ _ filled => filled⟩
      refine orderly₁.put orderly₁.linked rfl rfl rfl marketFilled ?_ (fun _ _ _ _ => Iff.rfl) ?_ orderly₁.uncrossed
        ?_ (clock ▸ sequence ▸ orderly.sequenced id) orderly₁.handles
      · rw [counter]
        exact named ▸ range
      · intro side' price'
        change maker.orderId ∈ _ ↔ maker.side = side' ∧ maker.price = price' ∧ _
        rw [named, orderly.listed]
        constructor
        · rintro ⟨o, there, sameSide, samePrice, -⟩
          obtain rfl := Option.some.inj (stored.symm.trans there)
          exact ⟨sameSide, samePrice, stays⟩
        · rintro ⟨sameSide, samePrice, -⟩
          exact ⟨maker, stored, sameSide, samePrice, rests⟩
      · rw [← sequenceOf_putOrder (o := filledBy maker quantity) (rfl : b₁.order = b₁.order), sequences b₁ orders]
        exact orderly.timed

theorem fill_yields {rest : List Nat} (orderly : Orderly m b queue) (stored : b.order id = some maker)
    (front : queue (oppositeSide taker.side) maker.price = id :: rest) :
    Yields Plain (fill taker maker) b (fun result b' => Filled m b queue taker id result.1 b') := by
  obtain ⟨found, stored', side, price, rests⟩ := (orderly.listed _ _ id).mp (front ▸ List.mem_cons_self)
  obtain rfl : maker = found := Option.some.inj (stored.symm.trans stored')
  obtain ⟨-, -, range⟩ := orderly.numbered id maker stored
  have was : b.onBook id = true := onBook_iff.mpr ⟨maker, stored, rests⟩
  have payments := settleFill_rebalanced (b := b) taker maker (min taker.remainingQuantity maker.remainingQuantity)
    (min taker.remainingQuantity maker.remainingQuantity * maker.price)
  by_cases fits : min taker.remainingQuantity maker.remainingQuantity * maker.price ≤ u64Max
  · cases settled : settleFill taker maker (min taker.remainingQuantity maker.remainingQuantity)
        (min taker.remainingQuantity maker.remainingQuantity * maker.price) b with
    | mk result b₁ =>
      cases result with
      | error e => exact .of_error (fill_refused fits settled) (payments.elim_error settled)
      | ok u =>
        obtain ⟨b', done, -, steady, -, orders, orderly', shrinks⟩ := fill_settled orderly stored front fits settled
        have counter := steady.counter
        refine .of_ok done ⟨⟨_, orderly', shrinks⟩, rfl, steady, ?_, ?_⟩
        · intro x other
          rw [orders, update_of_ne other]
        · have fewer : ∀ x, b'.onBook x = true → b.onBook x = true := by
            intro x there
            by_cases self : x = id
            · exact self ▸ was
            · rwa [← onBook_congr (by rw [orders, update_of_ne self])]
          by_cases left : maker.remainingQuantity - min taker.remainingQuantity maker.remainingQuantity = 0
          · have off : b'.onBook id = false := by
              unfold onBook
              rw [orders, update_self]
              simp [Order.Resting, filledBy, left]
            exact Or.inr (load_lt counter fewer range.2 was off)
          · have empty : taker.remainingQuantity - min taker.remainingQuantity maker.remainingQuantity = 0 := by omega
            exact Or.inl ⟨empty, load_le counter fewer⟩
  · exact .of_error (fill_overflow fits) trivial

structure Matched (m : MarketId) (b : Book) (taker taker' : Order) (blocked : Bool) (b' : Book) : Prop where
  orderly : ∃ queue', Orderly m b' queue' ∧ (blocked = false → 0 < taker'.remainingQuantity → taker.orderType = .limit →
    ∀ price, queue' (oppositeSide taker.side) price ≠ [] → priceCrosses taker price = false)
  same : taker' = { taker with remainingQuantity := taker'.remainingQuantity }
  steady : Steady b b'
  absent : b'.order taker.orderId = none

theorem frontOrderAt_linked {side : OrderSide} {price : Nat} (linked : Linked b queue) (filled : queue side price ≠ []) :
    ∃ id rest, queue side price = id :: rest ∧ frontOrderAt side price b = some id := by
  have held := linked.held side price
  cases here : queue side price with
  | nil => exact absurd here filled
  | cons id rest =>
    have head : (b.level side price).1 = id := by
      rw [held.ends, here]
      rfl
    have nonzero : id ≠ 0 := by
      rintro rfl
      exact held.nonzero (here ▸ List.mem_cons_self)
    refine ⟨id, rest, rfl, ?_⟩
    unfold frontOrderAt
    rw [head, if_pos nonzero]

theorem priceCrosses_of_best {p price : Nat} (best : AtLeastAsGood (oppositeSide taker.side) p price)
    (apart : priceCrosses taker p = false) : priceCrosses taker price = false := by
  unfold priceCrosses at *
  cases side : taker.side with
  | buy =>
    rw [side] at best apart
    simp only [oppositeSide, AtLeastAsGood, decide_eq_false_iff_not] at best apart ⊢
    omega
  | sell =>
    rw [side] at best apart
    simp only [oppositeSide, AtLeastAsGood, decide_eq_false_iff_not] at best apart ⊢
    omega

/-- Rounds that are enough: each fill takes an order off the book or ends the taker, and the last round only looks. -/
def roundsFor (b : Book) (taker : Order) : Nat := if taker.remainingQuantity = 0 then b.load + 1 else b.load + 2

theorem Filled.rounds {taker' : Order} (filled : Filled m b queue taker id taker' b') (active : taker.remainingQuantity ≠ 0) :
    roundsFor b' taker' + 1 ≤ roundsFor b taker := by
  unfold roundsFor
  rw [if_neg active]
  rcases filled.progress with ⟨done, less⟩ | less
  · rw [if_pos done]
    omega
  · by_cases done : taker'.remainingQuantity = 0
    · rw [if_pos done]
      omega
    · rw [if_neg done]
      omega

theorem Matched.of_same {taker' : Order} {blocked : Bool} (filled : Filled m b queue taker id taker' b')
    {b'' : Book} {taker'' : Order} (matched : Matched m b' taker' taker'' blocked b'') :
    Matched m b taker taker'' blocked b'' := by
  obtain ⟨orderly, same, steady, absent⟩ := matched
  have shape := filled.same
  rw [shape] at orderly same absent
  exact ⟨orderly, same, filled.steady.trans steady, absent⟩

def FillInvariant (m : MarketId) (I : Book → Prop) : Prop :=
  ∀ b queue taker maker id rest, Orderly m b queue → b.order id = some maker →
    queue (oppositeSide taker.side) maker.price = id :: rest → I b →
      Yields Plain (fill taker maker) b (fun _ b' => I b')

structure Kept (m : MarketId) (I : Book → Prop) : Prop where
  fill : FillInvariant m I
  advance : ∀ {b queue} (sequence : Nat), Orderly m b queue → I b →
    I { b with orderIdCounter := max b.orderIdCounter 1 + 1, sequenceCounter := sequence }
  record : ∀ {b : Book} {o : Order}, I b → o.orderId < b.orderIdCounter → b.order o.orderId = none → ¬ o.Resting →
    I (putOrder o b)
  rest : ∀ {b b₁ b₂ : Book} {o : Order} {u : Unit} (status : OrderStatus), I b → o.orderId < b.orderIdCounter →
    b.order o.orderId = none → Order.Resting { o with status := status } → lockRestingFunds o b = (.ok u, b₁) →
    Relinked b₁ b₂ → I (putOrder { o with status := status } b₂)
  cancel : ∀ {b b₁ b₂ : Book} {o : Order} {u : Unit}, I b → o.orderId < b.orderIdCounter → b.order o.orderId = some o →
    o.Resting → refundRestingFunds o b = (.ok u, b₁) → Relinked b₁ b₂ →
    I (putOrder { o with status := .cancelled, remainingQuantity := 0 } b₂)

variable {I : Book → Prop}

theorem matchTaker_yields (keep : FillInvariant m I) (fuel : Nat) (trades : List Trade)
    (orderly : Orderly m b queue) (start : I b) (absent : b.order taker.orderId = none)
    (enough : roundsFor b taker ≤ fuel) :
    Yields Plain (matchTaker fuel taker trades) b
      (fun result b' => Matched m b taker result.1 result.2.2 b' ∧ I b') := by
  induction fuel generalizing b queue taker trades with
  | zero =>
    unfold roundsFor at enough
    split at enough <;> omega
  | succ fuel ih =>
    unfold matchTaker
    by_cases done : taker.remainingQuantity = 0
    · rw [if_pos done]
      exact pure ⟨⟨⟨queue, orderly, fun _ more => absurd done (Nat.ne_of_gt more)⟩, rfl, .refl b, absent⟩, start⟩
    rw [if_neg done]
    obtain ⟨best, asked, spec⟩ := bestPrice_linked orderly.linked (oppositeSide taker.side)
    refine bind_ok asked ?_
    cases best with
    | none =>
      exact pure ⟨⟨⟨queue, orderly, fun _ _ _ price filled => absurd (spec price) filled⟩, rfl, .refl b, absent⟩, start⟩
    | some p =>
      obtain ⟨filled, bestOf⟩ := spec
      by_cases apart : taker.orderType = .limit ∧ priceCrosses taker p = false
      · dsimp only
        rw [if_pos apart]
        refine pure ⟨⟨⟨queue, orderly, ?_⟩, rfl, .refl b, absent⟩, start⟩
        intro _ _ _ price there
        exact priceCrosses_of_best (bestOf price there) apart.2
      · obtain ⟨id, rest, here, front⟩ := frontOrderAt_linked orderly.linked filled
        obtain ⟨maker, stored, side, price, rests⟩ := (orderly.listed _ _ id).mp (here ▸ List.mem_cons_self)
        have differs : taker.orderId ≠ id := by
          rintro rfl
          rw [absent] at stored
          cases stored
        dsimp only
        rw [if_neg apart]
        refine read ?_
        rw [front]
        refine bind (demand trivial) ?_
        rintro found _ ⟨fetched, rfl⟩
        obtain rfl : maker = found := Option.some.inj (stored.symm.trans fetched)
        by_cases own : maker.owner = taker.owner
        · rw [if_pos own]
          exact pure ⟨⟨⟨queue, orderly, fun free => by cases free⟩, rfl, .refl b, absent⟩, start⟩
        rw [if_neg own]
        rw [← price] at here
        refine bind ((fill_yields orderly stored here).and (keep b queue taker maker id rest orderly stored here start)) ?_
        rintro ⟨taker', trade⟩ b' ⟨step, kept⟩
        dsimp only at step ⊢
        obtain ⟨queue', orderly', -⟩ := step.orderly
        have named : taker'.orderId = taker.orderId := by rw [step.same]
        have absent' : b'.order taker'.orderId = none := by rw [named, step.others _ differs, absent]
        have rounds := step.rounds done
        exact (ih (trades ++ [trade]) orderly' kept absent' (by omega)).mono
          (fun _ _ both => ⟨Matched.of_same step both.1, both.2⟩)

theorem lockRestingFunds_rebalanced (o : Order) :
    Yields Plain (lockRestingFunds o) b (fun _ b' => Rebalanced b b') := by
  unfold lockRestingFunds
  cases o.side with
  | buy =>
    refine bind (demand trivial) ?_
    rintro lock _ ⟨-, rfl⟩
    exact debitBalance_rebalanced ..
  | sell => exact debitBalance_rebalanced ..

theorem refundRestingFunds_rebalanced (o : Order) :
    Yields Plain (refundRestingFunds o) b (fun _ b' => Rebalanced b b') := by
  unfold refundRestingFunds
  cases o.side with
  | buy =>
    refine bind (demand trivial) ?_
    rintro refund _ ⟨-, rfl⟩
    exact creditBalance_rebalanced ..
  | sell => exact creditBalance_rebalanced ..

theorem uncrossed_join {ids : List Nat} (before : ∀ p q, queue .buy p ≠ [] → queue .sell q ≠ [] → p < q)
    (clear : ∀ price, queue (oppositeSide o.side) price ≠ [] → priceCrosses o price = false) :
    ∀ p q, setQueue queue o.side o.price ids .buy p ≠ [] → setQueue queue o.side o.price ids .sell q ≠ [] → p < q := by
  intro p q bids asks
  unfold priceCrosses at clear
  cases side : o.side with
  | buy =>
    rw [side] at bids asks clear
    have gap := clear q asks
    simp only [decide_eq_false_iff_not] at gap
    by_cases here : p = o.price
    · omega
    · rw [setQueue_other (fun h => here h.2)] at bids
      exact before p q bids asks
  | sell =>
    rw [side] at bids asks clear
    have gap := clear p bids
    simp only [decide_eq_false_iff_not] at gap
    by_cases here : q = o.price
    · omega
    · rw [setQueue_other (fun h => here h.2)] at asks
      exact before p q bids asks

theorem Orderly.outside (orderly : Orderly m b queue) (absent : b.order id = none) (side : OrderSide) (price : Nat) :
    id ∉ queue side price := by
  intro member
  obtain ⟨_, stored, -⟩ := (orderly.listed side price _).mp member
  rw [absent] at stored
  cases stored

/-- An order that is about to be placed: it has a fresh id and the latest sequence, and handles are left for its price. -/
structure Incoming (m : MarketId) (b : Book) (o : Order) : Prop where
  market : o.marketId = m
  bound : o.price < 2 ^ 64
  range : 0 < o.orderId ∧ o.orderId < b.orderIdCounter
  latest : ∀ id, b.sequenceOf id < o.sequence
  sequence : o.sequence < max b.sequenceCounter 1
  spare : b.ladder.upcoming + 2 ≤ 2 * b.orderIdCounter + 1
  few : b.orderIdCounter < 2 ^ 63

theorem Incoming.restated (incoming : Incoming m b o) (quantity : Nat) (status : OrderStatus) (same : Rebalanced b b') :
    Incoming m b' { o with remainingQuantity := quantity, status := status } := by
  rw [same]
  exact ⟨incoming.market, incoming.bound, incoming.range, incoming.latest, incoming.sequence, incoming.spare, incoming.few⟩

theorem Incoming.matched {blocked : Bool} {taker' : Order} (incoming : Incoming m b taker)
    (matched : Matched m b taker taker' blocked b') : Incoming m b' taker' := by
  obtain ⟨market, bound, range, latest, sequence, spare, few⟩ := incoming
  obtain ⟨counter, clock, sequences, handles⟩ := matched.steady
  rw [matched.same]
  rw [← counter] at range spare few
  rw [← sequences] at latest
  rw [← clock] at sequence
  rw [← handles] at spare
  exact ⟨market, bound, range, latest, sequence, spare, few⟩

theorem Orderly.join (orderly : Orderly m b queue) (incoming : Incoming m b o) (relinked : Relinked b b')
    (given : b'.ladder.upcoming ≤ b.ladder.upcoming + 2)
    (linked : Linked b' (setQueue queue o.side o.price (queue o.side o.price ++ [o.orderId])))
    (absent : b.order o.orderId = none) (rests : o.Resting)
    (clear : ∀ price, queue (oppositeSide o.side) price ≠ [] → priceCrosses o price = false) :
    Orderly m (putOrder o b') (setQueue queue o.side o.price (queue o.side o.price ++ [o.orderId])) := by
  have outside := orderly.outside absent
  have timed := orderly.timed_others (fun _ _ => List.Sublist.refl _) outside
  refine orderly.put linked (by rw [relinked]) (by rw [relinked]) (by rw [relinked]) incoming.market incoming.range ?_ ?_
    (uncrossed_join orderly.uncrossed clear) ?_ incoming.sequence (given.trans incoming.spare)
  · intro side price x other
    by_cases here : side = o.side ∧ price = o.price
    · rw [here.1, here.2, setQueue_same]
      simp [other]
    · rw [setQueue_other here]
  · intro side price
    by_cases here : side = o.side ∧ price = o.price
    · rw [here.1, here.2, setQueue_same]
      simp [rests]
    · rw [setQueue_other here]
      constructor
      · intro member
        exact absurd member (outside side price)
      · rintro ⟨sameSide, samePrice, -⟩
        exact absurd ⟨sameSide.symm, samePrice.symm⟩ here
  · intro side price
    by_cases here : side = o.side ∧ price = o.price
    · -- the new order stands last, and its sequence is the latest
      rw [here.1, here.2, setQueue_same, List.pairwise_append]
      refine ⟨timed _ _, List.pairwise_singleton _ _, ?_⟩
      intro x member y last
      have differ : x ≠ o.orderId := by
        rintro rfl
        exact outside _ _ member
      rw [List.mem_singleton.mp last, update_self, update_of_ne differ]
      exact incoming.latest x
    · rw [setQueue_other here]
      exact timed side price

theorem Orderly.record (orderly : Orderly m b queue) (incoming : Incoming m b o) (absent : b.order o.orderId = none)
    (gone : ¬ o.Resting) : Orderly m (putOrder o b) queue := by
  have outside := orderly.outside absent
  refine orderly.put orderly.linked rfl rfl rfl incoming.market incoming.range (fun _ _ _ _ => Iff.rfl) ?_
    orderly.uncrossed (orderly.timed_others (fun _ _ => List.Sublist.refl _) outside) incoming.sequence orderly.handles
  intro side price
  exact ⟨fun member => absurd member (outside side price), fun rests => absurd rests.2.2 gone⟩

theorem settleRemainder_yields (kept : Kept m I) {r : PlaceOrder} {trades : List Trade} {blocked : Bool}
    {taker₀ : Order} {b₀ : Book} (matched : Matched m b₀ taker₀ taker blocked b) (start : I b)
    (incoming : Incoming m b₀ taker₀) :
    Yields Plain (settleRemainder r taker trades blocked) b
      (fun o b' => (∃ queue', Orderly m (putOrder o b') queue') ∧ I (putOrder o b')) := by
  have incoming := incoming.matched matched
  obtain ⟨⟨queue, orderly, clear⟩, same, -, absent⟩ := matched
  unfold settleRemainder
  have fields : taker.orderId = taker₀.orderId ∧ taker.side = taker₀.side ∧
      taker.price = taker₀.price ∧ taker.orderType = taker₀.orderType := by
    rw [same]
    exact ⟨rfl, rfl, rfl, rfl⟩
  obtain ⟨named, sameSide, samePrice, sameType⟩ := fields
  rw [← named] at absent
  have recorded : ∀ quantity status, ¬ Order.Resting { taker with remainingQuantity := quantity, status := status } →
      (∃ queue', Orderly m (putOrder { taker with remainingQuantity := quantity, status := status } b) queue') ∧
        I (putOrder { taker with remainingQuantity := quantity, status := status } b) := by
    intro quantity status gone
    exact ⟨⟨queue, orderly.record (incoming.restated quantity status rfl) absent gone⟩,
      kept.record start incoming.range.2 absent gone⟩
  by_cases rest : 0 < taker.remainingQuantity ∧ taker.orderType = .limit ∧ blocked = false ∧
      timeInForceAllowsResting r.timeInForce = true
  · rw [if_pos rest]
    obtain ⟨more, limit, free, -⟩ := rest
    refine bind (lockRestingFunds_rebalanced _).told ?_
    rintro _ b₁ ⟨locked, rebalanced⟩
    have orderly₁ := orderly.rebalanced rebalanced
    have incoming₁ := incoming.restated taker.remainingQuantity
      (if taker.remainingQuantity < taker.quantity then .partiallyFilled else .open) rebalanced
    have absent₁ : b₁.order taker.orderId = none := by
      rw [rebalanced]
      exact absent
    have room : b₁.ladder.upcoming + 2 < 2 ^ 64 := by
      have spare := incoming₁.spare
      have few := incoming₁.few
      omega
    obtain ⟨b₂, queued, relinked, given, linked⟩ := enqueueOrder_linked taker.side orderly₁.linked
      (Nat.ne_of_gt incoming.range.1) (orderly₁.outside absent₁) incoming.bound room
    have rests : Order.Resting { taker with
        status := if taker.remainingQuantity < taker.quantity then .partiallyFilled else .open } := by
      refine ⟨?_, more⟩
      split <;> simp
    refine bind_ok queued (pure ⟨⟨_, orderly₁.join incoming₁ relinked given linked absent₁ rests ?_⟩,
      kept.rest _ start incoming.range.2 absent rests locked relinked⟩)
    intro price there
    have apart := clear free more (sameType ▸ limit) price (sameSide ▸ there)
    unfold priceCrosses at apart ⊢
    rw [← sameSide, ← samePrice] at apart
    exact apart
  · rw [if_neg rest]
    by_cases stuck : 0 < taker.remainingQuantity ∧ taker.orderType = .market ∧ trades = []
    · rw [if_pos stuck]
      trivial
    · rw [if_neg stuck]
      by_cases more : 0 < taker.remainingQuantity
      · rw [if_pos more]
        exact pure (recorded _ _ (fun rests => Nat.lt_irrefl 0 rests.2))
      · rw [if_neg more]
        exact pure (recorded _ _ (fun rests => more rests.2))

theorem load_lt_counter (orderly : Orderly m b queue) (positive : 0 < b.orderIdCounter) : b.load < b.orderIdCounter := by
  have zero : b.onBook 0 = false := by
    rw [← Bool.not_eq_true, onBook_iff]
    rintro ⟨o, stored, -⟩
    exact Nat.lt_irrefl 0 (orderly.numbered 0 o stored).2.2.1
  have fewer : (Finset.range b.orderIdCounter).filter (fun id => b.onBook id = true) ⊂ Finset.range b.orderIdCounter := by
    refine (Finset.ssubset_iff_of_subset (Finset.filter_subset _ _)).mpr ⟨0, Finset.mem_range.mpr positive, ?_⟩
    rw [Finset.mem_filter, zero]
    simp
  have counted := Finset.card_lt_card fewer
  rw [Finset.card_range] at counted
  exact counted

theorem nextOrderId_yields : Yields Plain nextOrderId b
    (fun id b' => id = max b.orderIdCounter 1 ∧ b' = { b with orderIdCounter := id + 1 }) := by
  refine read ?_
  refine bind (demand trivial) ?_
  rintro next _ ⟨found, rfl⟩
  exact bind_ok rfl (pure ⟨rfl, by rw [u64CheckedAdd_eq found]⟩)

theorem nextSequence_yields : Yields Plain nextSequence b
    (fun n b' => n = max b.sequenceCounter 1 ∧ b' = { b with sequenceCounter := n + 1 }) := by
  refine read ?_
  refine bind (demand trivial) ?_
  rintro next _ ⟨found, rfl⟩
  exact bind_ok rfl (pure ⟨rfl, by rw [u64CheckedAdd_eq found]⟩)

theorem Orderly.advance (orderly : Orderly m b queue) :
    Orderly m { b with
      orderIdCounter := max b.orderIdCounter 1 + 1, sequenceCounter := max b.sequenceCounter 1 + 1 } queue := by
  refine ⟨orderly.linked.congr rfl rfl rfl, orderly.listed, ?_, orderly.uncrossed, orderly.timed, ?_, ?_⟩
  · intro x o stored
    obtain ⟨named, market, positive, below⟩ := orderly.numbered x o stored
    refine ⟨named, market, positive, ?_⟩
    dsimp only
    omega
  · intro x
    have before := orderly.sequenced x
    change b.sequenceOf x < max (max b.sequenceCounter 1 + 1) 1
    omega
  · have before := orderly.handles
    dsimp only
    omega

theorem Orderly.fresh (orderly : Orderly m b queue) : b.order (max b.orderIdCounter 1) = none := by
  cases stored : b.order (max b.orderIdCounter 1) with
  | none => rfl
  | some o =>
    obtain ⟨-, -, -, below⟩ := orderly.numbered _ o stored
    omega

theorem plain_of_mapError {α : Type} (check : Except LiquidError α) (e : Stop) (failed : check.mapError .error = .error e) :
    e.Plain := by
  cases check with
  | ok _ => cases failed
  | error _ =>
    cases failed
    trivial

theorem placeOrderInner_yields (kept : Kept m I) (orderly : Orderly m b queue) (start : I b) (r : PlaceOrder)
    (few : b.orderIdCounter < 2 ^ 63 - 1) :
    Yields Plain (placeOrderInner m r) b (fun _ b' => (∃ queue', Orderly m b' queue') ∧ I b') := by
  refine bind (demand trivial) ?_
  rintro market _ ⟨-, rfl⟩
  refine bind (fetch (plain_of_mapError _)) ?_
  rintro _ _ ⟨-, rfl⟩
  refine bind (fetch (plain_of_mapError _)) ?_
  rintro _ _ ⟨-, rfl⟩
  refine bind nextOrderId_yields ?_
  rintro _ _ ⟨rfl, rfl⟩
  refine bind nextSequence_yields ?_
  rintro _ b₁ ⟨rfl, counted⟩
  have orderly₁ : Orderly m b₁ queue := by
    rw [counted]
    exact orderly.advance
  have start₁ : I b₁ := by
    rw [counted]
    exact kept.advance _ orderly start
  have counter : b₁.orderIdCounter = max b.orderIdCounter 1 + 1 := by rw [counted]
  have absent : b₁.order (max b.orderIdCounter 1) = none := by
    rw [counted]
    exact orderly.fresh
  have loaded := load_lt_counter orderly₁ (by omega)
  refine read ?_
  refine bind (matchTaker_yields kept.fill (matchRounds b₁) [] orderly₁ start₁ absent ?_) ?_
  · unfold roundsFor matchRounds
    split <;> omega
  rintro ⟨taker, trades, blocked⟩ b₂ ⟨matched, start₂⟩
  refine bind (require trivial) ?_
  rintro _ _ ⟨-, rfl⟩
  have incoming : Incoming m b₁ ⟨max b.orderIdCounter 1, m, r.owner, r.side, r.orderType, r.price, r.quantity, r.quantity,
      .open, max b.sequenceCounter 1⟩ := by
    have handles := orderly.handles
    rw [counted]
    refine ⟨rfl, Nat.lt_of_le_of_lt r.price_le (by decide), ⟨?_, ?_⟩, orderly.sequenced, ?_, ?_, ?_⟩ <;> dsimp only <;> omega
  refine bind (settleRemainder_yields kept matched start₂ incoming) ?_
  intro o b₃ placed
  exact bind_ok rfl (pure placed)

theorem cancelOrderInner_yields (kept : Kept m I) (orderly : Orderly m b queue) (start : I b) (owner : AccountId)
    (orderId : Nat) :
    Yields Plain (cancelOrderInner m owner orderId) b (fun _ b' => (∃ queue', Orderly m b' queue') ∧ I b') := by
  refine bind (demand trivial) ?_
  rintro _ _ ⟨-, rfl⟩
  refine bind (demand trivial) ?_
  rintro o _ ⟨stored, rfl⟩
  refine bind (require trivial) ?_
  rintro _ _ ⟨-, rfl⟩
  refine bind (require trivial) ?_
  rintro _ _ ⟨⟨status, more⟩, rfl⟩
  refine bind (refundRestingFunds_rebalanced o).told ?_
  rintro _ b₁ ⟨refunded, rebalanced⟩
  have orderly₁ := orderly.rebalanced rebalanced
  have rests : o.Resting := ⟨status, Nat.pos_of_ne_zero more⟩
  obtain ⟨named, market, range⟩ := orderly.numbered orderId o stored
  have member : orderId ∈ queue o.side o.price := (orderly.listed o.side o.price orderId).mpr ⟨o, stored, rfl, rfl, rests⟩
  obtain ⟨xs, ys, here⟩ := List.append_of_mem member
  obtain ⟨b₂, removed, relinked, given, linked⟩ := removeOrderFromQueue_linked orderly₁.linked here
  refine bind_ok removed ?_
  let cancelled : Order := { o with status := .cancelled, remainingQuantity := 0 }
  have gone : ¬ cancelled.Resting := fun rests => Nat.lt_irrefl 0 rests.2
  have sequence : cancelled.sequence = b₁.sequenceOf orderId := by
    rw [rebalanced]
    exact (sequenceOf_stored stored).symm
  obtain ⟨orderly₂, -⟩ := orderly₁.leave (o := cancelled) here relinked given linked named market sequence gone
  rw [← named] at range stored
  exact bind_ok rfl (pure ⟨⟨_, orderly₂⟩, kept.cancel start range.2 stored rests refunded relinked⟩)

theorem Kept.trivial : Kept m (fun _ => True) where
  fill _ _ _ _ _ _ orderly stored front _ := (fill_yields orderly stored front).mono (fun _ _ _ => True.intro)
  advance _ _ _ := True.intro
  record _ _ _ _ := True.intro
  rest _ _ _ _ _ _ _ := True.intro
  cancel _ _ _ _ _ _ := True.intro

end

end Book

end AceChain.Liquid
