import AceChain.Liquid.Solvency
import Mathlib.Data.Finset.Sort

namespace AceChain.Liquid

open Lib Handler Function List

variable (taker maker : Order)

def tradeWith : Trade :=
  ⟨taker.marketId, maker.orderId, taker.orderId, maker.owner, taker.owner, taker.side, maker.price,
    min taker.remainingQuantity maker.remainingQuantity, min taker.remainingQuantity maker.remainingQuantity * maker.price⟩

def takerAfter : Order :=
  { taker with remainingQuantity := taker.remainingQuantity - min taker.remainingQuantity maker.remainingQuantity }

/-- The matcher one would write for a list of makers in the order of their priority: it trades with one after the other
until the taker is filled, a price does not cross or the taker avoids a maker. -/
def reference (avoids : Order → Order → Bool) : List Order → Order → Order × List Trade × Bool
  | [], taker => (taker, [], false)
  | maker :: rest, taker =>
    if taker.remainingQuantity = 0 then (taker, [], false)
    else if taker.orderType = .limit ∧ priceCrosses taker maker.price = false then (taker, [], false)
    else if avoids taker maker then (taker, [], true)
    else
      let result := reference avoids rest (takerAfter taker maker)
      (result.1, tradeWith taker maker :: result.2.1, result.2.2)

def ownOrder : Bool := maker.owner = taker.owner

theorem ownOrder_iff {taker maker : Order} : ownOrder taker maker = true ↔ maker.owner = taker.owner := decide_eq_true_iff

variable {avoids : Order → Order → Bool}

theorem reference_filled {taker : Order} (done : taker.remainingQuantity = 0) (makers : List Order) :
    reference avoids makers taker = (taker, [], false) := by
  cases makers with
  | nil => rfl
  | cons maker rest => exact if_pos done

theorem reference_unblocked {makers : List Order} {taker : Order}
    (free : (reference avoids makers taker).2.2 = false) :
    reference avoids makers taker = reference (fun _ _ => false) makers taker := by
  induction makers generalizing taker with
  | nil => rfl
  | cons maker rest ih =>
    unfold reference at free ⊢
    by_cases done : taker.remainingQuantity = 0
    · rw [if_pos done, if_pos done]
    rw [if_neg done] at free ⊢
    by_cases apart : taker.orderType = .limit ∧ priceCrosses taker maker.price = false
    · rw [if_pos apart, if_neg done, if_pos apart]
    rw [if_neg apart] at free ⊢
    rw [if_neg done, if_neg apart, if_neg Bool.false_ne_true]
    by_cases avoided : avoids taker maker = true
    · rw [if_pos avoided] at free
      cases free
    · rw [if_neg avoided] at free ⊢
      rw [ih free]

theorem reference_quantities (avoids : Order → Order → Bool) (makers : List Order) (taker : Order) :
    ((reference avoids makers taker).2.1.map (·.quantity)).sum + (reference avoids makers taker).1.remainingQuantity =
      taker.remainingQuantity := by
  induction makers generalizing taker with
  | nil => simp [reference]
  | cons maker rest ih =>
    unfold reference
    split
    · simp
    split
    · simp
    split
    · simp
    have later := ih (takerAfter taker maker)
    simp only [map_cons, sum_cons]
    unfold takerAfter tradeWith at *
    dsimp only at later ⊢
    omega

namespace Book

def settle (t : Trade) : BookM Unit := do
  require (t.quoteQuantity ≤ u64Max) (.error .arithmeticOverflow)
  match t.side with
  | .buy => do
    debitBalance t.taker assetQuote t.quoteQuantity
    creditBalance t.taker assetBase t.quantity
    creditBalance t.maker assetQuote t.quoteQuantity
  | .sell => do
    debitBalance t.taker assetBase t.quantity
    creditBalance t.taker assetQuote t.quoteQuantity
    creditBalance t.maker assetBase t.quantity

def settleAll : List Trade → BookM Unit
  | [] => pure ()
  | t :: ts => do
    settle t
    settleAll ts

/-- Price-time priority: a better price, or the same price and an earlier sequence. -/
def Precedes (side : OrderSide) (x y : Order) : Prop :=
  AtLeastAsGood side x.price y.price ∧ (x.price = y.price → x.sequence < y.sequence)

/-- The makers of a side in the order they are served: better prices first, and the orders of a price in the order of
its queue, the order they were placed in. -/
structure PriceTime (b : Book) (queue : Queues) (side : OrderSide) (makers : List Order) : Prop where
  sorted : makers.Pairwise (Precedes side)
  queued : ∀ price, (makers.filter (fun o => o.price = price)).map (·.orderId) = queue side price
  stored : ∀ o ∈ makers, b.order o.orderId = some o

def OnBalances {α : Type} (x : BookM α) : Prop := ∀ b b', b.balance = b'.balance →
  (x b).1 = (x b').1 ∧ (x b).2.balance = (x b').2.balance

namespace OnBalances

variable {α β : Type}

theorem bind {x : BookM α} {f : α → BookM β} (first : OnBalances x) (rest : ∀ a, OnBalances (f a)) : OnBalances (x >>= f) := by
  intro b b' same
  obtain ⟨result, balance⟩ := first b b' same
  change (andThen x f b).1 = (andThen x f b').1 ∧ (andThen x f b).2.balance = (andThen x f b').2.balance
  unfold andThen
  cases ran : x b with
  | mk answer mid =>
    cases ran' : x b' with
    | mk answer' mid' =>
      rw [ran, ran'] at result balance
      obtain rfl : answer = answer' := result
      cases answer with
      | ok a => exact rest a mid mid' balance
      | error e => exact ⟨rfl, balance⟩

theorem pure (a : α) : OnBalances (pure a : BookM α) := fun _ _ same => ⟨rfl, same⟩

theorem require (c : Prop) [Decidable c] (e : Stop) : OnBalances (require c e) := fun _ _ same => ⟨rfl, same⟩

theorem demand (f : Option α) (e : Stop) : OnBalances (demand (fun _ => f) e) := by
  intro b b' same
  cases f <;> exact ⟨rfl, same⟩

variable (user : AccountId) (asset : UInt8)

theorem balance : OnBalances (read (fun b => b.balance user asset) : BookM Nat) := by
  intro b b' same
  refine ⟨?_, same⟩
  change Except.ok (b.balance user asset) = Except.ok (b'.balance user asset)
  rw [same]

variable (amount : Nat)

theorem setBalance : OnBalances (write (setBalance user asset amount)) := by
  intro b b' same
  refine ⟨rfl, ?_⟩
  change update b.balance user _ = update b'.balance user _
  rw [same]

theorem credit : OnBalances (creditBalance user asset amount) := by
  unfold creditBalance
  split
  · exact .pure ()
  · exact (balance user asset).bind fun _ => .bind (.demand _ _) fun _ => .setBalance user asset _

theorem debit : OnBalances (debitBalance user asset amount) := by
  unfold debitBalance
  split
  · exact .pure ()
  · exact (balance user asset).bind fun _ => .bind (.require _ _) fun _ => .setBalance user asset _

theorem settle (t : Trade) : OnBalances (settle t) := by
  refine .bind (.require _ _) fun _ => ?_
  cases t.side with
  | buy => exact .bind (.debit _ _ _) fun _ => .bind (.credit _ _ _) fun _ => .credit _ _ _
  | sell => exact .bind (.debit _ _ _) fun _ => .bind (.credit _ _ _) fun _ => .credit _ _ _

theorem settleAll (ts : List Trade) : OnBalances (settleAll ts) := by
  induction ts with
  | nil => exact .pure ()
  | cons t ts ih => exact .bind (.settle t) fun _ => ih

end OnBalances

section

variable {m : MarketId} {b b' : Book} {queue : Queues} {side : OrderSide} {makers rest : List Order} {maker taker : Order}

theorem atLeastAsGood_refl (side : OrderSide) (price : Nat) : AtLeastAsGood side price price := by
  cases side <;> exact Nat.le_refl price

theorem atLeastAsGood_antisymm {p q : Nat} (first : AtLeastAsGood side p q) (second : AtLeastAsGood side q p) : p = q := by
  cases side with
  | buy => exact Nat.le_antisymm second first
  | sell => exact Nat.le_antisymm first second

theorem PriceTime.nothing (line : PriceTime b queue side []) (price : Nat) : queue side price = [] := (line.queued price).symm

theorem PriceTime.front (line : PriceTime b queue side (maker :: rest)) :
    queue side maker.price = maker.orderId :: (rest.filter (fun o => o.price = maker.price)).map (·.orderId) := by
  rw [← line.queued]
  simp

variable {price : Nat}

theorem PriceTime.best (line : PriceTime b queue side (maker :: rest)) (filled : queue side price ≠ []) :
    AtLeastAsGood side maker.price price := by
  rw [← line.queued price] at filled
  obtain ⟨id, listed⟩ := exists_mem_of_ne_nil _ filled
  obtain ⟨o, among, -⟩ := List.mem_map.mp listed
  obtain ⟨member, samePrice⟩ := List.mem_filter.mp among
  have samePrice : o.price = price := of_decide_eq_true samePrice
  rcases List.mem_cons.mp member with rfl | later
  · exact samePrice ▸ atLeastAsGood_refl side o.price
  · exact samePrice ▸ (rel_of_pairwise_cons line.sorted later).1

section

variable (orderly : Orderly m b queue)

include orderly

theorem PriceTime.found (line : PriceTime b queue side (maker :: rest)) :
    bestPrice side b = (.ok (some maker.price), b) ∧ frontOrderAt side maker.price b = some maker.orderId := by
  have front := line.front
  have filled : queue side maker.price ≠ [] := by
    rw [front]
    exact cons_ne_nil _ _
  obtain ⟨best, asked, spec⟩ := bestPrice_linked orderly.linked side
  obtain ⟨id, others, here, first⟩ := frontOrderAt_linked orderly.linked filled
  obtain rfl : id = maker.orderId := (List.cons.inj (here.symm.trans front)).1
  refine ⟨?_, first⟩
  cases best with
  | none => exact absurd (spec maker.price) filled
  | some p =>
    obtain rfl : maker.price = p := atLeastAsGood_antisymm (line.best spec.1) (spec.2 _ filled)
    exact asked

theorem PriceTime.others (line : PriceTime b queue side (maker :: rest)) {o : Order}
    (later : o ∈ rest) : o.orderId ≠ maker.orderId := by
  intro same
  have stored := line.stored o (mem_cons_of_mem _ later)
  rw [same, line.stored maker mem_cons_self] at stored
  obtain rfl : maker = o := Option.some.inj stored
  have nodup := (orderly.linked.held side maker.price).nodup
  rw [line.front] at nodup
  refine (List.nodup_cons.mp nodup).1 (mem_map_of_mem ?_)
  exact List.mem_filter.mpr ⟨later, decide_eq_true rfl⟩

theorem PriceTime.tail (line : PriceTime b queue side (maker :: rest)) {written : Option Order}
    (orders : b'.order = update b.order maker.orderId written) :
    PriceTime b' (setQueue queue side maker.price ((rest.filter (fun o => o.price = maker.price)).map (·.orderId)))
      side rest where
  sorted := List.Pairwise.of_cons line.sorted
  queued := by
    intro price
    by_cases here : price = maker.price
    · rw [here, setQueue_same]
    · rw [setQueue_other (fun both => here both.2), ← line.queued price]
      simp [Ne.symm here]
  stored := by
    intro o later
    rw [orders, update_of_ne (line.others orderly later)]
    exact line.stored o (mem_cons_of_mem _ later)

theorem level_orders (side : OrderSide) (price : Nat) {ids : List Nat} (listed : ids.Sublist (queue side price)) :
    (ids.filterMap b.order).map (·.orderId) = ids ∧ (ids.filterMap b.order).Pairwise (fun x y => x.sequence < y.sequence) ∧
      ∀ o ∈ ids.filterMap b.order, o.price = price ∧ b.order o.orderId = some o := by
  have timed := (orderly.timed side price).sublist listed
  replace listed := listed.subset
  induction ids with
  | nil => exact ⟨rfl, .nil, fun o member => by cases member⟩
  | cons id ids ih =>
    obtain ⟨here, later⟩ := List.cons_subset.mp listed
    obtain ⟨first, rest⟩ := List.pairwise_cons.mp timed
    obtain ⟨o, stored, -, samePrice, -⟩ := (orderly.listed side price id).mp here
    obtain ⟨named, -, -⟩ := orderly.numbered id o stored
    obtain ⟨names, sorted, facts⟩ := ih rest later
    rw [filterMap_cons_some stored]
    refine ⟨?_, List.pairwise_cons.mpr ⟨?_, sorted⟩, ?_⟩
    · rw [map_cons, names, named]
    · intro x member
      have after : x.orderId ∈ ids := names ▸ mem_map_of_mem member
      rw [← sequenceOf_stored stored, ← sequenceOf_stored (facts x member).2]
      exact first _ after
    · intro x member
      rcases List.mem_cons.mp member with rfl | member
      · exact ⟨samePrice, named ▸ stored⟩
      · exact facts x member

end

def makersAt (b : Book) (queue : Queues) (side : OrderSide) (prices : List Nat) : List Order :=
  prices.flatMap (fun price => (queue side price).filterMap b.order)

variable {prices : List Nat}

section

variable (orderly : Orderly m b queue)

include orderly

theorem mem_makersAt {o : Order} (member : o ∈ makersAt b queue side prices) :
    o.price ∈ prices ∧ b.order o.orderId = some o := by
  obtain ⟨price, among, there⟩ := List.mem_flatMap.mp member
  obtain ⟨samePrice, stored⟩ := (level_orders orderly side price (List.Sublist.refl _)).2.2 o there
  exact ⟨samePrice ▸ among, stored⟩

theorem makersAt_elsewhere (absent : price ∉ prices) :
    (makersAt b queue side prices).filter (fun o => o.price = price) = [] := by
  rw [filter_eq_nil_iff]
  intro o member samePrice
  exact absent (of_decide_eq_true samePrice ▸ (mem_makersAt orderly member).1)

theorem makersAt_queued (nodup : prices.Nodup) (among : price ∈ prices) :
    ((makersAt b queue side prices).filter (fun o => o.price = price)).map (·.orderId) = queue side price := by
  induction prices with
  | nil => cases among
  | cons p ps ih =>
    obtain ⟨absent, nodup⟩ := List.nodup_cons.mp nodup
    obtain ⟨names, -, facts⟩ := level_orders orderly side p (List.Sublist.refl _)
    have split : makersAt b queue side (p :: ps) = (queue side p).filterMap b.order ++ makersAt b queue side ps := rfl
    rw [split, filter_append]
    by_cases here : price = p
    · have whole : ((queue side p).filterMap b.order).filter (fun o => o.price = p) = (queue side p).filterMap b.order :=
        List.filter_eq_self.mpr fun o member => decide_eq_true (facts o member).1
      rw [here, makersAt_elsewhere orderly absent, append_nil, whole, names]
    · have none_ : ((queue side p).filterMap b.order).filter (fun o => o.price = price) = [] := by
        rw [filter_eq_nil_iff]
        intro o member samePrice
        exact here ((of_decide_eq_true samePrice).symm.trans (facts o member).1)
      rw [none_, nil_append]
      exact ih nodup ((List.mem_cons.mp among).resolve_left here)

theorem makersAt_sorted (sorted : prices.Pairwise (AtLeastAsGood side)) (nodup : prices.Nodup) :
    (makersAt b queue side prices).Pairwise (Precedes side) := by
  induction prices with
  | nil => exact List.Pairwise.nil
  | cons p ps ih =>
    obtain ⟨-, timed, facts⟩ := level_orders orderly side p (List.Sublist.refl _)
    obtain ⟨absent, nodup⟩ := List.nodup_cons.mp nodup
    refine List.pairwise_append.mpr ⟨?_, ih (List.Pairwise.of_cons sorted) nodup, ?_⟩
    · refine timed.imp_of_mem fun first second earlier => ⟨?_, fun _ => earlier⟩
      rw [(facts _ first).1, (facts _ second).1]
      exact atLeastAsGood_refl side p
    · intro x first y second
      have among := (mem_makersAt orderly second).1
      unfold Precedes
      rw [(facts x first).1]
      exact ⟨rel_of_pairwise_cons sorted among, fun same => absurd (same ▸ among) absent⟩

end

theorem exists_prices (linked : Linked b queue) (side : OrderSide) :
    ∃ prices : List Nat, prices.Pairwise (AtLeastAsGood side) ∧ prices.Nodup ∧ ∀ price, price ∈ prices ↔
      queue side price ≠ [] := by
  obtain ⟨sets, -, keys⟩ := linked.ladder
  cases side with
  | buy =>
    have sorted := Finset.pairwise_sort (sets .buy) (· ≥ ·)
    refine ⟨_, sorted, Finset.sort_nodup _ _, fun price => ?_⟩
    rw [Finset.mem_sort, keys]
  | sell =>
    have sorted := Finset.pairwise_sort (sets .sell) (· ≤ ·)
    refine ⟨_, sorted, Finset.sort_nodup _ _, fun price => ?_⟩
    rw [Finset.mem_sort, keys]

theorem exists_priceTime (orderly : Orderly m b queue) (side : OrderSide) : ∃ makers, PriceTime b queue side makers := by
  obtain ⟨prices, sorted, nodup, filled⟩ := exists_prices orderly.linked side
  refine ⟨makersAt b queue side prices, makersAt_sorted orderly sorted nodup, ?_, fun o member =>
    (mem_makersAt orderly member).2⟩
  intro price
  by_cases among : price ∈ prices
  · exact makersAt_queued orderly nodup among
  · rw [makersAt_elsewhere orderly among]
    exact (not_not.mp fun some_ => among ((filled price).mpr some_)).symm

theorem settle_tradeWith (taker maker : Order) : settle (tradeWith taker maker) = (do
    require (min taker.remainingQuantity maker.remainingQuantity * maker.price ≤ u64Max) (.error .arithmeticOverflow)
    settleFill taker maker (min taker.remainingQuantity maker.remainingQuantity)
      (min taker.remainingQuantity maker.remainingQuantity * maker.price)) := by
  cases taker.side <;> rfl

theorem fill_of_settle (orderly : Orderly m b queue) (line : PriceTime b queue (oppositeSide taker.side) (maker :: rest))
    {u : Unit} {paid : Book} (settled : settle (tradeWith taker maker) b = (.ok u, paid)) :
    ∃ b', fill taker maker b = (.ok (takerAfter taker maker, tradeWith taker maker), b') ∧ b'.balance = paid.balance ∧
      ((takerAfter taker maker).remainingQuantity = 0 ∧ (∃ queue', Orderly m b' queue') ∨
        ∃ queue', Orderly m b' queue' ∧ PriceTime b' queue' (oppositeSide taker.side) rest) := by
  rw [settle_tradeWith, ok_bind] at settled
  obtain ⟨u', mid, guard, paying⟩ := settled
  obtain ⟨fits, rfl⟩ := ok_require.mp guard
  obtain ⟨b', done, balance, -, -, orders, orderly', -⟩ :=
    fill_settled orderly (line.stored maker mem_cons_self) line.front fits paying
  refine ⟨b', done, balance, ?_⟩
  by_cases left : maker.remainingQuantity - min taker.remainingQuantity maker.remainingQuantity = 0
  · unfold queuesAfter at orderly'
    rw [if_pos left] at orderly'
    exact Or.inr ⟨_, orderly', line.tail orderly orders⟩
  · have filled : taker.remainingQuantity - min taker.remainingQuantity maker.remainingQuantity = 0 := by omega
    exact Or.inl ⟨filled, _, orderly'⟩

theorem fill_of_settle_error {e : Stop} {paid : Book} (refused : settle (tradeWith taker maker) b = (.error e, paid)) :
    ∃ b', fill taker maker b = (.error e, b') := by
  rw [settle_tradeWith] at refused
  by_cases fits : min taker.remainingQuantity maker.remainingQuantity * maker.price ≤ u64Max
  · rw [run_require fits] at refused
    exact ⟨paid, fill_refused fits refused⟩
  · rw [run_require_not fits] at refused
    cases refused
    exact ⟨b, fill_overflow fits⟩

theorem settleAll_cons (t : Trade) (ts : List Trade) : settleAll (t :: ts) = (do settle t; settleAll ts) := rfl

/-- What the match does, told by the reference matcher: its trades if all of them can be paid, and the error of the first
payment that fails otherwise. -/
structure Follows (m : MarketId) (b : Book) (fuel : Nat) (taker : Order) (trades : List Trade)
    (r : Order × List Trade × Bool) :
    Prop where
  paid : ∀ u s, settleAll r.2.1 b = (.ok u, s) → ∃ b', matchTaker fuel taker trades b =
    (.ok (r.1, trades ++ r.2.1, r.2.2), b') ∧
    b'.balance = s.balance ∧ ∃ queue', Orderly m b' queue'
  refused : ∀ e s, settleAll r.2.1 b = (.error e, s) → ∃ b', matchTaker fuel taker trades b = (.error e, b')

variable {fuel : Nat} {trades : List Trade}

theorem Follows.of_stop (orderly : Orderly m b queue) {r : Order × List Trade × Bool}
    (nothing : r.2.1 = []) (stops : matchTaker fuel taker trades b = (.ok (r.1, trades, r.2.2), b)) :
    Follows m b fuel taker trades r where
  paid := by
    intro u s settled
    rw [nothing] at settled
    cases settled
    refine ⟨b, ?_, rfl, queue, orderly⟩
    rw [nothing, append_nil]
    exact stops
  refused := by
    intro e s failed
    rw [nothing] at failed
    cases failed

theorem matchTaker_filled (done : taker.remainingQuantity = 0) :
    matchTaker (fuel + 1) taker trades b = (.ok (taker, trades, false), b) := by
  unfold matchTaker
  rw [if_pos done]
  rfl

theorem matchTaker_round (orderly : Orderly m b queue) (line : PriceTime b queue (oppositeSide taker.side) (maker :: rest))
    (active : taker.remainingQuantity ≠ 0) (fuel : Nat) (trades : List Trade) :
    matchTaker (fuel + 1) taker trades b =
      if taker.orderType = .limit ∧ priceCrosses taker maker.price = false then (.ok (taker, trades, false), b)
      else if ownOrder taker maker = true then (.ok (taker, trades, true), b)
      else (do
        let (taker, trade) ← fill taker maker
        matchTaker fuel taker (trades ++ [trade])) b := by
  obtain ⟨best, front⟩ := line.found orderly
  have stored := line.stored maker mem_cons_self
  rw [matchTaker, if_neg active, run_bind best]
  dsimp only
  by_cases apart : taker.orderType = .limit ∧ priceCrosses taker maker.price = false
  · rw [if_pos apart, if_pos apart]
    rfl
  · rw [if_neg apart, if_neg apart, run_read, front]
    dsimp only
    rw [run_demand (g := fun b : Book => b.order maker.orderId) maker stored]
    by_cases own : maker.owner = taker.owner
    · rw [if_pos own, if_pos (ownOrder_iff.mpr own)]
      rfl
    · rw [if_neg own, if_neg (mt ownOrder_iff.mp own)]

theorem matchTaker_follows (makers : List Order) (orderly : Orderly m b queue)
    (line : PriceTime b queue (oppositeSide taker.side) makers) (enough : makers.length < fuel) :
    Follows m b fuel taker trades (reference ownOrder makers taker) := by
  induction makers generalizing b queue taker fuel trades with
  | nil =>
    obtain ⟨fuel, rfl⟩ := Nat.exists_eq_add_one_of_ne_zero (Nat.ne_of_gt enough)
    refine .of_stop orderly rfl ?_
    by_cases done : taker.remainingQuantity = 0
    · exact matchTaker_filled done
    · obtain ⟨best, asked, spec⟩ := bestPrice_linked orderly.linked (oppositeSide taker.side)
      unfold matchTaker
      rw [if_neg done, run_bind asked]
      cases best with
      | none => rfl
      | some p => exact absurd (line.nothing p) spec.1
  | cons maker rest ih =>
    obtain ⟨fuel, rfl⟩ := Nat.exists_eq_add_one_of_ne_zero (Nat.ne_of_gt (Nat.zero_lt_of_lt enough))
    have later : rest.length < fuel := Nat.lt_of_succ_lt_succ enough
    by_cases done : taker.remainingQuantity = 0
    · rw [reference_filled done]
      exact .of_stop orderly rfl (matchTaker_filled done)
    have round := matchTaker_round orderly line done fuel trades
    unfold reference
    rw [if_neg done]
    by_cases apart : taker.orderType = .limit ∧ priceCrosses taker maker.price = false
    · rw [if_pos apart] at round ⊢
      exact .of_stop orderly rfl round
    rw [if_neg apart] at round ⊢
    by_cases own : ownOrder taker maker = true
    · rw [if_pos own] at round ⊢
      exact .of_stop orderly rfl round
    rw [if_neg own] at round ⊢
    -- the payments of this trade decide, and the rest of the line sees the balances they leave
    have step : ∀ u paid, settle (tradeWith taker maker) b = (.ok u, paid) → ∃ b', b'.balance = paid.balance ∧
        matchTaker (fuel + 1) taker trades b = matchTaker fuel (takerAfter taker maker)
          (trades ++ [tradeWith taker maker]) b' ∧
        Follows m b' fuel (takerAfter taker maker) (trades ++ [tradeWith taker maker])
          (reference ownOrder rest (takerAfter taker maker)) := by
      intro u paid settled
      obtain ⟨b', filled, balance, ends⟩ := fill_of_settle orderly line settled
      rw [run_bind filled] at round
      refine ⟨b', balance, round, ?_⟩
      rcases ends with ⟨spent, queue', orderly'⟩ | ⟨queue', orderly', line'⟩
      · obtain ⟨fuel, rfl⟩ := Nat.exists_eq_add_one_of_ne_zero (Nat.ne_of_gt (Nat.zero_lt_of_lt later))
        rw [reference_filled spent]
        exact .of_stop orderly' rfl (matchTaker_filled spent)
      · exact ih orderly' line' later
    constructor
    · intro u s settled
      obtain ⟨u', paid, first, others⟩ := ok_bind.mp settled
      obtain ⟨b', balance, same, follows⟩ := step u' paid first
      obtain ⟨result, balances⟩ := OnBalances.settleAll _ b' paid balance
      rw [others] at result balances
      dsimp only at result balances
      have again : settleAll _ b' = (.ok u, _) := Prod.ext result rfl
      obtain ⟨b'', matched, final, orderly''⟩ := follows.paid u _ again
      refine ⟨b'', ?_, final.trans balances, orderly''⟩
      rw [same, matched, append_assoc]
      rfl
    · intro e s failed
      cases first : settle (tradeWith taker maker) b with
      | mk answer paid =>
        cases answer with
        | error e' =>
          rw [settleAll_cons, run_bind_error first] at failed
          cases failed
          obtain ⟨b', stopped⟩ := fill_of_settle_error first
          rw [run_bind_error stopped] at round
          exact ⟨b', round⟩
        | ok u =>
          rw [settleAll_cons, run_bind first] at failed
          obtain ⟨b', balance, same, follows⟩ := step u paid first
          obtain ⟨result, -⟩ := OnBalances.settleAll _ b' paid balance
          rw [failed] at result
          dsimp only at result
          have again : settleAll _ b' = (.error e, _) := Prod.ext result rfl
          obtain ⟨b'', stopped⟩ := follows.refused e _ again
          exact ⟨b'', same.trans stopped⟩

/-- The match serves the makers in the order of price and time. Its trades are those of the reference matcher, which stops at
an order of the taker's own, and the first payment that fails ends it with that payment's error. -/
theorem matchTaker_priceTime (orderly : Orderly m b queue) (taker : Order) :
    (∃ makers, PriceTime b queue (oppositeSide taker.side) makers) ∧
      ∀ makers, PriceTime b queue (oppositeSide taker.side) makers →
        (∀ fuel, makers.length < fuel → Follows m b fuel taker [] (reference ownOrder makers taker)) ∧
        ((reference ownOrder makers taker).2.2 = false →
          reference ownOrder makers taker = reference (fun _ _ => false) makers taker) ∧
        ((reference ownOrder makers taker).2.1.map (·.quantity)).sum =
          taker.remainingQuantity - (reference ownOrder makers taker).1.remainingQuantity := by
  refine ⟨exists_priceTime orderly _, fun makers line => ⟨?_, reference_unblocked, ?_⟩⟩
  · intro fuel enough
    exact matchTaker_follows makers orderly line enough
  · have quantities := reference_quantities ownOrder makers taker
    omega

end

end Book

namespace SmallVenue

open Book

def halfSold : Book := (run venue.step (Exchange.opening tree) traded).book 34

def leftAsk : Order := ⟨1, 34, seller, .sell, .limit, 10, 20, 12, .partiallyFilled, 1⟩

def taking (owner : AccountId) : Order := ⟨3, 34, owner, .buy, .limit, 10, 5, 5, .open, 3⟩

theorem halfSold_orderly : ∃ queue, Orderly 34 halfSold queue := Exchange.run_sound (by decide +kernel) 34

theorem halfSold_orders : halfSold.orderIdCounter = 3 ∧ halfSold.order 1 = some leftAsk ∧
    (halfSold.order 2).all (fun o => decide (o.remainingQuantity = 0)) = true := by decide +kernel

theorem first_ask {queue : Queues} {makers : List Order} (orderly : Orderly 34 halfSold queue)
    (line : PriceTime halfSold queue .sell makers) : ∃ rest, makers = leftAsk :: rest := by
  obtain ⟨counter, one, two⟩ := halfSold_orders
  have waiting : 1 ∈ queue .sell 10 := (orderly.listed _ _ _).mpr ⟨leftAsk, one, rfl, rfl, by decide, by decide⟩
  cases makers with
  | nil =>
    rw [line.nothing] at waiting
    cases waiting
  | cons maker rest =>
    have listed : maker.orderId ∈ queue .sell maker.price := line.front ▸ mem_cons_self
    obtain ⟨o, stored, -, -, rests⟩ := (orderly.listed _ _ _).mp listed
    obtain rfl : o = maker := Option.some.inj (stored.symm.trans (line.stored maker mem_cons_self))
    obtain ⟨-, -, low, high⟩ := orderly.numbered _ _ stored
    have which : o.orderId = 1 ∨ o.orderId = 2 := by omega
    rcases which with is | is
    · rw [is, one] at stored
      exact ⟨rest, by rw [Option.some.inj stored]⟩
    · rw [is] at stored
      rw [stored] at two
      have spent : o.remainingQuantity = 0 := of_decide_eq_true two
      exact absurd rests.2 (by omega)

theorem buyer_served : ∃ queue makers, Orderly 34 halfSold queue ∧ PriceTime halfSold queue .sell makers ∧
    Follows 34 halfSold (makers.length + 1) (taking buyer) [] (reference ownOrder makers (taking buyer)) := by
  obtain ⟨queue, orderly⟩ := halfSold_orderly
  obtain ⟨⟨makers, line⟩, facts⟩ := matchTaker_priceTime orderly (taking buyer)
  exact ⟨queue, makers, orderly, line, (facts makers line).1 _ (Nat.lt_succ_self _)⟩

/-- The seller could pay for five of the own ask, the plain matcher would trade them, and the code stops without a trade. -/
theorem own_ask_stops : ∃ queue makers, Orderly 34 halfSold queue ∧ PriceTime halfSold queue .sell makers ∧
    (reference (fun _ _ => false) makers (taking seller)).2.1 = [tradeWith (taking seller) leftAsk] ∧
    (settleAll [tradeWith (taking seller) leftAsk] halfSold).1 = .ok () ∧
    matchTaker (makers.length + 1) (taking seller) [] halfSold = (.ok (taking seller, [], true), halfSold) := by
  obtain ⟨queue, orderly⟩ := halfSold_orderly
  obtain ⟨makers, line⟩ := exists_priceTime orderly (oppositeSide (taking seller).side)
  obtain ⟨rest, rfl⟩ := first_ask orderly line
  refine ⟨queue, leftAsk :: rest, orderly, line, ?_, by decide +kernel, ?_⟩
  · have filled : (takerAfter (taking seller) leftAsk).remainingQuantity = 0 := rfl
    unfold reference
    rw [if_neg (by decide), if_neg (by decide), if_neg (by decide), reference_filled filled]
  · rw [matchTaker_round orderly line (by decide), if_neg (by decide), if_pos (by decide)]

end SmallVenue

end AceChain.Liquid
