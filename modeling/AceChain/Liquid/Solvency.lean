import AceChain.Liquid.Exchange

namespace AceChain.Liquid

open Lib Handler Function Exchange Yields Stop List

instance : Finite AccountId :=
  Finite.of_injective (fun a => a.bytes.toFin) (by
    rintro ⟨a⟩ ⟨b⟩ same
    exact congrArg AccountId.mk (BitVec.toFin_inj.mp same))

def Order.lockedIn (o : Order) (asset : UInt8) : Nat :=
  match o.side with
  | .sell => if asset = assetBase then o.remainingQuantity else 0
  | .buy => if asset = assetQuote then (lockedQuote o).getD 0 else 0

namespace Book

variable (b : Book) (asset : UInt8)

noncomputable def free : Nat := ∑ᶠ user, b.balance user asset

def lockedBy (stored : Option Order) (asset : UInt8) : Nat :=
  stored.elim 0 (fun o => if o.Resting then o.lockedIn asset else 0)

def locked : Nat := ∑ id ∈ Finset.range b.orderIdCounter, lockedBy (b.order id) asset

noncomputable def holdings : Nat := b.free asset + b.locked asset

def Affordable : Prop :=
  ∀ id o, b.order id = some o → o.Resting → o.side = .buy → o.remainingQuantity * o.price ≤ u64Max

section

variable {b b' : Book} {user : AccountId} {asset other : UInt8} {o : Order} {amount : Nat}

theorem balance_setBalance (n : Nat) (u : AccountId) (a : UInt8) :
    (setBalance user asset n b).balance u a = if u = user ∧ a = asset then n else b.balance u a := by
  unfold setBalance
  by_cases same : u = user
  · subst same
    by_cases hit : a = asset
    · subst hit
      simp
    · simp [hit]
  · simp [same]

theorem free_setBalance_same (b : Book) (user : AccountId) (asset : UInt8) (n : Nat) :
    (setBalance user asset n b).free asset + b.balance user asset = b.free asset + n := by
  have changed := finsum_update (fun u => b.balance u asset) user n
  unfold free
  rw [← changed]
  congr 2
  funext u
  rw [balance_setBalance]
  by_cases same : u = user
  · simp [same]
  · simp [same]

theorem free_setBalance_other (n : Nat) (differ : other ≠ asset) : (setBalance user asset n b).free other = b.free other := by
  unfold free
  congr 1
  funext u
  rw [balance_setBalance, if_neg (fun both => differ both.2)]

theorem locked_write (orders : b'.order = update b.order o.orderId (some o))
    (counter : b'.orderIdCounter = b.orderIdCounter) (below : o.orderId < b.orderIdCounter) (asset : UInt8) :
    b'.locked asset + lockedBy (b.order o.orderId) asset = b.locked asset + lockedBy (some o) asset := by
  have changed := sum_update (fun id => lockedBy (b.order id) asset) o.orderId (lockedBy (some o) asset)
    (Finset.mem_range.mpr below)
  unfold locked
  rw [← changed, counter, orders]
  congr 1
  refine Finset.sum_congr rfl (fun id _ => ?_)
  by_cases same : id = o.orderId
  · subst same
    rw [update_self, update_self]
  · rw [update_of_ne same, update_of_ne same]

theorem locked_congr (orders : b'.order = b.order) (counter : b'.orderIdCounter = b.orderIdCounter) (asset : UInt8) :
    b'.locked asset = b.locked asset := by
  unfold locked
  rw [orders, counter]

theorem free_congr (balances : b'.balance = b.balance) (asset : UInt8) : b'.free asset = b.free asset := by
  unfold free
  rw [balances]

theorem creditBalance_free : Yields Plain (creditBalance user asset amount) b (fun _ b' => Rebalanced b b' ∧
    b'.free asset = b.free asset + amount ∧ ∀ other, other ≠ asset → b'.free other = b.free other) := by
  refine creditBalance_yields.mono ?_
  rintro _ _ rfl
  have changed := free_setBalance_same b user asset (b.balance user asset + amount)
  exact ⟨rfl, by omega, fun other differ => free_setBalance_other _ differ⟩

theorem debitBalance_free : Yields Plain (debitBalance user asset amount) b (fun _ b' => Rebalanced b b' ∧
    b'.free asset + amount = b.free asset ∧ ∀ other, other ≠ asset → b'.free other = b.free other) := by
  refine debitBalance_yields.mono ?_
  rintro _ _ ⟨enough, rfl⟩
  have changed := free_setBalance_same b user asset (b.balance user asset - amount)
  exact ⟨rfl, by omega, fun other differ => free_setBalance_other _ differ⟩

def released (side : OrderSide) (quantity quote : Nat) (asset : UInt8) : Nat :=
  match side with
  | .sell => if asset = assetBase then quantity else 0
  | .buy => if asset = assetQuote then quote else 0

theorem settleFill_free (taker maker : Order) (quantity quote : Nat) :
    Yields Plain (settleFill taker maker quantity quote) b (fun _ b' => Rebalanced b b' ∧
      ∀ asset, b'.free asset = b.free asset + released (oppositeSide taker.side) quantity quote asset) := by
  -- one asset is paid and passed on, the other comes out of the maker's lock
  have chain : ∀ (paid got : UInt8) (x y : Nat), got ≠ paid → Yields Plain
      (do debitBalance taker.owner paid x; creditBalance taker.owner got y; creditBalance maker.owner paid x) b
      (fun _ b' => Rebalanced b b' ∧ ∀ asset, b'.free asset = b.free asset + if asset = got then y else 0) := by
    intro paid got x y differ
    refine bind debitBalance_free ?_
    rintro _ b₁ ⟨same₁, own₁, rest₁⟩
    refine bind creditBalance_free ?_
    rintro _ b₂ ⟨same₂, own₂, rest₂⟩
    refine creditBalance_free.mono ?_
    rintro _ b₃ ⟨same₃, own₃, rest₃⟩
    refine ⟨(same₁.trans same₂).trans same₃, fun asset => ?_⟩
    by_cases isPaid : asset = paid
    · subst isPaid
      rw [if_neg differ.symm, own₃, rest₂ asset differ.symm]
      omega
    · rw [rest₃ asset isPaid]
      by_cases isGot : asset = got
      · subst isGot
        rw [if_pos rfl, own₂, rest₁ asset isPaid]
      · rw [if_neg isGot, rest₂ asset isGot, rest₁ asset isPaid, Nat.add_zero]
  unfold settleFill
  cases taker.side with
  | buy => exact chain assetQuote assetBase quote quantity (by decide)
  | sell => exact chain assetBase assetQuote quantity quote (by decide)

theorem lockedQuote_eq (fits : o.remainingQuantity * o.price ≤ u64Max) :
    lockedQuote o = some (o.remainingQuantity * o.price) := if_pos fits

theorem lockedBy_resting (rests : o.Resting) : lockedBy (some o) asset = o.lockedIn asset := if_pos rests

theorem lockedBy_gone (gone : ¬ o.Resting) : lockedBy (some o) asset = 0 := if_neg gone

theorem lockedBy_filledBy {maker : Order} {quantity : Nat} (rests : maker.Resting)
    (enough : quantity ≤ maker.remainingQuantity)
    (fits : maker.side = .buy → maker.remainingQuantity * maker.price ≤ u64Max) (asset : UInt8) :
    lockedBy (some maker) asset =
      lockedBy (some (filledBy maker quantity)) asset + released maker.side quantity (quantity * maker.price) asset := by
  have less : (maker.remainingQuantity - quantity) * maker.price + quantity * maker.price =
      maker.remainingQuantity * maker.price := by
    rw [← Nat.add_mul, Nat.sub_add_cancel enough]
  have split_ : maker.lockedIn asset =
      (filledBy maker quantity).lockedIn asset + released maker.side quantity (quantity * maker.price) asset := by
    unfold Order.lockedIn released
    change (match maker.side with | .sell => _ | .buy => _) = (match maker.side with | .sell => _ | .buy => _) + _
    cases side : maker.side with
    | sell =>
      change (if asset = assetBase then maker.remainingQuantity else 0) =
        (if asset = assetBase then maker.remainingQuantity - quantity else 0) + if asset = assetBase then quantity else 0
      by_cases hit : asset = assetBase
      · rw [if_pos hit, if_pos hit, if_pos hit]
        omega
      · rw [if_neg hit, if_neg hit, if_neg hit]
    | buy =>
      have whole := fits side
      have part : (filledBy maker quantity).remainingQuantity * (filledBy maker quantity).price ≤ u64Max := by
        change (maker.remainingQuantity - quantity) * maker.price ≤ u64Max
        omega
      dsimp only
      rw [lockedQuote_eq whole, lockedQuote_eq part]
      by_cases hit : asset = assetQuote
      · rw [if_pos hit, if_pos hit, if_pos hit]
        exact less.symm
      · rw [if_neg hit, if_neg hit, if_neg hit]
  rw [lockedBy_resting rests, split_]
  by_cases stays : (filledBy maker quantity).Resting
  · rw [lockedBy_resting stays]
  -- nothing is left, so the lock is empty either way
  have zero : maker.remainingQuantity - quantity = 0 := by
    by_contra more
    exact stays ⟨Or.inr (if_neg more), Nat.pos_of_ne_zero more⟩
  have none_ : (filledBy maker quantity).lockedIn asset = 0 := by
    have rem : (filledBy maker quantity).remainingQuantity = 0 := zero
    unfold Order.lockedIn lockedQuote
    rw [rem, Nat.zero_mul]
    cases (filledBy maker quantity).side <;> simp
  rw [lockedBy_gone stays, none_]

theorem lockRestingFunds_free (o : Order) : Yields Plain (lockRestingFunds o) b (fun _ b' => Rebalanced b b' ∧
    (∀ asset, b'.free asset + o.lockedIn asset = b.free asset) ∧
    (o.side = .buy → o.remainingQuantity * o.price ≤ u64Max)) := by
  unfold lockRestingFunds Order.lockedIn
  cases side : o.side with
  | buy =>
    refine bind (demand trivial) ?_
    rintro lock _ ⟨found, rfl⟩
    have fits : o.remainingQuantity * o.price ≤ u64Max := by
      unfold lockedQuote at found
      by_contra over_
      rw [if_neg over_] at found
      cases found
    refine debitBalance_free.mono ?_
    rintro _ b' ⟨same, own, rest⟩
    refine ⟨same, fun asset => ?_, fun _ => fits⟩
    by_cases hit : asset = assetQuote
    · rw [if_pos hit, found, hit]
      exact own
    · rw [if_neg hit, Nat.add_zero, rest asset hit]
  | sell =>
    refine debitBalance_free.mono ?_
    rintro _ b' ⟨same, own, rest⟩
    refine ⟨same, fun asset => ?_, fun buy => by cases buy⟩
    by_cases hit : asset = assetBase
    · rw [if_pos hit, hit]
      exact own
    · rw [if_neg hit, Nat.add_zero, rest asset hit]

theorem refundRestingFunds_free (o : Order) : Yields Plain (refundRestingFunds o) b (fun _ b' => Rebalanced b b' ∧
    ∀ asset, b'.free asset = b.free asset + o.lockedIn asset) := by
  unfold refundRestingFunds Order.lockedIn
  cases side : o.side with
  | buy =>
    refine bind (demand trivial) ?_
    rintro refund _ ⟨found, rfl⟩
    refine creditBalance_free.mono ?_
    rintro _ b' ⟨same, own, rest⟩
    refine ⟨same, fun asset => ?_⟩
    by_cases hit : asset = assetQuote
    · rw [if_pos hit, found, hit]
      exact own
    · rw [if_neg hit, Nat.add_zero, rest asset hit]
  | sell =>
    refine creditBalance_free.mono ?_
    rintro _ b' ⟨same, own, rest⟩
    refine ⟨same, fun asset => ?_⟩
    by_cases hit : asset = assetBase
    · rw [if_pos hit, hit]
      exact own
    · rw [if_neg hit, Nat.add_zero, rest asset hit]

structure Holding (market : Option Market) (amounts : UInt8 → Nat) (b : Book) : Prop where
  market : b.market = market
  total : ∀ asset, b.holdings asset = amounts asset
  affordable : Affordable b

section

variable {market : Option Market} {amounts : UInt8 → Nat}

theorem Holding.write (holding : Holding market amounts b) (below : o.orderId < b.orderIdCounter)
    (orders : b'.order = update b.order o.orderId (some o)) (counter : b'.orderIdCounter = b.orderIdCounter)
    (same : b'.market = b.market)
    (moved : ∀ asset, b'.free asset + lockedBy (some o) asset = b.free asset + lockedBy (b.order o.orderId) asset)
    (own : o.Resting → o.side = .buy → o.remainingQuantity * o.price ≤ u64Max) : Holding market amounts b' := by
  refine ⟨same.trans holding.market, fun asset => ?_, fun id found stored rests buy => ?_⟩
  · have total := holding.total asset
    have locked := locked_write orders counter below asset
    have shift := moved asset
    unfold holdings at total ⊢
    omega
  · rw [orders] at stored
    by_cases self : id = o.orderId
    · subst self
      rw [update_self] at stored
      cases stored
      exact own rests buy
    · rw [update_of_ne self] at stored
      exact holding.affordable id found stored rests buy

variable {m : MarketId}

theorem fill_holding (market : Option Market) (amounts : UInt8 → Nat) : FillInvariant m (Holding market amounts) := by
  intro b queue taker maker id rest orderly stored front holding
  obtain ⟨found, stored', side, -, rests⟩ := (orderly.listed _ _ id).mp (front ▸ mem_cons_self)
  obtain rfl : maker = found := Option.some.inj (stored.symm.trans stored')
  obtain ⟨named, -, range⟩ := orderly.numbered id maker stored
  have whole := holding.affordable id maker stored rests
  have payments := settleFill_free (b := b) taker maker (min taker.remainingQuantity maker.remainingQuantity)
    (min taker.remainingQuantity maker.remainingQuantity * maker.price)
  by_cases fits : min taker.remainingQuantity maker.remainingQuantity * maker.price ≤ u64Max
  · cases settled : settleFill taker maker (min taker.remainingQuantity maker.remainingQuantity)
        (min taker.remainingQuantity maker.remainingQuantity * maker.price) b with
    | mk result b₁ =>
      cases result with
      | error e => exact .of_error (fill_refused fits settled) (payments.elim_error settled)
      | ok u =>
        obtain ⟨b', done, balances, steady, same, orders, -⟩ := fill_settled orderly stored front fits settled
        obtain ⟨-, moved⟩ := payments.elim settled
        refine .of_ok done (holding.write (o := filledBy maker (min taker.remainingQuantity maker.remainingQuantity)) ?_ ?_
          steady.counter same (fun asset => ?_) (fun _ buy => ?_))
        · exact named ▸ range.2
        · rw [orders]
          exact congrArg (update b.order · _) named.symm
        · have split_ := lockedBy_filledBy rests (Nat.min_le_right taker.remainingQuantity _) whole asset
          change _ = _ + lockedBy (b.order maker.orderId) asset
          rw [named, stored, split_, free_congr balances asset, moved asset, side]
          omega
        · exact Nat.le_trans (Nat.mul_le_mul_right _ (Nat.sub_le _ _)) (whole buy)
  · exact .of_error (fill_overflow fits) trivial

theorem Holding.advance {queue : Queues} (sequence : Nat) (orderly : Orderly m b queue)
    (holding : Holding market amounts b) :
    Holding market amounts { b with orderIdCounter := max b.orderIdCounter 1 + 1, sequenceCounter := sequence } := by
  refine ⟨holding.market, fun asset => ?_, holding.affordable⟩
  rw [← holding.total asset]
  unfold holdings locked
  congr 1
  symm
  refine Finset.sum_subset (Finset.range_mono (by dsimp only; omega)) (fun id _ beyond => ?_)
  cases stored : b.order id with
  | none => rfl
  | some o => exact absurd (Finset.mem_range.mpr (orderly.numbered id o stored).2.2.2) beyond

theorem holding_kept (market : Option Market) (amounts : UInt8 → Nat) : Kept m (Holding market amounts) where
  fill := fill_holding market amounts
  advance sequence orderly holding := holding.advance sequence orderly
  record {b o} holding below absent gone := by
    refine holding.write below rfl rfl rfl (fun asset => ?_) (fun rests => absurd rests gone)
    rw [lockedBy_gone gone, absent]
    rfl
  rest {b b₁ b₂ o u} status holding below absent rests locked relinked := by
    obtain ⟨rebalanced, moved, fits⟩ := (lockRestingFunds_free o).elim locked
    refine holding.write (o := { o with status := status }) below (by rw [putOrder, relinked, rebalanced])
      (by rw [putOrder, relinked, rebalanced]) (by rw [putOrder, relinked, rebalanced]) (fun asset => ?_) (fun _ => fits)
    have same : b₂.free asset = b₁.free asset := free_congr (by rw [relinked]) asset
    change b₂.free asset + _ = _ + lockedBy (b.order o.orderId) asset
    rw [lockedBy_resting rests, absent, same]
    exact moved asset
  cancel {b b₁ b₂ o u} holding below stored rests refunded relinked := by
    obtain ⟨rebalanced, moved⟩ := (refundRestingFunds_free o).elim refunded
    have gone : ¬ Order.Resting { o with status := .cancelled, remainingQuantity := 0 } := fun rests => Nat.lt_irrefl 0 rests.2
    refine holding.write (o := { o with status := .cancelled, remainingQuantity := 0 }) below
      (by rw [putOrder, relinked, rebalanced]) (by rw [putOrder, relinked, rebalanced])
      (by rw [putOrder, relinked, rebalanced]) (fun asset => ?_) (fun rests => absurd rests gone)
    have same : b₂.free asset = b₁.free asset := free_congr (by rw [relinked]) asset
    change b₂.free asset + _ = _ + lockedBy (b.order o.orderId) asset
    rw [lockedBy_gone gone, stored, lockedBy_resting rests, same, moved asset, Nat.add_zero]

end

end

end Book

open Book

open State Engine Vm

section Ledger

variable {t t' : StateTree} {derive : Derivations} {slots : TokenSlots}

theorem getStorage_ensureAccount (id owner : AccountId) (slot : Hash) :
    (ensureAccount derive t id).getStorage owner slot = t.getStorage owner slot := by
  unfold ensureAccount
  split
  · rfl
  · rfl

theorem tokenBalance_ensureAccount (id : AccountId) (mint : Hash) (owner : AccountId) :
    slots.tokenBalance (ensureAccount derive t id) mint owner = slots.tokenBalance t mint owner := by
  unfold TokenSlots.tokenBalance TokenSlots.word
  rw [getStorage_ensureAccount]

theorem tokenBalance_lt (t : StateTree) (slots : TokenSlots) (mint : Hash) (owner : AccountId) :
    slots.tokenBalance t mint owner < 2 ^ 64 := wordU64_lt _

theorem tokenBalance_setStorage {mint : Hash} {owner : AccountId} {slot : Hash} {n : Nat} (small : n < 2 ^ 64) :
    slots.tokenBalance (t.setStorage slots.program slot (u64Word n)) mint owner =
      if slots.balanceSlot mint owner = slot then n else slots.tokenBalance t mint owner := by
  unfold TokenSlots.tokenBalance TokenSlots.word
  rw [getStorage_setStorage]
  by_cases hit : slots.balanceSlot mint owner = slot
  · rw [if_pos ⟨rfl, hit⟩, if_pos hit, wordU64_u64Word small]
  · rw [if_neg (fun both => hit both.2), if_neg hit]

theorem transferBetweenOwners_ok {mint : Hash} {sender recipient : AccountId} {amount : Nat} {changes : List StateChange}
    (positive : amount ≠ 0) (differ : sender ≠ recipient)
    (done : slots.transferBetweenOwners derive t mint sender recipient amount = (.ok changes, t')) :
    amount ≤ slots.tokenBalance t mint sender ∧ ∀ mint' owner,
      slots.tokenBalance t' mint' owner =
        if slots.balanceSlot mint' owner = slots.balanceSlot mint recipient then slots.tokenBalance t mint recipient + amount
        else if slots.balanceSlot mint' owner = slots.balanceSlot mint sender then slots.tokenBalance t mint sender - amount
        else slots.tokenBalance t mint' owner := by
  unfold TokenSlots.transferBetweenOwners at done
  rw [if_neg positive] at done
  simp only [tokenBalance_ensureAccount] at done
  by_cases missing : slots.word (ensureAccount derive t slots.program) (slots.mintSlot mint) = 0
  · rw [if_pos missing] at done
    cases done
  rw [if_neg missing] at done
  by_cases short : slots.tokenBalance t mint sender < amount
  · rw [if_pos short] at done
    cases done
  rw [if_neg short, if_neg differ] at done
  split at done
  · cases done
  rename_i credited added
  have sum := u64CheckedAdd_eq added
  have fits := u64CheckedAdd_lt added
  have below : slots.tokenBalance t mint sender - amount < 2 ^ 64 := by
    have := tokenBalance_lt t slots mint sender
    omega
  cases done
  refine ⟨by omega, fun mint' owner => ?_⟩
  rw [foldl_cons, foldl_cons, foldl_nil, tokenBalance_setStorage fits, tokenBalance_setStorage below,
    tokenBalance_ensureAccount, sum]

end Ledger

namespace ExchangeOp

def market : ExchangeOp → MarketId
  | .createMarket market => market.marketId
  | .deposit m _ _ _ | .withdraw m _ _ _ | .placeOrder m _ | .cancelOrder m _ _ => m

def users : ExchangeOp → List AccountId
  | .deposit _ user _ _ | .withdraw _ user _ _ => [user]
  | _ => []

def mints : ExchangeOp → List AccountId
  | .createMarket market => [market.baseMint, market.quoteMint]
  | _ => []

end ExchangeOp

structure Names where
  markets : Set MarketId
  mints : Set AccountId
  users : Set AccountId

def namesOf (ops : List ExchangeOp) : Names where
  markets := { m | ∃ op ∈ ops, op.market = m }
  mints := { mint | ∃ op ∈ ops, mint ∈ op.mints }
  users := { user | ∃ op ∈ ops, user ∈ op.users }

namespace Venue

variable (v : Venue)

def balanceOf (e : Exchange) (mint owner : AccountId) : Nat := v.tokens.tokenBalance e.tree mint.bytes owner

/-- No two names of the run share a hash: neither two accounts of markets nor two words of the ledger. -/
structure CollisionFree (names : Names) : Prop where
  books : Set.InjOn v.marketBookId names.markets
  words : Set.InjOn (fun entry : AccountId × AccountId => v.tokens.balanceSlot entry.1.bytes entry.2)
    (names.mints ×ˢ (names.users ∪ Set.image v.marketBookId names.markets))

/-- Nobody who moves tokens is the account of a market. -/
def Outsiders (names : Names) : Prop := ∀ user ∈ names.users, ∀ m ∈ names.markets, user ≠ v.marketBookId m

/-- The account of a market holds what its users have, free or locked. A market that is not there yet holds nothing. -/
def Covered (names : Names) (e : Exchange) (m : MarketId) : Prop :=
  match (e.book m).market with
  | none => (∀ asset, (e.book m).holdings asset = 0) ∧ ∀ mint ∈ names.mints, v.balanceOf e mint (v.marketBookId m) = 0
  | some market => market.baseMint ≠ market.quoteMint ∧ market.baseMint ∈ names.mints ∧ market.quoteMint ∈ names.mints ∧
      ∀ asset mint, mintForAsset market asset = .ok mint →
        v.balanceOf e mint (v.marketBookId m) = (e.book m).holdings asset

structure Solvent (names : Names) (e : Exchange) : Prop where
  sound : e.Sound
  founded : ∀ m market, (e.book m).market = some market → m ∈ names.markets
  affordable : ∀ m, (e.book m).Affordable
  covered : ∀ m ∈ names.markets, v.Covered names e m

section

variable {v : Venue} {names : Names} {e : Exchange} {m : MarketId} {user : AccountId} {asset : UInt8} {amount : Nat}

variable {market : Market} {mint : AccountId}

theorem mintForAsset_cases (minted : mintForAsset market asset = .ok mint) :
    asset = assetBase ∧ mint = market.baseMint ∨ asset = assetQuote ∧ mint = market.quoteMint := by
  unfold mintForAsset at minted
  by_cases base : asset = assetBase
  · rw [if_pos base] at minted
    exact Or.inl ⟨base, (Except.ok.inj minted).symm⟩
  · rw [if_neg base] at minted
    by_cases quote : asset = assetQuote
    · rw [if_pos quote] at minted
      exact Or.inr ⟨quote, (Except.ok.inj minted).symm⟩
    · rw [if_neg quote] at minted
      cases minted

theorem mintForAsset_injective {asset' : UInt8} (differ : market.baseMint ≠ market.quoteMint)
    (minted : mintForAsset market asset = .ok mint) (minted' : mintForAsset market asset' = .ok mint) : asset' = asset := by
  rcases mintForAsset_cases minted with ⟨rfl, rfl⟩ | ⟨rfl, rfl⟩
  · rcases mintForAsset_cases minted' with ⟨rfl, -⟩ | ⟨-, same⟩
    · rfl
    · exact absurd same differ
  · rcases mintForAsset_cases minted' with ⟨-, same⟩ | ⟨rfl, -⟩
    · exact absurd same.symm differ
    · rfl

theorem Solvent.minted (solvent : v.Solvent names e) (inside : m ∈ names.markets)
    (found : (e.book m).market = some market) (minted : mintForAsset market asset = .ok mint) : mint ∈ names.mints := by
  have covered := solvent.covered m inside
  unfold Venue.Covered at covered
  rw [found] at covered
  rcases mintForAsset_cases minted with ⟨-, rfl⟩ | ⟨-, rfl⟩
  · exact covered.2.1
  · exact covered.2.2.1

theorem Solvent.update {e' : Exchange} {b' : Book} (solvent : v.Solvent names e) (books : e'.book = update e.book m b')
    (orderly : ∀ queue, Orderly m (e.book m) queue → ∃ queue', Orderly m b' queue')
    (founded : ∀ market, b'.market = some market → m ∈ names.markets) (affordable : b'.Affordable)
    (covered : m ∈ names.markets → v.Covered names e' m)
    (ledger : ∀ m' ∈ names.markets, m' ≠ m → ∀ mint ∈ names.mints,
      v.balanceOf e' mint (v.marketBookId m') = v.balanceOf e mint (v.marketBookId m')) : v.Solvent names e' := by
  refine ⟨solvent.sound.update books orderly, fun m' market' there => ?_, fun m' => ?_, fun m' inside' => ?_⟩
  · rw [books] at there
    by_cases here : m' = m
    · subst here
      rw [update_self] at there
      exact founded market' there
    · rw [update_of_ne here] at there
      exact solvent.founded m' market' there
  · rw [books]
    by_cases here : m' = m
    · subst here
      rw [update_self]
      exact affordable
    · rw [update_of_ne here]
      exact solvent.affordable m'
  · by_cases here : m' = m
    · exact here ▸ covered (here ▸ inside')
    have before := solvent.covered m' inside'
    unfold Venue.Covered at before ⊢
    rw [books, update_of_ne here]
    cases there : (e.book m').market with
    | none =>
      rw [there] at before
      refine ⟨before.1, fun mint named => ?_⟩
      rw [ledger m' inside' here mint named]
      exact before.2 mint named
    | some other =>
      rw [there] at before
      obtain ⟨differ, baseIn, quoteIn, equal⟩ := before
      refine ⟨differ, baseIn, quoteIn, fun asset mint paid => ?_⟩
      rw [ledger m' inside' here mint (solvent.minted inside' there paid)]
      exact equal asset mint paid

theorem Solvent.move {e' : Exchange} {b' : Book} (solvent : v.Solvent names e)
    (inside : m ∈ names.markets) (found : (e.book m).market = some market) (minted : mintForAsset market asset = .ok mint)
    (books : e'.book = Function.update e.book m b') (rebalanced : Rebalanced (e.book m) b')
    (own : v.balanceOf e mint (v.marketBookId m) + b'.free asset = v.balanceOf e' mint (v.marketBookId m) +
      (e.book m).free asset)
    (assets : ∀ other, other ≠ asset → b'.free other = (e.book m).free other)
    (ledger : ∀ m' ∈ names.markets, ∀ mint' ∈ names.mints, ¬ (m' = m ∧ mint' = mint) →
      v.balanceOf e' mint' (v.marketBookId m') = v.balanceOf e mint' (v.marketBookId m')) : v.Solvent names e' := by
  have sameMarket : b'.market = some market := by
    rw [rebalanced]
    exact found
  have affordable : b'.Affordable := by
    rw [rebalanced]
    exact solvent.affordable m
  refine solvent.update books (fun queue orderly => ⟨queue, orderly.rebalanced rebalanced⟩) (fun _ _ => inside) affordable
    (fun _ => ?_) (fun m' inside' other mint' named => ledger m' inside' mint' named (fun both => other both.1))
  have covered := solvent.covered m inside
  unfold Venue.Covered at covered ⊢
  rw [found] at covered
  rw [books, update_self, sameMarket]
  obtain ⟨differ, baseIn, quoteIn, equal⟩ := covered
  refine ⟨differ, baseIn, quoteIn, fun asset' mint' minted' => ?_⟩
  have before := equal asset' mint' minted'
  have sameLocked : b'.locked asset' = (e.book m).locked asset' :=
    locked_congr (by rw [rebalanced]) (by rw [rebalanced]) asset'
  unfold holdings at before ⊢
  by_cases same : asset' = asset
  · subst same
    obtain rfl : mint = mint' := Except.ok.inj (minted.symm.trans minted')
    omega
  · have other : mint' ≠ mint := by
      rintro rfl
      exact same (mintForAsset_injective differ minted minted')
    rw [ledger m inside mint' (solvent.minted inside found minted') (fun both => other both.2), assets asset' same]
    omega

theorem CollisionFree.slot_iff (free : v.CollisionFree names) {mint' owner owner' : AccountId} (in₁ : mint ∈ names.mints)
    (in₂ : mint' ∈ names.mints) (own₁ : owner ∈ names.users ∪ Set.image v.marketBookId names.markets)
    (own₂ : owner' ∈ names.users ∪ Set.image v.marketBookId names.markets) :
    v.tokens.balanceSlot mint'.bytes owner' = v.tokens.balanceSlot mint.bytes owner ↔ mint' = mint ∧ owner' = owner := by
  constructor
  · intro same
    have equal := free.words (Set.mk_mem_prod in₂ own₂) (Set.mk_mem_prod in₁ own₁) same
    exact ⟨congrArg Prod.fst equal, congrArg Prod.snd equal⟩
  · rintro ⟨rfl, rfl⟩
    rfl

theorem deposit_solvent (free : v.CollisionFree names) (outsiders : v.Outsiders names) (solvent : v.Solvent names e)
    (inside : m ∈ names.markets) (known : user ∈ names.users) : v.Solvent names (v.deposit m user asset amount e).2 := by
  rcases deposit_cases v m user asset amount e with same | ⟨market, mint, changes, t', positive, found, minted,
    transferred, done⟩
  · rw [same]
    exact solvent
  have named := solvent.minted inside found minted
  have stranger := outsiders user known m inside
  obtain ⟨-, after⟩ := transferBetweenOwners_ok positive stranger transferred
  simp only [tokenBalance_ensureAccount] at after
  have asBook : ∀ m' ∈ names.markets, v.marketBookId m' ∈ names.users ∪ Set.image v.marketBookId names.markets :=
    fun m' inside' => Or.inr ⟨m', inside', rfl⟩
  have changed := free_setBalance_same (e.book m) user asset ((e.book m).balance user asset + amount)
  rw [done]
  refine solvent.move inside found minted rfl rfl ?_ (fun other differ => free_setBalance_other _ differ) ?_
  · unfold Venue.balanceOf
    rw [after, if_pos rfl]
    omega
  · intro m' inside' mint' named' other
    unfold Venue.balanceOf
    rw [after, if_neg, if_neg]
    · rw [free.slot_iff named named' (Or.inl known) (asBook m' inside')]
      exact fun both => outsiders user known m' inside' both.2.symm
    · rw [free.slot_iff named named' (asBook m inside) (asBook m' inside')]
      exact fun both => other ⟨free.books inside' inside both.2, both.1⟩

theorem withdraw_solvent (free : v.CollisionFree names) (outsiders : v.Outsiders names) (solvent : v.Solvent names e)
    (inside : m ∈ names.markets) (known : user ∈ names.users) : v.Solvent names (v.withdraw m user asset amount e).2 := by
  rcases withdraw_cases v m user asset amount e with
    same | ⟨market, mint, changes, t', positive, found, minted, enough, transferred, done⟩
  · rw [same]
    exact solvent
  · have named := solvent.minted inside found minted
    have stranger := outsiders user known m inside
    obtain ⟨covered, after⟩ := transferBetweenOwners_ok positive stranger.symm transferred
    simp only [tokenBalance_ensureAccount] at covered after
    have asBook : ∀ m' ∈ names.markets, v.marketBookId m' ∈ names.users ∪ Set.image v.marketBookId names.markets :=
      fun m' inside' => Or.inr ⟨m', inside', rfl⟩
    have changed := free_setBalance_same (e.book m) user asset ((e.book m).balance user asset - amount)
    have apart : ∀ m' ∈ names.markets, ∀ mint' ∈ names.mints,
        ¬ v.tokens.balanceSlot mint'.bytes (v.marketBookId m') = v.tokens.balanceSlot mint.bytes user := by
      intro m' inside' mint' named'
      rw [free.slot_iff named named' (Or.inl known) (asBook m' inside')]
      exact fun both => outsiders user known m' inside' both.2.symm
    rw [done]
    refine solvent.move inside found minted rfl rfl ?_ (fun other differ => free_setBalance_other _ differ) ?_
    · unfold Venue.balanceOf
      rw [after, if_neg (apart m inside mint named), if_pos rfl]
      omega
    · intro m' inside' mint' named' other
      unfold Venue.balanceOf
      rw [after, if_neg (apart m' inside' mint' named'), if_neg]
      rw [free.slot_iff named named' (asBook m inside) (asBook m' inside')]
      exact fun both => other ⟨free.books inside' inside both.2, both.1⟩

theorem createMarket_solvent (solvent : v.Solvent names e) (inside : market.marketId ∈ names.markets)
    (base : market.baseMint ∈ names.mints) (quote : market.quoteMint ∈ names.mints) :
    v.Solvent names (v.createMarket market e).2 := by
  rcases createMarket_cases v market e with same | ⟨valid, fresh, done⟩
  · rw [same]
    exact solvent
  have differ : market.baseMint ≠ market.quoteMint := by
    intro same
    unfold validateMarketConfig at valid
    rw [if_pos same] at valid
    cases valid
  have ledger : ∀ mint owner, v.balanceOf (v.createMarket market e).2 mint owner = v.balanceOf e mint owner := by
    intro mint owner
    rw [done]
    exact tokenBalance_ensureAccount _ _ _
  refine solvent.update (congrArg book done) (fun queue orderly => ⟨queue, ?_⟩) (fun _ _ => inside)
    (solvent.affordable market.marketId) (fun _ => ?_) (fun m' _ _ mint _ => ledger mint _)
  · exact orderly.aside rfl
  · have covered := solvent.covered market.marketId inside
    unfold Venue.Covered at covered ⊢
    simp only [ledger]
    rw [fresh] at covered
    rw [done]
    dsimp only
    rw [update_self]
    refine ⟨differ, base, quote, fun asset mint minted => ?_⟩
    have named : mint ∈ names.mints := by
      rcases mintForAsset_cases minted with ⟨-, rfl⟩ | ⟨-, rfl⟩
      · exact base
      · exact quote
    rw [covered.2 mint named]
    exact (covered.1 asset).symm

theorem Solvent.atomic {α : Type} {x : BookM α} (solvent : v.Solvent names e)
    (keeps : ∀ queue, Orderly m (e.book m) queue → Holding (e.book m).market (e.book m).holdings (e.book m) →
      Yields Plain x (e.book m) (fun _ b' => (∃ queue', Orderly m b' queue') ∧
        Holding (e.book m).market (e.book m).holdings b')) :
    v.Solvent names (inMarket m (atomically x) e).2 := by
  have start : Holding (e.book m).market (e.book m).holdings (e.book m) := ⟨rfl, fun _ => rfl, solvent.affordable m⟩
  obtain ⟨sound, holding⟩ := solvent.sound.atomic start (fun queue orderly => keeps queue orderly start)
  have books : (inMarket m (atomically x) e).2.book = Function.update e.book m (atomically x (e.book m)).2 := rfl
  obtain ⟨queue, orderly⟩ := sound m
  rw [books, update_self] at orderly
  refine solvent.update books (fun _ _ => ⟨queue, orderly⟩) (fun market there => ?_) holding.affordable (fun inside => ?_)
    (fun _ _ _ _ _ => rfl)
  · rw [holding.market] at there
    exact solvent.founded m market there
  · have covered := solvent.covered m inside
    unfold Venue.Covered at covered ⊢
    rw [books, update_self, holding.market]
    simp only [holding.total]
    exact covered

structure Names.Cover (names : Names) (op : ExchangeOp) : Prop where
  market : op.market ∈ names.markets
  users : ∀ user ∈ op.users, user ∈ names.users
  mints : ∀ mint ∈ op.mints, mint ∈ names.mints

theorem step_solvent (free : v.CollisionFree names) (outsiders : v.Outsiders names) (solvent : v.Solvent names e)
    {op : ExchangeOp} (cover : Names.Cover names op) (few : Roomy e op) : v.Solvent names (v.step e op) := by
  cases op with
  | createMarket market =>
    exact createMarket_solvent solvent cover.market (cover.mints _ mem_cons_self) (cover.mints _ (by simp [ExchangeOp.mints]))
  | deposit m user asset amount => exact deposit_solvent free outsiders solvent cover.market (cover.users user mem_cons_self)
  | withdraw m user asset amount => exact withdraw_solvent free outsiders solvent cover.market (cover.users user mem_cons_self)
  | placeOrder m r =>
    exact solvent.atomic (fun _ orderly holding => placeOrderInner_yields (holding_kept _ _) orderly holding r few)
  | cancelOrder m owner orderId =>
    exact solvent.atomic
      (fun _ orderly holding => cancelOrderInner_yields (holding_kept _ _) orderly holding owner orderId.toNat)

def Vacant (v : Venue) (names : Names) (tree : StateTree) : Prop :=
  ∀ m ∈ names.markets, ∀ mint ∈ names.mints, v.tokens.tokenBalance tree mint.bytes (v.marketBookId m) = 0

theorem opening_solvent {tree : StateTree} (vacant : Vacant v names tree) : v.Solvent names (opening tree) := by
  refine ⟨opening_sound tree, ?_, ?_, fun m inside => ⟨fun asset => ?_, vacant m inside⟩⟩
  · intro _ _ there
    cases there
  · intro _ _ _ stored
    cases stored
  · unfold holdings free locked
    change (∑ᶠ _ : AccountId, 0) + 0 = 0
    rw [finsum_zero, Nat.add_zero]

theorem namesOf_cover {ops : List ExchangeOp} {op : ExchangeOp} (member : op ∈ ops) : Names.Cover (namesOf ops) op :=
  ⟨⟨op, member, rfl⟩, fun _ known => ⟨op, member, known⟩, fun _ known => ⟨op, member, known⟩⟩

/-- From an empty exchange, as long as no market's account moves tokens itself: after every call each market's account holds
exactly what its users have, free and locked. -/
theorem run_solvent (v : Venue) (tree : StateTree) (ops : List ExchangeOp) (free : v.CollisionFree (namesOf ops))
    (vacant : Vacant v (namesOf ops) tree) (outsiders : v.Outsiders (namesOf ops))
    (few : Meets v.step Roomy (opening tree) ops) (n : Nat) :
    let e := run v.step (opening tree) (ops.take n)
    ∀ m market asset mint, (e.book m).market = some market → mintForAsset market asset = .ok mint →
      v.balanceOf e mint (v.marketBookId m) = (e.book m).free asset + (e.book m).locked asset := by
  intro e m market asset mint found minted
  rw [← take_append_drop n ops] at few
  have solvent : v.Solvent (namesOf ops) e := run_invariant
    (fun _ op member solvent few => step_solvent free outsiders solvent (namesOf_cover (mem_of_mem_take member)) few)
    (opening_solvent vacant) (meets_append.mp few).1
  have covered := solvent.covered m (solvent.founded m market found)
  unfold Venue.Covered at covered
  rw [found] at covered
  exact covered.2.2.2 asset mint minted

end

end Venue

theorem Book.pair_le_free (b : Book) (asset : UInt8) {u w : AccountId} (differ : u ≠ w) :
    b.balance u asset + b.balance w asset ≤ b.free asset := by
  have := Fintype.ofFinite AccountId
  unfold free
  rw [finsum_eq_sum_of_fintype, ← Finset.sum_pair (f := fun user => b.balance user asset) differ]
  exact Finset.sum_le_sum_of_subset (Finset.subset_univ _)

namespace SmallVenue

def selfDeposit : List ExchangeOp := [.createMarket pair, .deposit 34 seller 0 50, .deposit 34 book 0 5]

theorem collisionFree {names : Names} (markets : ∀ m ∈ names.markets, m = 34)
    (mints : ∀ mint ∈ names.mints, mint = base ∨ mint = quote)
    (users : ∀ user ∈ names.users, user = seller ∨ user = buyer ∨ user = book) : venue.CollisionFree names := by
  have owners : ∀ owner ∈ names.users ∪ Set.image venue.marketBookId names.markets,
      owner = seller ∨ owner = buyer ∨ owner = book := by
    rintro owner (known | ⟨m, inside, rfl⟩)
    · exact users owner known
    · rw [markets m inside]
      exact Or.inr (Or.inr rfl)
  refine ⟨?_, ?_⟩
  · intro m inside m' inside' _
    rw [markets m inside, markets m' inside']
  · rintro ⟨mint, owner⟩ ⟨minted, owned⟩ ⟨mint', owner'⟩ ⟨minted', owned'⟩ same
    rcases mints mint minted with rfl | rfl <;> rcases mints mint' minted' with rfl | rfl <;>
      rcases owners owner owned with rfl | rfl | rfl <;> rcases owners owner' owned' with rfl | rfl | rfl <;>
        first | rfl | exact absurd same (by decide)

theorem vacant {names : Names} (markets : ∀ m ∈ names.markets, m = 34)
    (mints : ∀ mint ∈ names.mints, mint = base ∨ mint = quote) : Venue.Vacant venue names tree := by
  intro m inside mint minted
  rw [markets m inside]
  rcases mints mint minted with rfl | rfl
  · decide +kernel
  · decide +kernel

theorem traded_names : (∀ m ∈ (namesOf traded).markets, m = 34) ∧
    (∀ mint ∈ (namesOf traded).mints, mint = base ∨ mint = quote) ∧
    ∀ user ∈ (namesOf traded).users, user = seller ∨ user = buyer := by
  refine ⟨?_, ?_, ?_⟩
  · rintro m ⟨op, member, rfl⟩
    simp only [traded, mem_cons, not_mem_nil, or_false] at member
    rcases member with rfl | rfl | rfl | rfl | rfl <;> rfl
  · rintro mint ⟨op, member, minted⟩
    simp only [traded, mem_cons, not_mem_nil, or_false] at member
    rcases member with rfl | rfl | rfl | rfl | rfl <;> simp_all [ExchangeOp.mints, pair]
  · rintro user ⟨op, member, known⟩
    simp only [traded, mem_cons, not_mem_nil, or_false] at member
    rcases member with rfl | rfl | rfl | rfl | rfl <;> simp_all [ExchangeOp.users]

theorem selfDeposit_names : (∀ m ∈ (namesOf selfDeposit).markets, m = 34) ∧
    (∀ mint ∈ (namesOf selfDeposit).mints, mint = base ∨ mint = quote) ∧
    ∀ user ∈ (namesOf selfDeposit).users, user = seller ∨ user = book := by
  refine ⟨?_, ?_, ?_⟩
  · rintro m ⟨op, member, rfl⟩
    simp only [selfDeposit, mem_cons, not_mem_nil, or_false] at member
    rcases member with rfl | rfl | rfl <;> rfl
  · rintro mint ⟨op, member, minted⟩
    simp only [selfDeposit, mem_cons, not_mem_nil, or_false] at member
    rcases member with rfl | rfl | rfl <;> simp_all [ExchangeOp.mints, pair]
  · rintro user ⟨op, member, known⟩
    simp only [selfDeposit, mem_cons, not_mem_nil, or_false] at member
    rcases member with rfl | rfl | rfl <;> simp_all [ExchangeOp.users]

theorem traded_solvent : ((run venue.step (opening tree) traded).book 34).locked assetBase = 12 ∧
    venue.balanceOf (run venue.step (opening tree) traded) base book =
      ((run venue.step (opening tree) traded).book 34).free assetBase +
        ((run venue.step (opening tree) traded).book 34).locked assetBase := by
  obtain ⟨markets, mints, users⟩ := traded_names
  have outsiders : venue.Outsiders (namesOf traded) := by
    intro user known m inside
    rw [markets m inside]
    rcases users user known with rfl | rfl <;> decide
  have free := collisionFree markets mints (fun user known => (users user known).imp_right Or.inl)
  exact ⟨by decide +kernel, Venue.run_solvent venue tree traded free (vacant markets mints) outsiders (by decide +kernel)
    traded.length 34 pair assetBase base (by decide +kernel) (by decide)⟩

/-- The market's own account is credited with a deposit that moves nothing. -/
theorem selfDeposit_uncovered : venue.CollisionFree (namesOf selfDeposit) ∧ Venue.Vacant venue (namesOf selfDeposit) tree ∧
    ((run venue.step (opening tree) selfDeposit).book 34).market = some pair ∧
    venue.balanceOf (run venue.step (opening tree) selfDeposit) base book ≠
      ((run venue.step (opening tree) selfDeposit).book 34).free assetBase +
        ((run venue.step (opening tree) selfDeposit).book 34).locked assetBase := by
  obtain ⟨markets, mints, users⟩ := selfDeposit_names
  have free := collisionFree markets mints (fun user known => (users user known).imp_right Or.inr)
  refine ⟨free, vacant markets mints, by decide +kernel, ?_⟩
  have ledger : venue.balanceOf (run venue.step (opening tree) selfDeposit) base book = 50 := by decide +kernel
  have sellers : ((run venue.step (opening tree) selfDeposit).book 34).balance seller assetBase = 50 := by
    decide +kernel
  have own : ((run venue.step (opening tree) selfDeposit).book 34).balance book assetBase = 5 := by decide +kernel
  have both := ((run venue.step (opening tree) selfDeposit).book 34).pair_le_free assetBase
    (by decide : seller ≠ book)
  omega

end SmallVenue

end AceChain.Liquid
