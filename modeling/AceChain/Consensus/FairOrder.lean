import AceChain.Lib.Maps
import AceChain.Runtime.Transaction
import Mathlib.Data.List.Perm.Subperm

namespace AceChain.Consensus

open AceChain.Runtime Lib Std.TreeMap List

/-- What the fair order takes from outside; the shuffle permutes the indices below its bound. -/
structure FairOrder where
  hash : List UInt8 → Hash
  txHash : Transaction → Hash
  fisherYates : Hash → Nat → List Nat
  shuffles : ∀ seed n, (fisherYates seed n).Perm (List.range n)

namespace FairOrder

def lane (id : Hash) (txs : List Transaction) : List Transaction := txs.filter (fun tx => tx.attestation.idcom = id)

section Lanes

variable {β : Type} (f : Transaction → β) (txs : List Transaction)

def lanes : Std.TreeMap Hash (List β) :=
  txs.foldl (fun lanes tx => lanes.insert tx.attestation.idcom ((lanes[tx.attestation.idcom]?).getD [] ++ [f tx])) ∅

theorem lookup_lanes (id : Hash) : (lanes f txs)[id]? = if lane id txs = [] then none else some ((lane id txs).map f) := by
  induction txs using List.reverseRecOn with
  | nil => exact getElem?_emptyc
  | append_singleton txs tx ih =>
    unfold lanes at ih ⊢
    rw [foldl_append, foldl_cons, foldl_nil, lookup_insert]
    by_cases own : id = tx.attestation.idcom
    · subst own
      have longer : lane tx.attestation.idcom (txs ++ [tx]) = lane tx.attestation.idcom txs ++ [tx] := by simp [lane]
      have nonempty : lane tx.attestation.idcom txs ++ [tx] ≠ [] := by simp
      rw [if_pos rfl, ih, longer, if_neg nonempty, map_append]
      by_cases empty : lane tx.attestation.idcom txs = []
      · rw [if_pos empty, empty]
        rfl
      · rw [if_neg empty]
        rfl
    · have same : lane id (txs ++ [tx]) = lane id txs := by simp [lane, Ne.symm own]
      rw [if_neg own, ih, same]

theorem mem_lanes {entry : Hash × List Transaction} :
    entry ∈ (lanes id txs).toList ↔ entry.2 ≠ [] ∧ entry.2 = lane entry.1 txs := by
  rw [mem_toList_iff_getElem?_eq_some, lookup_lanes, map_id]
  by_cases empty : lane entry.1 txs = []
  · rw [if_pos empty, empty]
    simp
  · rw [if_neg empty, Option.some.injEq]
    exact ⟨fun same => ⟨same ▸ empty, same.symm⟩, fun same => same.2.symm⟩

theorem distinct_lanes : ((lanes id txs).toList.map Prod.fst).Nodup := by
  rw [map_fst_toList_eq_keys]
  exact nodup_keys

end Lanes

variable (x : FairOrder) (parentHash : Hash) (slot : Nat) (txs : List Transaction)

def fairOrderSeed : Hash :=
  x.hash (asciiBytes "ace/mev-fair-order-v1" ++ hashBytes parentHash ++ (leBytes 8 slot).reverse ++
    (lanes x.txHash txs).toList.flatMap (fun entry => hashBytes entry.1 ++ entry.2.flatMap hashBytes))

/-- The number of lanes is cast to `u32`. -/
def sigma : List Nat := x.fisherYates (x.fairOrderSeed parentHash slot txs) ((lanes id txs).toList.length % 2 ^ 32)

def fairOrderTransactions : List Transaction :=
  if txs.length < 2 then txs
  else ((x.sigma parentHash slot txs).filterMap (fun i => (lanes id txs).toList[i]?)).flatMap Prod.snd

def isFairOrdered : Bool :=
  txs.length < 2 || txs.map x.txHash = (x.fairOrderTransactions parentHash slot txs).map x.txHash

structure Canonical : Prop where
  perm : (x.fairOrderTransactions parentHash slot txs).Perm txs
  lanes : ∀ id, lane id (x.fairOrderTransactions parentHash slot txs) = lane id txs
  idempotent : x.fairOrderTransactions parentHash slot (x.fairOrderTransactions parentHash slot txs) =
    x.fairOrderTransactions parentHash slot txs
  interleaved : ∀ txs', (∀ id, lane id txs' = lane id txs) →
    x.fairOrderTransactions parentHash slot txs' = x.fairOrderTransactions parentHash slot txs
  accepted : x.isFairOrdered parentHash slot txs = true ↔ txs = x.fairOrderTransactions parentHash slot txs

section Interleaving

variable {txs txs' : List Transaction} (same : ∀ id, lane id txs' = lane id txs)
include same

theorem perm_of_lanes : txs'.Perm txs := by
  apply List.perm_iff_count.mpr
  intro tx
  have own : ∀ l : List Transaction, (lane tx.attestation.idcom l).count tx = l.count tx := fun l => count_filter (by simp)
  rw [← own txs', same, own]

theorem lanes_congr {β : Type} (f : Transaction → β) : (lanes f txs').toList = (lanes f txs).toList := by
  apply toList_eq_of_lookup
  intro id
  rw [lookup_lanes, lookup_lanes, same]

theorem eq_of_lanes (senders : txs'.map (·.attestation.idcom) = txs.map (·.attestation.idcom)) : txs' = txs := by
  induction txs' generalizing txs with
  | nil => exact (List.map_eq_nil_iff.mp senders.symm).symm
  | cons a rest' ih =>
    cases txs with
    | nil => cases senders
    | cons b rest =>
      obtain ⟨head, tail⟩ := List.cons.inj senders
      have first := same b.attestation.idcom
      simp only [lane, filter_cons, head, decide_true, if_true] at first
      obtain ⟨rfl, -⟩ := List.cons.inj first
      rw [ih (fun id => ?_) tail]
      have here := same id
      simp only [lane, filter_cons] at here ⊢
      split at here
      · exact (List.cons.inj here).2
      · exact here

theorem fairOrder_congr : x.fairOrderTransactions parentHash slot txs' = x.fairOrderTransactions parentHash slot txs := by
  have perm := perm_of_lanes same
  unfold fairOrderTransactions sigma fairOrderSeed
  rw [lanes_congr same, lanes_congr same, perm.length_eq]
  by_cases few : txs.length < 2
  · rw [if_pos few, if_pos few]
    cases txs with
    | nil => exact List.perm_nil.mp perm
    | cons tx rest =>
      obtain rfl : rest = [] := eq_nil_of_length_eq_zero (by rw [length_cons] at few; omega)
      exact List.perm_singleton.mp perm
  · rw [if_neg few, if_neg few]

end Interleaving

theorem flatMap_lane {entries : List (Hash × List Transaction)} (listed : entries.Perm (lanes id txs).toList) (own : Hash) :
    lane own (entries.flatMap Prod.snd) = lane own txs := by
  have distinct := (listed.map Prod.fst).nodup_iff.mpr (distinct_lanes txs)
  have inner : ∀ entry ∈ entries, lane own entry.2 = if entry.1 = own then lane own txs else [] := by
    intro entry member
    rw [((mem_lanes txs).mp (listed.mem_iff.mp member)).2]
    by_cases same : entry.1 = own
    · rw [if_pos same, same, lane, lane, filter_filter]
      simp
    · rw [if_neg same, lane, lane, filter_filter, filter_eq_nil_iff]
      intro tx _ both
      simp only [Bool.and_eq_true, decide_eq_true_eq] at both
      exact same (both.2.symm.trans both.1)
  have spread : lane own (entries.flatMap Prod.snd) = entries.flatMap (fun entry => lane own entry.2) := filter_flatMap
  rw [spread]
  by_cases empty : lane own txs = []
  · rw [empty, flatMap_eq_nil_iff]
    intro entry member
    rw [inner entry member, empty, ite_self]
  · have held : (own, lane own txs) ∈ entries := listed.mem_iff.mpr ((mem_lanes txs).mpr ⟨empty, rfl⟩)
    obtain ⟨front, back, parts⟩ := append_of_mem held
    subst parts
    -- no other entry has the key
    rw [map_append, map_cons, nodup_middle, nodup_cons, mem_append, not_or] at distinct
    have others : ∀ entry ∈ front ++ back, lane own entry.2 = [] := by
      intro entry member
      have differ : entry.1 ≠ own := by
        rintro rfl
        rcases List.mem_append.mp member with there | there
        · exact distinct.1.1 (List.mem_map.mpr ⟨entry, there, rfl⟩)
        · exact distinct.1.2 (List.mem_map.mpr ⟨entry, there, rfl⟩)
      rw [inner entry (by simp only [mem_append, mem_cons] at member ⊢; exact member.imp_right .inr), if_neg differ]
    have front_ := List.flatMap_eq_nil_iff.mpr fun entry member => others entry (mem_append_left back member)
    have back_ := List.flatMap_eq_nil_iff.mpr fun entry member => others entry (mem_append_right front member)
    rw [flatMap_append, flatMap_cons, front_, back_, inner _ (by simp), if_pos rfl, nil_append, append_nil]

theorem filterMap_range {α : Type} (l : List α) : (List.range l.length).filterMap (fun i => l[i]?) = l := by
  induction l using List.reverseRecOn with
  | nil => rfl
  | append_singleton l a ih =>
    have before : (List.range l.length).filterMap (fun i => (l ++ [a])[i]?) = l := by
      refine Eq.trans (filterMap_congr ?_) ih
      intro i member
      exact List.getElem?_append_left (List.mem_range.mp member)
    simp [range_succ, before]

variable {txs} in
theorem lane_fairOrder (few : (lanes id txs).toList.length < 2 ^ 32) (own : Hash) :
    lane own (x.fairOrderTransactions parentHash slot txs) = lane own txs := by
  unfold fairOrderTransactions
  split
  · rfl
  apply flatMap_lane
  have shuffled := x.shuffles (x.fairOrderSeed parentHash slot txs) (lanes id txs).toList.length
  unfold sigma
  rw [Nat.mod_eq_of_lt few]
  exact (shuffled.filterMap _).trans (.of_eq (filterMap_range _))

theorem mem_keys (key : Hash) : key ∈ (lanes id txs).toList.map Prod.fst ↔ key ∈ txs.map (·.attestation.idcom) := by
  constructor
  · intro member
    obtain ⟨entry, listed, rfl⟩ := List.mem_map.mp member
    obtain ⟨nonempty, own⟩ := (mem_lanes txs).mp listed
    obtain ⟨tx, there⟩ := exists_mem_of_ne_nil _ nonempty
    rw [own, lane, mem_filter, decide_eq_true_eq] at there
    exact List.mem_map.mpr ⟨tx, there.1, there.2⟩
  · intro member
    obtain ⟨tx, sent, rfl⟩ := List.mem_map.mp member
    have own : tx ∈ lane tx.attestation.idcom txs := List.mem_filter.mpr ⟨sent, by simp⟩
    exact List.mem_map.mpr ⟨(_, _), (mem_lanes txs).mpr ⟨ne_nil_of_mem own, rfl⟩, rfl⟩

variable {x parentHash slot txs} in
theorem few_of_perm (perm : (x.fairOrderTransactions parentHash slot txs).Perm txs) :
    (lanes id txs).toList.length < 2 ^ 32 := by
  by_contra many
  have bound := ((distinct_lanes txs).subperm fun key => (mem_keys txs key).mp).length_le
  rw [length_map, length_map] at bound
  have short : (lanes id txs).toList.length % 2 ^ 32 < (lanes id txs).toList.length := by omega
  have listed := getElem_mem short
  obtain ⟨nonempty, own⟩ := (mem_lanes txs).mp listed
  obtain ⟨tx, there⟩ := exists_mem_of_ne_nil _ nonempty
  have sent : tx ∈ txs := mem_of_mem_filter (own ▸ there)
  rw [← perm.mem_iff, fairOrderTransactions, if_neg (by omega), mem_flatMap] at sent
  obtain ⟨entry, chosen, here⟩ := sent
  obtain ⟨i, drawn, found⟩ := List.mem_filterMap.mp chosen
  have below := List.mem_range.mp ((x.shuffles _ _).mem_iff.mp drawn)
  obtain ⟨inRange, rfl⟩ := List.getElem?_eq_some_iff.mp found
  have other := (mem_lanes txs).mp (getElem_mem inRange)
  -- the transaction has one lane
  rw [other.2, lane, mem_filter, decide_eq_true_eq] at here
  rw [own, lane, mem_filter, decide_eq_true_eq] at there
  have keys := here.2.symm.trans there.2
  have equal := Prod.ext keys (by rw [other.2, own, keys])
  exact below.ne ((nodup_toList _).getElem_inj_iff.mp equal)

/-- As long as transactions of different lanes have different hashes, the fair order is canonical exactly if the number of
lanes fits in `u32`. -/
theorem canonical_iff (apart : ∀ a ∈ txs, ∀ b ∈ txs, x.txHash a = x.txHash b → a.attestation.idcom = b.attestation.idcom) :
    x.Canonical parentHash slot txs ↔ (lanes id txs).toList.length < 2 ^ 32 := by
  constructor
  · exact fun canonical => few_of_perm canonical.perm
  · intro few
    have kept := lane_fairOrder x parentHash slot few
    refine ⟨perm_of_lanes kept, kept, fairOrder_congr x parentHash slot kept, fun _ =>
      fairOrder_congr x parentHash slot, ?_, ?_⟩
    · intro accepted
      rw [isFairOrdered, Bool.or_eq_true, decide_eq_true_eq, decide_eq_true_eq] at accepted
      rcases accepted with short | hashes
      · rw [fairOrderTransactions, if_pos short]
      refine (eq_of_lanes kept ?_).symm
      apply ext_getElem (by simpa using (congrArg List.length hashes).symm)
      intro i first second
      rw [getElem_map, getElem_map]
      rw [length_map] at first second
      apply apart _ ((perm_of_lanes kept).mem_iff.mp (getElem_mem first)) _ (getElem_mem second)
      have here := congrArg (fun hashes => hashes[i]?) hashes
      simpa [List.getElem?_eq_getElem, first, second] using here.symm
    · intro same
      rw [isFairOrdered, ← same]
      simp

/-- A block holds at most 80000 transactions, so the cast to `u32` keeps the number of its lanes. -/
theorem fair_order_canonical (apart : ∀ a ∈ txs, ∀ b ∈ txs, x.txHash a = x.txHash b →
    a.attestation.idcom = b.attestation.idcom)
    (few : (lanes id txs).toList.length < 2 ^ 32) : x.Canonical parentHash slot txs :=
  (canonical_iff x parentHash slot txs apart).mpr few

def txFrom (sender payload : Nat) : Transaction :=
  ⟨[payload.toUInt8], ⟨0, BitVec.ofNat 256 sender, ⟨1, 0⟩, 0, ⟨.ed25519, []⟩⟩, none, none⟩

def reversing : FairOrder where
  hash bytes := BitVec.ofNat 256 bytes.length
  txHash tx := tx.attestation.idcom * 256 + BitVec.ofNat 256 (leNat tx.payload)
  fisherYates _ n := (List.range n).reverse
  shuffles _ n := reverse_perm (List.range n)

theorem three_canonical :
    reversing.fairOrderTransactions 7 1 [txFrom 1 5, txFrom 2 6, txFrom 1 7] = [txFrom 2 6, txFrom 1 5, txFrom 1 7] ∧
    reversing.Canonical 7 1 [txFrom 1 5, txFrom 2 6, txFrom 1 7] :=
  ⟨by decide +kernel, fair_order_canonical reversing 7 1 _ (by decide +kernel) (by decide +kernel)⟩

end FairOrder

end AceChain.Consensus
