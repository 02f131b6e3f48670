import AceChain.Relayer.Completion

namespace AceChain.Relayer

open Defi Lib Process WithdrawalMonitor Function Disk

def sentIds (history : List Observation) : List Nat :=
  history.filterMap (fun o => match o with | .sent id _ => some id | _ => none)

structure EgressCheckpoint.Retained (older newer : EgressCheckpoint) : Prop where
  processed : older.processedWithdrawals ⊆ newer.processedWithdrawals
  hashes : ∀ id hash, older.externalTxHashes id = some hash → newer.externalTxHashes id = some hash

structure RelayerCheckpoints.Retained (older newer : RelayerCheckpoints) : Prop where
  deposits : ∀ chain, (older.chains chain).processedDeposits ⊆ (newer.chains chain).processedDeposits
  egress : older.egress.Retained newer.egress

theorem EgressCheckpoint.Retained.refl (c : EgressCheckpoint) : c.Retained c := ⟨Finset.Subset.refl _, fun _ _ => id⟩

theorem EgressCheckpoint.Retained.trans {a b c : EgressCheckpoint} (first : a.Retained b) (second : b.Retained c) :
    a.Retained c :=
  ⟨first.processed.trans second.processed, fun id hash recorded => second.hashes id hash (first.hashes id hash recorded)⟩

theorem RelayerCheckpoints.Retained.refl (c : RelayerCheckpoints) : c.Retained c :=
  ⟨fun _ => Finset.Subset.refl _, .refl _⟩

theorem RelayerCheckpoints.Retained.trans {a b c : RelayerCheckpoints} (first : a.Retained b) (second : b.Retained c) :
    a.Retained c :=
  ⟨fun chain => (first.deposits chain).trans (second.deposits chain), first.egress.trans second.egress⟩

namespace EgressPhase

def saving : EgressPhase → Bool
  | .recording _ _ _ | .marking _ => true
  | _ => false

def unsent : EgressPhase → Option Nat
  | .recording w _ _ | .prepared w _ _ => some w.withdrawalId
  | _ => none

def ready : EgressPhase → Option Nat
  | .prepared w _ _ => some w.withdrawalId
  | _ => none

def settled (phase : EgressPhase) : Prop := phase.saving = false ∧ phase.unsent = none ∧ phase.ready = none

end EgressPhase

namespace EgressLoop

variable (cfg : Config)

inductive Saves (d : Disk) (l : EgressLoop) : EgressInput → Disk → EgressLoop → List Observation → Prop where
  | quiet {input : EgressInput} {l' : EgressLoop} {seen : List Observation} (store : l'.store = l.store)
      (processed : l'.monitor.processedWithdrawals = l.monitor.processedWithdrawals)
      (hashes : l'.monitor.externalTxHashes = l.monitor.externalTxHashes)
      (phase : l'.phase = l.phase ∧ l'.monitor = l.monitor ∨ l'.phase.settled)
      (unsent : sentIds seen = []) : Saves d l input d l' seen
  | wrote {input : EgressInput} {l' : EgressLoop} {seen : List Observation} (written : Bool)
      (store : l'.store = { l.store with egress := l'.monitor.checkpoint })
      (grows : l.monitor.checkpoint.Retained l'.monitor.checkpoint)
      (fresh : ∀ id, l'.phase.unsent = some id →
        l.monitor.externalTxHashes id = none ∧ (l'.monitor.externalTxHashes id).isSome)
      (ready : l'.phase.ready = none) (saving : l'.phase.saving = true → written = true) (unsent : sentIds seen = []) :
      Saves d l input (d.write l'.store written) l' seen
  | renamed {l' : EgressLoop} {after : Disk} (saving : l.phase.saving = true) (done : d.rename true = some after)
      (store : l'.store = l.store) (monitor : l'.monitor = l.monitor) (saved : l'.phase.saving = false)
      (unsent : ∀ id, l'.phase.unsent = some id → l.phase.unsent = some id)
      (ready : ∀ id, l'.phase.ready = some id → l.phase.unsent = some id) : Saves d l (.rename true) after l' []
  | sends {l' : EgressLoop} {id : Nat} {seen : List Observation} (ready : l.phase.ready = some id)
      (unsent : l.phase.unsent = some id) (store : l'.store = l.store) (monitor : l'.monitor = l.monitor)
      (settled : l'.phase.settled) (sent : sentIds seen = [id]) : Saves d l .send d l' seen

variable {cfg} {d : Disk} {l : EgressLoop} {input : EgressInput}

theorem Saves.turn {phase : EgressPhase} (settled : phase.settled) :
    Saves d l input d { l with phase } [] := .quiet rfl rfl rfl (.inr settled) rfl

theorem Saves.stay : Saves d l input d l [] := .quiet rfl rfl rfl (.inl ⟨rfl, rfl⟩) rfl

theorem serve_saves {w : WithdrawalRecord} {todo : List WithdrawalRecord}
    {signedHash : Option String} {written : Bool} :
    Saves d l input (l.serve cfg d w todo signedHash written).1 (l.serve cfg d w todo signedHash written).2.1
      (l.serve cfg d w todo signedHash written).2.2.toList := by
  have skip : Saves d l input d { l with phase := .serving todo } [] := .turn ⟨rfl, rfl, rfl⟩
  unfold serve
  by_cases processed : w.withdrawalId ∈ l.monitor.processedWithdrawals
  · simp only [processed, if_true]
    exact skip
  simp only [processed, if_false]
  cases recorded : l.monitor.externalTxHashes w.withdrawalId with
  | some existing => exact .turn ⟨rfl, rfl, rfl⟩
  | none =>
    cases able : executable cfg w with
    | false => exact skip
    | true =>
      cases signedHash with
      | none => exact skip
      | some hash =>
        refine .wrote written rfl ⟨Finset.Subset.refl _, ?_⟩ ?_ (by cases written <;> rfl)
          (by cases written <;> simp [EgressPhase.saving, saved]) rfl
        · intro id found old
          have other : id ≠ w.withdrawalId := by
            rintro rfl
            simp [checkpoint, recorded] at old
          simpa [saved, checkpoint, recordExternalTx, update_of_ne other] using old
        · intro id outstanding
          have same : w.withdrawalId = id := by
            cases written with
            | false => cases outstanding
            | true => exact Option.some.inj outstanding
          subst same
          exact ⟨recorded, by simp [saved, recordExternalTx]⟩

theorem poll_saves {w : WithdrawalRecord} {hash : String} {todo : List WithdrawalRecord} {answer : Poll} :
    Saves d l input (l.poll cfg d w hash todo answer).1 (l.poll cfg d w hash todo answer).2.1
      (l.poll cfg d w hash todo answer).2.2.toList := by
  have giveUp : Saves d l input d { l with phase := .serving todo } [] := .turn ⟨rfl, rfl, rfl⟩
  cases answer with
  | failed => exact giveUp
  | timedOut => exact giveUp
  | missing => exact .stay
  | found receipt current =>
    by_cases status : receipt.status = some "0x1"
    · cases mined : receipt.blockNumber with
      | none => simp only [poll, status, mined, if_true]; exact giveUp
      | some block =>
        cases current with
        | none => simp only [poll, status, mined, if_true]; exact giveUp
        | some current =>
          simp only [poll, status, mined, if_true]
          refine .quiet rfl rfl rfl ?_ rfl
          cases confirmed cfg block current with
          | false => exact .inl ⟨rfl, rfl⟩
          | true => cases releaseReported cfg w receipt <;> exact .inr ⟨rfl, rfl, rfl⟩
    · simp only [poll, status, if_false]
      exact giveUp

theorem rename_saves (succeeds : Bool) : Saves d l (.rename succeeds) (l.step cfg d (.rename succeeds)).1
    (l.step cfg d (.rename succeeds)).2.1 (l.step cfg d (.rename succeeds)).2.2.toList := by
  cases done : d.rename succeeds with
  | none =>
    cases phase : l.phase with
    | recording w hash todo => simp only [step, phase, done]; exact .turn ⟨rfl, rfl, rfl⟩
    | marking todo => simp only [step, phase, done]; exact .turn ⟨rfl, rfl, rfl⟩
    | _ => simp only [step, phase, done]; exact .stay
  | some after =>
    obtain ⟨rfl, -⟩ := rename_some done
    cases phase : l.phase with
    | recording w hash todo =>
      simp only [step, phase, done]
      exact .renamed (by rw [phase]; rfl) done rfl rfl rfl (fun _ same => by rw [phase]; exact same)
        (fun _ same => by rw [phase]; exact same)
    | marking todo =>
      simp only [step, phase, done]
      exact .renamed (by rw [phase]; rfl) done rfl rfl rfl (fun _ same => (by cases same)) (fun _ same => (by cases same))
    | _ => simp only [step, phase, done]; exact .stay

theorem step_saves (input : EgressInput) :
    Saves d l input (l.step cfg d input).1 (l.step cfg d input).2.1 (l.step cfg d input).2.2.toList := by
  cases input with
  | pending answer =>
    cases phase : l.phase with
    | idle =>
      cases answer with
      | none => simp only [step, phase]; exact .stay
      | some ws => simp only [step, phase]; exact .quiet rfl rfl rfl (.inr ⟨rfl, rfl, rfl⟩) rfl
    | _ => simp only [step, phase]; exact .stay
  | serve signedHash written =>
    cases phase : l.phase with
    | serving todo =>
      cases todo with
      | nil => simp only [step, phase]; exact .turn ⟨rfl, rfl, rfl⟩
      | cons w todo => simp only [step, phase]; exact serve_saves
    | _ => simp only [step, phase]; exact .stay
  | rename succeeds => exact rename_saves succeeds
  | send =>
    cases phase : l.phase with
    | prepared w hash todo =>
      simp only [step, phase]
      exact .sends (by rw [phase]; rfl) (by rw [phase]; rfl) rfl rfl ⟨rfl, rfl, rfl⟩ rfl
    | _ => simp only [step, phase]; exact .stay
  | sendAnswer answer =>
    cases phase : l.phase with
    | sending w hash todo => cases answer <;> simp only [step, phase] <;> exact .turn ⟨rfl, rfl, rfl⟩
    | _ => simp only [step, phase]; exact .stay
  | poll answer =>
    cases phase : l.phase with
    | waiting w hash todo => simp only [step, phase]; exact poll_saves
    | _ => simp only [step, phase]; exact .stay
  | submit =>
    cases phase : l.phase with
    | submitting w hash gateway todo =>
      cases signed : signWithdrawalCompletion cfg w hash gateway with
      | none => simp only [step, phase, signed]; exact .turn ⟨rfl, rfl, rfl⟩
      | some completion => simp only [step, phase, signed]; exact .quiet rfl rfl rfl (.inr ⟨rfl, rfl, rfl⟩) rfl
    | _ => simp only [step, phase]; exact .stay
  | completionAnswer accepted written =>
    cases phase : l.phase with
    | submitted w todo =>
      simp only [step, phase]
      cases accepted with
      | false => exact .turn ⟨rfl, rfl, rfl⟩
      | true =>
        refine .wrote written rfl ⟨Finset.subset_insert _ _, fun _ _ => id⟩ ?_ (by cases written <;> rfl)
          (by cases written <;> simp [EgressPhase.saving, saved]) rfl
        intro id outstanding
        cases written <;> cases outstanding
    | _ => simp only [step, phase]; exact .stay

end EgressLoop

/-- A rename publishes the loop's own copy, and outside the loop's own part that copy is what the file already holds. -/
def Process.Undisturbed (r : Process) : Input → Prop
  | .egress (.rename true) => ∀ l, r.egress = some l → l.phase.saving = true → ∀ content, r.disk.temp = some content →
      content = l.store ∧ content.chains = r.disk.file.chains
  | .ingress chain (.rename true) => ∀ l, r.ingress chain = some l → l.phase.saving = true →
      ∀ content, r.disk.temp = some content → content = l.store ∧ content.egress = r.disk.file.egress ∧
        ∀ other, other ≠ chain → content.chains other = r.disk.file.chains other
  | _ => True

/-- The egress loop knows all that the file has of it, and has not sent what it is about to send. -/
structure EgressSafe (file : RelayerCheckpoints) (history : List Observation) (l : EgressLoop) : Prop where
  retained : file.egress.Retained l.monitor.checkpoint
  saved : l.phase.saving = true → l.store.egress = l.monitor.checkpoint
  unsent : ∀ id, l.phase.unsent = some id → id ∉ sentIds history ∧ (l.monitor.externalTxHashes id).isSome
  ready : ∀ id, l.phase.ready = some id → (file.egress.externalTxHashes id).isSome

structure IngressSafe (file : RelayerCheckpoints) (chain : String) (l : IngressLoop) : Prop where
  retained : (file.chains chain).processedDeposits ⊆ l.monitor.processedDeposits
  saved : l.phase.saving = true → l.store.chains chain = l.monitor.checkpoint

structure Safe (r : Process) : Prop where
  once : (sentIds r.history).Nodup
  durable : ∀ id ∈ sentIds r.history, (r.disk.file.egress.externalTxHashes id).isSome
  egress : ∀ l, r.egress = some l → EgressSafe r.disk.file r.history l
  ingress : ∀ chain l, r.ingress chain = some l → IngressSafe r.disk.file chain l

variable {cfg : Config} {r : Process}

theorem fresh_safe : Safe fresh := by
  constructor <;> simp [fresh, sentIds]

theorem sentIds_append (newer older : List Observation) : sentIds (newer ++ older) = sentIds newer ++ sentIds older := by
  simp [sentIds]

theorem EgressCheckpoint.Retained.isSome {older newer : EgressCheckpoint} {id : Nat} (retained : older.Retained newer)
    (recorded : (older.externalTxHashes id).isSome) : (newer.externalTxHashes id).isSome := by
  obtain ⟨hash, found⟩ := Option.isSome_iff_exists.mp recorded
  rw [retained.hashes id hash found]
  rfl

variable {file file' : RelayerCheckpoints}

theorem IngressSafe.of_chains {chain : String} {l : IngressLoop}
    (same : file'.chains chain = file.chains chain) (safe : IngressSafe file chain l) : IngressSafe file' chain l :=
  ⟨by rw [same]; exact safe.retained, safe.saved⟩

theorem EgressSafe.of_egress {history : List Observation} {l : EgressLoop}
    (same : file'.egress = file.egress) (safe : EgressSafe file history l) : EgressSafe file' history l :=
  ⟨by rw [same]; exact safe.retained, safe.saved, safe.unsent, by rw [same]; exact safe.ready⟩

variable {after : Disk}

theorem egress_safe {input : EgressInput} {l l' : EgressLoop} {seen : List Observation} (safe : Safe r)
    (running : r.egress = some l) (undisturbed : r.Undisturbed (.egress input)) (saves : l.Saves r.disk input after l' seen) :
    Safe { r with disk := after, egress := some l', history := seen ++ r.history } ∧ r.disk.file.Retained after.file := by
  have own := safe.egress l running
  cases saves with
  | quiet store processed hashes phase unsent =>
    have ids : sentIds (seen ++ r.history) = sentIds r.history := by rw [sentIds_append, unsent, List.nil_append]
    have checkpoint : l.monitor.checkpoint.Retained l'.monitor.checkpoint :=
      ⟨by rw [checkpoint, checkpoint, processed],
        fun id hash recorded => by rw [checkpoint, hashes]; exact recorded⟩
    refine ⟨⟨by rw [ids]; exact safe.once, by rw [ids]; exact safe.durable, ?_, safe.ingress⟩, .refl _⟩
    rintro _ ⟨⟩
    refine ⟨own.retained.trans checkpoint, fun saving => ?_, fun id outstanding => ?_, fun id outstanding => ?_⟩
    · rcases phase with ⟨same, monitor⟩ | settled
      · rw [store, monitor]
        exact own.saved (same ▸ saving)
      · simp [settled.1] at saving
    · rcases phase with ⟨same, -⟩ | settled
      · rw [ids, hashes]
        exact own.unsent id (same ▸ outstanding)
      · simp [settled.2.1] at outstanding
    · rcases phase with ⟨same, -⟩ | settled
      · exact own.ready id (same ▸ outstanding)
      · simp [settled.2.2] at outstanding
  | wrote written store grows fresh ready _ unsent =>
    have ids : sentIds (seen ++ r.history) = sentIds r.history := by rw [sentIds_append, unsent, List.nil_append]
    refine ⟨⟨by rw [ids]; exact safe.once, by rw [ids, write_file]; exact safe.durable, ?_,
      by rw [write_file]; exact safe.ingress⟩, by rw [write_file]; exact .refl _⟩
    rintro _ ⟨⟩
    rw [write_file]
    refine ⟨own.retained.trans grows, fun _ => by rw [store], fun id outstanding => ?_, fun id outstanding => ?_⟩
    · obtain ⟨unknown, recorded⟩ := fresh id outstanding
      refine ⟨fun sent => ?_, recorded⟩
      rw [ids] at sent
      have known := own.retained.isSome (safe.durable id sent)
      simp [checkpoint, unknown] at known
    · simp [ready] at outstanding
  | renamed saving done store monitor saved unsent ready =>
    obtain ⟨-, held, -⟩ := rename_some done
    obtain ⟨copy, chains⟩ := undisturbed l running saving after.file held
    have published : after.file.egress = l.monitor.checkpoint := by rw [copy]; exact own.saved saving
    have retained : r.disk.file.egress.Retained after.file.egress := by rw [published]; exact own.retained
    refine ⟨⟨safe.once, fun id sent => retained.isSome (safe.durable id sent), ?_, fun chain other present => ?_⟩,
      ⟨fun chain => by rw [chains], retained⟩⟩
    · rintro _ ⟨⟩
      refine ⟨by rw [published, monitor]; exact .refl _, by simp [saved], fun id outstanding => ?_, fun id outstanding => ?_⟩
      · rw [monitor]
        exact own.unsent id (unsent id outstanding)
      · rw [published]
        exact (own.unsent id (ready id outstanding)).2
    · exact (safe.ingress chain other present).of_chains (by rw [chains])
  | @sends _ sentId _ ready unsent store monitor settled sent =>
    have ids : sentIds (seen ++ r.history) = sentId :: sentIds r.history := by rw [sentIds_append, sent]; rfl
    refine ⟨⟨?_, ?_, ?_, safe.ingress⟩, .refl _⟩
    · rw [ids]
      exact List.nodup_cons.mpr ⟨(own.unsent _ unsent).1, safe.once⟩
    · intro id member
      rw [ids] at member
      rcases List.mem_cons.mp member with rfl | member
      · exact own.ready _ ready
      · exact safe.durable id member
    · rintro _ ⟨⟩
      obtain ⟨saved, none_, unready⟩ := settled
      exact ⟨by rw [monitor]; exact own.retained, by simp [saved], by simp [none_], by simp [unready]⟩

theorem ingress_safe {chain : String} {input : IngressInput} {l l' : IngressLoop} (safe : Safe r)
    (running : r.ingress chain = some l) (undisturbed : r.Undisturbed (.ingress chain input))
    (move : l.Move chain r.disk input after l') :
    Safe { r with disk := after, ingress := update r.ingress chain (some l') } ∧ r.disk.file.Retained after.file := by
  have own := safe.ingress chain l running
  -- the other ingress loops see their part of the file unchanged
  have others : ∀ {file : RelayerCheckpoints}, (∀ other, other ≠ chain → file.chains other = r.disk.file.chains other) →
      IngressSafe file chain l' → ∀ other l'', update r.ingress chain (some l') other = some l'' →
        IngressSafe file other l'' := by
    intro file same mine other l'' present
    by_cases here : other = chain
    · subst here
      simp only [update_self, Option.some.injEq] at present
      exact present ▸ mine
    · rw [update_of_ne here] at present
      exact (safe.ingress other l'' present).of_chains (same other here)
  cases move with
  | quiet store monitor saving =>
    refine ⟨⟨safe.once, safe.durable, safe.egress, others (fun _ _ => rfl) ⟨by rw [monitor]; exact own.retained, ?_⟩⟩, .refl _⟩
    intro outstanding
    rw [store, monitor]
    exact own.saved (saving outstanding)
  | wrote written store monitor =>
    have mine : IngressSafe r.disk.file chain l' := ⟨own.retained.trans monitor, fun _ => by rw [store]; simp⟩
    refine ⟨⟨safe.once, ?_, ?_, ?_⟩, ?_⟩ <;> simp only [write_file]
    · exact safe.durable
    · exact safe.egress
    · exact others (fun _ _ => rfl) mine
    · exact .refl _
  | renamed saving done store monitor saved =>
    obtain ⟨-, held, -⟩ := rename_some done
    obtain ⟨copy, egress, elsewhere⟩ := undisturbed l running saving after.file held
    have published : after.file.chains chain = l.monitor.checkpoint := by rw [copy]; exact own.saved saving
    have mine : IngressSafe after.file chain l' := by
      refine ⟨?_, by simp [saved]⟩
      rw [published, monitor]
      exact Finset.Subset.refl _
    refine ⟨⟨safe.once, by rw [egress]; exact safe.durable, fun other present => (safe.egress other present).of_egress egress,
      others elsewhere mine⟩, ⟨fun other => ?_, by rw [egress]; exact .refl _⟩⟩
    by_cases here : other = chain
    · subst here
      rw [published]
      exact own.retained
    · rw [elsewhere other here]

theorem step_safe {input : Input} (safe : Safe r) (undisturbed : r.Undisturbed input) :
    Safe (r.step cfg input) ∧ r.disk.file.Retained (r.step cfg input).disk.file := by
  cases input with
  | startEgress =>
    cases running : r.egress with
    | some l => simp only [step, running]; exact ⟨safe, .refl _⟩
    | none =>
      simp only [step, running]
      refine ⟨⟨safe.once, safe.durable, ?_, safe.ingress⟩, .refl _⟩
      rintro _ ⟨⟩
      exact ⟨.refl _, fun saving => (by cases saving), fun _ outstanding => (by cases outstanding),
        fun _ outstanding => (by cases outstanding)⟩
  | startIngress chain =>
    cases running : r.ingress chain with
    | some l => simp only [step, running]; exact ⟨safe, .refl _⟩
    | none =>
      simp only [step, running]
      refine ⟨⟨safe.once, safe.durable, safe.egress, fun other l present => ?_⟩, .refl _⟩
      by_cases here : other = chain
      · subst here
        simp only [update_self, Option.some.injEq] at present
        subst present
        exact ⟨Finset.Subset.refl _, fun saving => (by cases saving)⟩
      · simp only [update_of_ne here] at present
        exact safe.ingress other l present
  | egress input =>
    cases running : r.egress with
    | none => simp only [step, running]; exact ⟨safe, .refl _⟩
    | some l =>
      simp only [step, running]
      exact egress_safe safe running undisturbed (l.step_saves input)
  | ingress chain input =>
    cases running : r.ingress chain with
    | none => simp only [step, running]; exact ⟨safe, .refl _⟩
    | some l =>
      simp only [step, running]
      exact ingress_safe safe running undisturbed (l.step_move chain r.disk input)
  | crash => exact ⟨⟨safe.once, safe.durable, fun _ present => (by cases present), fun _ _ present =>
    (by cases present)⟩, .refl _⟩

theorem run_retained {inputs : List Input} (safe : Safe r) (meets : Meets (step cfg) Undisturbed r inputs) :
    Safe (run (step cfg) r inputs) ∧ r.disk.file.Retained (run (step cfg) r inputs).disk.file := by
  have keep : ∀ s, ∀ input ∈ inputs, Safe s ∧ r.disk.file.Retained s.disk.file → s.Undisturbed input →
      Safe (s.step cfg input) ∧ r.disk.file.Retained (s.step cfg input).disk.file := by
    intro s input _ kept met
    obtain ⟨next, retained⟩ : Safe (s.step cfg input) ∧ _ := step_safe kept.1 met
    exact ⟨next, kept.2.trans retained⟩
  exact run_invariant keep ⟨safe, .refl _⟩ meets

/-- In a run in which every rename publishes the loop's own copy, current outside the loop's own part, each withdrawal is
paid at most once, and what the file has at one time it has at any later one. -/
theorem run_pays_once (inputs later : List Input)
    (meets : Meets (step cfg) Undisturbed fresh (inputs ++ later)) :
    (sentIds (run (step cfg) fresh (inputs ++ later)).history).Nodup ∧
      (run (step cfg) fresh inputs).disk.file.Retained
        (run (step cfg) fresh (inputs ++ later)).disk.file := by
  obtain ⟨first, second⟩ := meets_append.mp meets
  have safe := (run_retained fresh_safe first).1
  have whole := run_retained safe second
  rw [run_append]
  exact ⟨whole.1.once, whole.2⟩

/-- With no other loop writing, the copy of the egress loop is current. -/
structure Alone (r : Process) : Prop where
  chains : ∀ l, r.egress = some l → l.store.chains = r.disk.file.chains
  temp : ∀ l, r.egress = some l → l.phase.saving = true → r.disk.temp = some l.store

def Input.isIngress : Input → Bool
  | .ingress _ _ => true
  | _ => false

theorem Alone.egress {input : EgressInput} {l l' : EgressLoop} {seen : List Observation} (alone : Alone r)
    (running : r.egress = some l) (saves : l.Saves r.disk input after l' seen) :
    Alone { r with disk := after, egress := some l', history := seen ++ r.history } := by
  have chains := alone.chains l running
  have temp := alone.temp l running
  cases saves with
  | quiet store processed hashes phase =>
    refine ⟨by rintro _ ⟨⟩; rw [store]; exact chains, ?_⟩
    rintro _ ⟨⟩ saving
    rcases phase with ⟨same, -⟩ | settled
    · rw [store]
      exact temp (same ▸ saving)
    · simp [settled.1] at saving
  | wrote written store grows fresh ready saving =>
    refine ⟨by rintro _ ⟨⟩; rw [store, write_file]; exact chains, ?_⟩
    rintro _ ⟨⟩ outstanding
    simp [saving outstanding, write]
  | renamed saving done store monitor saved =>
    have held := (rename_some done).2.1
    have published : l.store = after.file := Option.some.inj ((temp saving).symm.trans held)
    refine ⟨by rintro _ ⟨⟩; rw [store, published], ?_⟩
    rintro _ ⟨⟩ outstanding
    simp [saved] at outstanding
  | sends ready unsent store monitor settled =>
    refine ⟨by rintro _ ⟨⟩; rw [store]; exact chains, ?_⟩
    rintro _ ⟨⟩ outstanding
    simp [settled.1] at outstanding

theorem step_alone {input : Input} (alone : Alone r) (egress : input.isIngress = false) :
    Alone (r.step cfg input) ∧ r.Undisturbed input := by
  cases input with
  | startEgress =>
    refine ⟨?_, trivial⟩
    cases running : r.egress with
    | some l => simp only [step, running]; exact alone
    | none =>
      simp only [step, running]
      exact ⟨by rintro _ ⟨⟩; rfl, by rintro _ ⟨⟩ saving; cases saving⟩
  | startIngress chain =>
    refine ⟨?_, trivial⟩
    cases running : r.ingress chain with
    | some l => simp only [step, running]; exact alone
    | none => simp only [step, running]; exact ⟨alone.chains, alone.temp⟩
  | egress input =>
    constructor
    · cases running : r.egress with
      | none => simp only [step, running]; exact alone
      | some l =>
        simp only [step, running]
        exact alone.egress running (l.step_saves input)
    · cases input with
      | rename succeeds =>
        cases succeeds with
        | false => trivial
        | true =>
          intro l running saving content held
          have copy : content = l.store := Option.some.inj (held.symm.trans (alone.temp l running saving))
          exact ⟨copy, by rw [copy]; exact alone.chains l running⟩
      | _ => trivial
  | ingress chain input => cases egress
  | crash => exact ⟨⟨fun _ present => (by cases present), fun _ present => (by cases present)⟩, trivial⟩

theorem undisturbed_of_egress_only {inputs : List Input} (alone : Alone r)
    (egress : ∀ input ∈ inputs, input.isIngress = false) : Meets (step cfg) Undisturbed r inputs := by
  induction inputs generalizing r with
  | nil => trivial
  | cons input inputs ih =>
    obtain ⟨next, undisturbed⟩ : Alone (r.step cfg input) ∧ _ := step_alone alone (egress input List.mem_cons_self)
    exact ⟨undisturbed, ih next (fun other member => egress other (List.mem_cons_of_mem _ member))⟩

namespace SmallRelayer

def resumed : List Input :=
  [.crash, .startEgress, .egress (.pending (some [withdrawal])), .egress (.serve (some otherHash) true), .egress .submit]

/-- The ingress loop saves a deposit and its scan before the egress loop starts. -/
def scanned : List Input :=
  [.startIngress "ethereum", .ingress "ethereum" (.scanned (some (["deposit"], 5))), .ingress "ethereum" (.submit true true),
    .ingress "ethereum" (.rename true), .ingress "ethereum" (.finish true), .ingress "ethereum" (.rename true)]

theorem scanned_undisturbed : Meets (step config) Undisturbed fresh scanned := by
  refine ⟨trivial, trivial, trivial, ?_, trivial, ?_, trivial⟩
  all_goals
    rintro l running - content held
    cases running
    cases held
    exact ⟨rfl, rfl, fun other apart => update_of_ne apart _ _⟩

theorem resumed_pays_once :
    (sentIds (run (step config) fresh ((scanned ++ attempt hash) ++ resumed)).history).Nodup ∧
    (run (step config) fresh (scanned ++ attempt hash)).disk.file.Retained
      (run (step config) fresh ((scanned ++ attempt hash) ++ resumed)).disk.file := by
  have alone : Alone (run (step config) fresh scanned) :=
    ⟨fun _ present => (by cases present), fun _ present => (by cases present)⟩
  apply run_pays_once (scanned ++ attempt hash) resumed
  rw [List.append_assoc]
  exact meets_append.mpr ⟨scanned_undisturbed, undisturbed_of_egress_only alone (by decide)⟩

def overwritten : List Input :=
  .startIngress "ethereum" :: attempt hash ++ [.ingress "ethereum" (.scanned (some ([], 5))),
    .ingress "ethereum" (.finish true),
    .ingress "ethereum" (.rename true)]

def raced : List Input :=
  [.startEgress, .startIngress "ethereum", .ingress "ethereum" (.scanned (some ([], 5))),
    .egress (.pending (some [withdrawal])), .egress (.serve (some hash) true), .ingress "ethereum" (.finish true),
    .egress (.rename true), .egress .send]

theorem hash_lost_pays_twice :
    (run (step config) fresh (overwritten.take 6)).disk.file.egress.externalTxHashes 4 = some hash ∧
      (run (step config) fresh overwritten).disk.file.egress.externalTxHashes 4 = none ∧
      sentIds (run (step config) fresh (overwritten ++ .crash :: attempt otherHash)).history = [4, 4] ∧
      sentIds (run (step config) fresh (raced ++ .crash :: attempt otherHash)).history = [4, 4] := by
  decide +kernel

end SmallRelayer

end AceChain.Relayer
