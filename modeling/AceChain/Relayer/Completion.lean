import AceChain.Relayer.Loops

namespace AceChain.Relayer

open Defi Lib Process Function Disk

variable (cfg : Config) (history : List Observation)

/-- A transfer signed for the withdrawal was seen in the other chain: it succeeded, is as deep as required, and the
gateway, if it went through one, reports it. -/
def Backed (id : Nat) : Prop :=
  ∃ w hash receipt block current, w.withdrawalId = id ∧ .signed w hash ∈ history ∧
    .polled hash receipt current ∈ history ∧ receipt.status = some "0x1" ∧ receipt.blockNumber = some block ∧
    confirmed cfg block current = true ∧ releaseReported cfg w receipt = true

def CompletionsBacked : Prop :=
  ∀ record older, .completion record :: older <:+ history → Backed cfg older record.withdrawalId

def EgressPhase.inFlight : EgressPhase → Option Nat
  | .recording w _ _ | .prepared w _ _ | .sending w _ _ | .waiting w _ _ => some w.withdrawalId
  | _ => none

def Process.inFlight (r : Process) : Option Nat := r.egress.bind (fun l => l.phase.inFlight)

def Poll.goes (w : WithdrawalRecord) : Poll → Bool
  | .missing => true
  | .found receipt (some current) =>
    match receipt.blockNumber with
    | some block => receipt.status = some "0x1" ∧ (confirmed cfg block current = true → releaseReported cfg w receipt = true)
    | none => false
  | _ => false

/-- The input does not end an attempt whose hash is already recorded, and the node answers with the hash signed. -/
def EgressLoop.uninterrupted (d : Disk) (l : EgressLoop) : EgressInput → Bool
  | .serve _ written => written
  | .rename succeeds =>
    match l.phase with
    | .recording _ _ _ => (d.rename succeeds).isSome
    | _ => true
  | .sendAnswer answer =>
    match l.phase with
    | .sending _ hash _ => answer = some hash
    | _ => true
  | .poll answer =>
    match l.phase with
    | .waiting w _ _ => answer.goes cfg w
    | _ => true
  | _ => true

def Process.uninterrupted (r : Process) : Input → Bool
  | .egress input =>
    match r.egress with
    | some l => l.uninterrupted cfg r.disk input
    | none => true
  | .crash => r.inFlight.isNone
  | _ => true

variable {cfg}

theorem Backed.mono {history history' : List Observation} {id : Nat} (grows : history ⊆ history')
    (backed : Backed cfg history id) : Backed cfg history' id := by
  obtain ⟨w, hash, receipt, block, current, same, signed, polled, seen⟩ := backed
  exact ⟨w, hash, receipt, block, current, same, grows signed, grows polled, seen⟩

theorem CompletionsBacked.cons {history : List Observation} {o : Observation}
    (first : ∀ record, o = .completion record → Backed cfg history record.withdrawalId)
    (rest : CompletionsBacked cfg history) : CompletionsBacked cfg (o :: history) := by
  intro record older suffix
  rcases List.suffix_cons_iff.mp suffix with same | suffix
  · obtain ⟨rfl, rfl⟩ := List.cons.inj same
    exact first record rfl
  · exact rest record older suffix

variable (cfg)

/-- Every hash in a checkpoint is of a transfer that is backed, or of the one in flight. -/
def Vouched (flight : Option Nat) (c : EgressCheckpoint) : Prop :=
  ∀ id hash, c.externalTxHashes id = some hash → Backed cfg history id ∨ flight = some id

def Lands (flight flight' : Option Nat) : Prop :=
  ∀ id, flight = some id → Backed cfg history id ∨ flight' = some id

def EgressPhase.Justified : EgressPhase → Prop
  | .recording w hash _ | .prepared w hash _ | .sending w hash _ | .waiting w hash _ => .signed w hash ∈ history
  | .submitting w _ _ _ => Backed cfg history w.withdrawalId
  | _ => True

variable {cfg} {flight flight' : Option Nat}

theorem Vouched.mono {history history' : List Observation} {c : EgressCheckpoint}
    (grows : history ⊆ history') (lands : Lands cfg history' flight flight') (vouched : Vouched cfg history flight c) :
    Vouched cfg history' flight' c := by
  intro id hash recorded
  rcases vouched id hash recorded with backed | flying
  · exact .inl (backed.mono grows)
  · exact lands id flying

theorem Lands.of_none {history : List Observation} (landed : flight = none) :
    Lands cfg history flight flight' := by
  intro id flying
  simp [landed] at flying

theorem Lands.of_eq {history : List Observation} (same : flight = flight') :
    Lands cfg history flight flight' := fun _ flying => .inr (same ▸ flying)

variable (cfg)

structure EgressMove (history : List Observation) (d : Disk) (l : EgressLoop) (d' : Disk) (l' : EgressLoop)
    (history' : List Observation) : Prop where
  grows : history ⊆ history'
  completions : CompletionsBacked cfg history → CompletionsBacked cfg history'
  lands : Lands cfg history' l.phase.inFlight l'.phase.inFlight
  justified : l'.phase.Justified cfg history'
  monitor : ∀ id hash, l'.monitor.externalTxHashes id = some hash →
    l.monitor.externalTxHashes id = some hash ∨ l'.phase.inFlight = some id
  store : l'.store.egress = l.store.egress ∨ l'.store.egress = l'.monitor.checkpoint
  file : d'.file = d.file ∨ d.temp = some d'.file
  temp : ∀ content, d'.temp = some content → d.temp = some content ∨ content.egress = l'.monitor.checkpoint

variable {cfg} {history : List Observation} {d d' : Disk} {l : EgressLoop}

theorem EgressMove.quiet {l' : EgressLoop} {history' : List Observation} (grows : history ⊆ history')
    (completions : CompletionsBacked cfg history → CompletionsBacked cfg history') (store : l'.store = l.store)
    (hashes : l'.monitor.externalTxHashes = l.monitor.externalTxHashes)
    (lands : Lands cfg history' l.phase.inFlight l'.phase.inFlight) (justified : l'.phase.Justified cfg history') :
    EgressMove cfg history d l d l' history' where
  grows := grows
  completions := completions
  lands := lands
  justified := justified
  monitor id hash recorded := .inl (by rw [← hashes]; exact recorded)
  store := .inl (congrArg RelayerCheckpoints.egress store)
  file := .inl rfl
  temp _ held := .inl held

theorem EgressMove.stay (justified : l.phase.Justified cfg history) : EgressMove cfg history d l d l history :=
  .quiet (List.Subset.refl _) id rfl rfl (.of_eq rfl) justified

variable {phase : EgressPhase}

theorem EgressMove.turn (lands : Lands cfg history l.phase.inFlight phase.inFlight)
    (justified : phase.Justified cfg history) : EgressMove cfg history d l d { l with phase } history :=
  .quiet (List.Subset.refl _) id rfl rfl lands justified

theorem EgressMove.see {o : Observation}
    (first : ∀ record, o = .completion record → Backed cfg history record.withdrawalId)
    (lands : Lands cfg (o :: history) l.phase.inFlight phase.inFlight) (justified : phase.Justified cfg (o :: history)) :
    EgressMove cfg history d l d { l with phase } (o :: history) :=
  .quiet (List.subset_cons_self _ _) (.cons first) rfl rfl lands justified

theorem EgressMove.renamed {succeeds : Bool} (renamed : d.rename succeeds = some d')
    (lands : Lands cfg history l.phase.inFlight phase.inFlight) (justified : phase.Justified cfg history) :
    EgressMove cfg history d l d' { l with phase } history where
  grows := List.Subset.refl _
  completions := id
  lands := lands
  justified := justified
  monitor _ _ recorded := .inl recorded
  store := .inl rfl
  file := .inr (rename_some renamed).2.1
  temp _ held := by simp [(rename_some renamed).2.2] at held

variable {todo : List WithdrawalRecord} {w : WithdrawalRecord}

theorem serve_move {signedHash : Option String}
    (vouched : Vouched cfg history none l.monitor.checkpoint) (serving : l.phase = .serving (w :: todo)) :
    EgressMove cfg history d l (l.serve cfg d w todo signedHash true).1 (l.serve cfg d w todo signedHash true).2.1
      ((l.serve cfg d w todo signedHash true).2.2.toList ++ history) := by
  have landed : l.phase.inFlight = none := by rw [serving]; rfl
  have skip : EgressMove cfg history d l d { l with phase := .serving todo } history := .turn (.of_none landed) trivial
  unfold EgressLoop.serve
  by_cases processed : w.withdrawalId ∈ l.monitor.processedWithdrawals
  · simp only [processed, if_true]
    exact skip
  simp only [processed, if_false]
  cases recorded : l.monitor.externalTxHashes w.withdrawalId with
  | some existing =>
    have backed : Backed cfg history w.withdrawalId := by
      rcases vouched _ _ recorded with backed | flying
      · exact backed
      · cases flying
    exact .turn (.of_none landed) backed
  | none =>
    cases able : executable cfg w with
    | false => exact skip
    | true =>
      cases signedHash with
      | none => exact skip
      | some hash =>
        exact
          { grows := List.subset_cons_self _ _
            completions := .cons (fun _ same => (by cases same))
            lands := .of_none landed
            justified := List.mem_cons_self
            monitor := by
              intro id found recorded
              by_cases same : id = w.withdrawalId
              · exact .inr (congrArg some same.symm)
              · simp only [EgressLoop.saved, WithdrawalMonitor.recordExternalTx, update_of_ne same] at recorded
                exact .inl recorded
            store := .inr rfl
            file := .inl write_file
            temp := by
              intro content held
              rcases write_temp held with held | written
              · exact .inl held
              · exact .inr (congrArg RelayerCheckpoints.egress written) }

theorem Poll.goes_found {receipt : Receipt} {current : Nat}
    (goes : (Poll.found receipt (some current)).goes cfg w = true) : ∃ block, receipt.blockNumber = some block ∧
      receipt.status = some "0x1" ∧ (confirmed cfg block current = true → releaseReported cfg w receipt = true) := by
  cases mined : receipt.blockNumber with
  | none => simp [Poll.goes, mined] at goes
  | some block =>
    simp only [Poll.goes, mined, decide_eq_true_eq] at goes
    exact ⟨block, rfl, goes⟩

theorem poll_move {hash : String} {answer : Poll}
    (signed : .signed w hash ∈ history) (waiting : l.phase = .waiting w hash todo) (goes : answer.goes cfg w = true) :
    EgressMove cfg history d l (l.poll cfg d w hash todo answer).1 (l.poll cfg d w hash todo answer).2.1
      ((l.poll cfg d w hash todo answer).2.2.toList ++ history) := by
  have flying : l.phase.inFlight = some w.withdrawalId := by rw [waiting]; rfl
  cases answer with
  | failed => cases goes
  | timedOut => cases goes
  | missing => exact .stay (by rw [waiting]; exact signed)
  | found receipt current =>
    cases current with
    | none => cases goes
    | some current =>
      obtain ⟨block, mined, status, reported⟩ := Poll.goes_found goes
      simp only [EgressLoop.poll, status, mined, if_true]
      have later : .signed w hash ∈ Observation.polled hash receipt current :: history := List.mem_cons_of_mem _ signed
      by_cases deep : confirmed cfg block current = true
      · have backed : Backed cfg (.polled hash receipt current :: history) w.withdrawalId :=
          ⟨w, hash, receipt, block, current, rfl, later, List.mem_cons_self, status, mined, deep, reported deep⟩
        simp only [deep, reported deep, if_true]
        refine .see (fun _ same => (by cases same)) ?_ backed
        intro id same
        rw [flying, Option.some.injEq] at same
        exact .inl (same ▸ backed)
      · simp only [deep]
        refine .see (fun _ same => (by cases same)) (.of_eq rfl) ?_
        simp only [waiting]
        exact later

theorem submit_move {hash : String} {gateway : List UInt8}
    (backed : Backed cfg history w.withdrawalId) (submitting : l.phase = .submitting w hash gateway todo) :
    EgressMove cfg history d l (l.step cfg d .submit).1 (l.step cfg d .submit).2.1
      ((l.step cfg d .submit).2.2.toList ++ history) := by
  have landed : l.phase.inFlight = none := by rw [submitting]; rfl
  simp only [EgressLoop.step, submitting]
  cases signed : signWithdrawalCompletion cfg w hash gateway with
  | none => exact .turn (.of_none landed) trivial
  | some completion =>
    refine .see ?_ (.of_none landed) trivial
    rintro record ⟨⟩
    rw [signWithdrawalCompletion_id cfg signed]
    exact backed

theorem completionAnswer_move {accepted written : Bool} (justified : l.phase.Justified cfg history) :
    EgressMove cfg history d l (l.step cfg d (.completionAnswer accepted written)).1
      (l.step cfg d (.completionAnswer accepted written)).2.1
      ((l.step cfg d (.completionAnswer accepted written)).2.2.toList ++ history) := by
  cases phase : l.phase with
  | submitted w todo =>
    have landed : l.phase.inFlight = none := by rw [phase]; rfl
    simp only [EgressLoop.step, phase]
    cases accepted with
    | false => exact .turn (.of_none landed) trivial
    | true =>
      exact
        { grows := List.Subset.refl _
          completions := id
          lands := .of_none landed
          justified := by cases written <;> trivial
          monitor := fun _ _ recorded => .inl recorded
          store := .inr rfl
          file := .inl write_file
          temp := by
            intro content held
            rcases write_temp held with held | same
            · exact .inl held
            · exact .inr (congrArg RelayerCheckpoints.egress same) }
  | _ => simp only [EgressLoop.step, phase]; exact .stay justified

theorem rename_move {succeeds : Bool} (justified : l.phase.Justified cfg history)
    (uninterrupted : l.uninterrupted cfg d (.rename succeeds) = true) :
    EgressMove cfg history d l (l.step cfg d (.rename succeeds)).1 (l.step cfg d (.rename succeeds)).2.1
      ((l.step cfg d (.rename succeeds)).2.2.toList ++ history) := by
  cases phase : l.phase with
  | recording w hash todo =>
    simp only [EgressLoop.uninterrupted, phase] at uninterrupted
    obtain ⟨after, renamed⟩ := Option.isSome_iff_exists.mp uninterrupted
    simp only [EgressLoop.step, phase, renamed]
    rw [phase] at justified
    exact .renamed renamed (.of_eq (by rw [phase]; rfl)) justified
  | marking todo =>
    have landed : l.phase.inFlight = none := by rw [phase]; rfl
    cases renamed : d.rename succeeds with
    | none => simp only [EgressLoop.step, phase, renamed]; exact .turn (.of_none landed) trivial
    | some after => simp only [EgressLoop.step, phase, renamed]; exact .renamed renamed (.of_none landed) trivial
  | _ => simp only [EgressLoop.step, phase]; exact .stay justified

theorem EgressLoop.step_move {input : EgressInput} (vouched : Vouched cfg history l.phase.inFlight l.monitor.checkpoint)
    (justified : l.phase.Justified cfg history) (goes : l.uninterrupted cfg d input = true) :
    EgressMove cfg history d l (l.step cfg d input).1 (l.step cfg d input).2.1
      ((l.step cfg d input).2.2.toList ++ history) := by
  cases input with
  | pending answer =>
    cases phase : l.phase with
    | idle =>
      cases answer with
      | none => simp only [step, phase]; exact .stay justified
      | some ws =>
        simp only [step, phase]
        exact .quiet (List.Subset.refl _) id rfl rfl (.of_none (by rw [phase]; rfl)) trivial
    | _ => simp only [step, phase]; exact .stay justified
  | serve signedHash written =>
    cases phase : l.phase with
    | serving todo =>
      rw [phase] at vouched
      cases todo with
      | nil => simp only [step, phase]; exact .turn (.of_none (by rw [phase]; rfl)) trivial
      | cons w todo =>
        simp only [step, phase, show written = true from goes]
        exact serve_move vouched phase
    | _ => simp only [step, phase]; exact .stay justified
  | rename succeeds => exact rename_move justified goes
  | send =>
    cases phase : l.phase with
    | prepared w hash todo =>
      simp only [step, phase]
      rw [phase] at justified
      exact .see (fun _ same => (by cases same)) (.of_eq (by rw [phase]; rfl)) (List.mem_cons_of_mem _ justified)
    | _ => simp only [step, phase]; exact .stay justified
  | sendAnswer answer =>
    cases phase : l.phase with
    | sending w hash todo =>
      simp only [uninterrupted, phase, decide_eq_true_eq] at goes
      simp only [step, phase, goes]
      rw [phase] at justified
      exact .turn (.of_eq (by rw [phase]; rfl)) justified
    | _ => simp only [step, phase]; exact .stay justified
  | poll answer =>
    cases phase : l.phase with
    | waiting w hash todo =>
      simp only [uninterrupted, phase] at goes
      simp only [step, phase]
      rw [phase] at justified
      exact poll_move justified phase goes
    | _ => simp only [step, phase]; exact .stay justified
  | submit =>
    cases phase : l.phase with
    | submitting w hash gateway todo =>
      rw [phase] at justified
      exact submit_move justified phase
    | _ => simp only [step, phase]; exact .stay justified
  | completionAnswer accepted written => exact completionAnswer_move justified

variable (cfg)

structure Honest (r : Process) : Prop where
  completions : CompletionsBacked cfg r.history
  file : Vouched cfg r.history r.inFlight r.disk.file.egress
  temp : ∀ content, r.disk.temp = some content → Vouched cfg r.history r.inFlight content.egress
  ingress : ∀ chain l, r.ingress chain = some l → Vouched cfg r.history r.inFlight l.store.egress
  store : ∀ l, r.egress = some l → Vouched cfg r.history r.inFlight l.store.egress
  monitor : ∀ l, r.egress = some l → Vouched cfg r.history r.inFlight l.monitor.checkpoint
  justified : ∀ l, r.egress = some l → l.phase.Justified cfg r.history

variable {cfg} {r : Process}

theorem fresh_honest : Honest cfg fresh := by
  constructor <;> simp [fresh, CompletionsBacked, Vouched, RelayerCheckpoints.default]

theorem Honest.startEgress (honest : Honest cfg r) : Honest cfg (r.step cfg .startEgress) := by
  cases running : r.egress with
  | some l => simp only [step, running]; exact honest
  | none =>
    have started : (r.step cfg .startEgress).inFlight = r.inFlight := by
      simp [step, running, inFlight, EgressPhase.inFlight]
    have vouched := honest.file
    rw [← started] at vouched
    simp only [step, running] at vouched started ⊢
    exact
      { completions := honest.completions
        file := vouched
        temp := fun content held => started ▸ honest.temp content held
        ingress := fun chain l present => started ▸ honest.ingress chain l present
        store := by rintro _ ⟨⟩; exact vouched
        monitor := by rintro _ ⟨⟩; exact vouched
        justified := by rintro _ ⟨⟩; trivial }

theorem Honest.crash (honest : Honest cfg r) (landed : r.inFlight = none) : Honest cfg (r.step cfg .crash) where
  completions := honest.completions
  file := honest.file.mono (List.Subset.refl _) (.of_none landed)
  temp content held := (honest.temp content held).mono (List.Subset.refl _) (.of_none landed)
  ingress _ _ present := by cases present
  store _ present := by cases present
  monitor _ present := by cases present
  justified _ present := by cases present

theorem Honest.egress {input : EgressInput} (honest : Honest cfg r)
    (uninterrupted : r.uninterrupted cfg (.egress input) = true) : Honest cfg (r.step cfg (.egress input)) := by
  cases running : r.egress with
  | none => simp only [step, running]; exact honest
  | some l =>
    have flight : r.inFlight = l.phase.inFlight := by simp [inFlight, running]
    have vouched := honest.monitor l running
    rw [flight] at vouched
    simp only [Process.uninterrupted, running] at uninterrupted
    have move := EgressLoop.step_move vouched (honest.justified l running) uninterrupted
    have keep : ∀ {c}, Vouched cfg r.history r.inFlight c →
        Vouched cfg ((l.step cfg r.disk input).2.2.toList ++ r.history) (l.step cfg r.disk input).2.1.phase.inFlight c := by
      intro c old
      rw [flight] at old
      exact old.mono move.grows move.lands
    have monitor : Vouched cfg ((l.step cfg r.disk input).2.2.toList ++ r.history)
        (l.step cfg r.disk input).2.1.phase.inFlight (l.step cfg r.disk input).2.1.monitor.checkpoint := by
      intro id hash recorded
      rcases move.monitor id hash recorded with old | flying
      · exact keep (honest.monitor l running) id hash old
      · exact .inr flying
    simp only [step, running]
    exact
      { completions := move.completions honest.completions
        file := by
          rcases move.file with same | renamed
          · exact same ▸ keep honest.file
          · exact keep (honest.temp _ renamed)
        temp := by
          intro content held
          rcases move.temp content held with old | written
          · exact keep (honest.temp content old)
          · exact written ▸ monitor
        ingress := fun chain l present => keep (honest.ingress chain l present)
        store := by
          rintro _ ⟨⟩
          rcases move.store with same | saved
          · exact same ▸ keep (honest.store l running)
          · exact saved ▸ monitor
        monitor := by rintro _ ⟨⟩; exact monitor
        justified := by rintro _ ⟨⟩; exact move.justified }

theorem Honest.startIngress (honest : Honest cfg r) (chain : String) : Honest cfg (r.step cfg (.startIngress chain)) := by
  cases running : r.ingress chain with
  | some l => simp only [step, running]; exact honest
  | none =>
    simp only [step, running]
    refine { honest with ingress := fun other l present => ?_ }
    by_cases same : other = chain
    · subst same
      simp only [update_self, Option.some.injEq] at present
      exact present ▸ honest.file
    · exact honest.ingress other l (by simpa only [update_of_ne same] using present)

theorem Honest.ingressStep (honest : Honest cfg r) (chain : String) (input : IngressInput) :
    Honest cfg (r.step cfg (.ingress chain input)) := by
  cases running : r.ingress chain with
  | none => simp only [step, running]; exact honest
  | some l =>
    have vouched := honest.ingress chain l running
    -- the egress part of the copy never changes, and nothing but the copy is written
    have spread : ∀ {d' : Disk} {l' : IngressLoop}, l'.store.egress = l.store.egress →
        Vouched cfg r.history r.inFlight d'.file.egress →
        (∀ content, d'.temp = some content → Vouched cfg r.history r.inFlight content.egress) →
        Honest cfg { r with disk := d', ingress := update r.ingress chain (some l') } := by
      intro d' l' store file temp
      refine { honest with file := file, temp := temp, ingress := fun other l'' present => ?_ }
      by_cases same : other = chain
      · subst same
        simp only [update_self, Option.some.injEq] at present
        rw [← present, store]
        exact vouched
      · exact honest.ingress other l'' (by simpa only [update_of_ne same] using present)
    have move := l.step_move chain r.disk input
    simp only [step, running]
    generalize (l.step chain r.disk input).1 = after, (l.step chain r.disk input).2 = l' at move
    cases move with
    | quiet store => exact spread (congrArg _ store) honest.file honest.temp
    | wrote written store =>
      have copy : l'.store.egress = l.store.egress := by rw [store]
      refine spread copy (by rw [write_file]; exact honest.file) (fun content held => ?_)
      rcases write_temp held with old | same
      · exact honest.temp content old
      · rw [same, copy]
        exact vouched
    | renamed saving done store =>
      obtain ⟨-, held, emptied⟩ := rename_some done
      exact spread (congrArg _ store) (honest.temp _ held) (fun content kept => by simp [emptied] at kept)

theorem step_honest {input : Input} (honest : Honest cfg r) (uninterrupted : r.uninterrupted cfg input = true) :
    Honest cfg (r.step cfg input) := by
  cases input with
  | startEgress => exact honest.startEgress
  | startIngress chain => exact honest.startIngress chain
  | egress input => exact honest.egress uninterrupted
  | ingress chain input => exact honest.ingressStep chain input
  | crash => exact honest.crash (Option.isNone_iff_eq_none.mp uninterrupted)

/-- In a run that interrupts no transfer between its signature and its confirmation, every completion is backed. -/
theorem run_completions_backed (inputs : List Input)
    (meets : Meets (step cfg) (fun r input => r.uninterrupted cfg input = true) fresh inputs) :
    CompletionsBacked cfg (run (step cfg) fresh inputs).history :=
  (run_invariant (fun _ _ _ honest met => step_honest honest met) fresh_honest meets).completions

namespace SmallRelayer

def bridge : Bridge where
  sha bytes := BitVec.ofNat 256 bytes.length
  derive := ⟨fun _ => 0, fun _ => 0, fun _ => ⟨0⟩, fun _ => ⟨0⟩, fun _ _ => 0, fun _ => 0⟩
  tokens := ⟨⟨9⟩, id, id, fun mint _ => mint, fun mint _ _ => mint, fun _ => 0⟩
  erc20Address _ := 0
  verifySignature _ _ _ := .ok ()
  slotDurationMs := 1000

def config : Config where
  bridge := bridge
  keccak bytes := BitVec.ofNat 256 bytes.length
  executor _ := true
  bridgeContract _ := some "0xABababababababababababababababababababab"
  egressConfirmations := 2
  relayerKey := some ⟨7, fun _ => List.replicate 64 1⟩

def withdrawal : WithdrawalRecord := ⟨4, 0, .erc20 0x55, 10, ⟨1⟩, List.replicate 20 9, 3, false⟩

def hash : String := "0x1111111111111111111111111111111111111111111111111111111111111111"

def otherHash : String := "0x2222222222222222222222222222222222222222222222222222222222222222"

def released : Receipt :=
  ⟨some "0x1", some 100, some [⟨some "0xABABABABABABABABABABABABABABABABABABABAB",
    some [some (releaseTopic config), some (wordText 4), some (addressTopic (State.addressBytes 0x55)),
      some (addressTopic (List.replicate 20 9))], some (wordText 10)⟩]⟩

def attempt (signedHash : String) : List Input :=
  [.startEgress, .egress (.pending (some [withdrawal])), .egress (.serve (some signedHash) true), .egress (.rename true),
    .egress .send]

def paid : List Input :=
  attempt hash ++ [.egress (.sendAnswer (some hash)), .egress (.poll .missing),
    .egress (.poll (.found released (some 100))), .egress (.poll (.found released (some 101))), .egress .submit,
    .egress (.completionAnswer false true), .crash, .startEgress, .egress (.pending (some [withdrawal])),
    .egress (.serve none true), .egress .submit, .egress (.completionAnswer true true), .egress (.rename true)]

def refused : List Input :=
  attempt hash ++ [.egress (.sendAnswer none), .egress (.serve none true), .egress (.pending (some [withdrawal])),
    .egress (.serve none true), .egress .submit]

def completions (history : List Observation) : Nat :=
  history.countP (fun o => match o with | .completion _ => true | _ => false)

def polls (history : List Observation) : Nat :=
  history.countP (fun o => match o with | .polled _ _ _ => true | _ => false)

theorem paid_completions_backed : completions (run (step config) fresh paid).history = 2 ∧
    CompletionsBacked config (run (step config) fresh paid).history := by
  obtain ⟨meets, twice⟩ : Meets (step config) (fun r input => r.uninterrupted config input = true) fresh paid ∧
      completions (run (step config) fresh paid).history = 2 := by decide +kernel
  exact ⟨twice, run_completions_backed paid meets⟩

theorem not_backed_of_unpolled (unpolled : polls history = 0) (id : Nat) :
    ¬ Backed config history id := by
  rintro ⟨w, hash, receipt, block, current, -, -, polled, -⟩
  have none_ := List.countP_eq_zero.mp unpolled _ polled
  exact none_ rfl

def lastCompletion (history : List Observation) : Option (WithdrawalCompletionRecord × List Observation) :=
  match history with
  | .completion record :: older => some (record, older)
  | _ => none

theorem refused_not_backed : ¬ CompletionsBacked config (run (step config) fresh refused).history := by
  intro backed
  obtain ⟨last, unpolled⟩ : (lastCompletion (run (step config) fresh refused).history).isSome = true ∧
      polls (run (step config) fresh refused).history = 0 := by decide +kernel
  generalize (run (step config) fresh refused).history = history at backed last unpolled
  cases history with
  | nil => simp [lastCompletion] at last
  | cons newest older =>
    cases newest with
    | completion record =>
      have before : polls older = 0 := by simpa [polls] using unpolled
      exact not_backed_of_unpolled before _ (backed record older (List.suffix_refl _))
    | _ => simp [lastCompletion] at last

end SmallRelayer

end AceChain.Relayer
