import AceChain.Basic

namespace AceChain.Governance

def defaultMaxNodes : Nat := 10000

def defaultPerfEmaBps : Nat := 10000

inductive KycStatus where
  | pending
  | approved
  | rejected
  | expired
deriving DecidableEq

inductive NodeStatus where
  | standby
  | active
  | suspended
  | removed
deriving DecidableEq

/-- The label, the jurisdiction and the review time of a node are read nowhere and are left out. -/
structure NodeInfo where
  idCom : AccountId
  status : NodeStatus
  registeredAtMs : Nat
  activatedAtMs : Nat
  affiliateCount : Nat
  kycStatus : KycStatus
  kycExpiresAtMs : Option Nat
  naturalPerson : Bool
  standbyRank : Option Nat
  perfEmaBps : Nat
  currentEpochSuccesses : Nat
  currentEpochFailures : Nat
deriving DecidableEq

namespace NodeInfo

variable (node : NodeInfo)

def isKycApproved (nowMs : Nat) : Bool :=
  node.kycStatus = .approved &&
    match node.kycExpiresAtMs with
    | none => true
    | some expiry => expiry = 0 || nowMs ≤ expiry

def isConsensusEligible (nowMs : Nat) : Bool :=
  node.status = .active && node.naturalPerson && node.isKycApproved nowMs

def cappedAgeMonths (nowMs capMonths : Nat) : Nat :=
  let anchor := if node.activatedAtMs = 0 then node.registeredAtMs else node.activatedAtMs
  let monthMs := 30 * 24 * 60 * 60 * 1000
  min ((nowMs - anchor) / monthMs) capMonths

end NodeInfo

inductive RegistryError where
  | alreadyRegistered (idCom : AccountId)
  | notFound (idCom : AccountId)
  | atCapacity (maxNodes : Nat)
deriving DecidableEq

structure NodeRegistry where
  nodes : Std.TreeMap AccountId NodeInfo
  maxNodes : Nat

namespace NodeRegistry

variable (r : NodeRegistry) (id : AccountId)

def getNode : Option NodeInfo := r.nodes[id]?

def modifyNode (f : NodeInfo → NodeInfo) : NodeRegistry :=
  { r with nodes := r.nodes.modify id f }

def nodeCount : Nat := (r.nodes.values.filter (fun n => n.status ≠ .removed)).length

def hasCapacity : Bool := r.nodeCount < r.maxNodes

def registerNode (info : NodeInfo) : Except RegistryError NodeRegistry :=
  if (r.getNode info.idCom).isSome then .error (.alreadyRegistered info.idCom)
  else if !r.hasCapacity then .error (.atCapacity r.maxNodes)
  else .ok { r with nodes := r.nodes.insert info.idCom info }

def setStatus (status : NodeStatus) : NodeRegistry :=
  r.modifyNode id (fun node =>
    { node with
      status := status
      activatedAtMs :=
        if status = .active ∧ node.activatedAtMs = 0 then node.registeredAtMs else node.activatedAtMs })

def activeNodes : List NodeInfo := r.nodes.values.filter (fun n => n.status = .active)

def promotionOrder : List NodeInfo :=
  (r.nodes.values.filter (fun n => n.status = .standby)).insertionSort (fun a b =>
    (a.standbyRank.getD u32Max) < (b.standbyRank.getD u32Max) ∨
      ((a.standbyRank.getD u32Max) = (b.standbyRank.getD u32Max) ∧ a.registeredAtMs ≤ b.registeredAtMs))

def promoteStandby (count nowMs : Nat) : NodeRegistry :=
  (r.promotionOrder.take count).foldl (fun r node =>
    r.modifyNode node.idCom (fun node =>
      { node with
        status := .active
        activatedAtMs := if node.activatedAtMs = 0 then nowMs else node.activatedAtMs
        standbyRank := none })) r

def setAffiliateCount (count : Nat) : Except RegistryError NodeRegistry :=
  if (r.getNode id).isSome then .ok (r.modifyNode id (fun node => { node with affiliateCount := count }))
  else .error (.notFound id)

end NodeRegistry

end AceChain.Governance
