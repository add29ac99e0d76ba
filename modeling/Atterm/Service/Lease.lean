/-
**The leases of the service hub.**

A lease is reserved before the request is forwarded, and is known by the id of its service and, until
the request is answered, by the id of the request. Each end attaches with a ticket of its own; the
packets that pass are observed.

* `ServiceHub.closeMatching` — the leases that match are removed from both maps;
* `LeaseEvent`, `ServiceHub.step` — what the hub is asked to do;
* `ServiceHub.removed` — the leases that an event removes.
-/

import Mathlib.Data.List.AList
import Atterm.Foundation.Base64
import Atterm.Service.Codec

namespace Atterm.Service

open Atterm.Foundation Atterm.Transport

def servicePendingTTL : ℤ := 30 * 1000

/-- A lease that is in use but idle is kept longer. -/
def serviceIdleTTL : ℤ := 30 * 60 * 1000

def serviceMaxPerUser : ℕ := 4
def serviceMaxConnections : ℕ := 16
def serviceMaxForwardBytes : ℕ := 512 * 2 ^ 20

inductive ServiceRole where
  | client
  | host
deriving DecidableEq, Repr

instance {p : ServiceRole → Prop} [DecidablePred p] : Decidable (∀ role, p role) :=
  decidable_of_iff (p .client ∧ p .host)
    ⟨fun both role => by cases role <;> simp [both], fun all => ⟨all .client, all .host⟩⟩

def observeConnections (connections : Finset UInt32) (role : ServiceRole) (kind : Kind)
    (connection : UInt32) : Except String (Finset UInt32) :=
  if kind = kindOpen then
    if role ≠ .client then .error "only the client may open connections"
    else if connection ∈ connections then .ok connections
    else if serviceMaxConnections ≤ connections.card then .error "service connection limit exceeded"
    else .ok (insert connection connections)
  else if kind = kindClose then .ok (connections.erase connection)
  else if connection ∈ connections then .ok connections
  else .error "data for unopened connection"

theorem length_nilUUID : (List.replicate 16 0 : Bytes).length = 16 := rfl

/-- `uuid.Nil` -/
def nilUUID : UUID := ⟨List.replicate 16 0, length_nilUUID⟩

abbrev Ticket := { raw : Bytes // raw.length = 32 }

def parseServiceTicket (ticket : String) : Option Ticket :=
  match Base64.decodeRawURL ticket with
  | some raw => if length : raw.length = 32 then some ⟨raw, length⟩ else none
  | none => none

def ticketMatches (want : Ticket) (got : String) : Bool := parseServiceTicket got == some want

structure ServiceOpenPayload where
  requestID : String
  serviceID : String
  hostTicket : String
  sealed : Bytes
deriving DecidableEq, Repr

structure ServiceOpenedPayload where
  requestID : String
  serviceID : String
  ok : Bool
  error : String
  clientTicket : String
deriving DecidableEq, Repr

structure ServiceRegistration where
  serviceID : String
  ticket : String
deriving DecidableEq, Repr

/-- Channels, callbacks and sockets are known by numbers. -/
structure ServiceLease where
  id : UUID
  sessionID : UUID
  ownerUserID : String
  requestID : String
  requester : ℕ
  uplink : ℕ
  onOverflow : Option ℕ
  hostTicket : Ticket
  clientTicket : Ticket
  createdAt : ℤ
  lastActive : ℤ
  ready : Bool
  clientConn : Option ℕ
  hostConn : Option ℕ
  clientUsed : Bool
  hostUsed : Bool
  paired : Bool
  done : Bool
  bytes : ℕ
  connections : Finset UInt32

/-- What no reference points to. -/
instance : Inhabited ServiceLease where
  default := {
    id := nilUUID
    sessionID := nilUUID
    ownerUserID := ""
    requestID := ""
    requester := 0
    uplink := 0
    onOverflow := none
    hostTicket := ⟨List.replicate 32 0, rfl⟩
    clientTicket := ⟨List.replicate 32 0, rfl⟩
    createdAt := 0
    lastActive := 0
    ready := false
    clientConn := none
    hostConn := none
    clientUsed := false
    hostUsed := false
    paired := false
    done := false
    bytes := 0
    connections := ∅ }

namespace ServiceLease

def ticket (lease : ServiceLease) : ServiceRole → Ticket
  | .client => lease.clientTicket
  | .host => lease.hostTicket

def used (lease : ServiceLease) : ServiceRole → Bool
  | .client => lease.clientUsed
  | .host => lease.hostUsed

def close (lease : ServiceLease) : ServiceLease := { lease with done := true }

def pair (lease : ServiceLease) : ServiceLease :=
  if lease.clientConn ≠ none ∧ lease.hostConn ≠ none then { lease with paired := true } else lease

def expired (now : ℤ) (lease : ServiceLease) : Bool :=
  let ttl := if lease.ready = false ∨ lease.clientConn = none ∨ lease.hostConn = none then
    servicePendingTTL else serviceIdleTTL
  decide (ttl ≤ now - lease.lastActive)

end ServiceLease

structure ServiceUplinkRoute where
  owner : String
  out : ℕ
deriving DecidableEq, Repr

/-- The maps hold references to leases; `lease` is what they refer to, below `next`. -/
structure ServiceHub where
  lease : ℕ → ServiceLease
  next : ℕ
  services : AList fun _ : UUID => ℕ
  requests : String → Option ℕ
  sessions : UUID → Option ServiceUplinkRoute

def newServiceHub : ServiceHub := ⟨fun _ => default, 0, ∅, fun _ => none, fun _ => none⟩

namespace ServiceHub

variable (parseUUID : String → Option UUID) (h : ServiceHub)

def modify (ref : ℕ) (change : ServiceLease → ServiceLease) : ServiceHub :=
  { h with lease := Function.update h.lease ref (change (h.lease ref)) }

def registerSession (sessionID : UUID) (owner : String) (uplink : Option ℕ) : ServiceHub :=
  match uplink with
  | none => h
  | some out =>
    if sessionID = nilUUID then h
    else { h with sessions := Function.update h.sessions sessionID (some ⟨owner, out⟩) }

def owned (owner : String) : ℕ :=
  h.services.entries.countP fun entry => (h.lease entry.2).ownerUserID == owner

/-- A lease is reserved before the request is forwarded; the payload carries the ticket of the host,
the answer to the requester will carry the other. -/
def begin (owner : String) (sessionID : UUID) (req : ServiceOpenPayload) (requester : Option ℕ)
    (onOverflow : Option ℕ) (tickets : Option (Ticket × Ticket)) (now : ℤ) :
    Except String (ServiceOpenPayload × String) × ServiceHub :=
  match parseUUID req.serviceID, requester with
  | some serviceID, some requester =>
    if req.requestID = "" ∨ req.sealed.length = 0 then (.error "invalid_request", h)
    else
      match tickets with
      | none => (.error "upstream_unavailable", h)
      | some (hostRaw, clientRaw) =>
        match h.sessions sessionID with
        | none => (.error "upstream_unavailable", h)
        | some uplinkRoute =>
          if uplinkRoute.owner ≠ owner then (.error "upstream_unavailable", h)
          else if (h.services.lookup serviceID).isSome then (.error "duplicate_service_id", h)
          else if (h.requests req.requestID).isSome then (.error "duplicate_request_id", h)
          else if serviceMaxPerUser ≤ h.owned owner then (.error "service_limit", h)
          else
            (.ok ({ req with hostTicket := Base64.encode hostRaw.val },
                Base64.encode clientRaw.val),
              { h with
                lease := Function.update h.lease h.next {
                  id := serviceID
                  sessionID := sessionID
                  ownerUserID := owner
                  requestID := req.requestID
                  requester := requester
                  uplink := uplinkRoute.out
                  onOverflow := onOverflow
                  hostTicket := hostRaw
                  clientTicket := clientRaw
                  createdAt := now
                  lastActive := now
                  ready := false
                  clientConn := none
                  hostConn := none
                  clientUsed := false
                  hostUsed := false
                  paired := false
                  done := false
                  bytes := 0
                  connections := ∅ }
                next := h.next + 1
                services := h.services.insert serviceID h.next
                requests := Function.update h.requests req.requestID (some h.next) })
  | _, _ => (.error "invalid_request", h)

/-- The lease that an answer is for: it comes from the uplink that the request was sent to. -/
def answered (resp : Option ServiceOpenedPayload) (fromUplink : ℕ) :
    Option (ServiceOpenedPayload × ℕ) := do
  let resp ← resp
  if resp.requestID = "" ∨ resp.serviceID = "" then none
  else
    let serviceID ← parseUUID resp.serviceID
    let ref ← h.requests resp.requestID
    if (h.lease ref).id ≠ serviceID ∨ (h.lease ref).uplink ≠ fromUplink then none
    else pure (resp, ref)

/-- The answer, with the ticket that only the requester learns, and the channel it goes to. -/
def finish (resp : Option ServiceOpenedPayload) (fromUplink : ℕ) (now : ℤ) :
    Option (ServiceOpenedPayload × ℕ × Option ℕ) × ServiceHub :=
  match h.answered parseUUID resp fromUplink with
  | none => (none, h)
  | some (resp, ref) =>
    let lease := h.lease ref
    let h := { h with requests := Function.update h.requests resp.requestID none }
    if resp.ok then
      (some ({ resp with clientTicket := Base64.encode lease.clientTicket.val }, lease.requester,
          lease.onOverflow),
        h.modify ref fun lease => { lease with ready := true, lastActive := now })
    else
      (some (resp, lease.requester, lease.onOverflow),
        { h with services := h.services.erase lease.id }.modify ref ServiceLease.close)

def removeLocked (ref : ℕ) : ServiceHub :=
  { h with
    services := h.services.erase (h.lease ref).id
    requests := Function.update h.requests (h.lease ref).requestID none }

def matching (want : ServiceLease → Bool) : List ℕ :=
  (h.services.entries.map (·.2)).filter fun ref => want (h.lease ref)

def closeAll (refs : List ℕ) : ServiceHub :=
  refs.foldl (fun h ref => h.modify ref ServiceLease.close) (refs.foldl removeLocked h)

def closeMatching (want : ServiceLease → Bool) : ServiceHub := h.closeAll (h.matching want)

/-- The lease of a service, if the requester asked for it. -/
def requested (serviceID : UUID) (requester : ℕ) : Option ℕ :=
  (h.services.lookup serviceID).filter fun ref => (h.lease ref).requester == requester

def closeByRequester (serviceID : UUID) (requester : ℕ) : Bool × ServiceHub :=
  match h.requested serviceID requester with
  | none => (false, h)
  | some ref => (true, (h.removeLocked ref).modify ref ServiceLease.close)

def closeRequester (requester : ℕ) : ServiceHub := h.closeMatching (·.requester == requester)

def closeUplink (uplink : ℕ) : ServiceHub :=
  { h with sessions := fun id => (h.sessions id).filter (·.out != uplink) }.closeMatching
    (·.uplink == uplink)

def closeSession (sessionID : UUID) : ServiceHub :=
  { h with sessions := Function.update h.sessions sessionID none }.closeMatching
    (·.sessionID == sessionID)

def registered (ref : ℕ) : Bool := h.services.lookup (h.lease ref).id == some ref

def closeLease (lease : Option ℕ) : ServiceHub :=
  match lease with
  | none => h
  | some ref =>
    (if h.registered ref then h.removeLocked ref else h).modify ref ServiceLease.close

/-- One end registers its data socket with its ticket. -/
def attach (owner : String) (role : ServiceRole) (reg : ServiceRegistration) (conn : ℕ) (now : ℤ) :
    Except String ℕ × ServiceHub :=
  match parseUUID reg.serviceID with
  | none => (.error "invalid registration", h)
  | some id =>
    if reg.ticket = "" then (.error "invalid registration", h)
    else
      match h.services.lookup id with
      | none => (.error "unknown service", h)
      | some ref =>
        if (h.lease ref).ownerUserID ≠ owner then (.error "unknown service", h)
        else
          match role with
          | .host =>
            if (h.lease ref).hostUsed ∨ ticketMatches (h.lease ref).hostTicket reg.ticket = false
              then (.error "invalid host ticket", h)
            else (.ok ref, h.modify ref fun lease => ServiceLease.pair {
              lease with hostUsed := true, hostConn := some conn, lastActive := now })
          | .client =>
            if (h.lease ref).ready = false ∨ (h.lease ref).clientUsed ∨
                ticketMatches (h.lease ref).clientTicket reg.ticket = false
              then (.error "invalid client ticket", h)
            else (.ok ref, h.modify ref fun lease => ServiceLease.pair {
              lease with clientUsed := true, clientConn := some conn, lastActive := now })

def observePacket (ref : ℕ) (role : ServiceRole) (packet : Bytes) (now : ℤ) :
    Option String × ServiceHub :=
  match parseHeader packet with
  | .error _ => (some "serviceproxy: invalid packet", h)
  | .ok header =>
    if h.registered ref = false then (some "service closed", h)
    else
      let counted := h.modify ref fun lease => { lease with bytes := lease.bytes + packet.length }
      if serviceMaxForwardBytes < (h.lease ref).bytes + packet.length then
        (some "service byte limit exceeded", counted)
      else
        match observeConnections (h.lease ref).connections role header.kind header.connection with
        | .error e => (some e, counted)
        | .ok connections =>
          (none, counted.modify ref fun lease =>
            { lease with connections := connections, lastActive := now })

def reapExpired (now : ℤ) : ServiceHub := h.closeMatching (ServiceLease.expired now)

end ServiceHub

inductive LeaseEvent where
  | registerSession (sessionID : UUID) (owner : String) (uplink : Option ℕ)
  | begin (owner : String) (sessionID : UUID) (req : ServiceOpenPayload) (requester : Option ℕ)
      (onOverflow : Option ℕ) (tickets : Option (Ticket × Ticket)) (now : ℤ)
  | finish (resp : Option ServiceOpenedPayload) (fromUplink : ℕ) (now : ℤ)
  | closeByRequester (serviceID : UUID) (requester : ℕ)
  | closeRequester (requester : ℕ)
  | closeUplink (uplink : ℕ)
  | closeSession (sessionID : UUID)
  | closeLease (lease : Option ℕ)
  | attach (owner : String) (role : ServiceRole) (reg : ServiceRegistration) (conn : ℕ) (now : ℤ)
  | observePacket (ref : ℕ) (role : ServiceRole) (packet : Bytes) (now : ℤ)
  | reapExpired (now : ℤ)

namespace ServiceHub

variable (parseUUID : String → Option UUID) (h : ServiceHub)

def step : LeaseEvent → ServiceHub
  | .registerSession sessionID owner uplink => h.registerSession sessionID owner uplink
  | .begin owner sessionID req requester onOverflow tickets now =>
    (h.begin parseUUID owner sessionID req requester onOverflow tickets now).2
  | .finish resp fromUplink now => (h.finish parseUUID resp fromUplink now).2
  | .closeByRequester serviceID requester => (h.closeByRequester serviceID requester).2
  | .closeRequester requester => h.closeRequester requester
  | .closeUplink uplink => h.closeUplink uplink
  | .closeSession sessionID => h.closeSession sessionID
  | .closeLease lease => h.closeLease lease
  | .attach owner role reg conn now => (h.attach parseUUID owner role reg conn now).2
  | .observePacket ref role packet now => (h.observePacket ref role packet now).2
  | .reapExpired now => h.reapExpired now

def removed : LeaseEvent → List ℕ
  | .finish resp fromUplink _ =>
    match h.answered parseUUID resp fromUplink with
    | some (resp, ref) => if resp.ok then [] else [ref]
    | none => []
  | .closeByRequester serviceID requester => (h.requested serviceID requester).toList
  | .closeRequester requester => h.matching (·.requester == requester)
  | .closeUplink uplink => h.matching (·.uplink == uplink)
  | .closeSession sessionID => h.matching (·.sessionID == sessionID)
  | .closeLease lease => (lease.filter h.registered).toList
  | .reapExpired now => h.matching (ServiceLease.expired now)
  | .registerSession _ _ _ | .begin _ _ _ _ _ _ _ | .attach _ _ _ _ _ | .observePacket _ _ _ _ => []

end ServiceHub

end Atterm.Service
