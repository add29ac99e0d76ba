/-
**The saved hosts of the desktop app.**

The records as they are kept in memory and in the configuration file, without their credentials. A slice
of Go that is nil is `none`; it differs from an empty one when records are compared.

* `ForwardRule`, `SSHHost` — a forwarding rule, and a saved host.
-/

import Mathlib

namespace Atterm.Hosts

structure ForwardRule where
  id : String
  kind : String
  bindAddr : String
  bindPort : String
  targetHost : String
  targetPort : String
  note : String
deriving DecidableEq, Repr

/-- The part of a saved host that is no secret. -/
structure SSHHost where
  id : String
  «alias» : String
  host : String
  port : String
  user : String
  authKind : String
  keyID : String
  tags : Option (List String)
  note : String
  startupCommand : String
  startupDelayMs : ℤ
  identityFile : String
  proxyJump : String
  proxyCommand : String
  forwards : Option (List ForwardRule)
deriving DecidableEq, Repr

end Atterm.Hosts
