/-
**Why a route failed.**

Errors are sorted by what their texts contain. Reachability failures may change the transport; trust
and integrity failures must fail on the current route.

* `directFallbackReason` — the reason of an error;
* `allowsQuickTunnelFallback` — the reasons that may change the transport.
-/

import Mathlib

namespace Atterm.Session

inductive DirectFallbackReason where
  | accountKeyUnavailable
  | signalEndpointUnavailable
  | webrtcUnavailable
  | timeout
  | signalingRejected
  | hostUnavailable
  | iceFailed
  | authenticationFailed
  | backpressure
  | protocolError
  | directDisconnected
  | preferenceDisabled
  | transportError
deriving DecidableEq, Repr

/-- `message.includes(part)`. -/
def includes (message : List Char) (part : String) : Bool := decide (part.toList <:+: message)

def directFallbackReason (error : String) (wasActive : Bool) : DirectFallbackReason :=
  let message := error.toList.map Char.toLower
  if includes message "rtcpeerconnection" || includes message "webrtc is unavailable" then
    .webrtcUnavailable
  else if includes message "timed out" || includes message "deadline exceeded" ||
      includes message "ticket_expired" then .timeout
  else if includes message "host_offline" || includes message "peer offline" ||
      includes message "peer_disconnected" then .hostUnavailable
  else if includes message "rendezvous client: service unavailable" then .signalEndpointUnavailable
  else if includes message "signaling rejected" || includes message "signaling disconnected" then
    .signalingRejected
  else if includes message "peer connection failed" || includes message "ice" then .iceFailed
  else if includes message "handshake" || includes message "proof" || includes message "auth" then
    .authenticationFailed
  else if includes message "backpressure" then .backpressure
  else if includes message "unsupported" || includes message "invalid direct" ||
      includes message "record" then .protocolError
  else if wasActive || includes message "disconnected" || includes message "channel closed" ||
      includes message "peer closed" then .directDisconnected
  else .transportError

def allowsQuickTunnelFallback : DirectFallbackReason → Bool
  | .signalEndpointUnavailable => true
  | .webrtcUnavailable => true
  | .timeout => true
  | .hostUnavailable => true
  | .iceFailed => true
  | .directDisconnected => true
  | .transportError => true
  | .accountKeyUnavailable => false
  | .signalingRejected => false
  | .authenticationFailed => false
  | .backpressure => false
  | .protocolError => false
  | .preferenceDisabled => false

/-- Authentication failures, backpressure and bad records never change the route. -/
example : allowsQuickTunnelFallback (directFallbackReason "Peer backpressure exceeded" true) = false :=
  by decide

end Atterm.Session
