import Yggdrasil.Ratatoskr.Handshake
import Yggdrasil.Ratatoskr.RuleSet

/-!
# Queries up the chain

The bodies of the two recursive queries.  A hop query collects what every node
up to the head of the chain knows of itself; a canary arm prepares the owner of
a rule to echo probe traffic.  Both replies list one record for each hop, the
responder first.
-/

namespace Yggdrasil.Control

inductive Mode where
  | gateway
  | relay
  | terminal
  deriving DecidableEq, Repr

def Mode.asStr : Mode → String
  | gateway => "gateway"
  | relay => "relay"
  | terminal => "terminal"

end Yggdrasil.Control

namespace Yggdrasil.Ratatoskr

open Foundation
open Yggdrasil.Control (Mode)

/-- What a node shows of its rules is left open. -/
structure ChainHop (View : Type) where
  hopIndex : UInt32
  mode : Mode
  uptimeSecs : UInt64
  name : Option String
  view : View
  queryRttMs : Option UInt64
  deriving DecidableEq

structure CanaryHop where
  hopIndex : UInt32
  pubkey : PubKey
  name : Option String
  mode : Mode
  rulePresent : Bool
  echoArmed : Bool
  queryRttMs : Option UInt64
  deriving DecidableEq

/-- The fields of a hop that the nodes on the way back write. -/
class HopRecord (H : Type) where
  hopIndex : H → UInt32
  stamp : UInt32 → H → H
  stampRtt : UInt64 → H → H
  hopIndex_stamp : ∀ index hop, hopIndex (stamp index hop) = index
  hopIndex_stampRtt : ∀ rtt hop, hopIndex (stampRtt rtt hop) = hopIndex hop

instance (View : Type) : HopRecord (ChainHop View) where
  hopIndex := ChainHop.hopIndex
  stamp index hop := { hop with hopIndex := index }
  stampRtt rtt hop := { hop with queryRttMs := some rtt }
  hopIndex_stamp _ _ := rfl
  hopIndex_stampRtt _ _ := rfl

instance : HopRecord CanaryHop where
  hopIndex := CanaryHop.hopIndex
  stamp index hop := { hop with hopIndex := index }
  stampRtt rtt hop := { hop with queryRttMs := some rtt }
  hopIndex_stamp _ _ := rfl
  hopIndex_stampRtt _ _ := rfl

structure WalkReply (H : Type) where
  queryId : UInt32
  hops : List H
  /-- Whether the walk stopped before the head of the chain. -/
  isPartial : Bool
  error : Option String
  deriving DecidableEq

abbrev ChainHopReply (View : Type) := WalkReply (ChainHop View)

abbrev CanaryReply := WalkReply CanaryHop

structure ChainHopQuery where
  queryId : UInt32
  depthBudget : UInt32
  deadlineMs : UInt32
  deriving DecidableEq, Repr

abbrev CanaryToken := { bytes : Bytes // bytes.length = 32 }

structure CanaryArm where
  queryId : UInt32
  depthBudget : UInt32
  deadlineMs : UInt32
  ruleListen : SocketAddr
  ruleProtocol : Protocol
  token : CanaryToken
  expiresUnixMs : UInt64
  deriving DecidableEq

def chainHopReplyMaxWireBytes : Nat := 16 * 1024
def chainHopDefaultDepthBudget : UInt32 := 16
def chainHopDefaultDeadlineMs : UInt32 := 5000
def canaryReplyMaxWireBytes : Nat := 4 * 1024
def canaryArmDefaultDepthBudget : UInt32 := 16
def canaryArmDefaultDeadlineMs : UInt32 := 5000

def Numbered {H : Type} [HopRecord H] (hops : List H) : Prop :=
  ∀ i hop, hops[i]? = some hop → HopRecord.hopIndex hop = UInt32.ofNat i

end Yggdrasil.Ratatoskr
