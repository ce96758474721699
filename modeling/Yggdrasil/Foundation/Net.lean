import Mathlib.Tactic

/-!
# Network addresses
-/

namespace Yggdrasil.Foundation

inductive IpAddr where
  | v4 (bits : UInt32)
  | v6 (bits : BitVec 128)
  deriving DecidableEq, Repr

def IpAddr.isUnspecified : IpAddr → Bool
  | v4 bits => bits == 0
  | v6 bits => bits == 0

structure SocketAddr where
  ip : IpAddr
  port : UInt16
  deriving DecidableEq, Repr

end Yggdrasil.Foundation
