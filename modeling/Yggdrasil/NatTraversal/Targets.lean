import Yggdrasil.NatTraversal.Wire
import Yggdrasil.Ratatoskr.RuleSet

/-!
# What the mapper wants reachable

The targets are derived from the published rules, the node's HTTPS listener and
the socket that accepts chain peers.  A listener the gateway has no business
forwarding to is left out and noted with the reason.
-/

namespace Yggdrasil.NatTraversal

open Foundation Ratatoskr

inductive MappingOrigin where
  | rule (name : String)
  | acceptListen
  | httpsRedirect (ip : IpAddr)
  | http3 (name : String)
  deriving DecidableEq, Repr

abbrev MappingKey := MapProtocol × UInt16

structure MappingTarget where
  protocol : MapProtocol
  internalPort : UInt16
  internalAddr : Ipv4Addr
  origin : MappingOrigin
  deriving DecidableEq, Repr

def MappingTarget.key (target : MappingTarget) : MappingKey :=
  (target.protocol, target.internalPort)

structure HttpsTarget where
  listen : SocketAddr
  http3 : Bool
  deriving DecidableEq, Repr

inductive SkipReason where
  | loopback
  | linkLocal
  | publicInternal
  | ipv6
  deriving DecidableEq, Repr

inductive FilterDecision where
  | keep (v4 : Ipv4Addr)
  | skip (reason : SkipReason)
  deriving DecidableEq, Repr

def octets (v4 : Ipv4Addr) : Nat × Nat := (v4.toNat / 2 ^ 24, v4.toNat / 2 ^ 16 % 256)

def isLoopback (v4 : Ipv4Addr) : Bool := (octets v4).1 == 127

def isLinkLocal (v4 : Ipv4Addr) : Bool := octets v4 == (169, 254)

def isUnspecified (v4 : Ipv4Addr) : Bool := v4 == 0

def isRfc1918OrCgnat (v4 : Ipv4Addr) : Bool :=
  let (a, b) := octets v4
  a == 10 || (a == 172 && 16 ≤ b && b ≤ 31) || (a == 192 && b == 168) ||
    (a == 100 && 64 ≤ b && b ≤ 127) || (a == 198 && 18 ≤ b && b ≤ 19)

def filterBindIp : IpAddr → FilterDecision
  | .v6 _ => .skip .ipv6
  | .v4 v4 =>
      if isLoopback v4 then .skip .loopback
      else if isLinkLocal v4 then .skip .linkLocal
      else if isUnspecified v4 || isRfc1918OrCgnat v4 then .keep v4
      else .skip .publicInternal

variable {v4 : Ipv4Addr}

private theorem not_loopback_of_mapped
    (h : (isUnspecified v4 || isRfc1918OrCgnat v4) = true) : isLoopback v4 = false := by
  rcases Bool.or_eq_true_iff.1 h with hzero | hprivate
  · rw [eq_of_beq hzero]
    rfl
  · simp only [isRfc1918OrCgnat, Bool.or_eq_true, Bool.and_eq_true, beq_iff_eq] at hprivate
    simp only [isLoopback, beq_eq_false_iff_ne]
    omega

private theorem not_linkLocal_of_mapped
    (h : (isUnspecified v4 || isRfc1918OrCgnat v4) = true) : isLinkLocal v4 = false := by
  rcases Bool.or_eq_true_iff.1 h with hzero | hprivate
  · rw [eq_of_beq hzero]
    rfl
  · simp only [isRfc1918OrCgnat, Bool.or_eq_true, Bool.and_eq_true, beq_iff_eq] at hprivate
    simp only [isLinkLocal, beq_eq_false_iff_ne, Ne, Prod.ext_iff]
    omega

theorem filterBindIp_keep_iff {ip : IpAddr} :
    filterBindIp ip = .keep v4 ↔
      ip = .v4 v4 ∧ (isUnspecified v4 || isRfc1918OrCgnat v4) = true := by
  cases ip with
  | v6 bits => simp [filterBindIp]
  | v4 bits =>
      simp only [filterBindIp, IpAddr.v4.injEq]
      constructor
      · intro h
        split_ifs at h with hloop hlink hmapped
        cases h
        exact ⟨rfl, hmapped⟩
      · rintro ⟨rfl, hmapped⟩
        rw [not_loopback_of_mapped hmapped, not_linkLocal_of_mapped hmapped, if_neg (by decide),
          if_neg (by decide), if_pos hmapped]

structure TargetEnumeration where
  targets : List MappingTarget
  skipped : List (MappingOrigin × SkipReason)
  deriving DecidableEq, Repr

def TargetEnumeration.insert (enumeration : TargetEnumeration) (target : MappingTarget) :
    TargetEnumeration :=
  { enumeration with targets := enumeration.targets.insert target }

def TargetEnumeration.skip (enumeration : TargetEnumeration) (origin : MappingOrigin)
    (reason : SkipReason) : TargetEnumeration :=
  { enumeration with skipped := enumeration.skipped ++ [(origin, reason)] }

section

variable (localSource : Ipv4Addr)

def resolvedInternal (v4 : Ipv4Addr) : Ipv4Addr :=
  if isUnspecified v4 then localSource else v4

def enumerateRule (enumeration : TargetEnumeration) (rule : Rule) : TargetEnumeration :=
  match filterBindIp rule.listen.ip with
  | .skip reason => enumeration.skip (.rule rule.name) reason
  | .keep v4 =>
      match rule.protocol with
      | .tcp => enumeration.insert
          ⟨.tcp, rule.listen.port, resolvedInternal localSource v4, .rule rule.name⟩
      | .udp => enumeration.insert
          ⟨.udp, rule.listen.port, resolvedInternal localSource v4, .rule rule.name⟩
      -- HTTPS listeners come from routes; validation refuses such a rule.
      | .https => enumeration

def enumerateHttps (enumeration : TargetEnumeration) :
    Option HttpsTarget → TargetEnumeration × Option Ipv4Addr
  | none => (enumeration, none)
  | some https =>
      match filterBindIp https.listen.ip with
      | .skip reason => (enumeration.skip (.rule "https") reason, none)
      | .keep v4 =>
          let internal := resolvedInternal localSource v4
          let withTcp := enumeration.insert ⟨.tcp, https.listen.port, internal, .rule "https"⟩
          let withUdp :=
            if https.http3 then withTcp.insert ⟨.udp, https.listen.port, internal, .http3 "https"⟩
            else withTcp
          (withUdp, some v4)

def enumerateRedirect (enumeration : TargetEnumeration) : Option Ipv4Addr → TargetEnumeration
  | none => enumeration
  | some v4 =>
      match filterBindIp (.v4 v4) with
      | .skip reason => enumeration.skip (.httpsRedirect (.v4 v4)) reason
      | .keep _ => enumeration.insert
          ⟨.tcp, 80, resolvedInternal localSource v4, .httpsRedirect (.v4 v4)⟩

def enumerateAccept (enumeration : TargetEnumeration) : Option SocketAddr → TargetEnumeration
  | none => enumeration
  | some addr =>
      match addr.ip with
      | .v6 _ => enumeration.skip .acceptListen .ipv6
      | .v4 v4 =>
          match filterBindIp (.v4 v4) with
          | .skip reason => enumeration.skip .acceptListen reason
          | .keep _ => enumeration.insert
              ⟨.udp, addr.port, resolvedInternal localSource v4, .acceptListen⟩

def enumerateTargets (rules : List Rule) (acceptListen : Option SocketAddr)
    (https : Option HttpsTarget) : TargetEnumeration :=
  let fromRules := rules.foldl (enumerateRule localSource) ⟨[], []⟩
  let (fromHttps, redirect) := enumerateHttps localSource fromRules https
  enumerateAccept localSource (enumerateRedirect localSource fromHttps redirect) acceptListen

end

end Yggdrasil.NatTraversal
