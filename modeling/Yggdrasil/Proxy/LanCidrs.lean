import Yggdrasil.Foundation.BitPrefix
import Yggdrasil.Foundation.StdSocketAddr

/-!
# LAN ranges

The set of ranges from which a route without a certificate is served.  A range
is an address and the number of its leading bits that count; the operator
writes it as `address/prefix`, or leaves the private ranges in place.
-/

namespace Yggdrasil.Proxy

open Foundation

inductive ParseIntError where
  | empty
  | invalidDigit
  | posOverflow
  deriving DecidableEq, Repr

def ParseIntError.detail : ParseIntError → String
  | .empty => "cannot parse integer from empty string"
  | .invalidDigit => "invalid digit found in string"
  | .posOverflow => "number too large to fit in target type"

def readU8 : Nat → Text → Except ParseIntError UInt8
  | value, [] => .ok (.ofNat value)
  | value, c :: rest =>
      if !Text.isAsciiDigit c then .error .invalidDigit
      else if value * 10 + (c.toNat - '0'.toNat) < 256 then
        readU8 (value * 10 + (c.toNat - '0'.toNat)) rest
      else .error .posOverflow

def parseU8 (text : Text) : Except ParseIntError UInt8 :=
  if text = [] then .error .empty
  else if text = ['+'] ∨ text = ['-'] then .error .invalidDigit
  else readU8 0 (if text.head? = some '+' then text.tail else text)

def bitCount : IpAddr → Nat
  | .v4 _ => 32
  | .v6 _ => 128

def family : IpAddr → String
  | .v4 _ => "IPv4"
  | .v6 _ => "IPv6"

/-- The fields are private and `parse` is the only way to a range. -/
structure IpCidr where
  network : IpAddr
  prefixLen : UInt8
  fits : prefixLen.toNat ≤ bitCount network
  deriving DecidableEq

inductive CidrParseError where
  | missingSlash (input : Text)
  | invalidAddr (input : Text) (detail : String)
  | invalidPrefix (input : Text) (detail : String)
  | prefixTooLarge (input : Text) (family : String) (prefixLen : UInt8)
  deriving DecidableEq, Repr

namespace IpCidr

def parse (input : Text) : Except CidrParseError IpCidr :=
  match Text.splitOnce '/' input with
  | none => .error (.missingSlash input)
  | some (addrStr, prefixStr) =>
      match StdAddr.parseIpAddr addrStr with
      | none => .error (.invalidAddr input "invalid IP address syntax")
      | some network =>
          match parseU8 prefixStr with
          | .error e => .error (.invalidPrefix input e.detail)
          | .ok prefixLen =>
              if h : prefixLen.toNat ≤ bitCount network then .ok ⟨network, prefixLen, h⟩
              else .error (.prefixTooLarge input (family network) prefixLen)

def format (cidr : IpCidr) : Text :=
  AddrText.std.format cidr.network ++ '/' :: Nat.toDigits 10 cidr.prefixLen.toNat

end IpCidr

theorem parseU8_toDigits (n : UInt8) : parseU8 (Nat.toDigits 10 n.toNat) = .ok n := by
  have hall : ∀ n < 256, parseU8 (Nat.toDigits 10 n) = .ok (.ofNat n) := by decide +kernel
  rw [hall n.toNat n.toNat_lt, UInt8.ofNat_toNat]

theorem slash_notMem_format (ip : IpAddr) : '/' ∉ AddrText.std.format ip := by
  intro hslash
  cases ip with
  | v4 bits => exact absurd (AddrText.std.formatV4_chars bits '/' hslash) (by decide)
  | v6 bits => exact absurd (AddrText.std.formatV6_chars bits '/' hslash) (by decide)

/-- Every range is accepted, in the text it is displayed with. -/
theorem IpCidr.parse_format (cidr : IpCidr) : parse cidr.format = .ok cidr := by
  rw [parse, format, Text.splitOnce_append (slash_notMem_format cidr.network)]
  dsimp only
  rw [StdAddr.parseIpAddr_format]
  dsimp only
  rw [parseU8_toDigits]
  exact dif_pos cidr.fits

/-! ## Membership

Arithmetic is checked: `none` is an overflow, at which a build with overflow
checks stops.
-/

def checkedSub (a b : Nat) : Option Nat := if b ≤ a then some (a - b) else none

def checkedShl {w : Nat} (word : BitVec w) (count : Nat) : Option (BitVec w) :=
  if count < w then some (word <<< count) else none

def prefixMatch {w : Nat} (a b : BitVec w) (prefixLen : Nat) : Option Bool :=
  if prefixLen = 0 then some true
  else if w < prefixLen then some false
  else
    (if prefixLen = w then some (BitVec.allOnes w)
      else (checkedSub w prefixLen).bind (checkedShl (BitVec.allOnes w))).map
      fun mask => a &&& mask == b &&& mask

def v4PrefixMatch (a b : UInt32) (prefixLen : UInt8) : Option Bool :=
  prefixMatch a.toBitVec b.toBitVec prefixLen.toNat

def v6PrefixMatch (a b : BitVec 128) (prefixLen : UInt8) : Option Bool :=
  prefixMatch a b prefixLen.toNat

theorem prefixMatch_eq {w : Nat} (a b : BitVec w) {prefixLen : Nat} (hfits : prefixLen ≤ w) :
    prefixMatch a b prefixLen = some (decide (SamePrefix prefixLen a b)) := by
  by_cases hzero : prefixLen = 0
  · rw [prefixMatch, if_pos hzero, hzero]
    simp [SamePrefix]
  · have hmask : (if prefixLen = w then some (BitVec.allOnes w)
        else (checkedSub w prefixLen).bind (checkedShl (BitVec.allOnes w))) =
        some (leadingOnes w prefixLen) := by
      by_cases hfull : prefixLen = w
      · rw [if_pos hfull, hfull, leadingOnes, Nat.sub_self, BitVec.shiftLeft_zero]
      · rw [if_neg hfull, checkedSub, if_pos hfits, Option.bind_some, checkedShl,
          if_pos (by omega), leadingOnes]
    rw [prefixMatch, if_neg hzero, if_neg (Nat.not_lt.2 hfits), hmask, Option.map_some,
      Option.some_inj, Bool.eq_iff_iff, beq_iff_eq, decide_eq_true_iff]
    exact and_leadingOnes_eq_iff hfits

def SharesPrefix (count : Nat) : IpAddr → IpAddr → Prop
  | .v4 network, .v4 peer => SamePrefix count network.toBitVec peer.toBitVec
  | .v6 network, .v6 peer => SamePrefix count network peer
  | _, _ => False

instance (count : Nat) (network peer : IpAddr) : Decidable (SharesPrefix count network peer) :=
  match network, peer with
  | .v4 network, .v4 peer =>
      inferInstanceAs (Decidable (SamePrefix count network.toBitVec peer.toBitVec))
  | .v6 network, .v6 peer => inferInstanceAs (Decidable (SamePrefix count network peer))
  | .v4 _, .v6 _ => .isFalse id
  | .v6 _, .v4 _ => .isFalse id

def IpCidr.contains (cidr : IpCidr) (ip : IpAddr) : Option Bool :=
  match cidr.network, ip with
  | .v4 net, .v4 peer => v4PrefixMatch net peer cidr.prefixLen
  | .v6 net, .v6 peer => v6PrefixMatch net peer cidr.prefixLen
  | _, _ => some false

theorem IpCidr.contains_eq (cidr : IpCidr) (peer : IpAddr) :
    cidr.contains peer =
      some (decide (SharesPrefix cidr.prefixLen.toNat cidr.network peer)) := by
  obtain ⟨network, prefixLen, hfits⟩ := cidr
  cases network with
  | v4 net =>
      cases peer with
      | v4 peer => exact prefixMatch_eq net.toBitVec peer.toBitVec hfits
      | v6 peer => rfl
  | v6 net =>
      cases peer with
      | v4 peer => rfl
      | v6 peer => exact prefixMatch_eq net peer hfits

def defaultLanCidrStrings : List Text :=
  ["127.0.0.0/8".toList, "10.0.0.0/8".toList, "172.16.0.0/12".toList, "192.168.0.0/16".toList,
    "::1/128".toList, "fc00::/7".toList]

inductive LanCidrsSource where
  | default
  | override
  deriving DecidableEq, Repr

structure LanCidrs where
  cidrs : List IpCidr
  source : LanCidrsSource
  deriving DecidableEq

namespace LanCidrs

/-- The default ranges are expected to parse; `none` is the panic if one does not. -/
def resolve : Option (List Text) → Option (Except CidrParseError LanCidrs)
  | some operatorList =>
      some ((operatorList.mapM IpCidr.parse).map fun cidrs => ⟨cidrs, .override⟩)
  | none =>
      (defaultLanCidrStrings.mapM fun input => (IpCidr.parse input).toOption).map
        fun cidrs => .ok ⟨cidrs, .default⟩

def contains (lan : LanCidrs) (peer : IpAddr) : Option Bool :=
  lan.cidrs.anyM fun cidr => cidr.contains peer

theorem contains_eq (lan : LanCidrs) (peer : IpAddr) :
    lan.contains peer = some (decide (∃ cidr ∈ lan.cidrs, cidr.contains peer = some true)) := by
  have hmembers : (fun cidr : IpCidr => cidr.contains peer) =
      fun cidr => pure (decide (cidr.contains peer = some true)) := by
    funext cidr
    rw [cidr.contains_eq peer]
    simp
  rw [contains, hmembers, List.anyM_pure, Option.pure_def, Option.some_inj, Bool.eq_iff_iff]
  simp

end LanCidrs

/--
A range that was parsed contains exactly the peers of its family whose first
bits are its own, and no shift overflows on the way; a set contains the peers of
its members.
-/
theorem membership_is_prefix_equality :
    (∀ input cidr, IpCidr.parse input = .ok cidr → ∀ peer,
      ∃ answer, cidr.contains peer = some answer ∧
        (answer = true ↔ SharesPrefix cidr.prefixLen.toNat cidr.network peer)) ∧
    ∀ (lan : LanCidrs) (peer : IpAddr),
      ∃ answer, lan.contains peer = some answer ∧
        (answer = true ↔ ∃ cidr ∈ lan.cidrs, cidr.contains peer = some true) := by
  constructor
  · intro input cidr _ peer
    exact ⟨_, cidr.contains_eq peer, decide_eq_true_iff⟩
  · intro lan peer
    exact ⟨_, lan.contains_eq peer, decide_eq_true_iff⟩

/-- A range of a whole octet, and an address in it. -/
theorem octet_range_contains :
    ∃ cidr answer, IpCidr.parse "10.0.0.0/8".toList = .ok cidr ∧
      cidr.contains (.v4 0x0A010203) = some answer ∧ answer = true := by
  obtain ⟨answer, hanswer, hiff⟩ := membership_is_prefix_equality.1 "10.0.0.0/8".toList
    ⟨.v4 0x0A000000, 8, by decide⟩ rfl (.v4 0x0A010203)
  exact ⟨_, answer, rfl, hanswer, hiff.2 (by decide)⟩

namespace LanCidrs

def asStrings (lan : LanCidrs) : List Text := lan.cidrs.map IpCidr.format

/-- A set that is displayed can be configured again. -/
theorem resolve_asStrings (lan : LanCidrs) :
    resolve (some lan.asStrings) = some (.ok { lan with source := .override }) := by
  have hparsed (cidrs : List IpCidr) :
      (cidrs.map IpCidr.format).mapM IpCidr.parse = .ok cidrs := by
    induction cidrs with
    | nil => rfl
    | cons cidr rest ih =>
        rw [List.map_cons, List.mapM_cons, IpCidr.parse_format, ih]
        rfl
  rw [resolve, asStrings, hparsed]
  rfl

def gate (lan : LanCidrs) (peer : IpAddr) : Bool := (lan.contains peer).getD false

theorem gate_iff {lan : LanCidrs} {peer : IpAddr} :
    lan.gate peer = true ↔
      ∃ cidr ∈ lan.cidrs, SharesPrefix cidr.prefixLen.toNat cidr.network peer := by
  rw [gate, contains_eq]
  simp [IpCidr.contains_eq]

def defaultCidrs : List IpCidr :=
  [⟨.v4 0x7F000000, 8, by decide⟩, ⟨.v4 0x0A000000, 8, by decide⟩,
    ⟨.v4 0xAC100000, 12, by decide⟩, ⟨.v4 0xC0A80000, 16, by decide⟩, ⟨.v6 1, 128, by decide⟩,
    ⟨.v6 (0x7E <<< 121), 7, by decide⟩]

/-- The loopback addresses, the private IPv4 networks and the unique local IPv6 addresses. -/
def IsPrivate : IpAddr → Prop
  | .v4 bits =>
      bits.toNat / 2 ^ 24 = 127 ∨ bits.toNat / 2 ^ 24 = 10 ∨ bits.toNat / 2 ^ 20 = 0xAC1 ∨
        bits.toNat / 2 ^ 16 = 0xC0A8
  | .v6 bits => bits = 1 ∨ bits.toNat / 2 ^ 121 = 0x7E

end LanCidrs

end Yggdrasil.Proxy
