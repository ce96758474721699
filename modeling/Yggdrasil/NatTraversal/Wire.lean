import Mathlib.Tactic
import Yggdrasil.Foundation.AddrText

/-!
# PCP and NAT-PMP messages

The MAP exchange of both gateway protocols: the requests the mapper sends, as
records, and the decoding of the datagrams it receives.  Neither decoder
compares a response with the request it is read for.  The gateway's side of the
format is that of the mock gateway the daemon is tested against.
-/

namespace Yggdrasil.NatTraversal

open Foundation

abbrev Ipv4Addr := UInt32

/-- The twelve random bytes of a PCP mapping, as one word. -/
abbrev Nonce := BitVec 96

inductive MapProtocol where
  | tcp
  | udp
  deriving DecidableEq, Repr

def MapProtocol.ipProto : MapProtocol → UInt8
  | tcp => 6
  | udp => 17

inductive PcpResultCode where
  | success
  | unsuppVersion
  | notAuthorized
  | malformedRequest
  | unsuppOpcode
  | unsuppOption
  | malformedOption
  | networkFailure
  | noResources
  | unsuppProtocol
  | userExQuota
  | cannotProvideExternal
  | addressMismatch
  | excessiveRemotePeers
  deriving DecidableEq, Repr

inductive NatPmpResultCode where
  | success
  | unsupportedVersion
  | notAuthorized
  | networkFailure
  | outOfResources
  | unsupportedOpcode
  deriving DecidableEq, Repr

inductive WireError where
  | truncated (needed got : Nat)
  | badVersion (version : UInt8)
  | badOpcode (opcode : UInt8)
  | notAResponse
  | nonceMismatch
  | unknownResultCode (code : UInt16)
  | notIpv4Mapped (bits : BitVec 128)
  deriving DecidableEq, Repr

def WireError.toString (text : AddrText) : WireError → String
  | truncated needed got => s!"buffer too short: needed {needed} bytes, got {got}"
  | badVersion version => s!"unexpected version on wire: {version}"
  | badOpcode opcode =>
      "unexpected opcode on wire: 0x" ++ String.ofList (Text.hexEncode [opcode])
  | notAResponse => "response opcode high bit not set (expected response, got request)"
  | nonceMismatch => "nonce mismatch between request and response"
  | unknownResultCode code => s!"unrecognized result code: {code}"
  | notIpv4Mapped bits =>
      "expected an IPv4-mapped IPv6 address, got " ++ String.ofList (text.formatV6 bits)

namespace PcpResultCode

def fromWire (value : UInt8) : Except WireError PcpResultCode :=
  match value.toNat with
  | 0 => .ok success
  | 1 => .ok unsuppVersion
  | 2 => .ok notAuthorized
  | 3 => .ok malformedRequest
  | 4 => .ok unsuppOpcode
  | 5 => .ok unsuppOption
  | 6 => .ok malformedOption
  | 7 => .ok networkFailure
  | 8 => .ok noResources
  | 9 => .ok unsuppProtocol
  | 10 => .ok userExQuota
  | 11 => .ok cannotProvideExternal
  | 12 => .ok addressMismatch
  | 13 => .ok excessiveRemotePeers
  | _ => .error (.unknownResultCode value.toUInt16)

def asU8 : PcpResultCode → UInt8
  | success => 0
  | unsuppVersion => 1
  | notAuthorized => 2
  | malformedRequest => 3
  | unsuppOpcode => 4
  | unsuppOption => 5
  | malformedOption => 6
  | networkFailure => 7
  | noResources => 8
  | unsuppProtocol => 9
  | userExQuota => 10
  | cannotProvideExternal => 11
  | addressMismatch => 12
  | excessiveRemotePeers => 13

theorem fromWire_asU8 (code : PcpResultCode) : fromWire code.asU8 = .ok code := by
  cases code <;> rfl

def isTransient : PcpResultCode → Bool
  | networkFailure | noResources | cannotProvideExternal => true
  | _ => false

def shouldFallBackToNatpmp : PcpResultCode → Bool
  | unsuppVersion => true
  | _ => false

def debug : PcpResultCode → String
  | success => "Success"
  | unsuppVersion => "UnsuppVersion"
  | notAuthorized => "NotAuthorized"
  | malformedRequest => "MalformedRequest"
  | unsuppOpcode => "UnsuppOpcode"
  | unsuppOption => "UnsuppOption"
  | malformedOption => "MalformedOption"
  | networkFailure => "NetworkFailure"
  | noResources => "NoResources"
  | unsuppProtocol => "UnsuppProtocol"
  | userExQuota => "UserExQuota"
  | cannotProvideExternal => "CannotProvideExternal"
  | addressMismatch => "AddressMismatch"
  | excessiveRemotePeers => "ExcessiveRemotePeers"

end PcpResultCode

namespace NatPmpResultCode

def fromWire (value : UInt16) : Except WireError NatPmpResultCode :=
  match value.toNat with
  | 0 => .ok success
  | 1 => .ok unsupportedVersion
  | 2 => .ok notAuthorized
  | 3 => .ok networkFailure
  | 4 => .ok outOfResources
  | 5 => .ok unsupportedOpcode
  | _ => .error (.unknownResultCode value)

def asU16 : NatPmpResultCode → UInt16
  | success => 0
  | unsupportedVersion => 1
  | notAuthorized => 2
  | networkFailure => 3
  | outOfResources => 4
  | unsupportedOpcode => 5

theorem fromWire_asU16 (code : NatPmpResultCode) : fromWire code.asU16 = .ok code := by
  cases code <;> rfl

def isTransient : NatPmpResultCode → Bool
  | networkFailure | outOfResources => true
  | _ => false

def debug : NatPmpResultCode → String
  | success => "Success"
  | unsupportedVersion => "UnsupportedVersion"
  | notAuthorized => "NotAuthorized"
  | networkFailure => "NetworkFailure"
  | outOfResources => "OutOfResources"
  | unsupportedOpcode => "UnsupportedOpcode"

end NatPmpResultCode

structure PcpMapRequest where
  lifetimeSecs : UInt32
  clientAddr : Ipv4Addr
  nonce : Nonce
  protocol : MapProtocol
  internalPort : UInt16
  suggestedExternalPort : UInt16
  suggestedExternalAddr : Ipv4Addr
  deriving DecidableEq, Repr

structure PcpMapResponse where
  resultCode : PcpResultCode
  epochTime : UInt32
  assignedLifetime : UInt32
  nonce : Nonce
  protocol : MapProtocol
  internalPort : UInt16
  assignedExternalPort : UInt16
  assignedExternalAddr : Ipv4Addr
  deriving DecidableEq, Repr

structure NatPmpMapRequest where
  protocol : MapProtocol
  internalPort : UInt16
  suggestedExternalPort : UInt16
  lifetimeSecs : UInt32
  deriving DecidableEq, Repr

structure NatPmpMapResponse where
  resultCode : NatPmpResultCode
  protocol : MapProtocol
  secondsSinceEpoch : UInt32
  internalPort : UInt16
  assignedExternalPort : UInt16
  assignedLifetime : UInt32
  deriving DecidableEq, Repr

def byteAt (buf : Bytes) (start : Nat) : UInt8 := buf.getD start 0

def wordAt (buf : Bytes) (start width : Nat) : Nat := beNat ((buf.drop start).take width)

def u16At (buf : Bytes) (start : Nat) : UInt16 := UInt16.ofNat (wordAt buf start 2)

def u32At (buf : Bytes) (start : Nat) : UInt32 := UInt32.ofNat (wordAt buf start 4)

def MapProtocol.ofIpProto (byte : UInt8) : Except WireError MapProtocol :=
  if byte = MapProtocol.tcp.ipProto then .ok .tcp
  else if byte = MapProtocol.udp.ipProto then .ok .udp
  else .error (.badOpcode byte)

theorem MapProtocol.ofIpProto_ipProto (protocol : MapProtocol) :
    ofIpProto protocol.ipProto = .ok protocol := by
  cases protocol <;> rfl

def ipv4ToMappedV6 (v4 : Ipv4Addr) : BitVec 128 :=
  BitVec.ofNat 128 (0xffff * 2 ^ 32 + v4.toNat)

def ipv6MappedToV4 (v6 : BitVec 128) : Except WireError Ipv4Addr :=
  if v6.toNat / 2 ^ 32 = 0xffff then .ok (UInt32.ofNat (v6.toNat % 2 ^ 32))
  else .error (.notIpv4Mapped v6)

theorem ipv6MappedToV4_ipv4ToMappedV6 (v4 : Ipv4Addr) :
    ipv6MappedToV4 (ipv4ToMappedV6 v4) = .ok v4 := by
  have hlt : v4.toNat < 2 ^ 32 := v4.toNat_lt
  have hbits : (ipv4ToMappedV6 v4).toNat = 0xffff * 2 ^ 32 + v4.toNat := by
    rw [ipv4ToMappedV6, BitVec.toNat_ofNat, Nat.mod_eq_of_lt (by omega)]
  have hlow : (0xffff * 2 ^ 32 + v4.toNat) % 2 ^ 32 = v4.toNat := by omega
  rw [ipv6MappedToV4, hbits, if_pos (by omega), hlow, UInt32.ofNat_toNat]

section

variable {before after : Bytes} {start : Nat}

theorem byteAt_skip (h : before.length ≤ start) :
    byteAt (before ++ after) start = byteAt after (start - before.length) := by
  rw [byteAt, byteAt, List.getD_eq_getElem?_getD, List.getD_eq_getElem?_getD,
    List.getElem?_append_right h]

theorem wordAt_skip (h : before.length ≤ start) (width : Nat) :
    wordAt (before ++ after) start width = wordAt after (start - before.length) width := by
  rw [wordAt, wordAt, List.drop_append, List.drop_eq_nil_of_le h, List.nil_append]

theorem wordAt_head {width n : Nat} (h : n < 256 ^ width) :
    wordAt (beBytes width n ++ after) 0 width = n := by
  have hfield : (beBytes width n ++ after).take width = beBytes width n :=
    List.take_left' (length_beBytes width n)
  rw [wordAt, List.drop_zero, hfield, beNat_beBytes h]

theorem u16At_skip (h : before.length ≤ start) :
    u16At (before ++ after) start = u16At after (start - before.length) := by
  rw [u16At, wordAt_skip h, u16At]

theorem u16At_head (word : UInt16) : u16At (beBytes 2 word.toNat ++ after) 0 = word := by
  rw [u16At, wordAt_head (by simpa using word.toNat_lt), UInt16.ofNat_toNat]

theorem u32At_skip (h : before.length ≤ start) :
    u32At (before ++ after) start = u32At after (start - before.length) := by
  rw [u32At, wordAt_skip h, u32At]

theorem u32At_head (word : UInt32) : u32At (beBytes 4 word.toNat ++ after) 0 = word := by
  rw [u32At, wordAt_head (by simpa using word.toNat_lt), UInt32.ofNat_toNat]

end

def responseBit : UInt8 := 0x80

namespace Pcp

def version : UInt8 := 2

def opcodeMap : UInt8 := 1

def mapResponseLen : Nat := 60

/-- Bytes after the first 60 are options and are not looked at. -/
def decodeMapResponse (buf : Bytes) : Except WireError PcpMapResponse := do
  if buf.length < mapResponseLen then
    throw (.truncated mapResponseLen buf.length)
  if byteAt buf 0 ≠ version then
    throw (.badVersion (byteAt buf 0))
  if byteAt buf 1 &&& responseBit = 0 then
    throw .notAResponse
  if byteAt buf 1 &&& ~~~responseBit ≠ opcodeMap then
    throw (.badOpcode (byteAt buf 1 &&& ~~~responseBit))
  let resultCode ← PcpResultCode.fromWire (byteAt buf 3)
  let protocol ← MapProtocol.ofIpProto (byteAt buf 36)
  let assignedExternalAddr ← ipv6MappedToV4 (BitVec.ofNat 128 (wordAt buf 44 16))
  return {
    resultCode := resultCode
    epochTime := u32At buf 8
    assignedLifetime := u32At buf 4
    nonce := BitVec.ofNat 96 (wordAt buf 24 12)
    protocol := protocol
    internalPort := u16At buf 40
    assignedExternalPort := u16At buf 42
    assignedExternalAddr := assignedExternalAddr
  }

def synthesize (response : PcpMapResponse) : Bytes :=
  [version, opcodeMap ||| responseBit, 0, response.resultCode.asU8] ++
    beBytes 4 response.assignedLifetime.toNat ++ beBytes 4 response.epochTime.toNat ++
    List.replicate 12 0 ++ beBytes 12 response.nonce.toNat ++
    [response.protocol.ipProto, 0, 0, 0] ++ beBytes 2 response.internalPort.toNat ++
    beBytes 2 response.assignedExternalPort.toNat ++
    beBytes 16 (ipv4ToMappedV6 response.assignedExternalAddr).toNat

theorem decodeMapResponse_synthesize (response : PcpMapResponse) (options : Bytes) :
    decodeMapResponse (synthesize response ++ options) = .ok response := by
  have hlength : ¬(synthesize response ++ options).length < mapResponseLen := by
    simp [synthesize, mapResponseLen]
    omega
  have hnonce : response.nonce.toNat < 256 ^ 12 := by simpa using response.nonce.isLt
  have haddr : (ipv4ToMappedV6 response.assignedExternalAddr).toNat < 256 ^ 16 := by
    simpa using (ipv4ToMappedV6 response.assignedExternalAddr).isLt
  -- each field is read after the fields before it are skipped
  obtain ⟨hlifetime, hepoch, hinternal, hexternal, hnonce, haddr⟩ :
      u32At (synthesize response ++ options) 4 = response.assignedLifetime ∧
      u32At (synthesize response ++ options) 8 = response.epochTime ∧
      u16At (synthesize response ++ options) 40 = response.internalPort ∧
      u16At (synthesize response ++ options) 42 = response.assignedExternalPort ∧
      wordAt (synthesize response ++ options) 24 12 = response.nonce.toNat ∧
      wordAt (synthesize response ++ options) 44 16 =
        (ipv4ToMappedV6 response.assignedExternalAddr).toNat := by
    simp (disch := simp) only [synthesize, List.append_assoc, wordAt_skip, u16At_skip, u16At_head,
      u32At_skip, u32At_head, wordAt_head hnonce, wordAt_head haddr, List.length_cons,
      List.length_nil, List.length_replicate, length_beBytes, Nat.reduceAdd, Nat.reduceSub,
      and_self]
  have hcode : byteAt (synthesize response ++ options) 3 = response.resultCode.asU8 := rfl
  have hproto : byteAt (synthesize response ++ options) 36 = response.protocol.ipProto := by
    simp (disch := simp) only [synthesize, List.append_assoc, byteAt_skip, List.length_cons,
      List.length_nil, List.length_replicate, length_beBytes, Nat.reduceAdd, Nat.reduceSub]
    rfl
  have hversion : byteAt (synthesize response ++ options) 0 = version := rfl
  have hresponse : ¬byteAt (synthesize response ++ options) 1 &&& responseBit = 0 := by
    change ¬(opcodeMap ||| responseBit) &&& responseBit = 0
    decide
  have hopcode : byteAt (synthesize response ++ options) 1 &&& ~~~responseBit = opcodeMap := by
    change (opcodeMap ||| responseBit) &&& ~~~responseBit = opcodeMap
    decide
  rw [decodeMapResponse, if_neg hlength, if_neg (not_not.2 hversion), if_neg hresponse,
    if_neg (not_not.2 hopcode), hcode, hproto, hlifetime, hepoch, hinternal, hexternal, hnonce,
    haddr, PcpResultCode.fromWire_asU8, MapProtocol.ofIpProto_ipProto, BitVec.ofNat_toNat,
    BitVec.ofNat_toNat, BitVec.setWidth_eq, BitVec.setWidth_eq, ipv6MappedToV4_ipv4ToMappedV6]
  rfl

end Pcp

namespace NatPmp

def version : UInt8 := 0

def opcodeMapUdp : UInt8 := 1

def opcodeMapTcp : UInt8 := 2

def opcodeOf : MapProtocol → UInt8
  | .udp => opcodeMapUdp
  | .tcp => opcodeMapTcp

def ofOpcode (opcode : UInt8) : Except WireError MapProtocol :=
  if opcode = opcodeMapUdp then .ok .udp
  else if opcode = opcodeMapTcp then .ok .tcp
  else .error (.badOpcode opcode)

def mapResponseLen : Nat := 16

def decodeMapResponse (buf : Bytes) : Except WireError NatPmpMapResponse := do
  if buf.length < mapResponseLen then
    throw (.truncated mapResponseLen buf.length)
  if byteAt buf 0 ≠ version then
    throw (.badVersion (byteAt buf 0))
  if byteAt buf 1 &&& responseBit = 0 then
    throw .notAResponse
  let protocol ← ofOpcode (byteAt buf 1 &&& ~~~responseBit)
  let resultCode ← NatPmpResultCode.fromWire (u16At buf 2)
  return {
    resultCode := resultCode
    protocol := protocol
    secondsSinceEpoch := u32At buf 4
    internalPort := u16At buf 8
    assignedExternalPort := u16At buf 10
    assignedLifetime := u32At buf 12
  }

def synthesize (response : NatPmpMapResponse) : Bytes :=
  [version, opcodeOf response.protocol ||| responseBit] ++ beBytes 2 response.resultCode.asU16.toNat ++
    beBytes 4 response.secondsSinceEpoch.toNat ++ beBytes 2 response.internalPort.toNat ++
    beBytes 2 response.assignedExternalPort.toNat ++ beBytes 4 response.assignedLifetime.toNat

theorem decodeMapResponse_synthesize (response : NatPmpMapResponse) (trailing : Bytes) :
    decodeMapResponse (synthesize response ++ trailing) = .ok response := by
  have hlength : ¬(synthesize response ++ trailing).length < mapResponseLen := by
    simp [synthesize, mapResponseLen]
    omega
  obtain ⟨hcode, hepoch, hinternal, hexternal, hlifetime⟩ :
      u16At (synthesize response ++ trailing) 2 = response.resultCode.asU16 ∧
      u32At (synthesize response ++ trailing) 4 = response.secondsSinceEpoch ∧
      u16At (synthesize response ++ trailing) 8 = response.internalPort ∧
      u16At (synthesize response ++ trailing) 10 = response.assignedExternalPort ∧
      u32At (synthesize response ++ trailing) 12 = response.assignedLifetime := by
    simp (disch := simp) only [synthesize, List.append_assoc, u16At_skip, u16At_head, u32At_skip,
      u32At_head, List.length_cons, List.length_nil, length_beBytes, Nat.reduceAdd, Nat.reduceSub,
      and_self]
  have hversion : byteAt (synthesize response ++ trailing) 0 = version := rfl
  have hresponse : ¬byteAt (synthesize response ++ trailing) 1 &&& responseBit = 0 := by
    change ¬(opcodeOf response.protocol ||| responseBit) &&& responseBit = 0
    cases response.protocol <;> decide
  have hprotocol : ofOpcode (byteAt (synthesize response ++ trailing) 1 &&& ~~~responseBit) =
      .ok response.protocol := by
    change ofOpcode ((opcodeOf response.protocol ||| responseBit) &&& ~~~responseBit) = _
    cases response.protocol <;> rfl
  rw [decodeMapResponse, if_neg hlength, if_neg (not_not.2 hversion), if_neg hresponse, hprotocol,
    hcode, hlifetime, hepoch, hinternal, hexternal, NatPmpResultCode.fromWire_asU16]
  rfl

end NatPmp

end Yggdrasil.NatTraversal
