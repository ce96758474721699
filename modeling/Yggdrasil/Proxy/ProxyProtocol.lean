import Yggdrasil.Foundation.AddrText
import Yggdrasil.Foundation.Check
import Yggdrasil.Ratatoskr.RuleSet

/-!
# The PROXY protocol

Both versions of the header, as a hop writes them in front of a connection and
as the next hop reads them back.  A header names the addresses of one family
only: where the client and the listener differ in family, version 1 says
`UNKNOWN` and version 2 says `LOCAL`, and the reader learns no address.

A stream is the list of all bytes the peer sends until it closes.
-/

namespace Yggdrasil.Proxy

open Foundation Ratatoskr

def asciiBytes (text : String) : Bytes := text.toList.map (fun c => UInt8.ofNat c.toNat)

def portText (port : UInt16) : Text := Nat.toDigits 10 port.toNat

structure ProxyEndpoints where
  client : SocketAddr
  server : SocketAddr
  deriving DecidableEq, Repr

structure ProxyDecode where
  endpoints : Option ProxyEndpoints
  /-- Bytes that were read and turned out not to be a header. -/
  leftover : Bytes
  deriving DecidableEq, Repr

inductive ReadError where
  | unexpectedEof
  | invalidData (message : String)
  deriving DecidableEq, Repr

abbrev StreamReader (α : Type) := Bytes → Except ReadError (α × Bytes)

def readExact (count : Nat) : StreamReader Bytes := fun stream =>
  if count ≤ stream.length then .ok (stream.take count, stream.drop count)
  else .error .unexpectedEof

@[simp] theorem readExact_append (block rest : Bytes) :
    readExact block.length (block ++ rest) = .ok (block, rest) := by
  simp [readExact]

section

variable (text : AddrText)

def encodeV1 (client server : SocketAddr) : Bytes :=
  let line (family : String) (c s : Text) : Text :=
    ("PROXY " ++ family ++ " ").toList ++ c ++ ' ' :: s ++ ' ' :: portText client.port ++
      ' ' :: portText server.port ++ "\r\n".toList
  let line :=
    match client.ip, server.ip with
    | .v4 c, .v4 s => line "TCP4" (text.formatV4 c) (text.formatV4 s)
    | .v6 c, .v6 s => line "TCP6" (text.formatV6 c) (text.formatV6 s)
    | _, _ => "PROXY UNKNOWN\r\n".toList
  line.flatMap String.utf8EncodeChar

omit text in
def v2Sig : Bytes := [0x0D, 0x0A, 0x0D, 0x0A, 0x00, 0x0D, 0x0A, 0x51, 0x55, 0x49, 0x54, 0x0A]

def encodeBlock (width client server : Nat) (clientPort serverPort : UInt16) : Bytes :=
  beBytes width client ++ (beBytes width server ++
    (beBytes 2 clientPort.toNat ++ beBytes 2 serverPort.toNat))

def encodeV2 (client server : SocketAddr) : Bytes :=
  match client.ip, server.ip with
  | .v4 c, .v4 s =>
      v2Sig ++ (0x21 :: 0x11 :: beBytes 2 12 ++
        encodeBlock 4 c.toNat s.toNat client.port server.port)
  | .v6 c, .v6 s =>
      v2Sig ++ (0x21 :: 0x21 :: beBytes 2 36 ++
        encodeBlock 16 c.toNat s.toNat client.port server.port)
  | _, _ => v2Sig ++ (0x20 :: 0x00 :: beBytes 2 0)

def encodeHeader (version : ProxyProto) (client server : SocketAddr) : Bytes :=
  match version with
  | .v1 => encodeV1 text client server
  | .v2 => encodeV2 client server

def v1MaxLine : Nat := 107

/-- Up to the first line feed that follows a carriage return. -/
def readLine (line : Bytes) (sawCr : Bool) : StreamReader Bytes
  | [] => .error .unexpectedEof
  | byte :: stream =>
      if byte.toNat = 10 ∧ sawCr then .ok (line ++ [byte], stream)
      else if v1MaxLine < (line ++ [byte]).length then
        .error (.invalidData "PROXY v1 header exceeds 107 bytes")
      else readLine (line ++ [byte]) (byte.toNat = 13) stream

def parsePort (text : Text) : Except ReadError UInt16 :=
  match Text.parseU16 text with
  | some port => .ok port
  | none => .error (.invalidData "v1 bad port")

def parseAddr (parse : Text → Option IpAddr) (error : String) (addr port : Text) :
    Except ReadError SocketAddr :=
  match parse addr with
  | none => .error (.invalidData error)
  | some ip => (parsePort port).map (fun port => ⟨ip, port⟩)

def parseEndpoints (parse : Text → Option IpAddr) (error : String)
    (cli srv cp sp : Text) : Except ReadError (Option ProxyEndpoints) := do
  let client ← parseAddr parse error cli cp
  let server ← parseAddr parse error srv sp
  return some ⟨client, server⟩

def v1Endpoints (rest : Text) : Except ReadError (Option ProxyEndpoints) :=
  if "UNKNOWN".toList <+: rest then .ok none
  else
    match rest.splitOn ' ' with
    | fam :: cli :: srv :: cp :: sp :: _ =>
        if fam = "TCP4".toList then
          parseEndpoints (fun addr => (text.parseV4 addr).map .v4) "v1 bad ipv4" cli srv cp sp
        else if fam = "TCP6".toList then
          parseEndpoints (fun addr => (text.parseV6 addr).map .v6) "v1 bad ipv6" cli srv cp sp
        else .error (.invalidData "v1 unknown family")
    | [_, _, _, _] => .error (.invalidData "v1 missing sport")
    | [_, _, _] => .error (.invalidData "v1 missing cport")
    | [_, _] => .error (.invalidData "v1 missing server")
    | [_] => .error (.invalidData "v1 missing client")
    | [] => .error (.invalidData "v1 missing family")

def v1Body (line : Bytes) : Except ReadError (Option ProxyEndpoints) :=
  match String.fromUTF8? ⟨(line.take (line.length - 2)).toArray⟩ with
  | none => .error (.invalidData "PROXY v1 not UTF-8")
  | some body =>
      if "PROXY ".toList <+: body.toList then v1Endpoints text (body.toList.drop 6)
      else .error (.invalidData "PROXY v1 prefix")

def decodeV1 (first : UInt8) : StreamReader ProxyDecode := fun stream => do
  let (tail, stream) ← readExact 5 stream
  if tail ≠ asciiBytes "ROXY " then .ok (⟨none, first :: tail⟩, stream)
  else do
    let (line, stream) ← readLine (asciiBytes "PROXY ") false stream
    let endpoints ← v1Body text line
    .ok (⟨endpoints, []⟩, stream)

def v2MaxAddr : Nat := 536

def decodeBlock (width : Nat) (ip : Nat → IpAddr) (payload : Bytes) : ProxyEndpoints where
  client := ⟨ip (beNat (payload.take width)),
    .ofNat (beNat ((payload.drop (width + width)).take 2))⟩
  server := ⟨ip (beNat ((payload.drop width).take width)),
    .ofNat (beNat ((payload.drop (width + width + 2)).take 2))⟩

def ipOfV4 (n : Nat) : IpAddr := .v4 (.ofNat n)

def ipOfV6 (n : Nat) : IpAddr := .v6 (.ofNat 128 n)

/-- The `LOCAL` command and other families carry no usable address. -/
def v2Endpoints (verCmd famProto : UInt8) (payload : Bytes) :
    Except ReadError (Option ProxyEndpoints) :=
  if verCmd.toNat % 16 = 0 then .ok none
  else if famProto = 0x11 then
    if payload.length < 12 then .error (.invalidData "v2 TCP4 short payload")
    else .ok (some (decodeBlock 4 ipOfV4 payload))
  else if famProto = 0x21 then
    if payload.length < 36 then .error (.invalidData "v2 TCP6 short payload")
    else .ok (some (decodeBlock 16 ipOfV6 payload))
  else .ok none

def decodeV2Body (verCmd famProto : UInt8) (addrLen : Nat) : StreamReader ProxyDecode := fun stream =>
  if verCmd.toNat / 16 ≠ 2 then .error (.invalidData "v2 wrong version")
  else if v2MaxAddr < addrLen then .error (.invalidData "v2 addr_len too large")
  else do
    let (payload, stream) ← readExact addrLen stream
    let endpoints ← v2Endpoints verCmd famProto payload
    .ok (⟨endpoints, []⟩, stream)

def decodeV2 (first : UInt8) : StreamReader ProxyDecode := fun stream => do
  let (restSig, stream) ← readExact 11 stream
  if first :: restSig ≠ v2Sig then .ok (⟨none, first :: restSig⟩, stream)
  else do
    let (hdr, stream) ← readExact 4 stream
    decodeV2Body (hdr.getD 0 0) (hdr.getD 1 0) (beNat (hdr.drop 2)) stream

def readOptionalHeader : StreamReader ProxyDecode
  | [] => .ok (⟨none, []⟩, [])
  | first :: stream =>
      if first.toNat = 'P'.toNat then decodeV1 text first stream
      else if first.toNat = 0x0D then decodeV2 first stream
      else .ok (⟨none, [first]⟩, stream)

def decodeV2FromDatagram (datagram : Bytes) : Option ProxyEndpoints :=
  if datagram.length < 16 ∨ datagram.take 12 ≠ v2Sig then none
  else
    let verCmd := datagram.getD 12 0
    let famProto := datagram.getD 13 0
    let addrLen := beNat ((datagram.drop 14).take 2)
    let payload := (datagram.drop 16).take addrLen
    if verCmd.toNat / 16 ≠ 2 ∨ v2MaxAddr < addrLen ∨ datagram.length < 16 + addrLen ∨
        verCmd.toNat % 16 = 0 then none
    else if famProto = 0x11 ∧ 12 ≤ payload.length then some (decodeBlock 4 ipOfV4 payload)
    else if famProto = 0x21 ∧ 36 ≤ payload.length then some (decodeBlock 16 ipOfV6 payload)
    else none

omit text in
@[simp] theorem length_encodeBlock (width client server : Nat) (clientPort serverPort : UInt16) :
    (encodeBlock width client server clientPort serverPort).length = width + width + 4 := by
  simp only [encodeBlock, List.length_append, length_beBytes]
  omega

omit text in
theorem decodeBlock_encodeBlock {width client server : Nat} (ip : Nat → IpAddr)
    (hclient : client < 256 ^ width) (hserver : server < 256 ^ width)
    (clientPort serverPort : UInt16) :
    decodeBlock width ip (encodeBlock width client server clientPort serverPort) =
      ⟨⟨ip client, clientPort⟩, ⟨ip server, serverPort⟩⟩ := by
  have port : ∀ port : UInt16, UInt16.ofNat (beNat (beBytes 2 port.toNat)) = port := by
    intro port
    rw [beNat_beBytes (by simpa using port.toNat_lt), UInt16.ofNat_toNat]
  have hwidth : ∀ n, (beBytes width n).length = width := length_beBytes width
  have htwo : ∀ n, (beBytes 2 n).length = 2 := length_beBytes 2
  unfold decodeBlock encodeBlock
  rw [← List.drop_drop, ← List.drop_drop, ← List.drop_drop]
  simp only [List.drop_left' (hwidth _), List.take_left' (hwidth _), List.take_left' (htwo _),
    List.drop_left' (htwo _), beNat_beBytes hclient, beNat_beBytes hserver]
  rw [List.take_of_length_le (by simp), port, port]

omit text in
theorem readExact_left {count : Nat} {block rest : Bytes} (h : block.length = count) :
    readExact count (block ++ rest) = .ok (block, rest) :=
  h ▸ readExact_append block rest

variable {endpoints : Option ProxyEndpoints}

omit text in
theorem decodeV2_header {verCmd famProto : UInt8} {block : Bytes} (rest : Bytes)
    (hversion : verCmd.toNat / 16 = 2) (hlength : block.length ≤ v2MaxAddr)
    (hendpoints : v2Endpoints verCmd famProto block = .ok endpoints) :
    decodeV2 0x0D
        (v2Sig.tail ++ ((verCmd :: famProto :: beBytes 2 block.length) ++ (block ++ rest))) =
      .ok (⟨endpoints, []⟩, rest) := by
  have hlen : beNat (beBytes 2 block.length) = block.length :=
    beNat_beBytes (by unfold v2MaxAddr at hlength; omega)
  have hsig : readExact 11 (v2Sig.tail ++
      ((verCmd :: famProto :: beBytes 2 block.length) ++ (block ++ rest))) =
      .ok (v2Sig.tail, (verCmd :: famProto :: beBytes 2 block.length) ++ (block ++ rest)) :=
    readExact_left rfl
  have hhdr : readExact 4 ((verCmd :: famProto :: beBytes 2 block.length) ++ (block ++ rest)) =
      .ok (verCmd :: famProto :: beBytes 2 block.length, block ++ rest) :=
    readExact_left (by simp)
  have hbody : decodeV2Body verCmd famProto block.length (block ++ rest) =
      .ok (⟨endpoints, []⟩, rest) := by
    rw [decodeV2Body, if_neg (not_not.2 hversion), if_neg (Nat.not_lt.2 hlength)]
    exact bind_ok_iff.2 ⟨_, readExact_append block rest, bind_ok_iff.2 ⟨_, hendpoints, rfl⟩⟩
  refine bind_ok_iff.2 ⟨_, hsig, ?_⟩
  dsimp only
  rw [if_neg (by decide)]
  exact bind_ok_iff.2 ⟨_, hhdr, by simpa [hlen] using hbody⟩

theorem readOptionalHeader_v2 (verCmd famProto : UInt8) (length : Nat) (block rest : Bytes)
    (hblock : block.length = length) (hversion : verCmd.toNat / 16 = 2)
    (hlength : length ≤ v2MaxAddr)
    (hendpoints : v2Endpoints verCmd famProto block = .ok endpoints) :
    readOptionalHeader text (v2Sig ++ (verCmd :: famProto :: beBytes 2 length ++ block) ++ rest) =
      .ok (⟨endpoints, []⟩, rest) := by
  subst hblock
  rw [List.append_assoc, List.append_assoc]
  exact decodeV2_header rest hversion hlength hendpoints

/-- The next hop reads both addresses, or none where the families differ. -/
theorem readOptionalHeader_encodeV2 (client server : SocketAddr) (rest : Bytes) :
    readOptionalHeader text (encodeV2 client server ++ rest) =
      .ok (⟨if sameFamily client.ip server.ip then some ⟨client, server⟩ else none, []⟩, rest) := by
  obtain ⟨clientIp, clientPort⟩ := client
  obtain ⟨serverIp, serverPort⟩ := server
  cases clientIp <;> cases serverIp
  case v4.v4 c s =>
    refine readOptionalHeader_v2 text 0x21 0x11 12 _ rest (by simp) rfl (by decide) ?_
    have hshort : ¬ (encodeBlock 4 c.toNat s.toNat clientPort serverPort).length < 12 := by simp
    rw [v2Endpoints, if_neg (by decide), if_pos rfl, if_neg hshort, decodeBlock_encodeBlock ipOfV4
      (by simpa using c.toNat_lt) (by simpa using s.toNat_lt)]
    simp [ipOfV4, sameFamily]
  case v6.v6 c s =>
    refine readOptionalHeader_v2 text 0x21 0x21 36 _ rest (by simp) rfl (by decide) ?_
    have hshort : ¬ (encodeBlock 16 c.toNat s.toNat clientPort serverPort).length < 36 := by simp
    rw [v2Endpoints, if_neg (by decide), if_neg (by decide), if_pos rfl, if_neg hshort,
      decodeBlock_encodeBlock ipOfV6 (by simpa using c.isLt) (by simpa using s.isLt)]
    simp [ipOfV6, sameFamily]
  all_goals
    have hnone := readOptionalHeader_v2 text 0x20 0x00 0 [] rest rfl rfl (by decide) rfl
    rwa [List.append_nil] at hnone

end

end Yggdrasil.Proxy
