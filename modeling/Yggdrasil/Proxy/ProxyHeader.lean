import Yggdrasil.Foundation.StdAddr
import Yggdrasil.Proxy.ProxyProtocol

/-!
# Reading PROXY headers

What the decoders make of bytes: whatever stands in front of them, a header is
read back as it was written and nothing behind it is touched, and a datagram
is understood exactly as the same bytes on a stream would be.
-/

namespace Yggdrasil.Proxy

open Foundation Ratatoskr

def Plain (body : Text) : Prop := ∀ c ∈ body, 32 ≤ c.toNat ∧ c.toNat < 127

theorem readLine_body {body : Bytes} (hbody : ∀ byte ∈ body, byte.toNat ≠ 10 ∧ byte.toNat ≠ 13)
    (line rest : Bytes) (hlength : line.length + body.length + 2 ≤ v1MaxLine) :
    readLine line false (body ++ 13 :: 10 :: rest) = .ok (line ++ body ++ [13, 10], rest) := by
  induction body generalizing line with
  | nil =>
      have hshort : ¬ v1MaxLine < (line ++ [13]).length := by
        simp only [List.length_append, List.length_singleton, List.length_nil] at hlength ⊢
        omega
      rw [List.nil_append, readLine, if_neg (by decide), if_neg hshort, readLine,
        if_pos (by decide), List.append_nil, List.append_assoc]
      rfl
  | cons byte body ih =>
      rw [List.forall_mem_cons] at hbody
      rw [List.length_cons] at hlength
      have hshort : ¬ v1MaxLine < (line ++ [byte]).length := by
        rw [List.length_append, List.length_singleton]
        omega
      have hnext : (line ++ [byte]).length + body.length + 2 ≤ v1MaxLine := by
        rw [List.length_append, List.length_singleton]
        omega
      rw [List.cons_append, readLine, if_neg (fun h => hbody.1.1 h.1), if_neg hshort,
        decide_eq_false hbody.1.2, ih hbody.2 _ hnext]
      simp

section

variable (text : AddrText)

theorem v1Body_line (body : Text) :
    v1Body text (("PROXY ".toList ++ body).flatMap String.utf8EncodeChar ++ [13, 10]) =
      v1Endpoints text body := by
  have htake : (("PROXY ".toList ++ body).flatMap String.utf8EncodeChar ++ [13, 10]).take
      ((("PROXY ".toList ++ body).flatMap String.utf8EncodeChar ++ [13, 10]).length - 2) =
      ("PROXY ".toList ++ body).flatMap String.utf8EncodeChar :=
    List.take_left' (by rw [List.length_append, List.length_cons, List.length_singleton]; omega)
  rw [v1Body, htake, Text.fromUTF8?_utf8]
  simp only [String.toList_ofList]
  rw [if_pos (List.prefix_append _ _)]
  rfl

variable {endpoints : Option ProxyEndpoints}

theorem readOptionalHeader_line {body : Text} (hplain : Plain body) (hlength : body.length ≤ 99)
    (h : v1Endpoints text body = .ok endpoints) (rest : Bytes) :
    readOptionalHeader text
        (("PROXY ".toList ++ body ++ "\r\n".toList).flatMap String.utf8EncodeChar ++ rest) =
      .ok (⟨endpoints, []⟩, rest) := by
  have hascii : body.flatMap String.utf8EncodeChar = body.map (fun c => UInt8.ofNat c.toNat) :=
    Text.utf8_of_ascii fun c hc => (hplain c hc).2.trans (by decide)
  have hbytes : ∀ byte ∈ body.flatMap String.utf8EncodeChar,
      byte.toNat ≠ 10 ∧ byte.toNat ≠ 13 := by
    intro byte hbyte
    rw [hascii] at hbyte
    obtain ⟨c, hc, rfl⟩ := List.mem_map.1 hbyte
    obtain ⟨hlow, hhigh⟩ := hplain c hc
    rw [UInt8.toNat_ofNat', Nat.mod_eq_of_lt (by omega)]
    omega
  have hshort : (asciiBytes "PROXY ").length + (body.flatMap String.utf8EncodeChar).length + 2 ≤
      v1MaxLine := by
    rw [hascii, List.length_map, show (asciiBytes "PROXY ").length = 6 from rfl, v1MaxLine]
    omega
  have hstart : ("PROXY ".toList ++ body ++ "\r\n".toList).flatMap String.utf8EncodeChar ++ rest =
      asciiBytes "P" ++ (asciiBytes "ROXY " ++
        (body.flatMap String.utf8EncodeChar ++ 13 :: 10 :: rest)) := by
    rw [List.flatMap_append, List.flatMap_append, List.append_assoc, List.append_assoc]
    rfl
  have hread : readExact 5 (asciiBytes "ROXY " ++
      (body.flatMap String.utf8EncodeChar ++ 13 :: 10 :: rest)) =
      .ok (asciiBytes "ROXY ", body.flatMap String.utf8EncodeChar ++ 13 :: 10 :: rest) :=
    readExact_left rfl
  rw [hstart]
  refine bind_ok_iff.2 ⟨_, hread, ?_⟩
  dsimp only
  rw [if_neg (not_not.2 rfl)]
  refine bind_ok_iff.2 ⟨_, readLine_body hbytes _ rest hshort, bind_ok_iff.2 ⟨_, ?_, rfl⟩⟩
  rw [← h, ← v1Body_line text body, List.flatMap_append]
  rfl

theorem parsePort_portText (port : UInt16) : parsePort (portText port) = .ok port := by
  have hparse : Text.parseU16 (portText port) = some port := AddrText.parseU16_toDigits port
  rw [parsePort, hparse]

def words (family : String) (client server : Text) (clientPort serverPort : UInt16) : List Text :=
  [family.toList, client, server, portText clientPort, portText serverPort]

theorem parseEndpoints_ok {parse : Text → Option IpAddr} (error : String) {client server : Text}
    {clientIp serverIp : IpAddr} (hclient : parse client = some clientIp)
    (hserver : parse server = some serverIp) (clientPort serverPort : UInt16) :
    parseEndpoints parse error client server (portText clientPort) (portText serverPort) =
      .ok (some ⟨⟨clientIp, clientPort⟩, ⟨serverIp, serverPort⟩⟩) := by
  have haddr : ∀ {addr : Text} {ip : IpAddr} (port : UInt16), parse addr = some ip →
      parseAddr parse error addr (portText port) = .ok ⟨ip, port⟩ := by
    intro addr ip port hparse
    rw [parseAddr, hparse]
    simp only
    rw [parsePort_portText]
    rfl
  exact bind_ok_iff.2 ⟨_, haddr clientPort hclient, bind_ok_iff.2 ⟨_, haddr serverPort hserver, rfl⟩⟩

-- a list is decided char by char; the range as it stands would be decided over all characters
theorem plain_of_all {body : Text}
    (h : body.all (fun c => decide (32 ≤ c.toNat) && decide (c.toNat < 127))) : Plain body := by
  simpa [Plain] using h

theorem plain_intercalate {groups : List Text} (h : ∀ group ∈ groups, Plain group) :
    Plain ([' '].intercalate groups) := by
  intro c hc
  rcases AddrText.mem_intercalate hc with rfl | ⟨group, hgroup, hmem⟩
  · decide
  · exact h group hgroup c hmem

theorem plain_portText (port : UInt16) : Plain (portText port) := by
  have hrange : ∀ {c : Char}, Text.isAsciiDigit c → 32 ≤ c.toNat ∧ c.toNat < 127 := by
    intro c hc
    simp only [Text.isAsciiDigit, Bool.and_eq_true, decide_eq_true_eq] at hc
    exact ⟨le_trans (by decide) hc.1, lt_of_le_of_lt hc.2 (by decide)⟩
  exact fun c hc => hrange (AddrText.isAsciiDigit_of_mem_toDigits hc)

theorem plain_format (ip : IpAddr) : Plain (text.format ip) := fun c hc =>
  ⟨(text.format_printable ip c hc).1.le, (text.format_printable ip c hc).2⟩

theorem length_portText_le (port : UInt16) : (portText port).length ≤ 5 :=
  (Nat.length_toDigits_le_iff (by decide) (by decide)).2 (port.toNat_lt.trans (by decide))

theorem space_notMem_words {family : String} (hfamily : ' ' ∉ family.toList)
    (client server : IpAddr) (clientPort serverPort : UInt16) :
    ∀ word ∈ words family (text.format client) (text.format server) clientPort serverPort,
      ' ' ∉ word := by
  have hformat : ∀ ip, ' ' ∉ text.format ip := fun ip h =>
    absurd (text.format_printable ip ' ' h).1 (by decide)
  have hport : ∀ port, ' ' ∉ portText port := fun port h =>
    absurd (AddrText.isAsciiDigit_of_mem_toDigits h) (by decide)
  simp only [words, List.forall_mem_cons]
  exact ⟨hfamily, hformat client, hformat server, hport clientPort, hport serverPort, by simp⟩

def v1Words (family : String) (client server : SocketAddr) : Text :=
  [' '].intercalate
    (words family (text.format client.ip) (text.format server.ip) client.port server.port)

variable {family : String} (hfamily : family = "TCP4" ∨ family = "TCP6")
include hfamily

theorem v1Endpoints_v1Words (client server : SocketAddr) :
    v1Endpoints text (v1Words text family client server) =
      if family.toList = "TCP4".toList then
        parseEndpoints (fun addr => (text.parseV4 addr).map .v4) "v1 bad ipv4"
          (text.format client.ip) (text.format server.ip) (portText client.port)
          (portText server.port)
      else
        parseEndpoints (fun addr => (text.parseV6 addr).map .v6) "v1 bad ipv6"
          (text.format client.ip) (text.format server.ip) (portText client.port)
          (portText server.port) := by
  have hspace : ' ' ∉ family.toList := by
    rcases hfamily with rfl | rfl
    · decide
    · decide
  have hknown : ¬ "UNKNOWN".toList <+: v1Words text family client server := by
    rcases hfamily with rfl | rfl
    · simp [v1Words, words, List.intercalate_cons_cons]
    · simp [v1Words, words, List.intercalate_cons_cons]
  have hsplit : (v1Words text family client server).splitOn ' ' =
      words family (text.format client.ip) (text.format server.ip) client.port server.port :=
    List.splitOn_intercalate ' ' (space_notMem_words text hspace _ _ _ _) (List.cons_ne_nil _ _)
  rw [v1Endpoints, if_neg hknown, hsplit]
  rcases hfamily with rfl | rfl
  · rfl
  · rfl

theorem readOptionalHeader_v1Words (hshort : ∀ ip, (text.format ip).length ≤ 39)
    (client server : SocketAddr) (rest : Bytes)
    (h : v1Endpoints text (v1Words text family client server) = .ok endpoints) :
    readOptionalHeader text
        (("PROXY ".toList ++ v1Words text family client server ++ "\r\n".toList).flatMap
          String.utf8EncodeChar ++ rest) = .ok (⟨endpoints, []⟩, rest) := by
  refine readOptionalHeader_line text (plain_intercalate ?_) ?_ h rest
  · have hplain : Plain family.toList := by
      rcases hfamily with rfl | rfl
      · exact plain_of_all (by decide)
      · exact plain_of_all (by decide)
    simp only [words, List.forall_mem_cons]
    exact ⟨hplain, plain_format text _, plain_format text _, plain_portText _, plain_portText _,
      by simp⟩
  · have hfour : family.toList.length = 4 := by
      rcases hfamily with rfl | rfl
      · rfl
      · rfl
    have hclient := hshort client.ip
    have hserver := hshort server.ip
    have hclientPort := length_portText_le client.port
    have hserverPort := length_portText_le server.port
    simp only [words, List.intercalate_cons_cons, List.intercalate_singleton, List.length_append,
      List.length_singleton]
    omega

omit hfamily

theorem readOptionalHeader_encodeV1 (hshort : ∀ ip, (text.format ip).length ≤ 39)
    (client server : SocketAddr) (rest : Bytes) :
    readOptionalHeader text (encodeV1 text client server ++ rest) =
      .ok (⟨if sameFamily client.ip server.ip then some ⟨client, server⟩ else none, []⟩, rest) := by
  obtain ⟨clientIp, clientPort⟩ := client
  obtain ⟨serverIp, serverPort⟩ := server
  have hunknown : readOptionalHeader text
      (("PROXY ".toList ++ "UNKNOWN".toList ++ "\r\n".toList).flatMap String.utf8EncodeChar ++
        rest) = .ok (⟨none, []⟩, rest) := by
    refine readOptionalHeader_line text ?_ (by decide) (if_pos (List.prefix_refl _)) rest
    exact plain_of_all (by decide)
  cases clientIp with
  | v4 c =>
      cases serverIp with
      | v4 s =>
          have hencode : encodeV1 text ⟨.v4 c, clientPort⟩ ⟨.v4 s, serverPort⟩ =
              ("PROXY ".toList ++ v1Words text "TCP4" ⟨.v4 c, clientPort⟩ ⟨.v4 s, serverPort⟩ ++
                "\r\n".toList).flatMap String.utf8EncodeChar := by
            simp [encodeV1, v1Words, words, AddrText.format, List.intercalate_cons_cons]
          rw [hencode]
          refine readOptionalHeader_v1Words text (.inl rfl) hshort _ _ rest ?_
          rw [v1Endpoints_v1Words text (.inl rfl), if_pos rfl]
          exact parseEndpoints_ok _ (congrArg _ (text.parse_formatV4 c))
            (congrArg _ (text.parse_formatV4 s)) clientPort serverPort
      | v6 s => exact hunknown
  | v6 c =>
      cases serverIp with
      | v4 s => exact hunknown
      | v6 s =>
          have hencode : encodeV1 text ⟨.v6 c, clientPort⟩ ⟨.v6 s, serverPort⟩ =
              ("PROXY ".toList ++ v1Words text "TCP6" ⟨.v6 c, clientPort⟩ ⟨.v6 s, serverPort⟩ ++
                "\r\n".toList).flatMap String.utf8EncodeChar := by
            simp [encodeV1, v1Words, words, AddrText.format, List.intercalate_cons_cons]
          rw [hencode]
          refine readOptionalHeader_v1Words text (.inr rfl) hshort _ _ rest ?_
          rw [v1Endpoints_v1Words text (.inr rfl), if_neg (by decide)]
          exact parseEndpoints_ok _ (congrArg _ (text.parse_formatV6 c))
            (congrArg _ (text.parse_formatV6 s)) clientPort serverPort

end

/-! ## Datagrams and streams -/

variable {stream rest : Bytes} {endpoints : ProxyEndpoints}

theorem readExact_ok_iff {count : Nat} {block : Bytes} :
    readExact count stream = .ok (block, rest) ↔
      count ≤ stream.length ∧ block = stream.take count ∧ rest = stream.drop count := by
  unfold readExact
  split
  next h => simp [h, eq_comm]
  next h => simp [h]

/-- A whole header of version 2 at the start of the bytes, whose block names the endpoints. -/
structure Carries (bytes : Bytes) (endpoints : ProxyEndpoints) : Prop where
  header : 16 ≤ bytes.length
  signature : bytes.take 12 = v2Sig
  version : (bytes.getD 12 0).toNat / 16 = 2
  bounded : beNat ((bytes.drop 14).take 2) ≤ v2MaxAddr
  whole : 16 + beNat ((bytes.drop 14).take 2) ≤ bytes.length
  block : v2Endpoints (bytes.getD 12 0) (bytes.getD 13 0)
    ((bytes.drop 16).take (beNat ((bytes.drop 14).take 2))) = .ok (some endpoints)

theorem v2Endpoints_ok_some_iff {verCmd famProto : UInt8} {payload : Bytes} :
    v2Endpoints verCmd famProto payload = .ok (some endpoints) ↔
      verCmd.toNat % 16 ≠ 0 ∧
        ((famProto = 0x11 ∧ 12 ≤ payload.length ∧ decodeBlock 4 ipOfV4 payload = endpoints) ∨
          (famProto = 0x21 ∧ 36 ≤ payload.length ∧ decodeBlock 16 ipOfV6 payload = endpoints)) := by
  unfold v2Endpoints
  by_cases hlocal : verCmd.toNat % 16 = 0
  · simp [hlocal]
  · rw [if_neg hlocal]
    by_cases h4 : famProto = 0x11
    · subst h4
      by_cases hshort : payload.length < 12
      · simp [hshort, hlocal]
      · simp [hlocal, hshort, Nat.not_lt.1 hshort]
    · by_cases h6 : famProto = 0x21
      · subst h6
        by_cases hshort : payload.length < 36
        · simp [hshort, hlocal]
        · simp [hlocal, hshort, Nat.not_lt.1 hshort]
      · simp [h4, h6]

theorem decodeV2FromDatagram_eq_some_iff {datagram : Bytes} :
    decodeV2FromDatagram datagram = some endpoints ↔ Carries datagram endpoints := by
  unfold decodeV2FromDatagram
  dsimp only
  constructor
  · intro h
    split at h
    · cases h
    next hstart =>
      split at h
      · cases h
      next hbody =>
        push Not at hstart hbody
        refine ⟨hstart.1, hstart.2, hbody.1, hbody.2.1, hbody.2.2.1,
          v2Endpoints_ok_some_iff.2 ⟨hbody.2.2.2, ?_⟩⟩
        split at h
        next h4 => exact .inl ⟨h4.1, h4.2, Option.some.inj h⟩
        next =>
          split at h
          next h6 => exact .inr ⟨h6.1, h6.2, Option.some.inj h⟩
          next => cases h
  · intro h
    obtain ⟨hlocal, hblock⟩ := v2Endpoints_ok_some_iff.1 h.block
    have hstart : ¬ (datagram.length < 16 ∨ datagram.take 12 ≠ v2Sig) := by
      push Not
      exact ⟨h.header, h.signature⟩
    have hbody : ¬ ((datagram.getD 12 0).toNat / 16 ≠ 2 ∨
        v2MaxAddr < beNat ((datagram.drop 14).take 2) ∨
        datagram.length < 16 + beNat ((datagram.drop 14).take 2) ∨
        (datagram.getD 12 0).toNat % 16 = 0) := by
      push Not
      exact ⟨h.version, h.bounded, h.whole, hlocal⟩
    rw [if_neg hstart, if_neg hbody]
    rcases hblock with ⟨h4, hlen, rfl⟩ | ⟨h6, hlen, rfl⟩
    · rw [if_pos ⟨h4, hlen⟩]
    · rw [if_neg (fun h4 => absurd (h6.symm.trans h4.1) (by decide)), if_pos ⟨h6, hlen⟩]

theorem header_fields (stream : Bytes) :
    ((stream.drop 11).take 4).getD 0 0 = stream.getD 11 0 ∧
      ((stream.drop 11).take 4).getD 1 0 = stream.getD 12 0 ∧
      ((stream.drop 11).take 4).drop 2 = (stream.drop 13).take 2 := by
  refine ⟨?_, ?_, ?_⟩
  · simp [List.getD_eq_getElem?_getD, List.getElem?_drop]
  · simp [List.getD_eq_getElem?_getD, List.getElem?_drop]
  · rw [List.drop_take, List.drop_drop]

theorem decodeV2Body_ok_some_iff {verCmd famProto : UInt8} {addrLen : Nat} {leftover : Bytes} :
    decodeV2Body verCmd famProto addrLen stream = .ok (⟨some endpoints, leftover⟩, rest) ↔
      verCmd.toNat / 16 = 2 ∧ addrLen ≤ v2MaxAddr ∧ addrLen ≤ stream.length ∧
        v2Endpoints verCmd famProto (stream.take addrLen) = .ok (some endpoints) ∧
        leftover = [] ∧ rest = stream.drop addrLen := by
  unfold decodeV2Body
  by_cases hversion : verCmd.toNat / 16 = 2
  · rw [if_neg (not_not.2 hversion)]
    by_cases hbounded : v2MaxAddr < addrLen
    · rw [if_pos hbounded]
      simp [Nat.not_le.2 hbounded]
    · rw [if_neg hbounded, bind_ok_iff]
      constructor
      · rintro ⟨⟨payload, after⟩, hread, h⟩
        obtain ⟨hlength, rfl, rfl⟩ := readExact_ok_iff.1 hread
        obtain ⟨found, hfound, h⟩ := bind_ok_iff.1 h
        simp only [Except.ok.injEq, Prod.mk.injEq, ProxyDecode.mk.injEq] at h
        obtain ⟨⟨rfl, rfl⟩, rfl⟩ := h
        exact ⟨hversion, Nat.not_lt.1 hbounded, hlength, hfound, rfl, rfl⟩
      · rintro ⟨-, -, hlength, hfound, rfl, rfl⟩
        exact ⟨_, readExact_ok_iff.2 ⟨hlength, rfl, rfl⟩, bind_ok_iff.2 ⟨_, hfound, rfl⟩⟩
  · rw [if_pos hversion]
    simp [hversion]

theorem decodeV2_ok_some_iff {leftover : Bytes} :
    decodeV2 0x0D stream = .ok (⟨some endpoints, leftover⟩, rest) ↔
      Carries (0x0D :: stream) endpoints ∧ leftover = [] ∧
        rest = stream.drop (15 + beNat ((stream.drop 13).take 2)) := by
  obtain ⟨hver, hfam, hlen⟩ := header_fields stream
  constructor
  · intro h
    obtain ⟨⟨restSig, afterSig⟩, hsig, h⟩ := bind_ok_iff.1 h
    obtain ⟨hsigLength, rfl, rfl⟩ := readExact_ok_iff.1 hsig
    dsimp only at h
    split at h
    · cases h
    next hmatch =>
      obtain ⟨⟨hdr, afterHdr⟩, hhdr, h⟩ := bind_ok_iff.1 h
      obtain ⟨hhdrLength, rfl, rfl⟩ := readExact_ok_iff.1 hhdr
      dsimp only at h
      rw [hver, hfam, hlen, decodeV2Body_ok_some_iff, List.drop_drop, List.drop_drop] at h
      obtain ⟨hversion, hbounded, hwhole, hblock, hleftover, hrest⟩ := h
      rw [List.length_drop] at hhdrLength hwhole
      refine ⟨⟨?_, not_not.1 hmatch, hversion, hbounded, ?_, hblock⟩, hleftover, hrest⟩
      · rw [List.length_cons]
        omega
      · change 16 + beNat ((stream.drop 13).take 2) ≤ stream.length + 1
        omega
  · rintro ⟨⟨hheader, hsignature, hversion, hbounded, hwhole, hblock⟩, rfl, rfl⟩
    rw [List.length_cons] at hheader hwhole
    have hsig : readExact 11 stream = .ok (stream.take 11, stream.drop 11) :=
      readExact_ok_iff.2 ⟨by omega, rfl, rfl⟩
    have hhdr : readExact 4 (stream.drop 11) =
        .ok ((stream.drop 11).take 4, (stream.drop 11).drop 4) :=
      readExact_ok_iff.2 ⟨by rw [List.length_drop]; omega, rfl, rfl⟩
    refine bind_ok_iff.2 ⟨_, hsig, ?_⟩
    dsimp only
    change (0x0D : UInt8) :: stream.take 11 = v2Sig at hsignature
    rw [if_neg (not_not.2 hsignature)]
    refine bind_ok_iff.2 ⟨_, hhdr, ?_⟩
    dsimp only
    rw [hver, hfam, hlen, decodeV2Body_ok_some_iff, List.drop_drop, List.drop_drop]
    refine ⟨hversion, hbounded, ?_, hblock, rfl, rfl⟩
    rw [List.length_drop]
    change 16 + beNat ((stream.drop 13).take 2) ≤ stream.length + 1 at hwhole
    omega

theorem carries_iff_stream (text : AddrText) (bytes : Bytes) (endpoints : ProxyEndpoints) :
    Carries bytes endpoints ↔
      bytes.head? = some 0x0D ∧
        ∃ leftover rest, readOptionalHeader text bytes = .ok (⟨some endpoints, leftover⟩, rest) := by
  cases bytes with
  | nil => exact ⟨fun h => absurd h.header (by simp), fun h => absurd h.1 (by simp)⟩
  | cons first stream =>
      constructor
      · intro h
        have hfirst : first = 0x0D := (List.cons.inj h.signature).1
        subst hfirst
        exact ⟨rfl, [], _, decodeV2_ok_some_iff.2 ⟨h, rfl, rfl⟩⟩
      · rintro ⟨hfirst, leftover, rest, h⟩
        cases hfirst
        exact (decodeV2_ok_some_iff.1 h).1

/--
A datagram names endpoints exactly when the stream decoder, run on the same
bytes, takes the path of version 2 and returns these endpoints.
-/
theorem datagram_decoder_agrees (text : AddrText) (bytes : Bytes) (endpoints : ProxyEndpoints) :
    decodeV2FromDatagram bytes = some endpoints ↔
      bytes.head? = some 0x0D ∧
        ∃ leftover rest, readOptionalHeader text bytes = .ok (⟨some endpoints, leftover⟩, rest) := by
  rw [decodeV2FromDatagram_eq_some_iff]
  exact carries_iff_stream text bytes endpoints

/-! ## Headers as they are written -/

theorem head?_encodeV2 (client server : SocketAddr) (rest : Bytes) :
    (encodeV2 client server ++ rest).head? = some 0x0D := by
  obtain ⟨clientIp, clientPort⟩ := client
  obtain ⟨serverIp, serverPort⟩ := server
  cases clientIp <;> cases serverIp <;> rfl

theorem decodeV2FromDatagram_encodeV2 (client server : SocketAddr) (rest : Bytes) :
    decodeV2FromDatagram (encodeV2 client server ++ rest) =
      if sameFamily client.ip server.ip then some ⟨client, server⟩ else none := by
  have hstream := readOptionalHeader_encodeV2 AddrText.std client server rest
  have hdatagram : ∀ endpoints,
      decodeV2FromDatagram (encodeV2 client server ++ rest) = some endpoints ↔
        (if sameFamily client.ip server.ip then some ⟨client, server⟩ else none) =
          some endpoints := by
    intro endpoints
    rw [decodeV2FromDatagram_eq_some_iff, carries_iff_stream AddrText.std, hstream,
      head?_encodeV2]
    simp
  exact Option.ext hdatagram

/--
Whichever version is written, the reader takes the header and no more, and
learns both endpoints, or none where the families differ.
-/
theorem header_read_back (version : ProxyProto) (client server : SocketAddr) (rest : Bytes) :
    let endpoints := if sameFamily client.ip server.ip then some ⟨client, server⟩ else none
    readOptionalHeader AddrText.std (encodeHeader AddrText.std version client server ++ rest) =
        .ok (⟨endpoints, []⟩, rest) ∧
      decodeV2FromDatagram (encodeHeader AddrText.std .v2 client server ++ rest) = endpoints := by
  intro endpoints
  refine ⟨?_, decodeV2FromDatagram_encodeV2 client server rest⟩
  cases version with
  | v1 =>
      exact readOptionalHeader_encodeV1 AddrText.std AddrText.length_std_format_le client server rest
  | v2 => exact readOptionalHeader_encodeV2 AddrText.std client server rest

end Yggdrasil.Proxy
