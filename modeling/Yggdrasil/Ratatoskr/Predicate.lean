import Yggdrasil.Foundation.Framing
import Yggdrasil.Foundation.Postcard
import Yggdrasil.Ratatoskr.Handshake
import Yggdrasil.Ratatoskr.Validation

/-!
# Predicate sets on the wire

A predicate is the part of a rule that a terminal advertises to its upstream.
Its record once had no HTTP/3 flag, and neither layout carries a version: a body
is first read in the current layout and, if that fails, in the legacy one.  The
current layout cannot read a legacy body of predicates with proper names, since
every misaligned record would swallow the tags of a record behind it.
-/

namespace Yggdrasil.Ratatoskr

open Foundation Foundation.Postcard

structure Predicate where
  name : String
  listenPort : UInt16
  protocol : Protocol
  idleTimeoutMs : Option UInt64
  httpsHttp3 : Bool
  deriving DecidableEq, Repr

structure PredicateSet where
  predicates : List Predicate
  origin : PubKey
  deriving DecidableEq, Repr

structure LegacyPredicate where
  name : String
  listenPort : UInt16
  protocol : Protocol
  idleTimeoutMs : Option UInt64
  deriving DecidableEq, Repr

structure LegacyPredicateSet where
  predicates : List LegacyPredicate
  origin : PubKey
  deriving DecidableEq, Repr

def LegacyPredicate.intoCurrent (predicate : LegacyPredicate) : Predicate :=
  ⟨predicate.name, predicate.listenPort, predicate.protocol, predicate.idleTimeoutMs, false⟩

def LegacyPredicateSet.intoCurrent (set : LegacyPredicateSet) : PredicateSet :=
  ⟨set.predicates.map LegacyPredicate.intoCurrent, set.origin⟩

section

variable (lib : Library)

def Predicate.validate (predicate : Predicate) : Except ConfigError Unit :=
  require (¬(predicate.httpsHttp3 ∧ predicate.protocol ≠ .https))
    (.invalidPredicate
      (s!"predicate {lib.debug predicate.name}: https_http3 is only valid with protocol https " ++
        s!"(got {predicate.protocol.asStr})"))

def PredicateSet.validate (set : PredicateSet) : Except ConfigError Unit :=
  forEach (Predicate.validate lib) set.predicates

theorem LegacyPredicateSet.validate_intoCurrent (set : LegacyPredicateSet) :
    set.intoCurrent.validate lib = .ok () := by
  unfold PredicateSet.validate
  rw [forEach_ok_iff]
  intro predicate hpredicate
  obtain ⟨legacy, -, rfl⟩ := List.mem_map.1 hpredicate
  exact require_ok_iff.2 (by simp [LegacyPredicate.intoCurrent])

end

def encodeProtocol : Protocol → Bytes
  | .tcp => encodeU32 0
  | .udp => encodeU32 1
  | .https => encodeU32 2

def decodeProtocol : Reader Protocol := fun bytes => do
  let (variant, rest) ← decodeU32 bytes
  match variant with
  | 0 => some (.tcp, rest)
  | 1 => some (.udp, rest)
  | 2 => some (.https, rest)
  | _ => none

def encodePubKey : PubKey → Bytes
  | .x25519 key => encodeU32 0 ++ key.bytes

def decodePubKey : Reader PubKey := fun bytes => do
  let (variant, bytes) ← decodeU32 bytes
  match variant with
  | 0 => do
      let (block, rest) ← readBlock x25519PublicLen bytes
      if h : block.length = x25519PublicLen then some (.x25519 ⟨block, h⟩, rest) else none
  | _ => none

def encodeMatch (listenPort : UInt16) (protocol : Protocol) (idleTimeoutMs : Option UInt64) :
    Bytes :=
  encodeU16 listenPort ++ (encodeProtocol protocol ++ encodeOption encodeU64 idleTimeoutMs)

def encodePredicate (predicate : Predicate) : Bytes :=
  encodeStr predicate.name ++
    (encodeMatch predicate.listenPort predicate.protocol predicate.idleTimeoutMs ++
      encodeBool predicate.httpsHttp3)

def encodeLegacyPredicate (predicate : LegacyPredicate) : Bytes :=
  encodeStr predicate.name ++
    encodeMatch predicate.listenPort predicate.protocol predicate.idleTimeoutMs

def decodeLegacyPredicate : Reader LegacyPredicate := fun bytes => do
  let (name, bytes) ← decodeStr bytes
  let (listenPort, bytes) ← decodeU16 bytes
  let (protocol, bytes) ← decodeProtocol bytes
  let (idleTimeoutMs, rest) ← decodeOption decodeU64 bytes
  some (⟨name, listenPort, protocol, idleTimeoutMs⟩, rest)

def decodePredicate : Reader Predicate := fun bytes => do
  let (name, bytes) ← decodeStr bytes
  let (listenPort, bytes) ← decodeU16 bytes
  let (protocol, bytes) ← decodeProtocol bytes
  let (idleTimeoutMs, bytes) ← decodeOption decodeU64 bytes
  let (httpsHttp3, rest) ← decodeBool bytes
  some (⟨name, listenPort, protocol, idleTimeoutMs, httpsHttp3⟩, rest)

namespace PredicateSet

def encode (set : PredicateSet) : Bytes :=
  encodeSeq encodePredicate set.predicates ++ encodePubKey set.origin

def decode : Reader PredicateSet := fun bytes => do
  let (predicates, bytes) ← decodeSeq decodePredicate bytes
  let (origin, rest) ← decodePubKey bytes
  some (⟨predicates, origin⟩, rest)

end PredicateSet

namespace LegacyPredicateSet

def encode (set : LegacyPredicateSet) : Bytes :=
  encodeSeq encodeLegacyPredicate set.predicates ++ encodePubKey set.origin

def decode : Reader LegacyPredicateSet := fun bytes => do
  let (predicates, bytes) ← decodeSeq decodeLegacyPredicate bytes
  let (origin, rest) ← decodePubKey bytes
  some (⟨predicates, origin⟩, rest)

end LegacyPredicateSet

def PredicateSet.fromWireBytes (lib : Library) (bytes : Bytes) :
    Except ConfigError PredicateSet :=
  match fromBytes PredicateSet.decode bytes with
  | some set => do
      set.validate lib
      .ok set
  | none =>
      match fromBytes LegacyPredicateSet.decode bytes with
      | none => .error .postcard
      | some legacy => do
          legacy.intoCurrent.validate lib
          .ok legacy.intoCurrent

/-! ## Round trips -/

@[simp] theorem decodeProtocol_suffix (protocol : Protocol) (rest : Bytes) :
    decodeProtocol (encodeProtocol protocol ++ rest) = some (protocol, rest) := by
  cases protocol <;> simp [encodeProtocol, decodeProtocol]

@[simp] theorem decodePubKey_suffix (key : PubKey) (rest : Bytes) :
    decodePubKey (encodePubKey key ++ rest) = some (key, rest) := by
  obtain ⟨bytes, hlength⟩ := key
  have hblock : readBlock x25519PublicLen (bytes ++ rest) = some (bytes, rest) := by
    rw [← hlength]
    exact readBlock_suffix bytes rest
  simp [encodePubKey, decodePubKey, hblock, hlength]

@[simp] theorem decodeIdle_suffix (idle : Option UInt64) (rest : Bytes) :
    decodeOption decodeU64 (encodeOption encodeU64 idle ++ rest) = some (idle, rest) :=
  decodeOption_suffix decodeU64_suffix idle rest

theorem decodePredicate_suffix {predicate : Predicate}
    (h : (strBytes predicate.name).length < 2 ^ 64) (rest : Bytes) :
    decodePredicate (encodePredicate predicate ++ rest) = some (predicate, rest) := by
  simp [encodePredicate, encodeMatch, decodePredicate, decodeStr_suffix h, List.append_assoc]

theorem decodeLegacyPredicate_suffix {predicate : LegacyPredicate}
    (h : (strBytes predicate.name).length < 2 ^ 64) (rest : Bytes) :
    decodeLegacyPredicate (encodeLegacyPredicate predicate ++ rest) = some (predicate, rest) := by
  simp [encodeLegacyPredicate, encodeMatch, decodeLegacyPredicate, decodeStr_suffix h,
    List.append_assoc]

/-- Vectors and strings in memory have lengths that fit a `usize`. -/
def PredicateSet.Sized (set : PredicateSet) : Prop :=
  set.predicates.length < 2 ^ 64 ∧
    ∀ predicate ∈ set.predicates, (strBytes predicate.name).length < 2 ^ 64

def LegacyPredicateSet.Sized (set : LegacyPredicateSet) : Prop :=
  set.predicates.length < 2 ^ 64 ∧
    ∀ predicate ∈ set.predicates, (strBytes predicate.name).length < 2 ^ 64

theorem PredicateSet.decode_suffix {set : PredicateSet} (h : set.Sized) (rest : Bytes) :
    decode (set.encode ++ rest) = some (set, rest) := by
  have hseq := decodeSeq_suffix h.1
    (fun predicate hpredicate rest => decodePredicate_suffix (h.2 predicate hpredicate) rest)
    (encodePubKey set.origin ++ rest)
  simp [encode, decode, hseq, List.append_assoc]

variable {set : LegacyPredicateSet} {byte : UInt8} {name : String} {bytes rest : Bytes}

theorem LegacyPredicateSet.decode_suffix (h : set.Sized)
    (rest : Bytes) : decode (set.encode ++ rest) = some (set, rest) := by
  have hseq := decodeSeq_suffix h.1
    (fun predicate hpredicate rest => decodeLegacyPredicate_suffix (h.2 predicate hpredicate) rest)
    (encodePubKey set.origin ++ rest)
  simp [encode, decode, hseq, List.append_assoc]

def validName (name : String) : Bool := name ≠ "" && !hasBlank name

theorem strBytes_eq (text : String) :
    strBytes text = text.toList.flatMap String.utf8EncodeChar := by
  have h : text.toUTF8 = text.toList.utf8Encode := String.utf8Encode_toList.symm
  rw [strBytes, h]
  simp [List.utf8Encode]

theorem le_of_mem_utf8EncodeChar {c : Char}
    (hplain : (Text.isWhitespace c || Text.isControl c) = false)
    (hbyte : byte ∈ String.utf8EncodeChar c) : 33 ≤ byte.toNat := by
  have hvalue : 33 ≤ c.val.toNat := by
    simp only [Text.isWhitespace, Text.isControl, Char.toNat, Bool.or_eq_false_iff,
      Bool.and_eq_false_iff, decide_eq_false_iff_not, beq_eq_false_iff_ne] at hplain
    omega
  unfold String.utf8EncodeChar at hbyte
  dsimp only at hbyte
  split_ifs at hbyte
  all_goals
    simp only [List.mem_cons, List.not_mem_nil, or_false] at hbyte
  · rw [hbyte, UInt8.toNat_ofNat']
    omega
  · rcases hbyte with rfl | rfl <;> rw [UInt8.toNat_ofNat'] <;> omega
  · rcases hbyte with rfl | rfl | rfl <;> rw [UInt8.toNat_ofNat'] <;> omega
  · rcases hbyte with rfl | rfl | rfl | rfl <;> rw [UInt8.toNat_ofNat'] <;> omega

theorem le_of_mem_strBytes (h : validName name = true)
    (hbyte : byte ∈ strBytes name) : 33 ≤ byte.toNat := by
  rw [strBytes_eq] at hbyte
  obtain ⟨c, hc, hbyte⟩ := List.mem_flatMap.1 hbyte
  simp only [validName, hasBlank, Bool.and_eq_true, Bool.not_eq_true', List.any_eq_false] at h
  exact le_of_mem_utf8EncodeChar (by simpa using h.2 c hc) hbyte

theorem strBytes_ne_nil (h : validName name = true) : strBytes name ≠ [] := by
  intro hnil
  have hne : name ≠ "" := by
    simp only [validName, Bool.and_eq_true, decide_eq_true_eq] at h
    exact h.1
  apply hne
  rw [strBytes_eq, List.flatMap_eq_nil_iff] at hnil
  cases hlist : name.toList with
  | nil => exact String.toList_eq_nil_iff.1 hlist
  | cons c rest =>
      have hchar := hnil c (by simp [hlist])
      have hlength := congrArg List.length hchar
      rw [String.length_utf8EncodeChar] at hlength
      exact absurd hlength (Nat.ne_of_gt c.utf8Size_pos)

theorem lt_of_strBytes_singleton (h : strBytes name = [byte]) : byte.toNat < 128 := by
  rw [strBytes_eq] at h
  cases hlist : name.toList with
  | nil => simp [hlist] at h
  | cons c rest =>
      rw [hlist, List.flatMap_cons] at h
      have hsize : (String.utf8EncodeChar c).length ≤ 1 := by
        have hlength := congrArg List.length h
        simp only [List.length_append, List.length_singleton] at hlength
        omega
      unfold String.utf8EncodeChar at h hsize
      dsimp only at h hsize
      split_ifs at h hsize with hascii
      · simp only [List.cons_append, List.nil_append, List.cons.injEq] at h
        rw [← h.1, UInt8.toNat_ofNat']
        omega
      all_goals simp at hsize

theorem decodeU16_consumed {word : UInt16} (h : decodeU16 bytes = some (word, rest)) :
    ∃ init last, bytes = init ++ last :: rest ∧ isLow last = true := by
  simp only [decodeU16, Option.bind_eq_bind, Option.bind_eq_some_iff, Prod.exists, Option.some.injEq,
    Prod.mk.injEq] at h
  obtain ⟨value, tail, hvarint, -, rfl⟩ := h
  obtain ⟨init, last, hbytes, hlow, -⟩ := decodeVarint_consumed hvarint
  exact ⟨init, last, hbytes, by simpa [isLow] using hlow⟩

theorem decodeProtocol_consumed {protocol : Protocol}
    (h : decodeProtocol bytes = some (protocol, rest)) :
    ∃ init last, bytes = init ++ last :: rest ∧ isTiny last = true := by
  simp only [decodeProtocol, decodeU32, Option.bind_eq_bind, Option.bind_eq_some_iff, Prod.exists,
    Option.some.injEq, Prod.mk.injEq] at h
  obtain ⟨variant, tail, ⟨value, tail', hvarint, hvariant, htail⟩, hmatch⟩ := h
  obtain ⟨init, last, hbytes, -, hle⟩ := decodeVarint_consumed hvarint
  have hbound := lt_of_decodeVarint hvarint
  have hvalue : variant.toNat = value := by
    rw [← hvariant, UInt32.toNat_ofNat']
    exact Nat.mod_eq_of_lt (by omega)
  have hsmall : variant.toNat ≤ 2 ∧ tail = rest := by
    split at hmatch
    · simp only [Option.some.injEq, Prod.mk.injEq] at hmatch
      exact ⟨by decide, hmatch.2⟩
    · simp only [Option.some.injEq, Prod.mk.injEq] at hmatch
      exact ⟨by decide, hmatch.2⟩
    · simp only [Option.some.injEq, Prod.mk.injEq] at hmatch
      exact ⟨by decide, hmatch.2⟩
    · cases hmatch
  refine ⟨init, last, ?_, ?_⟩
  · rw [hbytes, htail, hsmall.2]
  · simp only [isTiny, decide_eq_true_eq]
    omega

theorem decodeBool_consumed {value : Bool} (h : decodeBool bytes = some (value, rest)) :
    ∃ byte, bytes = byte :: rest ∧ isTiny byte = true ∧ byte.toNat ≤ 1 := by
  cases bytes with
  | nil => simp [decodeBool, readByte] at h
  | cons byte tail =>
      simp only [decodeBool, readByte_cons, Option.bind_eq_bind, Option.bind_some] at h
      split at h
      · simp only [Option.some.injEq, Prod.mk.injEq] at h
        exact ⟨0, by rw [h.2], rfl, by decide⟩
      · simp only [Option.some.injEq, Prod.mk.injEq] at h
        exact ⟨1, by rw [h.2], rfl, by decide⟩
      · cases h

theorem decodeIdle_consumed {idle : Option UInt64}
    (h : decodeOption decodeU64 bytes = some (idle, rest)) :
    ∃ mark middle, bytes = mark :: (middle ++ rest) ∧ isTiny mark = true := by
  simp only [decodeOption, Option.bind_eq_bind, Option.bind_eq_some_iff, Prod.exists] at h
  obtain ⟨present, tail, hbool, hvalue⟩ := h
  obtain ⟨mark, hbytes, htiny, -⟩ := decodeBool_consumed hbool
  cases present with
  | false =>
      simp only [Bool.false_eq_true, if_false, Option.some.injEq, Prod.mk.injEq] at hvalue
      exact ⟨mark, [], by rw [hbytes, hvalue.2]; rfl, htiny⟩
  | true =>
      simp only [if_true, decodeU64, Option.bind_eq_bind, Option.bind_eq_some_iff, Prod.exists,
        Option.some.injEq, Prod.mk.injEq] at hvalue
      obtain ⟨word, tail', ⟨value, tail'', hvarint, -, rfl⟩, -, rfl⟩ := hvalue
      obtain ⟨init, last, htail, -⟩ := decodeVarint_consumed hvarint
      exact ⟨mark, init ++ [last], by rw [hbytes, htail]; simp, htiny⟩

theorem decodeStr_consumed {text : String} (h : decodeStr bytes = some (text, rest)) :
    ∃ head, bytes = head ++ rest ∧ 1 ≤ lowCount head ∧
      ∀ len tail, decodeLen bytes = some (len, tail) → len ≤ head.length := by
  simp only [decodeStr, decodeVec, Option.bind_eq_bind, Option.bind_eq_some_iff, Prod.exists,
    Option.some.injEq, Prod.mk.injEq] at h
  obtain ⟨block, tail, ⟨len, tail', hlen, hblock⟩, -, -, -, rfl⟩ := h
  obtain ⟨init, last, hbytes, hlow, -⟩ := decodeVarint_consumed hlen
  obtain ⟨htail, hlength⟩ := readBlock_consumed hblock
  refine ⟨init ++ last :: block, ?_, ?_, ?_⟩
  · rw [hbytes, htail]
    simp
  · rw [lowCount_append, lowCount_cons_of_isLow (by simpa [isLow] using hlow)]
    omega
  · intro len' tail'' hlen'
    rw [hlen] at hlen'
    simp only [Option.some.injEq, Prod.mk.injEq] at hlen'
    simp only [List.length_append, List.length_cons]
    omega

theorem exists_record {predicate : Predicate} (h : decodePredicate bytes = some (predicate, rest)) :
    ∃ record : Record, bytes = record.bytes ++ rest ∧
      ∀ len tail, decodeLen bytes = some (len, tail) → len ≤ record.head.length := by
  simp only [decodePredicate, Option.bind_eq_bind, Option.bind_eq_some_iff, Prod.exists, Option.some.injEq,
    Prod.mk.injEq] at h
  obtain ⟨name, bytes1, hname, port, bytes2, hport, protocol, bytes3, hprotocol,
    idle, bytes4, hidle, http3, bytes5, hhttp3, -, rfl⟩ := h
  obtain ⟨head, hbytes, hheadLow, hlong⟩ := decodeStr_consumed hname
  obtain ⟨init, last, hbytes1, hlow⟩ := decodeU16_consumed hport
  obtain ⟨init', tag, hbytes2, htag⟩ := decodeProtocol_consumed hprotocol
  obtain ⟨mark, middle, hbytes3, hmark⟩ := decodeIdle_consumed hidle
  obtain ⟨final, hbytes4, hfinal, -⟩ := decodeBool_consumed hhttp3
  refine ⟨⟨head ++ (init ++ last :: init'), tag, mark, middle, final, ?_, htag, hmark, hfinal⟩,
    ?_, ?_⟩
  · rw [lowCount_append, lowCount_append, lowCount_cons_of_isLow hlow]
    omega
  · rw [hbytes, hbytes1, hbytes2, hbytes3, hbytes4, Record.bytes]
    simp
  · intro len tail hlen
    have hle := hlong len tail hlen
    simp only [List.length_append]
    omega

theorem exists_records {count : Nat} {predicates : List Predicate}
    (h : readMany decodePredicate count bytes = some (predicates, rest)) :
    ∃ records : List Record, records.length = count ∧
      bytes = records.flatMap Record.bytes ++ rest := by
  induction count generalizing bytes predicates with
  | zero =>
      simp only [readMany, Option.some.injEq, Prod.mk.injEq] at h
      exact ⟨[], rfl, by simpa using h.2⟩
  | succ count ih =>
      simp only [readMany, Option.bind_eq_bind, Option.bind_eq_some_iff, Prod.exists, Option.some.injEq,
        Prod.mk.injEq] at h
      obtain ⟨predicate, tail, hfirst, others, tail', hothers, -, rfl⟩ := h
      obtain ⟨record, hbytes, -⟩ := exists_record hfirst
      obtain ⟨records, hcount, htail⟩ := ih hothers
      refine ⟨record :: records, by rw [List.length_cons, hcount], ?_⟩
      rw [hbytes, htail, List.flatMap_cons, List.append_assoc]

theorem length_of_decodePubKey {key : PubKey}
    (h : decodePubKey bytes = some (key, rest)) : 33 ≤ bytes.length := by
  simp only [decodePubKey, decodeU32, Option.bind_eq_bind, Option.bind_eq_some_iff, Prod.exists,
    Option.some.injEq, Prod.mk.injEq] at h
  obtain ⟨variant, tail, ⟨value, tail', hvarint, -, rfl⟩, hmatch⟩ := h
  obtain ⟨init, last, hbytes, -⟩ := decodeVarint_consumed hvarint
  split at hmatch
  · simp only [Option.bind_eq_some_iff, Prod.exists] at hmatch
    obtain ⟨block, tail'', hblock, -⟩ := hmatch
    obtain ⟨htail, hlength⟩ := readBlock_consumed hblock
    simp only [x25519PublicLen] at hlength
    rw [hbytes, htail]
    simp only [List.length_append, List.length_cons]
    omega
  · cases hmatch

/-! ## Legacy bodies as blocks -/

/-- The length in front of the next name belongs to the core before it. -/
def nextLen : List LegacyPredicate → Bytes
  | [] => []
  | predicate :: _ => encodeLen (strBytes predicate.name).length

theorem lowCount_encodeMatch_le (port : UInt16) (protocol : Protocol) (idle : Option UInt64) :
    lowCount (encodeMatch port protocol idle) ≤ 4 := by
  have hport : lowCount (encodeU16 port) ≤ 1 := lowCount_encodeVarint_le _ _
  have hprotocol : lowCount (encodeProtocol protocol) ≤ 1 := by
    cases protocol <;> exact lowCount_encodeVarint_le _ _
  have hidle : lowCount (encodeOption encodeU64 idle) ≤ 2 := by
    cases idle with
    | none => decide
    | some word =>
        rw [encodeOption, lowCount_cons_of_isLow rfl]
        exact Nat.succ_le_succ (lowCount_encodeVarint_le _ _)
  rw [encodeMatch, lowCount_append, lowCount_append]
  omega

theorem length_encodeMatch_le (port : UInt16) (protocol : Protocol) (idle : Option UInt64) :
    (encodeMatch port protocol idle).length ≤ 19 := by
  have hport : (encodeU16 port).length ≤ 3 := length_encodeVarint_le _ _
  have hprotocol : (encodeProtocol protocol).length ≤ 5 := by
    cases protocol <;> exact length_encodeVarint_le _ _
  have hidle : (encodeOption encodeU64 idle).length ≤ 11 := by
    cases idle with
    | none => decide
    | some word => exact Nat.succ_le_succ (length_encodeVarint_le _ _)
  rw [encodeMatch, List.length_append, List.length_append]
  omega

theorem lowCount_nextLen_le (predicates : List LegacyPredicate) :
    lowCount (nextLen predicates) ≤ 1 := by
  cases predicates with
  | nil => decide
  | cons predicate rest => exact lowCount_encodeVarint_le _ _

theorem length_nextLen_le (predicates : List LegacyPredicate) :
    (nextLen predicates).length ≤ 10 := by
  cases predicates with
  | nil => decide
  | cons predicate rest => exact length_encodeVarint_le _ _

theorem exists_blocks {predicates : List LegacyPredicate}
    (hnames : ∀ predicate ∈ predicates, validName predicate.name = true) :
    ∃ blocks : List Block, blocks.length = predicates.length ∧
      predicates.flatMap encodeLegacyPredicate = nextLen predicates ++ joinBlocks blocks := by
  induction predicates with
  | nil => exact ⟨[], rfl, rfl⟩
  | cons predicate rest ih =>
      rw [List.forall_mem_cons] at hnames
      obtain ⟨blocks, hcount, hrest⟩ := ih hnames.2
      have hsolid : ∀ byte ∈ strBytes predicate.name, isTiny byte = false := by
        intro byte hbyte
        have hle := le_of_mem_strBytes hnames.1 hbyte
        simp only [isTiny, decide_eq_false_iff_not]
        omega
      have hshort : lowCount (encodeMatch predicate.listenPort predicate.protocol
          predicate.idleTimeoutMs ++ nextLen rest) ≤ 5 := by
        have hmatch := lowCount_encodeMatch_le predicate.listenPort predicate.protocol
          predicate.idleTimeoutMs
        have hnext := lowCount_nextLen_le rest
        rw [lowCount_append]
        omega
      refine ⟨⟨_, _, hsolid, hshort⟩ :: blocks, by rw [List.length_cons, hcount]; rfl, ?_⟩
      rw [List.flatMap_cons, hrest, joinBlocks_cons, encodeLegacyPredicate, encodeStr, encodeVec,
        nextLen]
      simp only [List.append_assoc]

theorem decodePredicate_legacy {predicate : LegacyPredicate}
    (h : (strBytes predicate.name).length < 2 ^ 64) {tail : Bytes} {read : Predicate}
    (hread : decodePredicate (encodeLegacyPredicate predicate ++ tail) = some (read, rest)) :
    ∃ byte, tail = byte :: rest ∧ byte.toNat ≤ 1 := by
  simp only [decodePredicate, encodeLegacyPredicate, encodeMatch, List.append_assoc,
    decodeStr_suffix h, decodeU16_suffix, decodeProtocol_suffix, decodeIdle_suffix,
    Option.bind_eq_bind, Option.bind_some, Option.bind_eq_some_iff, Prod.exists, Option.some.injEq,
    Prod.mk.injEq] at hread
  obtain ⟨flag, tail', hflag, -, rfl⟩ := hread
  obtain ⟨byte, htail, -, hle⟩ := decodeBool_consumed hflag
  exact ⟨byte, htail, hle⟩

theorem singleton_of_flag (hname : validName name = true) {tail : Bytes}
    (h : encodeStr name ++ tail = byte :: rest) (hle : byte.toNat ≤ 1) :
    ∃ letter, strBytes name = [letter] ∧ rest = letter :: tail ∧ 33 ≤ letter.toNat ∧
      letter.toNat < 128 := by
  have hne := strBytes_ne_nil hname
  have hpos : 0 < (strBytes name).length := List.length_pos_of_ne_nil hne
  rw [encodeStr, encodeVec, encodeLen, encodeVarint] at h
  split_ifs at h with hshort
  · simp only [List.cons_append, List.nil_append, List.cons.injEq] at h
    have hlength : (strBytes name).length = 1 := by
      rw [← h.1, UInt8.toNat_ofNat'] at hle
      omega
    obtain ⟨letter, hletter⟩ := List.length_eq_one_iff.1 hlength
    refine ⟨letter, hletter, ?_, ?_, lt_of_strBytes_singleton hletter⟩
    · rw [← h.2, hletter]
      rfl
    · exact le_of_mem_strBytes hname (by simp [hletter])
  · simp only [List.cons_append, List.cons.injEq] at h
    rw [← h.1, UInt8.toNat_ofNat'] at hle
    omega

theorem length_encodePubKey (key : PubKey) : (encodePubKey key).length = 33 := by
  obtain ⟨bytes, hlength⟩ := key
  rw [encodePubKey, List.length_append, hlength]
  rfl

theorem split_at_tail {α : Type} {front back front' back' : List α}
    (h : front ++ back = front' ++ back') (hlength : back.length ≤ back'.length) :
    ∃ middle, front = front' ++ middle := by
  rcases List.append_eq_append_iff.1 h with ⟨middle, hfront', hback⟩ | ⟨middle, hfront, -⟩
  · have hmiddle : middle = [] := by
      rw [← List.length_eq_zero_iff]
      have := congrArg List.length hback
      simp only [List.length_append] at this
      omega
    exact ⟨[], by rw [hfront', hmiddle]; simp⟩
  · exact ⟨middle, hfront⟩

theorem misaligned_stuck {second : LegacyPredicate} {others : List LegacyPredicate}
    (hnames : ∀ predicate ∈ others, validName predicate.name = true) {letter : UInt8}
    (hlow : 33 ≤ letter.toNat) (hhigh : letter.toNat < 128) {origin : Bytes}
    (horigin : origin.length = 33) {read : List Predicate}
    (hread : readMany decodePredicate (others.length + 1)
      (letter :: (encodeMatch second.listenPort second.protocol second.idleTimeoutMs ++
        (others.flatMap encodeLegacyPredicate ++ origin))) = some (read, rest)) :
    rest.length < 33 := by
  by_contra hlong
  obtain ⟨blocks, hcount, hblocks⟩ := exists_blocks hnames
  simp only [readMany, Option.bind_eq_bind, Option.bind_eq_some_iff, Prod.exists, Option.some.injEq,
    Prod.mk.injEq] at hread
  obtain ⟨predicate, tail, hfirst, later, tail', hlater, -, rfl⟩ := hread
  obtain ⟨record, hbytes, hhead⟩ := exists_record hfirst
  obtain ⟨records, hrecords, htail⟩ := exists_records hlater
  have hlen : letter.toNat ≤ record.head.length :=
    hhead _ _ (by rw [decodeLen, decodeVarint, if_pos hhigh, if_neg (by omega)])
  have hsame : (letter :: (encodeMatch second.listenPort second.protocol second.idleTimeoutMs ++
      nextLen others) ++ joinBlocks blocks) ++ origin =
      (record.bytes ++ records.flatMap Record.bytes) ++ tail' := by
    rw [htail, hblocks] at hbytes
    simpa using hbytes
  obtain ⟨middle, hmiddle⟩ := split_at_tail hsame (by omega)
  rw [List.append_assoc] at hmiddle
  have hfew := records_lt_of_long_head record records (by
    have hmatch := length_encodeMatch_le second.listenPort second.protocol second.idleTimeoutMs
    have hnext := length_nextLen_le others
    simp only [List.length_cons, List.length_append]
    omega) hmiddle
  omega

theorem LegacyPredicateSet.decode_current_eq_none (hsized : set.Sized)
    (hnames : ∀ predicate ∈ set.predicates, validName predicate.name = true)
    (hne : set.predicates ≠ []) : fromBytes PredicateSet.decode set.encode = none := by
  obtain ⟨predicates, origin⟩ := set
  have horigin := length_encodePubKey origin
  rw [fromBytes, Option.map_eq_none_iff, Option.eq_none_iff_forall_ne_some]
  rintro ⟨read, rest⟩ hread
  simp only [PredicateSet.decode, LegacyPredicateSet.encode, encodeSeq, decodeSeq,
    List.append_assoc, decodeLen_suffix hsized.1, Option.bind_eq_bind, Option.bind_some,
    Option.bind_eq_some_iff, Prod.exists] at hread
  obtain ⟨items, tail, hitems, key, tail', hkey, -⟩ := hread
  have htail := length_of_decodePubKey hkey
  cases predicates with
  | nil => exact hne rfl
  | cons first others =>
      simp only [List.length_cons, readMany, List.flatMap_cons, List.append_assoc,
        Option.bind_eq_bind, Option.bind_eq_some_iff, Prod.exists, Option.some.injEq, Prod.mk.injEq] at hitems
      obtain ⟨head, after, hhead, later, tail'', hlater, -, rfl⟩ := hitems
      obtain ⟨byte, hafter, hle⟩ :=
        decodePredicate_legacy (hsized.2 first List.mem_cons_self) hhead
      rw [List.forall_mem_cons] at hnames
      cases others with
      | nil =>
          -- the flag was the origin's tag, so the origin lacks a byte
          simp only [List.length_nil, readMany, Option.some.injEq, Prod.mk.injEq] at hlater
          have hshort := congrArg List.length hafter
          simp only [List.flatMap_nil, List.nil_append, List.length_cons] at hshort
          rw [← hlater.2] at htail
          omega
      | cons second others =>
          rw [List.forall_mem_cons] at hnames
          rw [List.flatMap_cons, encodeLegacyPredicate, List.append_assoc, List.append_assoc]
            at hafter
          obtain ⟨letter, -, hrest, hlow, hhigh⟩ := singleton_of_flag hnames.2.1 hafter hle
          rw [hrest, List.length_cons] at hlater
          have hstuck := misaligned_stuck hnames.2.2 hlow hhigh horigin hlater
          omega

/-! ## Unambiguous decoding -/

theorem PredicateSet.fromWireBytes_encode (lib : Library) {set : PredicateSet} (hsized : set.Sized)
    (hvalid : set.validate lib = .ok ()) : fromWireBytes lib set.encode = .ok set := by
  have hdecode : fromBytes decode set.encode = some set := by
    have hsuffix := decode_suffix hsized []
    rw [List.append_nil] at hsuffix
    rw [fromBytes, hsuffix]
    rfl
  rw [fromWireBytes, hdecode]
  exact bind_ok_iff.2 ⟨(), hvalid, rfl⟩

theorem LegacyPredicateSet.fromWireBytes_encode (lib : Library) (hsized : set.Sized)
    (hnames : ∀ predicate ∈ set.predicates, validName predicate.name = true) :
    PredicateSet.fromWireBytes lib set.encode = .ok set.intoCurrent := by
  by_cases hne : set.predicates = []
  · -- without predicates the two layouts agree
    have hsame : set.encode = set.intoCurrent.encode := by
      rw [encode, PredicateSet.encode, intoCurrent, hne]
      rfl
    rw [hsame]
    refine PredicateSet.fromWireBytes_encode lib ?_ (set.validate_intoCurrent lib)
    rw [PredicateSet.Sized, intoCurrent, hne]
    simp
  · have hlegacy : fromBytes decode set.encode = some set := by
      have hsuffix := decode_suffix hsized []
      rw [List.append_nil] at hsuffix
      rw [fromBytes, hsuffix]
      rfl
    rw [PredicateSet.fromWireBytes, decode_current_eq_none hsized hnames hne, hlegacy]
    exact bind_ok_iff.2 ⟨(), set.validate_intoCurrent lib, rfl⟩

/--
A valid predicate set is read back from its own encoding, and a legacy set with
proper names is read from its legacy encoding as its conversion, never as
another set the current layout would accept.
-/
theorem wire_decoding_unambiguous (lib : Library) :
    (∀ set : PredicateSet, set.Sized → set.validate lib = .ok () →
      PredicateSet.fromWireBytes lib set.encode = .ok set) ∧
    (∀ legacy : LegacyPredicateSet, legacy.Sized →
      (∀ predicate ∈ legacy.predicates, validName predicate.name = true) →
      PredicateSet.fromWireBytes lib legacy.encode = .ok legacy.intoCurrent) :=
  ⟨fun _ hsized hvalid => PredicateSet.fromWireBytes_encode lib hsized hvalid,
    fun _ hsized hnames => LegacyPredicateSet.fromWireBytes_encode lib hsized hnames⟩

theorem wire_decoding_unambiguous_ssh :
    PredicateSet.fromWireBytes .plain
        (PredicateSet.mk [⟨"ssh", 22, .tcp, none, false⟩] (.x25519 ⟨.replicate 32 7, rfl⟩)).encode =
      .ok ⟨[⟨"ssh", 22, .tcp, none, false⟩], .x25519 ⟨.replicate 32 7, rfl⟩⟩ ∧
    PredicateSet.fromWireBytes .plain
        (LegacyPredicateSet.mk [⟨"ssh", 22, .tcp, none⟩, ⟨"dns", 53, .udp, some 100⟩]
          (.x25519 ⟨.replicate 32 7, rfl⟩)).encode =
      .ok ⟨[⟨"ssh", 22, .tcp, none, false⟩, ⟨"dns", 53, .udp, some 100, false⟩],
        .x25519 ⟨.replicate 32 7, rfl⟩⟩ :=
  ⟨(wire_decoding_unambiguous .plain).1 _ ⟨by decide, by decide⟩ rfl,
    (wire_decoding_unambiguous .plain).2 _ ⟨by decide, by decide⟩ (by decide)⟩

end Yggdrasil.Ratatoskr
