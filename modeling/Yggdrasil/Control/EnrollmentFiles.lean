import Mathlib.Data.List.AList
import Yggdrasil.Foundation.AddrText
import Yggdrasil.Foundation.Check
import Yggdrasil.Ratatoskr.Handshake

/-!
# Enrolment by files

The dialling operator exports a request, the accepting one answers it with a
grant and pins the requester's key, and the dialling one applies the grant.  The
files pass through other hands on the way.  Whichever request was answered, once
both commands succeed on one grant each side has pinned the other's own key.

A document is a table of tables; the TOML text it is written as is left out.
-/

namespace Yggdrasil.Ratatoskr

open Foundation

inductive PubKeyError where
  | untagged (text : Text)
  | hexDecode
  | wrongLength (length : Nat)
  | unknownAlgorithm (algo : Text)

/-- Digits of either case are accepted, in pairs. -/
def hexDecode (text : Text) : Option Bytes :=
  if text.length % 2 = 0 ∧ text.all Text.isAsciiHexdigit then
    some (AddrText.hexDecode (Text.toAsciiLowercase text))
  else none

namespace PubKey

def format : PubKey → Text
  | x25519 key => "x25519".toList ++ ':' :: Text.hexEncode key.bytes

def fromStr (text : Text) : Except PubKeyError PubKey :=
  match Text.splitOnce ':' (Text.trim text) with
  | none => .error (.untagged (Text.trim text))
  | some (algo, hex) =>
      if algo = "x25519".toList then
        match hexDecode hex with
        | none => .error .hexDecode
        | some raw =>
            if h : raw.length = x25519PublicLen then .ok (.x25519 ⟨raw, h⟩)
            else .error (.wrongLength raw.length)
      else .error (.unknownAlgorithm algo)

end PubKey

theorem hexDecode_hexEncode (bytes : Bytes) : hexDecode (Text.hexEncode bytes) = some bytes := by
  have hlower : Text.toAsciiLowercase (Text.hexEncode bytes) = Text.hexEncode bytes := by
    have hdigit : ∀ n, n < 16 → Text.asciiLower (Text.hexDigit n) = Text.hexDigit n := by decide
    refine (List.map_congr_left fun c hc => ?_).trans (List.map_id _)
    obtain ⟨byte, -, hc⟩ := List.mem_flatMap.1 hc
    have hbyte : byte.toNat < 256 := byte.toNat_lt
    rcases List.mem_pair.1 hc with rfl | rfl
    · exact hdigit _ (by omega)
    · exact hdigit _ (by omega)
  have hdigits : (Text.hexEncode bytes).all Text.isAsciiHexdigit = true :=
    List.all_eq_true.2 fun c hc => AddrText.isAsciiHexdigit_of_mem_hexEncode hc
  have heven : (Text.hexEncode bytes).length % 2 = 0 := by
    simp [Text.hexEncode, List.length_flatMap]
  rw [hexDecode, if_pos ⟨heven, hdigits⟩, hlower, AddrText.hexDecode_hexEncode]

theorem PubKey.fromStr_format (key : PubKey) : fromStr key.format = .ok key := by
  obtain ⟨key⟩ := key
  have hplain : ∀ c ∈ (x25519 key).format, Text.isWhitespace c = false := by
    intro c hc
    rw [format, List.mem_append, List.mem_cons] at hc
    rcases hc with hc | rfl | hc
    · have htag : ("x25519".toList.all fun c => !Text.isWhitespace c) = true := rfl
      simpa using List.all_eq_true.1 htag c hc
    · rfl
    · have hdigit := AddrText.isAsciiHexdigit_of_mem_hexEncode hc
      simp only [Text.isAsciiHexdigit, Char.le_def, UInt32.le_iff_toNat_le, Bool.or_eq_true,
        Bool.and_eq_true, decide_eq_true_eq] at hdigit
      change (48 ≤ c.toNat ∧ c.toNat ≤ 57 ∨ 97 ≤ c.toNat ∧ c.toNat ≤ 102) ∨
        65 ≤ c.toNat ∧ c.toNat ≤ 70 at hdigit
      simp [Text.isWhitespace]
      omega
  have htrim : Text.trim (x25519 key).format = (x25519 key).format := by
    have hfirst : (x25519 key).format.dropWhile Text.isWhitespace = (x25519 key).format :=
      List.dropWhile_eq_self_iff.2 fun hpos => by
        rw [hplain _ (List.getElem_mem hpos)]
        simp
    rw [Text.trim, hfirst, List.rdropWhile_eq_self_iff]
    intro hne
    simp [hplain _ (List.getLast_mem hne)]
  rw [fromStr, htrim, format, Text.splitOnce_append (by decide)]
  simp [hexDecode_hexEncode, key.length_eq]

end Yggdrasil.Ratatoskr

namespace Yggdrasil.Control

open Foundation Ratatoskr

def formatVersion : Nat := 1

/-- The body of `request.txt`; in the file the key is a text. -/
structure RequestBody (κ : Type) where
  version : Nat
  pubkey : κ
  fingerprint : Text
  issuedAt : Int
  note : Text

structure GrantBody (κ : Type) where
  version : Nat
  acceptPubkey : κ
  acceptFingerprint : Text
  acceptEndpoint : Text
  dialPubkey : κ
  dialFingerprint : Text
  issuedAt : Int
  note : Text

inductive TomlValue where
  | string (text : Text)
  | other

inductive TomlEntry where
  | table (values : AList fun _ : String => TomlValue)
  | value (value : TomlValue)

abbrev ConfigDoc := AList fun _ : String => TomlEntry

inductive EnrollError where
  | noIdentity
  | unreadable (path : String)
  | pubkey (error : PubKeyError)
  | version (found : Nat)
  | fingerprint (found expected : Text)
  | endpoint (text : Text)
  | otherKey (found expected : PubKey)
  | notTable (name : String)
  | unwritable (path : String)

def parseKey (text : Text) : Except EnrollError PubKey :=
  (PubKey.fromStr text).mapError .pubkey

variable (hash : Bytes → Bytes)

namespace RequestBody

def new (pubkey : PubKey) (issuedAt : Int) (note : Text) : RequestBody PubKey :=
  ⟨formatVersion, pubkey, pubkey.fingerprint hash, issuedAt, note⟩

def toToml (request : RequestBody PubKey) : RequestBody Text :=
  { request with pubkey := request.pubkey.format }

def fromToml (doc : RequestBody Text) : Except EnrollError (RequestBody PubKey) := do
  let pubkey ← parseKey doc.pubkey
  require (doc.version = formatVersion) (.version doc.version)
  require (pubkey.fingerprint hash = doc.fingerprint)
    (.fingerprint doc.fingerprint (pubkey.fingerprint hash))
  pure { doc with pubkey }

end RequestBody

namespace GrantBody

def new (request : RequestBody PubKey) (acceptPubkey : PubKey) (acceptEndpoint : Text)
    (issuedAt : Int) (note : Text) : GrantBody PubKey :=
  ⟨formatVersion, acceptPubkey, acceptPubkey.fingerprint hash, acceptEndpoint, request.pubkey,
    request.pubkey.fingerprint hash, issuedAt, note⟩

def toToml (grant : GrantBody PubKey) : GrantBody Text :=
  { grant with
    acceptPubkey := grant.acceptPubkey.format
    dialPubkey := grant.dialPubkey.format }

def fromToml (doc : GrantBody Text) : Except EnrollError (GrantBody PubKey) := do
  let acceptPubkey ← parseKey doc.acceptPubkey
  let dialPubkey ← parseKey doc.dialPubkey
  require (doc.version = formatVersion) (.version doc.version)
  require (acceptPubkey.fingerprint hash = doc.acceptFingerprint)
    (.fingerprint doc.acceptFingerprint (acceptPubkey.fingerprint hash))
  require (dialPubkey.fingerprint hash = doc.dialFingerprint)
    (.fingerprint doc.dialFingerprint (dialPubkey.fingerprint hash))
  require (Text.trim doc.acceptEndpoint ≠ []) (.endpoint doc.acceptEndpoint)
  pure { doc with acceptPubkey, dialPubkey }

end GrantBody

namespace ConfigDoc

/-- A section is created where it is missing; its other keys stay. -/
def put (doc : ConfigDoc) (name : String) (values : List (String × Text)) :
    Except EnrollError ConfigDoc :=
  let fill := values.foldl fun table value => table.insert value.1 (.string value.2)
  match doc.lookup name with
  | none => .ok (doc.insert name (.table (fill ∅)))
  | some (.table table) => .ok (doc.insert name (.table (fill table)))
  | some (.value _) => .error (.notTable name)

def text (doc : ConfigDoc) (name key : String) : Option Text :=
  match doc.lookup name with
  | some (.table table) =>
      match table.lookup key with
      | some (.string text) => some text
      | _ => none
  | _ => none

/-- The peer's key as the daemon reads it from the section. -/
def pinned (doc : ConfigDoc) (name : String) : Option PubKey :=
  (doc.text name "pubkey").bind fun text => (PubKey.fromStr text).toOption

end ConfigDoc

/-- What a command finds on its host, and whether it can write there. -/
structure Host where
  identity : Option PubKey
  config : Option ConfigDoc
  writesGrant : Bool
  savesConfig : Bool

namespace Host

variable (host : Host)

def loadIdentity : Except EnrollError PubKey := host.identity.getDM (throw .noIdentity)

def updateConfig (name : String) (values : List (String × Text)) :
    Except EnrollError ConfigDoc := do
  let doc ← host.config.getDM (throw (.unreadable "config"))
  let doc ← doc.put name values
  require (host.savesConfig = true) (.unwritable "config")
  pure doc

def exportRequest (now : Int) (note : Text) : Except EnrollError (RequestBody Text) := do
  let pubkey ← host.loadIdentity
  pure (RequestBody.new hash pubkey now note).toToml

def addDial (grant : GrantBody Text) : Except EnrollError ConfigDoc := do
  let localPubkey ← host.loadIdentity
  let grant ← grant.fromToml hash
  require (grant.dialPubkey = localPubkey) (.otherKey grant.dialPubkey localPubkey)
  host.updateConfig "dial"
    [("pubkey", grant.acceptPubkey.format), ("endpoint", grant.acceptEndpoint)]

/-- The grant is on disk before the configuration is touched. -/
def addAccept (myEndpoint : Text) (request : RequestBody Text) (now : Int) (note : Text) :
    Except EnrollError (GrantBody Text × Except EnrollError ConfigDoc) := do
  let acceptPubkey ← host.loadIdentity
  require (':' ∈ myEndpoint) (.endpoint myEndpoint)
  let request ← request.fromToml hash
  require (host.writesGrant = true) (.unwritable "grant")
  pure ((GrantBody.new hash request acceptPubkey myEndpoint now note).toToml,
    host.updateConfig "accept" [("pubkey", request.pubkey.format)])

end Host

variable {hash}

theorem GrantBody.eq_of_fromToml {grant grant' : GrantBody PubKey}
    (h : grant.toToml.fromToml hash = .ok grant') : grant' = grant := by
  simp only [fromToml, toToml, parseKey, PubKey.fromStr_format, Except.mapError, bind_ok_iff,
    Except.ok.injEq] at h
  obtain ⟨_, rfl, _, rfl, -, -, -, -, -, -, -, -, h⟩ := h
  exact (Except.ok.inj h).symm

theorem ConfigDoc.put_ok {doc doc' : ConfigDoc} {name : String} {values : List (String × Text)}
    (h : doc.put name values = .ok doc') :
    ∃ table, doc' = doc.insert name (.table
      (values.foldl (fun table value => table.insert value.1 (.string value.2)) table)) := by
  unfold put at h
  dsimp only at h
  split at h
  · exact ⟨∅, (Except.ok.inj h).symm⟩
  · exact ⟨_, (Except.ok.inj h).symm⟩
  · cases h

theorem Host.updateConfig_ok {host : Host} {name : String} {values : List (String × Text)}
    {doc' : ConfigDoc} (h : host.updateConfig name values = .ok doc') :
    ∃ doc, host.config = some doc ∧ doc.put name values = .ok doc' := by
  simp only [updateConfig, bind_ok_iff] at h
  obtain ⟨doc, hdoc, _, hput, _, -, hdone⟩ := h
  cases hdone
  refine ⟨doc, ?_, hput⟩
  cases hconfig : host.config with
  | none =>
      rw [hconfig] at hdoc
      cases hdoc
  | some config =>
      rw [hconfig] at hdoc
      rw [Except.ok.inj hdoc]

theorem Host.loadIdentity_ok {host : Host} {key : PubKey} (h : host.loadIdentity = .ok key) :
    host.identity = some key := by
  unfold loadIdentity at h
  cases hidentity : host.identity with
  | none =>
      rw [hidentity] at h
      cases h
  | some other =>
      rw [hidentity] at h
      rw [Except.ok.inj h]

/-- Once a grant was minted and applied, each side pins the other's identity key. -/
theorem enrollment_agrees {accepting dialling : Host} {endpoint note : Text}
    {request : RequestBody Text} {now : Int} {grant : GrantBody Text} {docA docD : ConfigDoc}
    (haccept : accepting.addAccept hash endpoint request now note = .ok (grant, .ok docA))
    (hdial : dialling.addDial hash grant = .ok docD) :
    ∃ acceptKey dialKey, accepting.identity = some acceptKey ∧ dialling.identity = some dialKey ∧
      docA.pinned "accept" = some dialKey ∧ docD.pinned "dial" = some acceptKey ∧
      docD.text "dial" "endpoint" = some endpoint := by
  simp only [Host.addAccept, Host.addDial, bind_ok_iff] at haccept hdial
  obtain ⟨acceptKey, ha, _, -, request', hrequest, _, -, hgrant⟩ := haccept
  obtain ⟨dialKey, hd, grant', hfrom, _, hkey, hdial⟩ := hdial
  obtain ⟨rfl, hupdate⟩ := Prod.mk.inj (Except.ok.inj hgrant)
  obtain rfl := GrantBody.eq_of_fromToml hfrom
  obtain rfl : request'.pubkey = dialKey := require_ok_iff.1 hkey
  obtain ⟨doc, -, hput⟩ := Host.updateConfig_ok hupdate
  obtain ⟨doc', -, hput'⟩ := Host.updateConfig_ok hdial
  obtain ⟨table, rfl⟩ := ConfigDoc.put_ok hput
  obtain ⟨table', rfl⟩ := ConfigDoc.put_ok hput'
  refine ⟨acceptKey, _, Host.loadIdentity_ok ha, Host.loadIdentity_ok hd, ?_, ?_, ?_⟩
  · simp [ConfigDoc.pinned, ConfigDoc.text, PubKey.fromStr_format, Except.toOption]
  · simp [ConfigDoc.pinned, ConfigDoc.text, PubKey.fromStr_format, Except.toOption, GrantBody.new]
  · simp [ConfigDoc.text, GrantBody.new]

def toyHost (byte : UInt8) : Host :=
  ⟨some (.x25519 ⟨List.replicate x25519PublicLen byte, List.length_replicate⟩), some ∅, true, true⟩

theorem enrollment_agrees_fresh :
    ∃ request grant docA docD,
      (toyHost 1).exportRequest (fun _ => []) 0 [] = .ok request ∧
      (toyHost 2).addAccept (fun _ => []) [':'] request 0 [] = .ok (grant, .ok docA) ∧
      (toyHost 1).addDial (fun _ => []) grant = .ok docD ∧
      docA.pinned "accept" = (toyHost 1).identity := by
  obtain ⟨request, grant, docA, docD, hrequest, haccept, hdial⟩ :
      ∃ request grant docA docD,
        (toyHost 1).exportRequest (fun _ => []) 0 [] = .ok request ∧
        (toyHost 2).addAccept (fun _ => []) [':'] request 0 [] = .ok (grant, .ok docA) ∧
        (toyHost 1).addDial (fun _ => []) grant = .ok docD := ⟨_, _, _, _, rfl, rfl, rfl⟩
  obtain ⟨_, _, -, hkey, hpinned, -⟩ := enrollment_agrees haccept hdial
  exact ⟨request, grant, docA, docD, hrequest, haccept, hdial, hpinned.trans hkey.symm⟩

end Yggdrasil.Control
