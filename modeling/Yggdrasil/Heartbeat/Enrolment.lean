import Yggdrasil.Foundation.Net
import Yggdrasil.Ratatoskr.Handshake

/-!
# Peer state and enrolment

The enrolled key and the address of the peer, the queue of candidates waiting
for an operator, and the approval that turns a candidate into the enrolled key.
-/

namespace Yggdrasil.Heartbeat

open Foundation Ratatoskr

structure PeerState where
  peerStaticKey : Option PubKey
  currentIp : Option IpAddr
  notified : Nat
  /-- Zero until the first heartbeat. -/
  lastHeartbeatMs : UInt64
  deriving DecidableEq, Repr

inductive HeartbeatEffect where
  | sameIp (ip : IpAddr)
  | firstHeartbeat (ip : IpAddr)
  | ipChanged (old new : IpAddr)
  deriving DecidableEq, Repr

namespace PeerState

def new (peerStaticKey : Option PubKey) : PeerState := ⟨peerStaticKey, none, 0, 0⟩

def isPeerEnrolled (peer : PeerState) : Bool := peer.peerStaticKey.isSome

def setPeerStaticKey (peer : PeerState) (newKey : PubKey) : PeerState :=
  { peer with peerStaticKey := some newKey }

def recordHeartbeat (peer : PeerState) (peerAddr : SocketAddr) (now : UInt64) :
    PeerState × HeartbeatEffect :=
  let peer := { peer with lastHeartbeatMs := now }
  let newIp := peerAddr.ip
  match peer.currentIp with
  | some old =>
      if old = newIp then (peer, .sameIp newIp)
      else
        ({ peer with currentIp := some newIp, notified := peer.notified + 1 },
          .ipChanged old newIp)
  | none =>
      ({ peer with currentIp := some newIp, notified := peer.notified + 1 },
        .firstHeartbeat newIp)

@[simp] theorem peerStaticKey_recordHeartbeat (peer : PeerState) (peerAddr : SocketAddr)
    (now : UInt64) : (peer.recordHeartbeat peerAddr now).1.peerStaticKey = peer.peerStaticKey := by
  unfold recordHeartbeat
  dsimp only
  split
  · split_ifs <;> rfl
  · rfl

theorem recordHeartbeat_cases (peer : PeerState) (peerAddr : SocketAddr) (now : UInt64) :
    (peer.currentIp = some peerAddr.ip ∧
      (peer.recordHeartbeat peerAddr now).1 = { peer with lastHeartbeatMs := now }) ∨
    (peer.currentIp ≠ some peerAddr.ip ∧
      (peer.recordHeartbeat peerAddr now).1 =
        { peer with
          currentIp := some peerAddr.ip
          notified := peer.notified + 1
          lastHeartbeatMs := now }) := by
  cases hip : peer.currentIp with
  | none => exact .inr ⟨by simp, by simp [recordHeartbeat, hip]⟩
  | some old =>
      by_cases hsame : old = peerAddr.ip
      · exact .inl ⟨by rw [hsame], by simp [recordHeartbeat, hip, hsame]⟩
      · exact .inr ⟨by simpa using hsame, by simp [recordHeartbeat, hip, hsame]⟩

end PeerState

structure CandidateRecord where
  pubkey : PubKey
  firstSeenUnixMs : UInt64
  attemptCount : UInt64
  deriving DecidableEq, Repr

def CandidateRecord.again (record : CandidateRecord) : CandidateRecord :=
  { record with
    attemptCount :=
      if record.attemptCount = 0xffffffffffffffff then record.attemptCount
      else record.attemptCount + 1 }

structure PendingPeerStore where
  candidates : List CandidateRecord
  nodup : (candidates.map CandidateRecord.pubkey).Nodup

def minFingerprintPrefixLen : Nat := 8

inductive ApproveOutcome where
  | approved (fingerprint : Text) (key : PubKey)
  | notFound
  | ambiguous (matching : List Text)
  | prefixTooShort (provided required : Nat)
  deriving DecidableEq, Repr

namespace PendingPeerStore

def new : PendingPeerStore := ⟨[], List.nodup_nil⟩

def recordCandidate (store : PendingPeerStore) (pubkey : PubKey) (now : UInt64) :
    PendingPeerStore :=
  if h : pubkey ∈ store.candidates.map CandidateRecord.pubkey then
    { candidates := store.candidates.map (fun record =>
        if record.pubkey = pubkey then record.again else record)
      nodup := by
        have hsame : (store.candidates.map (fun record =>
            if record.pubkey = pubkey then record.again else record)).map
              CandidateRecord.pubkey = store.candidates.map CandidateRecord.pubkey := by
          rw [List.map_map]
          apply List.map_congr_left
          intro record _
          simp only [Function.comp]
          split_ifs <;> rfl
        rw [hsame]
        exact store.nodup }
  else
    { candidates := store.candidates ++ [⟨pubkey, now, 1⟩]
      nodup := by
        rw [List.map_append, List.nodup_append]
        refine ⟨store.nodup, List.nodup_singleton _, ?_⟩
        intro key hkey other hother heq
        rw [List.map_singleton, List.mem_singleton] at hother
        rw [heq, hother] at hkey
        exact h hkey }

def candidateMatches (hash : Bytes → Bytes) (algoFilter : Option Text) (hexTail : Text)
    (record : CandidateRecord) : Bool :=
  match Text.splitOnce ':' (record.pubkey.fingerprint hash) with
  | none => false
  | some (algo, tail) =>
      (match algoFilter with
        | some wantAlgo => wantAlgo == algo
        | none => true) && hexTail.isPrefixOf tail

def approve (hash : Bytes → Bytes) (store : PendingPeerStore) (query : Text) :
    PendingPeerStore × ApproveOutcome :=
  let normalised := Text.toAsciiLowercase (Text.trim query)
  let (algoFilter, hexTail) :=
    match Text.splitOnce ':' normalised with
    | some (algo, hex) => (some algo, hex)
    | none => (none, normalised)
  if Text.utf8Len hexTail < minFingerprintPrefixLen then
    (store, .prefixTooShort (Text.utf8Len hexTail) minFingerprintPrefixLen)
  else if !hexTail.all Text.isAsciiHexdigit then (store, .notFound)
  else
    match store.candidates.filter (candidateMatches hash algoFilter hexTail) with
    | [] => (store, .notFound)
    | [removed] =>
        ({ candidates := store.candidates.filter
            (fun record => !candidateMatches hash algoFilter hexTail record)
           nodup := store.nodup.sublist (List.filter_sublist.map _) },
          .approved (removed.pubkey.fingerprint hash) removed.pubkey)
    | many => (store, .ambiguous (many.map (fun record => record.pubkey.fingerprint hash)))

end PendingPeerStore

inductive Response where
  | downstreamApproved (fingerprint : Text)
  | error (code : String) (outcome : ApproveOutcome)
  deriving DecidableEq, Repr

/--
A candidate is taken out of the queue before the config file is written, and
the key goes live only once the file is.
-/
def approveDownstream (hash : Bytes → Bytes) (peer : PeerState) (store : PendingPeerStore)
    (query : Text) (configWritten : Bool) : PeerState × PendingPeerStore × Response :=
  match store.approve hash query with
  | (store, .approved fingerprint key) =>
      if !configWritten then
        (peer, store, .error "config_write_failed" (.approved fingerprint key))
      else (peer.setPeerStaticKey key, store, .downstreamApproved fingerprint)
  | (store, .notFound) => (peer, store, .error "no_such_fingerprint" .notFound)
  | (store, .ambiguous matching) =>
      (peer, store, .error "ambiguous_fingerprint" (.ambiguous matching))
  | (store, .prefixTooShort provided required) =>
      (peer, store, .error "ambiguous_fingerprint" (.prefixTooShort provided required))

theorem approveDownstream_cases (hash : Bytes → Bytes) (peer : PeerState)
    (store : PendingPeerStore) (query : Text) (configWritten : Bool) :
    (∃ key store' fingerprint, approveDownstream hash peer store query configWritten =
      (peer.setPeerStaticKey key, store', .downstreamApproved fingerprint)) ∨
    (∃ store' code outcome, approveDownstream hash peer store query configWritten =
      (peer, store', .error code outcome)) := by
  unfold approveDownstream
  split
  · split_ifs
    · exact .inr ⟨_, _, _, rfl⟩
    · exact .inl ⟨_, _, _, rfl⟩
  · exact .inr ⟨_, _, _, rfl⟩
  · exact .inr ⟨_, _, _, rfl⟩
  · exact .inr ⟨_, _, _, rfl⟩

end Yggdrasil.Heartbeat
