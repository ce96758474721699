import Yggdrasil.Foundation.AddrText
import Yggdrasil.Heartbeat.Enrolment

/-!
# Which candidate an approval takes

The operator names a candidate by the first digits of its fingerprint, with or
without the algorithm in front.  Anyone can put candidates into the store, so
an approval must take the one candidate that is named or none.
-/

namespace Yggdrasil.Heartbeat

open Foundation Ratatoskr

def algorithm : PubKey → Text
  | .x25519 _ => "x25519".toList

def digest (hash : Bytes → Bytes) : PubKey → Text
  | .x25519 key => Text.hexEncode (hash key.bytes)

variable {hash : Bytes → Bytes}

theorem fingerprint_eq (key : PubKey) :
    key.fingerprint hash = algorithm key ++ ':' :: digest hash key := by
  cases key
  rfl

theorem colon_notMem_algorithm (key : PubKey) : ':' ∉ algorithm key := by
  have hplain : ':' ∉ "x25519".toList := by decide
  cases key
  exact hplain

theorem isAsciiHexdigit_of_mem_digest {key : PubKey} {c : Char} (h : c ∈ digest hash key) :
    Text.isAsciiHexdigit c = true := by
  cases key
  exact AddrText.isAsciiHexdigit_of_mem_hexEncode h

def normalised (query : Text) : Text := Text.toAsciiLowercase (Text.trim query)

/--
The query is the beginning of the key's digits, with at least the required
number of them; the algorithm of the key may stand in front.
-/
def Selects (hash : Bytes → Bytes) (query : Text) (key : PubKey) : Prop :=
  ∃ digits, minFingerprintPrefixLen ≤ digits.length ∧ digits <+: digest hash key ∧
    (normalised query = digits ∨ normalised query = algorithm key ++ ':' :: digits)

namespace PendingPeerStore

def queryParts (query : Text) : Option Text × Text :=
  match Text.splitOnce ':' (normalised query) with
  | some (algo, hex) => (some algo, hex)
  | none => (none, normalised query)

def selected (hash : Bytes → Bytes) (query : Text) (record : CandidateRecord) : Bool :=
  minFingerprintPrefixLen ≤ Text.utf8Len (queryParts query).2 &&
    (queryParts query).2.all Text.isAsciiHexdigit &&
    candidateMatches hash (queryParts query).1 (queryParts query).2 record

variable {record : CandidateRecord} {query : Text} {store : PendingPeerStore}

theorem candidateMatches_iff {algoFilter : Option Text} {hexTail : Text} :
    candidateMatches hash algoFilter hexTail record = true ↔
      (algoFilter = none ∨ algoFilter = some (algorithm record.pubkey)) ∧
        hexTail <+: digest hash record.pubkey := by
  rw [candidateMatches, fingerprint_eq,
    Text.splitOnce_append (colon_notMem_algorithm record.pubkey)]
  cases algoFilter with
  | none => simp
  | some algo => simp

theorem queryParts_of_digits {digits : Text} (hcolon : ':' ∉ digits)
    (h : normalised query = digits) : queryParts query = (none, digits) := by
  rw [queryParts, h, Text.splitOnce_of_notMem hcolon]

theorem queryParts_of_tagged {algo digits : Text} (hcolon : ':' ∉ algo)
    (h : normalised query = algo ++ ':' :: digits) : queryParts query = (some algo, digits) := by
  rw [queryParts, h, Text.splitOnce_append hcolon]

theorem normalised_eq (query : Text) :
    ((queryParts query).1 = none ∧ normalised query = (queryParts query).2) ∨
      ∃ algo, (queryParts query).1 = some algo ∧
        normalised query = algo ++ ':' :: (queryParts query).2 := by
  unfold queryParts
  cases hsplit : Text.splitOnce ':' (normalised query) with
  | none => exact .inl ⟨rfl, rfl⟩
  | some parts => exact .inr ⟨parts.1, rfl, (Text.eq_of_splitOnce hsplit).1⟩

theorem utf8Len_eq_length_of_hex {text : Text} (h : ∀ c ∈ text, Text.isAsciiHexdigit c = true) :
    Text.utf8Len text = text.length :=
  Text.utf8Len_of_ascii (fun c hc => Text.toNat_lt_of_isAsciiHexdigit (h c hc))

theorem selected_iff : selected hash query record = true ↔ Selects hash query record.pubkey := by
  simp only [selected, Bool.and_eq_true, decide_eq_true_eq, List.all_eq_true,
    candidateMatches_iff]
  constructor
  · rintro ⟨⟨hlength, hhex⟩, halgo, hstart⟩
    rw [utf8Len_eq_length_of_hex hhex] at hlength
    refine ⟨(queryParts query).2, hlength, hstart, ?_⟩
    rcases normalised_eq query with ⟨-, hquery⟩ | ⟨algo, hsome, hquery⟩
    · exact .inl hquery
    · rw [hsome] at halgo
      rcases halgo with hnone | hsame
      · cases hnone
      · cases hsame
        exact .inr hquery
  · rintro ⟨digits, hlength, hstart, hquery⟩
    have hhex : ∀ c ∈ digits, Text.isAsciiHexdigit c = true :=
      fun c hc => isAsciiHexdigit_of_mem_digest (hstart.subset hc)
    have hcolon : ':' ∉ digits := fun hmem => absurd (hhex ':' hmem) (by decide)
    rw [← utf8Len_eq_length_of_hex hhex] at hlength
    rcases hquery with hquery | hquery
    · rw [queryParts_of_digits hcolon hquery]
      exact ⟨⟨hlength, hhex⟩, .inl rfl, hstart⟩
    · rw [queryParts_of_tagged (colon_notMem_algorithm record.pubkey) hquery]
      exact ⟨⟨hlength, hhex⟩, .inr rfl, hstart⟩

theorem nodup_left (hash : Bytes → Bytes) (store : PendingPeerStore) (algoFilter : Option Text)
    (hexTail : Text) :
    ((store.candidates.filter (fun record => !candidateMatches hash algoFilter hexTail record)).map
      CandidateRecord.pubkey).Nodup :=
  store.nodup.sublist (List.filter_sublist.map _)

def approveParts (hash : Bytes → Bytes) (store : PendingPeerStore) (algoFilter : Option Text)
    (hexTail : Text) : PendingPeerStore × ApproveOutcome :=
  if Text.utf8Len hexTail < minFingerprintPrefixLen then
    (store, .prefixTooShort (Text.utf8Len hexTail) minFingerprintPrefixLen)
  else if !hexTail.all Text.isAsciiHexdigit then (store, .notFound)
  else
    match store.candidates.filter (candidateMatches hash algoFilter hexTail) with
    | [] => (store, .notFound)
    | [removed] =>
        ({ candidates := store.candidates.filter
            (fun record => !candidateMatches hash algoFilter hexTail record)
           nodup := nodup_left hash store algoFilter hexTail },
          .approved (removed.pubkey.fingerprint hash) removed.pubkey)
    | many => (store, .ambiguous (many.map (fun record => record.pubkey.fingerprint hash)))

theorem approve_eq (store : PendingPeerStore) (query : Text) :
    store.approve hash query =
      store.approveParts hash (queryParts query).1 (queryParts query).2 := rfl

theorem approve_cases (store : PendingPeerStore) (query : Text) :
    (∃ record, store.candidates.filter (selected hash query) = [record] ∧
      (store.approve hash query).1.candidates =
        store.candidates.filter (fun other => !selected hash query other) ∧
      (store.approve hash query).2 =
        .approved (record.pubkey.fingerprint hash) record.pubkey) ∨
    (∀ record, store.candidates.filter (selected hash query) ≠ [record]) ∧
      (store.approve hash query).1 = store ∧
      ∀ fingerprint key, (store.approve hash query).2 ≠ .approved fingerprint key := by
  rw [approve_eq]
  unfold selected approveParts
  obtain ⟨algoFilter, hexTail⟩ := queryParts query
  dsimp only
  split
  · rename_i hshort
    have hlong : decide (minFingerprintPrefixLen ≤ Text.utf8Len hexTail) = false := by
      simpa using hshort
    simp [hlong]
  · rename_i hlong
    split
    · rename_i hother
      simp only [Bool.not_eq_true'] at hother
      simp [hother]
    · rename_i hhex
      simp only [Bool.not_eq_true', Bool.not_eq_false] at hhex
      have hsame : ∀ record, (decide (minFingerprintPrefixLen ≤ Text.utf8Len hexTail) &&
          hexTail.all Text.isAsciiHexdigit && candidateMatches hash algoFilter hexTail record) =
            candidateMatches hash algoFilter hexTail record := by
        intro record
        simp [Nat.le_of_not_lt hlong, hhex]
      simp only [hsame]
      split
      · rename_i hnone
        simp [hnone]
      · rename_i removed hone
        exact .inl ⟨removed, hone, rfl, rfl⟩
      · rename_i many hmany hthan
        exact .inr ⟨hthan, rfl, fun fingerprint key h => by cases h⟩

/-- The key is stored, the query selects it and selects no other key that is stored. -/
structure OnlySelected (hash : Bytes → Bytes) (store : PendingPeerStore) (query : Text)
    (key : PubKey) : Prop where
  stored : key ∈ store.candidates.map CandidateRecord.pubkey
  selects : Selects hash query key
  unique : ∀ other ∈ store.candidates.map CandidateRecord.pubkey, Selects hash query other →
    other = key

theorem eq_of_pubkey_eq {other : CandidateRecord} (hrecord : record ∈ store.candidates)
    (hother : other ∈ store.candidates) (h : record.pubkey = other.pubkey) : record = other :=
  List.inj_on_of_nodup_map store.nodup hrecord hother h

theorem onlySelected_iff {key : PubKey} :
    OnlySelected hash store query key ↔
      ∃ record, store.candidates.filter (selected hash query) = [record] ∧
        record.pubkey = key := by
  constructor
  · rintro ⟨hstored, hselects, hunique⟩
    obtain ⟨record, hrecord, rfl⟩ := List.mem_map.1 hstored
    refine ⟨record, ?_, rfl⟩
    have hnodup : (store.candidates.filter (selected hash query)).Nodup :=
      (List.Nodup.of_map _ store.nodup).filter _
    rw [← List.perm_singleton, List.perm_ext_iff_of_nodup hnodup (List.nodup_singleton record)]
    intro other
    rw [List.mem_filter, selected_iff, List.mem_singleton]
    constructor
    · rintro ⟨hother, hchosen⟩
      exact eq_of_pubkey_eq hother hrecord
        (hunique other.pubkey (List.mem_map_of_mem hother) hchosen)
    · rintro rfl
      exact ⟨hrecord, hselects⟩
  · rintro ⟨record, hone, rfl⟩
    have hmem : ∀ other, other ∈ store.candidates → Selects hash query other.pubkey →
        other = record := by
      intro other hother hselects
      rw [← List.mem_singleton, ← hone, List.mem_filter, selected_iff]
      exact ⟨hother, hselects⟩
    have hrecord := List.mem_filter.1 (hone ▸ List.mem_singleton_self record)
    refine ⟨List.mem_map_of_mem hrecord.1, selected_iff.1 hrecord.2, ?_⟩
    intro other hother hselects
    obtain ⟨found, hfound, rfl⟩ := List.mem_map.1 hother
    rw [hmem found hfound hselects]

theorem filter_not_selected (hone : store.candidates.filter (selected hash query) = [record]) :
    store.candidates.filter (fun other => !selected hash query other) =
      store.candidates.filter (fun other => other.pubkey ≠ record.pubkey) := by
  have hrecord := List.mem_filter.1 (hone ▸ List.mem_singleton_self record)
  apply List.filter_congr
  intro other hother
  by_cases hsame : other.pubkey = record.pubkey
  · obtain rfl := eq_of_pubkey_eq hother hrecord.1 hsame
    simp [hrecord.2]
  · have hnot : selected hash query other = false := by
      rw [Bool.eq_false_iff]
      intro hchosen
      have hmem : other ∈ store.candidates.filter (selected hash query) :=
        List.mem_filter.2 ⟨hother, hchosen⟩
      rw [hone, List.mem_singleton] at hmem
      exact hsame (congrArg CandidateRecord.pubkey hmem)
    simp [hnot, hsame]

inductive Call where
  | recordCandidate (pubkey : PubKey) (now : UInt64)
  | approve (query : Text)

def handle (hash : Bytes → Bytes) (store : PendingPeerStore) : Call → PendingPeerStore
  | .recordCandidate pubkey now => store.recordCandidate pubkey now
  | .approve query => (store.approve hash query).1

def after (hash : Bytes → Bytes) (calls : List Call) : PendingPeerStore :=
  calls.foldl (handle hash) new

theorem approval_exact (hash : Bytes → Bytes) (calls : List Call) (query : Text) :
    ((after hash calls).candidates.map CandidateRecord.pubkey).Nodup ∧
    (∀ key, (∃ fingerprint, ((after hash calls).approve hash query).2 =
        .approved fingerprint key) ↔ OnlySelected hash (after hash calls) query key) ∧
    (∀ fingerprint key, ((after hash calls).approve hash query).2 = .approved fingerprint key →
      fingerprint = key.fingerprint hash ∧
        ((after hash calls).approve hash query).1.candidates =
          (after hash calls).candidates.filter (fun record => record.pubkey ≠ key)) ∧
    ((∀ fingerprint key, ((after hash calls).approve hash query).2 ≠ .approved fingerprint key) →
      ((after hash calls).approve hash query).1 = after hash calls) := by
  set store := after hash calls
  refine ⟨store.nodup, ?_⟩
  simp only [onlySelected_iff]
  rcases store.approve_cases query with ⟨record, hone, hleft, happroved⟩ | ⟨hnone, hsame, hother⟩
  · rw [happroved]
    refine ⟨fun key => ⟨?_, ?_⟩, ?_, ?_⟩
    · rintro ⟨fingerprint, h⟩
      exact ⟨record, hone, (ApproveOutcome.approved.inj h).2⟩
    · rintro ⟨only, honly, rfl⟩
      obtain rfl := List.singleton_inj.1 (hone.symm.trans honly)
      exact ⟨_, rfl⟩
    · intro fingerprint key h
      obtain ⟨rfl, rfl⟩ := ApproveOutcome.approved.inj h
      exact ⟨rfl, hleft.trans (filter_not_selected hone)⟩
    · exact fun h => absurd rfl (h _ _)
  · refine ⟨fun key => ⟨?_, ?_⟩, ?_, fun _ => hsame⟩
    · rintro ⟨fingerprint, h⟩
      exact absurd h (hother fingerprint key)
    · rintro ⟨record, hone, -⟩
      exact absurd hone (hnone record)
    · exact fun fingerprint key h => absurd h (hother fingerprint key)

end PendingPeerStore

end Yggdrasil.Heartbeat
