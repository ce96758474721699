import Yggdrasil.Ratatoskr.ChainQuery

/-!
# Walking up the chain

What the hop query and the canary arm have in common: a node puts its own
record first, asks its upstream with a smaller budget and a shorter deadline,
and appends the records of the reply under new numbers.  A reply over the size
cap is cut down to the node's own record.
-/

namespace Yggdrasil.Chain

open Foundation Ratatoskr

inductive QueryError where
  | timeout
  | clientDown
  | send (error : String)
  | encode (error : String)
  deriving DecidableEq, Repr

def QueryError.toString : QueryError → String
  | timeout => "chain hop query timed out"
  | clientDown => "chain client is shut down"
  | send error => s!"chain hop query send failed: {error}"
  | encode error => s!"failed to encode ChainHopQuery body: {error}"

def saturatingSub (a b : UInt32) : UInt32 := if a < b then 0 else a - b

def forwardingOverheadMs : UInt32 := 250

/-- A query with a depth budget and a deadline; an answer comes with the time it took. -/
abbrev Upstream (H : Type) := UInt32 → UInt32 → Except QueryError (UInt64 × WalkReply H)

/-- Where the two queries differ. -/
structure Walk (H : Type) where
  /-- The flag and the error taken over from the upstream's reply. -/
  merge : WalkReply H → Bool × Option String
  merge_fst : ∀ reply, (merge reply).1 = reply.isPartial
  describe : QueryError → String
  maxWireBytes : Nat
  encode : WalkReply H → Except String Bytes

variable {H : Type} [HopRecord H]

def appendUpstream (rttMs : UInt64) (hops : List H) (offset : Nat) : List H → List H
  | [] => hops
  | hop :: rest =>
      let hop := HopRecord.stamp (UInt32.ofNat (hops.length + offset)) hop
      let hop := if offset = 0 then HopRecord.stampRtt rttMs hop else hop
      appendUpstream rttMs (hops ++ [hop]) (offset + 1) rest

namespace Walk

variable (walk : Walk H)

def assemble (upstream : Option (Upstream H)) (queryId depthBudget deadlineMs : UInt32)
    (localHop : H) : WalkReply H :=
  let depthBudget := saturatingSub depthBudget 1
  let upstreamDeadlineMs := saturatingSub deadlineMs forwardingOverheadMs
  match upstream with
  | none => ⟨queryId, [localHop], false, none⟩
  | some query =>
      if 0 < depthBudget ∧ 0 < upstreamDeadlineMs then
        match query depthBudget upstreamDeadlineMs with
        | .ok (rttMs, reply) =>
            ⟨queryId, appendUpstream rttMs [localHop] 0 reply.hops, (walk.merge reply).1,
              (walk.merge reply).2⟩
        | .error e => ⟨queryId, [localHop], true, some (walk.describe e)⟩
      else if depthBudget = 0 then ⟨queryId, [localHop], true, some "depth budget exhausted"⟩
      else ⟨queryId, [localHop], true, some "deadline exhausted before upstream forward"⟩

/-- A reply that cannot be encoded is not sent. -/
def send (reply : WalkReply H) : Option (WalkReply H) :=
  match walk.encode reply with
  | .ok _ => some reply
  | .error _ => none

def truncate (reply : WalkReply H) : WalkReply H :=
  { reply with
    hops := reply.hops.take 1
    isPartial := true
    error := some s!"reply exceeded {walk.maxWireBytes} bytes; truncated to local hop" }

def finish (reply : WalkReply H) : Option (WalkReply H) :=
  match walk.encode reply with
  | .ok bytes =>
      if walk.maxWireBytes < bytes.length then walk.send (walk.truncate reply) else walk.send reply
  | .error _ => none

def draft (localHop : Option H) (upstream : Option (Upstream H))
    (queryId depthBudget deadlineMs : UInt32) : WalkReply H :=
  match localHop with
  | none => ⟨queryId, [], true, some "local introspection unavailable"⟩
  | some localHop => walk.assemble upstream queryId depthBudget deadlineMs localHop

def handle (localHop : Option H) (upstream : Option (Upstream H))
    (queryId depthBudget deadlineMs : UInt32) : Option (WalkReply H) :=
  let reply := walk.draft localHop upstream queryId depthBudget deadlineMs
  match localHop with
  | none => walk.send reply
  | some _ => walk.finish reply

end Walk

/-- The upstream's records with the numbers that the loop gives them: every other one. -/
def renumbered (rttMs : UInt64) (count offset : Nat) (upstream : List H) : List H :=
  upstream.mapIdx fun k hop =>
    let hop := HopRecord.stamp (UInt32.ofNat (count + offset + 2 * k)) hop
    if offset + k = 0 then HopRecord.stampRtt rttMs hop else hop

theorem appendUpstream_eq (rttMs : UInt64) (hops : List H) (offset : Nat) (upstream : List H) :
    appendUpstream rttMs hops offset upstream =
      hops ++ renumbered rttMs hops.length offset upstream := by
  induction upstream generalizing hops offset with
  | nil => simp [appendUpstream, renumbered]
  | cons hop rest ih =>
      have hindex : ∀ k, (hops.length + 1) + (offset + 1) + 2 * k =
          hops.length + offset + 2 * (k + 1) := by
        intro k
        omega
      have hoffset : ∀ k, offset + 1 + k = offset + (k + 1) := by
        intro k
        omega
      rw [appendUpstream, ih]
      simp [renumbered, List.mapIdx_cons, hindex, hoffset]

theorem length_appendUpstream (rttMs : UInt64) (hops : List H) (offset : Nat)
    (upstream : List H) :
    (appendUpstream rttMs hops offset upstream).length = hops.length + upstream.length := by
  simp [appendUpstream_eq, renumbered]

theorem isPrefix_appendUpstream (rttMs : UInt64) (hops : List H) (offset : Nat)
    (upstream : List H) : hops <+: appendUpstream rttMs hops offset upstream := by
  rw [appendUpstream_eq]
  exact List.prefix_append hops _

/-- The second record of the upstream already carries the number three. -/
theorem numbered_appendUpstream_iff {localHop : H} (h : HopRecord.hopIndex localHop = 0)
    (rttMs : UInt64) (upstream : List H) :
    Numbered (appendUpstream rttMs [localHop] 0 upstream) ↔ upstream.length ≤ 1 := by
  rw [appendUpstream_eq]
  match upstream with
  | [] =>
      refine iff_of_true (fun i hop hhop => ?_) (Nat.zero_le 1)
      obtain ⟨rfl, rfl⟩ : i = 0 ∧ localHop = hop := by
        simpa [renumbered, List.getElem?_singleton] using hhop
      exact h
  | [only] =>
      refine iff_of_true (fun i hop hhop => ?_) (Nat.le_refl 1)
      match i, hhop with
      | 0, hhop =>
          obtain rfl : localHop = hop := by simpa using hhop
          exact h
      | 1, hhop =>
          have hstamped : HopRecord.stampRtt rttMs (HopRecord.stamp 1 only) = hop := by
            simpa [renumbered] using hhop
          rw [← hstamped, HopRecord.hopIndex_stampRtt, HopRecord.hopIndex_stamp]
          rfl
      | i + 2, hhop => simp [renumbered] at hhop
  | first :: second :: rest =>
      refine iff_of_false (fun hnumbered => ?_) (by simp)
      have hthree := hnumbered 2 (HopRecord.stamp 3 second) (by simp [renumbered])
      rw [HopRecord.hopIndex_stamp] at hthree
      exact absurd hthree (by decide)

theorem toNat_saturatingSub (a b : UInt32) : (saturatingSub a b).toNat = a.toNat - b.toNat := by
  unfold saturatingSub
  split
  next h =>
    rw [UInt32.lt_iff_toNat_lt] at h
    simp only [UInt32.toNat_zero]
    omega
  next h =>
    rw [UInt32.lt_iff_toNat_lt, Nat.not_lt] at h
    exact UInt32.toNat_sub_of_le a b (UInt32.le_iff_toNat_le.2 h)

/-- The budget and the deadline leave something to pass on, and the upstream replies. -/
def Answered (upstream : Option (Upstream H)) (depthBudget deadlineMs : UInt32) (rttMs : UInt64)
    (reply : WalkReply H) : Prop :=
  ∃ query, upstream = some query ∧ 1 < depthBudget.toNat ∧
    forwardingOverheadMs.toNat < deadlineMs.toNat ∧
    query (saturatingSub depthBudget 1) (saturatingSub deadlineMs forwardingOverheadMs) =
      .ok (rttMs, reply)

theorem asks_iff {depthBudget deadlineMs : UInt32} :
    0 < saturatingSub depthBudget 1 ∧ 0 < saturatingSub deadlineMs forwardingOverheadMs ↔
      1 < depthBudget.toNat ∧ forwardingOverheadMs.toNat < deadlineMs.toNat := by
  rw [UInt32.lt_iff_toNat_lt, UInt32.lt_iff_toNat_lt, toNat_saturatingSub, toNat_saturatingSub,
    UInt32.toNat_zero, show (1 : UInt32).toNat = 1 from rfl]
  omega

namespace Walk

variable (walk : Walk H)

variable {sent : WalkReply H} {localHop : Option H} {upstream : Option (Upstream H)}
  {queryId depthBudget deadlineMs : UInt32}

theorem assemble_of_answered {rttMs : UInt64} {reply : WalkReply H}
    (h : Answered upstream depthBudget deadlineMs rttMs reply) (queryId : UInt32) (localHop : H) :
    walk.assemble upstream queryId depthBudget deadlineMs localHop =
      ⟨queryId, appendUpstream rttMs [localHop] 0 reply.hops, reply.isPartial,
        (walk.merge reply).2⟩ := by
  obtain ⟨query, rfl, hdepth, hdeadline, hreply⟩ := h
  simp only [assemble, if_pos (asks_iff.2 ⟨hdepth, hdeadline⟩), hreply, walk.merge_fst]

theorem hops_assemble_of_unanswered
    (h : ∀ rttMs reply, ¬Answered upstream depthBudget deadlineMs rttMs reply) (queryId : UInt32)
    (localHop : H) :
    (walk.assemble upstream queryId depthBudget deadlineMs localHop).hops = [localHop] := by
  unfold assemble
  split
  · rfl
  · rename_i query
    dsimp only
    split
    · rename_i hasks
      split
      · rename_i rttMs reply hreply
        exact absurd ⟨query, rfl, (asks_iff.1 hasks).1, (asks_iff.1 hasks).2, hreply⟩
          (h rttMs reply)
      · rfl
    · split
      · rfl
      · rfl

theorem isPrefix_hops_assemble (upstream : Option (Upstream H))
    (queryId depthBudget deadlineMs : UInt32) (localHop : H) :
    [localHop] <+: (walk.assemble upstream queryId depthBudget deadlineMs localHop).hops := by
  by_cases hanswered : ∃ rttMs reply, Answered upstream depthBudget deadlineMs rttMs reply
  · obtain ⟨rttMs, reply, hanswered⟩ := hanswered
    rw [walk.assemble_of_answered hanswered]
    exact isPrefix_appendUpstream rttMs [localHop] 0 reply.hops
  · push Not at hanswered
    rw [walk.hops_assemble_of_unanswered hanswered]

omit [HopRecord H] in
theorem eq_of_send {reply : WalkReply H} (h : walk.send reply = some sent) : sent = reply := by
  unfold send at h
  split at h
  · exact (Option.some.inj h).symm
  · cases h

omit [HopRecord H] in
def Fits (reply : WalkReply H) : Prop :=
  ∃ bytes, walk.encode reply = .ok bytes ∧ bytes.length ≤ walk.maxWireBytes

omit [HopRecord H] in
theorem finish_cases {reply : WalkReply H} (h : walk.finish reply = some sent) :
    walk.Fits reply ∧ sent = reply ∨ ¬walk.Fits reply ∧ sent = walk.truncate reply := by
  unfold finish at h
  split at h
  · rename_i bytes hencode
    split at h
    · rename_i hlong
      refine .inr ⟨?_, walk.eq_of_send h⟩
      rintro ⟨bytes', hencode', hshort⟩
      rw [hencode, Except.ok.injEq] at hencode'
      subst hencode'
      omega
    · rename_i hshort
      exact .inl ⟨⟨bytes, hencode, Nat.le_of_not_lt hshort⟩, walk.eq_of_send h⟩
  · cases h

theorem hops_truncate_assemble (upstream : Option (Upstream H))
    (queryId depthBudget deadlineMs : UInt32) (localHop : H) :
    (walk.truncate (walk.assemble upstream queryId depthBudget deadlineMs localHop)).hops =
      [localHop] :=
  (List.prefix_iff_eq_take.1
    (walk.isPrefix_hops_assemble upstream queryId depthBudget deadlineMs localHop)).symm

theorem head?_handle
    (h : walk.handle localHop upstream queryId depthBudget deadlineMs = some sent) :
    sent.hops.head? = localHop := by
  cases localHop with
  | none =>
      rw [walk.eq_of_send h]
      rfl
  | some hop =>
      rcases walk.finish_cases h with ⟨-, rfl⟩ | ⟨-, rfl⟩
      · obtain ⟨rest, hrest⟩ :=
          walk.isPrefix_hops_assemble upstream queryId depthBudget deadlineMs hop
        rw [draft, ← hrest]
        rfl
      · rw [draft, hops_truncate_assemble]
        rfl

/--
What a node replies is well numbered exactly when the upstream's reply, if there
is one, has at most one record, or is cut off for its size.
-/
theorem numbered_handle_iff (hlocal : ∀ hop, localHop = some hop → HopRecord.hopIndex hop = 0)
    (h : walk.handle localHop upstream queryId depthBudget deadlineMs = some sent) :
    Numbered sent.hops ↔ ∀ hop rttMs reply, localHop = some hop →
      Answered upstream depthBudget deadlineMs rttMs reply → reply.hops.length ≤ 1 ∨
        ¬walk.Fits ⟨queryId, appendUpstream rttMs [hop] 0 reply.hops, reply.isPartial,
          (walk.merge reply).2⟩ := by
  cases localHop with
  | none =>
      rw [walk.eq_of_send h]
      refine iff_of_true ?_ fun hop _ _ hnone => by cases hnone
      intro i hop hhop
      cases hhop
  | some hop =>
      have halone : Numbered [hop] :=
        (numbered_appendUpstream_iff (hlocal hop rfl) 0 []).2 (Nat.zero_le 1)
      by_cases hanswered : ∃ rttMs reply, Answered upstream depthBudget deadlineMs rttMs reply
      · obtain ⟨rttMs, reply, hanswered⟩ := hanswered
        have hassemble := walk.assemble_of_answered hanswered queryId hop
        have hunique : ∀ rttMs' reply', Answered upstream depthBudget deadlineMs rttMs' reply' →
            rttMs = rttMs' ∧ reply = reply' := by
          rintro rttMs' reply' ⟨query', hsame, -, -, hreply'⟩
          obtain ⟨query, rfl, -, -, hreply⟩ := hanswered
          cases hsame
          exact Prod.mk.inj (Except.ok.inj (hreply.symm.trans hreply'))
        rcases walk.finish_cases h with ⟨hfits, rfl⟩ | ⟨hlong, rfl⟩
        · rw [draft, hassemble] at hfits ⊢
          rw [numbered_appendUpstream_iff (hlocal hop rfl)]
          constructor
          · rintro hshort hop' rttMs' reply' hsame hreply'
            obtain ⟨rfl, rfl⟩ := hunique rttMs' reply' hreply'
            exact .inl hshort
          · intro hall
            exact (hall hop rttMs reply rfl hanswered).resolve_right (not_not_intro hfits)
        · rw [draft, hops_truncate_assemble]
          refine iff_of_true halone ?_
          intro hop' rttMs' reply' hsame hreply'
          cases hsame
          obtain ⟨rfl, rfl⟩ := hunique rttMs' reply' hreply'
          rw [draft, hassemble] at hlong
          exact .inr hlong
      · push Not at hanswered
        refine iff_of_true ?_ fun _ rttMs reply _ hreply => absurd hreply (hanswered rttMs reply)
        have hhops := walk.hops_assemble_of_unanswered hanswered queryId hop
        rcases walk.finish_cases h with ⟨-, rfl⟩ | ⟨-, rfl⟩
        · rw [draft, hhops]
          exact halone
        · rw [draft, hops_truncate_assemble]
          exact halone

end Walk

/-! ## A chain of nodes -/

structure Station (H : Type) where
  localHop : Option H
  /-- How its own query ends if the upstream replies: in time, or not. -/
  uplink : Except QueryError UInt64
  nextQueryId : UInt32

def Station.ask (station : Station H)
    (upstream : UInt32 → UInt32 → UInt32 → Option (WalkReply H)) : Upstream H :=
  fun depthBudget deadlineMs =>
    match station.uplink with
    | .error e => .error e
    | .ok rttMs =>
        match upstream station.nextQueryId depthBudget deadlineMs with
        | none => .error .timeout
        | some reply => .ok (rttMs, reply)

namespace Walk

variable (walk : Walk H)

def answer : List (Station H) → UInt32 → UInt32 → UInt32 → Option (WalkReply H)
  | [], _, _, _ => none
  | [head], queryId, depthBudget, deadlineMs =>
      walk.handle head.localHop none queryId depthBudget deadlineMs
  | station :: next :: rest, queryId, depthBudget, deadlineMs =>
      walk.handle station.localHop (some (station.ask (answer (next :: rest)))) queryId depthBudget
        deadlineMs

def Served : List (Station H) → UInt32 → UInt32 → UInt32 → Prop
  | [], _, _, _ => True
  | [head], queryId, depthBudget, deadlineMs =>
      walk.Fits (walk.draft head.localHop none queryId depthBudget deadlineMs)
  | station :: next :: rest, queryId, depthBudget, deadlineMs =>
      walk.Fits (walk.draft station.localHop (some (station.ask (walk.answer (next :: rest)))) queryId
        depthBudget deadlineMs) ∧
      (station.localHop ≠ none → 1 < depthBudget.toNat →
        (∃ rttMs, station.uplink = .ok rttMs) ∧ forwardingOverheadMs.toNat < deadlineMs.toNat ∧
        Served (next :: rest) station.nextQueryId (saturatingSub depthBudget 1)
          (saturatingSub deadlineMs forwardingOverheadMs))

omit [HopRecord H] in
def reached (stations : List (Station H)) (depthBudget : UInt32) : List (Station H) :=
  stations.take (max depthBudget.toNat 1)

variable {queryId depthBudget deadlineMs : UInt32} {station : Station H}
  {rest stations : List (Station H)} {reply : WalkReply H}

theorem handle_of_fits {localHop : Option H} {upstream : Option (Upstream H)}
    (h : walk.Fits (walk.draft localHop upstream queryId depthBudget deadlineMs)) :
    walk.handle localHop upstream queryId depthBudget deadlineMs =
      some (walk.draft localHop upstream queryId depthBudget deadlineMs) := by
  obtain ⟨bytes, hencode, hlength⟩ := h
  have hsend : walk.send (walk.draft localHop upstream queryId depthBudget deadlineMs) =
      some (walk.draft localHop upstream queryId depthBudget deadlineMs) := by
    simp only [send, hencode]
  cases localHop with
  | none => exact hsend
  | some localHop =>
      simp only [handle, finish, hencode, if_neg (Nat.not_lt.2 hlength)]
      exact hsend

omit [HopRecord H] in
theorem reached_cons_of_le
    (h : depthBudget.toNat ≤ 1) : reached (station :: rest) depthBudget = [station] := by
  rw [reached, Nat.max_eq_right h, List.take_succ_cons, List.take_zero]

omit [HopRecord H] in
theorem reached_cons_of_lt (h : 1 < depthBudget.toNat) :
    reached (station :: rest) depthBudget =
      station :: reached rest (saturatingSub depthBudget 1) := by
  have hone : (1 : UInt32).toNat = 1 := rfl
  rw [reached, reached, toNat_saturatingSub, hone,
    show max depthBudget.toNat 1 = max (depthBudget.toNat - 1) 1 + 1 by omega, List.take_succ_cons]

omit [HopRecord H] in
theorem mem_reached_cons (station : Station H) (rest : List (Station H)) (depthBudget : UInt32) :
    station ∈ reached (station :: rest) depthBudget := by
  by_cases h : 1 < depthBudget.toNat
  · rw [reached_cons_of_lt h]
    exact List.mem_cons_self
  · rw [reached_cons_of_le (Nat.not_lt.1 h)]
    exact List.mem_cons_self

theorem assemble_of_le (query : Upstream H) (localHop : H) (h : depthBudget.toNat ≤ 1) :
    walk.assemble (some query) queryId depthBudget deadlineMs localHop =
      ⟨queryId, [localHop], true, some "depth budget exhausted"⟩ := by
  have hzero : saturatingSub depthBudget 1 = 0 := by
    rw [← UInt32.toNat_inj, toNat_saturatingSub]
    exact Nat.sub_eq_zero_of_le h
  simp [assemble, hzero]

omit [HopRecord H] in
def described (stations : List (Station H)) : List (Station H) :=
  stations.takeWhile (fun station => station.localHop.isSome)

omit [HopRecord H] in
theorem described_cons_of_none (h : station.localHop = none)
    (rest : List (Station H)) : described (station :: rest) = [] :=
  List.takeWhile_cons_of_neg (by simp [h])

omit [HopRecord H] in
theorem described_cons_of_some {hop : H} (h : station.localHop = some hop)
    (rest : List (Station H)) : described (station :: rest) = station :: described rest :=
  List.takeWhile_cons_of_pos (by simp [h])

def Reports (stations : List (Station H)) (depthBudget : UInt32) (reply : WalkReply H) : Prop :=
  reply.hops.length = (described (reached stations depthBudget)).length ∧
    (reply.isPartial = true ↔ max depthBudget.toNat 1 < stations.length ∨
      ∃ station ∈ reached stations depthBudget, station.localHop = none)

omit [HopRecord H] in
theorem reports_none (hlocal : station.localHop = none) (rest : List (Station H))
    (depthBudget : UInt32) (hhops : reply.hops = [])
    (hcut : reply.isPartial = true) : Reports (station :: rest) depthBudget reply := by
  have hfirst := mem_reached_cons station rest depthBudget
  refine ⟨?_, fun _ => .inr ⟨station, hfirst, hlocal⟩, fun _ => hcut⟩
  by_cases h : 1 < depthBudget.toNat
  · rw [reached_cons_of_lt h, described_cons_of_none hlocal, hhops, List.length_nil,
      List.length_nil]
  · rw [reached_cons_of_le (Nat.not_lt.1 h), described_cons_of_none hlocal, hhops, List.length_nil,
      List.length_nil]

omit [HopRecord H] in
theorem reports_cons {hop : H} (hlocal : station.localHop = some hop)
    (hdepth : 1 < depthBudget.toNat) {upstream : WalkReply H}
    (hrest : Reports rest (saturatingSub depthBudget 1) upstream)
    (hhops : reply.hops.length = upstream.hops.length + 1)
    (hcut : reply.isPartial = upstream.isPartial) :
    Reports (station :: rest) depthBudget reply := by
  refine ⟨?_, ?_⟩
  · rw [reached_cons_of_lt hdepth, described_cons_of_some hlocal, List.length_cons, hhops, hrest.1]
  · rw [hcut, hrest.2, reached_cons_of_lt hdepth, List.length_cons, toNat_saturatingSub,
      show (1 : UInt32).toNat = 1 from rfl]
    refine or_congr (by omega) ?_
    simp [hlocal]

/--
A walk lists the stations its budget reaches, up to one that cannot describe
itself, and says that it is partial when there are more.
-/
theorem answer_of_served (hne : stations ≠ [])
    (h : walk.Served stations queryId depthBudget deadlineMs) :
    ∃ reply, walk.answer stations queryId depthBudget deadlineMs = some reply ∧
      Reports stations depthBudget reply := by
  induction stations generalizing queryId depthBudget deadlineMs with
  | nil => exact absurd rfl hne
  | cons station rest ih =>
      cases rest with
      | nil =>
          refine ⟨_, walk.handle_of_fits h, ?_⟩
          cases hlocal : station.localHop with
          | none => exact reports_none hlocal [] depthBudget rfl rfl
          | some hop =>
              have hreached : reached [station] depthBudget = [station] :=
                List.take_of_length_le (by simp)
              refine ⟨?_, ?_⟩
              · rw [hreached, described_cons_of_some hlocal]
                rfl
              · simp [hreached, hlocal, draft, assemble]
      | cons next rest =>
          obtain ⟨hfits, hserved⟩ := h
          refine ⟨_, walk.handle_of_fits hfits, ?_⟩
          cases hlocal : station.localHop with
          | none => exact reports_none hlocal _ depthBudget rfl rfl
          | some hop =>
              by_cases hdepth : 1 < depthBudget.toNat
              · obtain ⟨⟨rttMs, huplink⟩, hdeadline, hrest⟩ := hserved (by simp [hlocal]) hdepth
                obtain ⟨reply, hreply, hreports⟩ := ih (by simp) hrest
                have hask : station.ask (walk.answer (next :: rest)) (saturatingSub depthBudget 1)
                    (saturatingSub deadlineMs forwardingOverheadMs) = .ok (rttMs, reply) := by
                  simp only [Station.ask, huplink, hreply]
                rw [draft, walk.assemble_of_answered ⟨_, rfl, hdepth, hdeadline, hask⟩]
                refine reports_cons hlocal hdepth hreports ?_ rfl
                rw [length_appendUpstream, List.length_singleton, Nat.add_comm]
              · rw [draft, walk.assemble_of_le _ hop (Nat.not_lt.1 hdepth)]
                refine ⟨?_, fun _ => .inl ?_, fun _ => rfl⟩
                · rw [reached_cons_of_le (Nat.not_lt.1 hdepth), described_cons_of_some hlocal]
                  rfl
                · rw [List.length_cons, List.length_cons]
                  omega

omit [HopRecord H] in
/-- The number of hops and the flag as the budget is documented. -/
def BudgetLaw (count : Nat) (depthBudget : UInt32) (reply : WalkReply H) : Prop :=
  reply.hops.length = min count (depthBudget.toNat + 1) ∧
    (reply.isPartial = true ↔ depthBudget.toNat + 1 < count)

omit [HopRecord H] in
theorem length_described_eq_iff :
    (described stations).length = stations.length ↔
      ∀ station ∈ stations, station.localHop ≠ none := by
  have hleading : described stations <+: stations := List.takeWhile_prefix _
  have hall : described stations = stations ↔ ∀ station ∈ stations, station.localHop.isSome :=
    List.takeWhile_eq_self_iff
  simp only [← Option.isSome_iff_ne_none]
  rw [← hall]
  exact ⟨hleading.eq_of_length, congrArg List.length⟩

omit [HopRecord H] in
/-- A budget counts the responder itself, so only a zero budget or one not used up keeps the law. -/
theorem budgetLaw_iff_of_reports (hne : stations ≠ []) (h : Reports stations depthBudget reply) :
    BudgetLaw stations.length depthBudget reply ↔
      (depthBudget = 0 ∨ stations.length ≤ depthBudget.toNat) ∧
        ∀ station ∈ reached stations depthBudget, station.localHop ≠ none := by
  have hcount : 0 < stations.length := List.length_pos_of_ne_nil hne
  have hreached : (reached stations depthBudget).length =
      min (max depthBudget.toNat 1) stations.length := List.length_take
  have hdescribed : (described (reached stations depthBudget)).length ≤
      (reached stations depthBudget).length := (List.takeWhile_prefix _).length_le
  have hzero : depthBudget = 0 ↔ depthBudget.toNat = 0 := by
    rw [← UInt32.toNat_inj, UInt32.toNat_zero]
  unfold BudgetLaw
  rw [h.1, h.2, ← length_described_eq_iff, hzero]
  constructor
  · rintro ⟨hlength, -⟩
    omega
  · rintro ⟨hbudget, hall⟩
    refine ⟨by omega, ?_⟩
    have hnone : ¬ ∃ station ∈ reached stations depthBudget, station.localHop = none := by
      rintro ⟨station, hstation, hlocal⟩
      exact length_described_eq_iff.1 hall station hstation hlocal
    rw [or_iff_left hnone]
    omega

end Walk

end Yggdrasil.Chain
