import Yggdrasil.Foundation.Keyed
import Yggdrasil.Foundation.Run
import Yggdrasil.Proxy.ProxyProtocol

/-!
# The socket in front of the HTTP/3 endpoint

The relay announces the client of a new flow in a datagram of its own.  The
wrapper around the socket takes these announcements out of every batch, moves
the datagrams behind them down to the front, and remembers for each relay
address the client announced last.

Instants and durations are in nanoseconds.
-/

namespace Yggdrasil.Proxy

open Foundation Ratatoskr

def mapTtl : Nat := 30 * 1000000000

structure MapEntry where
  realClient : SocketAddr
  lastSeen : Nat
  deriving DecidableEq, Repr

abbrev InterposeMap := AList (fun _ : SocketAddr => MapEntry)

namespace InterposeMap

def upsert (map : InterposeMap) (relayPeer realClient : SocketAddr) (now : Nat) : InterposeMap :=
  map.insert relayPeer ⟨realClient, now⟩

/-- An entry that has not been reaped yet may be too old all the same. -/
def lookup (map : InterposeMap) (relayPeer : SocketAddr) (now : Nat) : Option SocketAddr := do
  let entry ← AList.lookup relayPeer map
  if mapTtl < now - entry.lastSeen then none else some entry.realClient

def expired (map : InterposeMap) (now : Nat) (relayPeer : SocketAddr) : Bool :=
  (AList.lookup relayPeer map).any (fun entry => mapTtl < now - entry.lastSeen)

def reap (map : InterposeMap) (now : Nat) : InterposeMap :=
  eraseAll (map.keys.filter (expired map now)) map

theorem lookup_reap (map : InterposeMap) (now : Nat) (relayPeer : SocketAddr) :
    AList.lookup relayPeer (map.reap now) =
      (AList.lookup relayPeer map).filter (fun entry => now - entry.lastSeen ≤ mapTtl) := by
  rw [reap, lookup_eraseAll]
  cases hlookup : AList.lookup relayPeer map with
  | none => simp
  | some entry =>
      have hkey : relayPeer ∈ map.keys := mem_iff_lookup.2 ⟨entry, hlookup⟩
      have hexpired : relayPeer ∈ map.keys.filter (expired map now) ↔
          mapTtl < now - entry.lastSeen := by
        rw [List.mem_filter, expired, hlookup]
        simp [hkey]
      by_cases hold : mapTtl < now - entry.lastSeen
      · rw [if_pos (hexpired.2 hold), Option.filter_some_neg]
        exact decide_eq_false (Nat.not_le.2 hold)
      · rw [if_neg (mt hexpired.1 hold), Option.filter_some_pos]
        exact decide_eq_true (Nat.le_of_not_lt hold)

end InterposeMap

section

variable {μ ε : Type} {count capacity : Nat}

structure RecvMeta (μ : Type) where
  addr : SocketAddr
  len : Nat
  /-- What else the kernel tells of a datagram. -/
  other : μ
  deriving DecidableEq, Repr

structure Datagram (μ : Type) where
  bytes : Bytes
  recvMeta : RecvMeta μ
  deriving DecidableEq, Repr

structure Slots (μ : Type) (count capacity : Nat) where
  bufs : List Bytes
  metas : List (RecvMeta μ)
  bufs_length : bufs.length = count
  metas_length : metas.length = count
  buf_length : ∀ buf ∈ bufs, buf.length = capacity

structure Batch (μ : Type) (count capacity : Nat) where
  datagrams : List (Datagram μ)
  length_le : datagrams.length ≤ count
  len_eq : ∀ datagram ∈ datagrams, datagram.recvMeta.len = datagram.bytes.length
  len_le : ∀ datagram ∈ datagrams, datagram.bytes.length ≤ capacity

def overlay (bytes buf : Bytes) : Bytes := bytes ++ buf.drop bytes.length

theorem length_overlay {bytes buf : Bytes} (h : bytes.length ≤ buf.length) :
    (overlay bytes buf).length = buf.length := by
  simp only [overlay, List.length_append, List.length_drop]
  omega

@[simp] theorem take_overlay (bytes buf : Bytes) :
    (overlay bytes buf).take bytes.length = bytes := List.take_left

namespace Slots

def datagramAt (slots : Slots μ count capacity) (i : Nat) : Option (Datagram μ) := do
  let buf ← slots.bufs[i]?
  let m ← slots.metas[i]?
  some ⟨buf.take m.len, m⟩

/-- The slice `bufs[i][..len]`; none where the source would panic. -/
def slice (slots : Slots μ count capacity) (i len : Nat) : Option Bytes := do
  let buf ← slots.bufs[i]?
  if len ≤ buf.length then some (buf.take len) else none

def write (slots : Slots μ count capacity) (i : Nat) (bytes : Bytes) (m : RecvMeta μ) :
    Option (Slots μ count capacity) :=
  if h : i < count ∧ bytes.length ≤ capacity then
    some {
      bufs := slots.bufs.modify i (overlay bytes)
      metas := slots.metas.set i m
      bufs_length := by rw [List.length_modify, slots.bufs_length]
      metas_length := by rw [List.length_set, slots.metas_length]
      buf_length := by
        intro buf hbuf
        obtain ⟨j, hj, rfl⟩ := List.getElem_of_mem hbuf
        rw [List.length_modify] at hj
        have hold := slots.buf_length _ (List.getElem_mem hj)
        rw [List.getElem_modify]
        split
        · rw [length_overlay (hold.symm ▸ h.2), hold]
        · exact hold }
  else none

def fill (slots : Slots μ count capacity) (batch : Batch μ count capacity) :
    Slots μ count capacity where
  bufs := List.zipWith (fun datagram => overlay datagram.bytes) batch.datagrams slots.bufs ++
    slots.bufs.drop batch.datagrams.length
  metas := batch.datagrams.map Datagram.recvMeta ++ slots.metas.drop batch.datagrams.length
  bufs_length := by
    have h := batch.length_le
    simp only [List.length_append, List.length_zipWith, List.length_drop, slots.bufs_length]
    omega
  metas_length := by
    have h := batch.length_le
    simp only [List.length_append, List.length_map, List.length_drop, slots.metas_length]
    omega
  buf_length := by
    intro buf hbuf
    rcases List.mem_append.1 hbuf with hfilled | hrest
    · obtain ⟨i, hi, rfl⟩ := List.getElem_of_mem hfilled
      rw [List.length_zipWith, Nat.lt_min] at hi
      have hold := slots.buf_length _ (List.getElem_mem hi.2)
      have hle := batch.len_le _ (List.getElem_mem hi.1)
      rw [List.getElem_zipWith, length_overlay (hold.symm ▸ hle)]
      exact hold
    · exact slots.buf_length buf (List.mem_of_mem_drop hrest)

variable {i : Nat}

theorem datagramAt_fill (slots : Slots μ count capacity) (batch : Batch μ count capacity)
    (hi : i < batch.datagrams.length) :
    (slots.fill batch).datagramAt i = some batch.datagrams[i] := by
  have hcount : i < slots.bufs.length := by
    rw [slots.bufs_length]
    exact Nat.lt_of_lt_of_le hi batch.length_le
  have hbuf : (slots.fill batch).bufs[i]? =
      some (overlay batch.datagrams[i].bytes slots.bufs[i]) := by
    rw [fill, List.getElem?_append_left (by rw [List.length_zipWith]; omega),
      List.getElem?_eq_getElem (by rw [List.length_zipWith]; omega), List.getElem_zipWith]
  have hmeta : (slots.fill batch).metas[i]? = some batch.datagrams[i].recvMeta := by
    rw [fill, List.getElem?_append_left (by rwa [List.length_map]), List.getElem?_map,
      List.getElem?_eq_getElem hi]
    rfl
  rw [datagramAt, hbuf, hmeta]
  change some (Datagram.mk (List.take _ _) _) = _
  rw [batch.len_eq _ (List.getElem_mem hi), take_overlay]

theorem slice_of_datagramAt {slots : Slots μ count capacity} {datagram : Datagram μ}
    (h : slots.datagramAt i = some datagram) (hlen : datagram.recvMeta.len ≤ capacity) :
    slots.metas[i]? = some datagram.recvMeta ∧
      slots.slice i datagram.recvMeta.len = some datagram.bytes := by
  unfold datagramAt at h
  obtain ⟨buf, hbuf, h⟩ := Option.bind_eq_some_iff.1 h
  obtain ⟨m, hm, h⟩ := Option.bind_eq_some_iff.1 h
  cases h
  refine ⟨hm, ?_⟩
  have hlength := slots.buf_length buf (List.mem_of_getElem? hbuf)
  rw [slice, hbuf]
  exact if_pos (hlength ▸ hlen)

theorem exists_write (slots : Slots μ count capacity) {datagram : Datagram μ} (hi : i < count)
    (heq : datagram.recvMeta.len = datagram.bytes.length) (hle : datagram.bytes.length ≤ capacity) :
    ∃ written, slots.write i datagram.bytes datagram.recvMeta = some written ∧
      written.datagramAt i = some datagram ∧
      ∀ j, j ≠ i → written.datagramAt j = slots.datagramAt j := by
  refine ⟨_, dif_pos ⟨hi, hle⟩, ?_, ?_⟩
  · have hbuf : i < slots.bufs.length := slots.bufs_length.symm ▸ hi
    have hmeta : i < slots.metas.length := slots.metas_length.symm ▸ hi
    simp only [datagramAt, List.getElem?_modify_eq, List.getElem?_set_self hmeta,
      List.getElem?_eq_getElem hbuf]
    change some (Datagram.mk (List.take _ _) _) = _
    rw [heq, take_overlay]
  · intro j hj
    simp only [datagramAt, List.getElem?_modify_ne _ _ (Ne.symm hj),
      List.getElem?_set_ne (Ne.symm hj)]

end Slots

/-! ## Receiving -/

/-- An answer of the inner socket; the clock gives the instant the walk comes to each slot. -/
inductive InnerPoll (μ ε : Type) (count capacity : Nat) where
  | pending
  | error (e : ε)
  | ok (batch : Batch μ count capacity) (clock : Nat → Nat)

inductive PollRecv (ε : Type) where
  | pending
  | error (e : ε)
  | ok (n : Nat)
  deriving DecidableEq, Repr

structure Walk (μ : Type) (count capacity : Nat) where
  slots : Slots μ count capacity
  writeIdx : Nat
  map : InterposeMap

def Walk.copyDown (walk : Walk μ count capacity) (readIdx : Nat) (datagramBytes : Bytes)
    (m : RecvMeta μ) : Option (Slots μ count capacity) :=
  if readIdx ≠ walk.writeIdx then walk.slots.write walk.writeIdx datagramBytes m
  else some walk.slots

def walkStep (clock : Nat → Nat) (walk : Walk μ count capacity) (readIdx : Nat) :
    Option (Walk μ count capacity) := do
  let m ← walk.slots.metas[readIdx]?
  let datagramBytes ← walk.slots.slice readIdx m.len
  match decodeV2FromDatagram datagramBytes with
  | some endpoints =>
      some { walk with map := walk.map.upsert m.addr endpoints.client (clock readIdx) }
  | none =>
      let slots ← walk.copyDown readIdx datagramBytes m
      some { walk with slots := slots, writeIdx := walk.writeIdx + 1 }

def walk (clock : Nat → Nat) (n : Nat) (slots : Slots μ count capacity) (map : InterposeMap) :
    Option (Walk μ count capacity) :=
  (List.range n).foldlM (walkStep clock) ⟨slots, 0, map⟩

structure Polled (μ ε : Type) (count capacity : Nat) where
  result : PollRecv ε
  slots : Slots μ count capacity
  map : InterposeMap
  /-- Answers of the inner socket that are left for later calls. -/
  unread : List (InnerPoll μ ε count capacity)

/-- A batch of nothing but announcements is followed by the next one. -/
def pollRecv (slots : Slots μ count capacity) (map : InterposeMap) :
    List (InnerPoll μ ε count capacity) → Option (Polled μ ε count capacity)
  | [] => some ⟨.pending, slots, map, []⟩
  | .pending :: inner => some ⟨.pending, slots, map, inner⟩
  | .error e :: inner => some ⟨.error e, slots, map, inner⟩
  | .ok batch clock :: inner => do
      let n := batch.datagrams.length
      if n = 0 then some ⟨.ok 0, slots.fill batch, map, inner⟩
      else
        let walked ← walk clock n (slots.fill batch) map
        if 0 < walked.writeIdx then some ⟨.ok walked.writeIdx, walked.slots, walked.map, inner⟩
        else pollRecv walked.slots walked.map inner

def Datagram.isPlain (datagram : Datagram μ) : Bool :=
  (decodeV2FromDatagram datagram.bytes).isNone

def announced (arrival : Datagram μ × Nat) : Option (SocketAddr × MapEntry) :=
  (decodeV2FromDatagram arrival.1.bytes).map fun endpoints =>
    (arrival.1.recvMeta.addr, ⟨endpoints.client, arrival.2⟩)

def lastHeard (arrivals : List (Datagram μ × Nat)) (source : SocketAddr) : Option MapEntry :=
  (((arrivals.filterMap announced).filter (fun entry => entry.1 = source)).getLast?).map Prod.snd

def timed (clock : Nat → Nat) (datagrams : List (Datagram μ)) : List (Datagram μ × Nat) :=
  datagrams.mapIdx (fun i datagram => (datagram, clock i))

def InnerPoll.arrivals : InnerPoll μ ε count capacity → List (Datagram μ × Nat)
  | .ok batch clock => timed clock batch.datagrams
  | _ => []

theorem map_fst_timed (clock : Nat → Nat) (datagrams : List (Datagram μ)) :
    (timed clock datagrams).map Prod.fst = datagrams := by
  apply List.ext_getElem
  · simp [timed]
  · intro i hi hi'
    simp [timed]

theorem lastHeard_concat (arrivals : List (Datagram μ × Nat)) (arrival : Datagram μ × Nat)
    (source : SocketAddr) :
    lastHeard (arrivals ++ [arrival]) source =
      (((announced arrival).filter (fun entry => entry.1 = source)).map Prod.snd).or
        (lastHeard arrivals source) := by
  unfold lastHeard
  rw [List.filterMap_append, List.filter_append]
  cases hnews : announced arrival with
  | none => simp [List.filterMap_cons_none hnews]
  | some entry =>
      rw [List.filterMap_cons_some hnews, List.filterMap_nil]
      by_cases hsource : entry.1 = source
      · simp [Option.filter, hsource]
      · simp [Option.filter, hsource]

theorem lastHeard_append (first second : List (Datagram μ × Nat)) (source : SocketAddr) :
    lastHeard (first ++ second) source =
      (lastHeard second source).or (lastHeard first source) := by
  induction second using List.reverseRecOn with
  | nil => simp [lastHeard]
  | append_singleton second arrival ih =>
      rw [← List.append_assoc, lastHeard_concat, lastHeard_concat, ih, Option.or_assoc]

structure Compacted (batch : Batch μ count capacity) (clock : Nat → Nat) (map : InterposeMap)
    (i : Nat) (walk : Walk μ count capacity) : Prop where
  kept : (List.range walk.writeIdx).map walk.slots.datagramAt =
    ((batch.datagrams.take i).filter Datagram.isPlain).map some
  ahead : ∀ j, i ≤ j → ∀ hj : j < batch.datagrams.length,
    walk.slots.datagramAt j = some batch.datagrams[j]
  heard : ∀ source, AList.lookup source walk.map =
    (lastHeard (timed clock (batch.datagrams.take i)) source).or (AList.lookup source map)

theorem Compacted.writeIdx_le {batch : Batch μ count capacity} {clock : Nat → Nat}
    {map : InterposeMap} {i : Nat} {walk : Walk μ count capacity}
    (h : Compacted batch clock map i walk) : walk.writeIdx ≤ i := by
  have hlength := congrArg List.length h.kept
  rw [List.length_map, List.length_range, List.length_map] at hlength
  rw [hlength]
  exact (List.length_filter_le _ _).trans (List.length_take_le _ _)

theorem timed_take_succ (clock : Nat → Nat) {datagrams : List (Datagram μ)} {i : Nat}
    (hi : i < datagrams.length) :
    timed clock (datagrams.take (i + 1)) =
      timed clock (datagrams.take i) ++ [(datagrams[i], clock i)] := by
  rw [List.take_succ_eq_append_getElem hi, timed, List.mapIdx_concat,
    List.length_take_of_le (Nat.le_of_lt hi)]
  rfl

theorem lookup_upsert (map : InterposeMap) (source relayPeer realClient : SocketAddr) (now : Nat) :
    AList.lookup source (map.upsert relayPeer realClient now) =
      if relayPeer = source then some ⟨realClient, now⟩ else AList.lookup source map := by
  split
  next hsame => rw [← hsame, InterposeMap.upsert, AList.lookup_insert]
  next hother => rw [InterposeMap.upsert, AList.lookup_insert_ne (Ne.symm hother)]

section

variable {batch : Batch μ count capacity} {clock : Nat → Nat} {map : InterposeMap} {i : Nat}
  {walk : Walk μ count capacity}

theorem Compacted.exists_copyDown (h : Compacted batch clock map i walk)
    (hi : i < batch.datagrams.length) :
    ∃ slots, walk.copyDown i batch.datagrams[i].bytes batch.datagrams[i].recvMeta = some slots ∧
      slots.datagramAt walk.writeIdx = some batch.datagrams[i] ∧
      ∀ j, j ≠ walk.writeIdx → slots.datagramAt j = walk.slots.datagramAt j := by
  have hmem := List.getElem_mem hi
  unfold Walk.copyDown
  by_cases hsame : i = walk.writeIdx
  · rw [if_neg (not_not.2 hsame)]
    exact ⟨walk.slots, rfl, hsame ▸ h.ahead i le_rfl hi, fun _ _ => rfl⟩
  · rw [if_pos hsame]
    have hcount := Nat.lt_of_lt_of_le hi batch.length_le
    exact walk.slots.exists_write (Nat.lt_of_le_of_lt h.writeIdx_le hcount) (batch.len_eq _ hmem)
      (batch.len_le _ hmem)

theorem Compacted.announced (h : Compacted batch clock map i walk)
    (hi : i < batch.datagrams.length) {endpoints : ProxyEndpoints}
    (hdecode : decodeV2FromDatagram batch.datagrams[i].bytes = some endpoints) :
    Compacted batch clock map (i + 1) { walk with
      map := walk.map.upsert batch.datagrams[i].recvMeta.addr endpoints.client (clock i) } := by
  have hplain : Datagram.isPlain batch.datagrams[i] = false := by
    simp [Datagram.isPlain, hdecode]
  refine ⟨?_, ?_, ?_⟩
  · rw [List.take_succ_eq_append_getElem hi, List.filter_append, List.filter_singleton, hplain]
    simpa using h.kept
  · exact fun j hij => h.ahead j (Nat.le_of_succ_le hij)
  · intro source
    rw [timed_take_succ clock hi, lastHeard_concat, lookup_upsert, h.heard]
    by_cases hsource : batch.datagrams[i].recvMeta.addr = source
    · simp [Proxy.announced, hdecode, hsource, Option.filter]
    · simp [Proxy.announced, hdecode, hsource, Option.filter]

theorem Compacted.passed (h : Compacted batch clock map i walk) (hi : i < batch.datagrams.length)
    (hdecode : decodeV2FromDatagram batch.datagrams[i].bytes = none)
    {slots : Slots μ count capacity}
    (hwritten : slots.datagramAt walk.writeIdx = some batch.datagrams[i])
    (hothers : ∀ j, j ≠ walk.writeIdx → slots.datagramAt j = walk.slots.datagramAt j) :
    Compacted batch clock map (i + 1) ⟨slots, walk.writeIdx + 1, walk.map⟩ := by
  have hplain : Datagram.isPlain batch.datagrams[i] = true := by
    simp [Datagram.isPlain, hdecode]
  refine ⟨?_, ?_, ?_⟩
  · have hkept : (List.range walk.writeIdx).map slots.datagramAt =
        (List.range walk.writeIdx).map walk.slots.datagramAt :=
      List.map_congr_left fun j hj => hothers j (Nat.ne_of_lt (List.mem_range.1 hj))
    rw [List.range_succ, List.map_append, hkept, h.kept, List.take_succ_eq_append_getElem hi,
      List.filter_append, List.filter_singleton, hplain, List.map_append, List.map_singleton,
      hwritten]
    rfl
  · intro j hij hj
    have hwrite := h.writeIdx_le
    exact (hothers j (by omega)).trans (h.ahead j (Nat.le_of_succ_le hij) hj)
  · intro source
    rw [timed_take_succ clock hi, lastHeard_concat]
    simpa [Proxy.announced, hdecode] using h.heard source

theorem Compacted.step (h : Compacted batch clock map i walk)
    (hi : i < batch.datagrams.length) :
    ∃ next, walkStep clock walk i = some next ∧ Compacted batch clock map (i + 1) next := by
  have hmem := List.getElem_mem hi
  have hle := batch.len_eq _ hmem ▸ batch.len_le _ hmem
  obtain ⟨hmeta, hslice⟩ := Slots.slice_of_datagramAt (h.ahead i le_rfl hi) hle
  unfold walkStep
  rw [hmeta, Option.bind_eq_bind, Option.bind_some, hslice, Option.bind_eq_bind, Option.bind_some]
  cases hdecode : decodeV2FromDatagram batch.datagrams[i].bytes with
  | some endpoints => exact ⟨_, rfl, h.announced hi hdecode⟩
  | none =>
      obtain ⟨slots, hslots, hwritten, hothers⟩ := h.exists_copyDown hi
      refine ⟨_, ?_, h.passed hi hdecode hwritten hothers⟩
      dsimp only
      rw [hslots]
      rfl

end

theorem exists_walk (batch : Batch μ count capacity) (clock : Nat → Nat)
    (slots : Slots μ count capacity) (map : InterposeMap) :
    ∃ walked, walk clock batch.datagrams.length (slots.fill batch) map = some walked ∧
      Compacted batch clock map batch.datagrams.length walked := by
  have walks : ∀ i ≤ batch.datagrams.length, ∃ walked,
      walk clock i (slots.fill batch) map = some walked ∧ Compacted batch clock map i walked := by
    intro i
    induction i with
    | zero =>
        intro _
        refine ⟨_, rfl, rfl, fun j _ hj => slots.datagramAt_fill batch hj, fun source => ?_⟩
        simp [lastHeard, timed]
    | succ i ih =>
        intro hi
        obtain ⟨walked, hwalked, hcompacted⟩ := ih (Nat.le_of_succ_le hi)
        obtain ⟨next, hnext, hcompacted⟩ := hcompacted.step hi
        refine ⟨next, ?_, hcompacted⟩
        rw [walk, List.range_succ, List.foldlM_append]
        rw [walk] at hwalked
        rw [hwalked]
        simpa using hnext
  exact walks _ le_rfl

/-! ## One call -/

def Polled.surfaced (out : Polled μ ε count capacity) : List (Datagram μ) :=
  match out.result with
  | .ok n => (List.range n).filterMap out.slots.datagramAt
  | _ => []

structure Served (map : InterposeMap) (read : List (InnerPoll μ ε count capacity))
    (out : Polled μ ε count capacity) : Prop where
  surfaced : out.surfaced =
    ((read.flatMap InnerPoll.arrivals).map Prod.fst).filter Datagram.isPlain
  heard : ∀ source, AList.lookup source out.map =
    (lastHeard (read.flatMap InnerPoll.arrivals) source).or (AList.lookup source map)
  last : ∀ n, out.result = .ok n → ∃ before batch clock, read = before ++ [.ok batch clock] ∧
    (List.range n).map out.slots.datagramAt =
      (batch.datagrams.filter Datagram.isPlain).map some ∧
    (n = 0 → batch.datagrams = [])

theorem filterMap_of_map_eq {α β : Type} {f : α → Option β} {items : List α} {results : List β}
    (h : items.map f = results.map some) : items.filterMap f = results := by
  have hid := congrArg (List.filterMap id) h
  simpa [List.filterMap_map] using hid

variable {walked : Walk μ count capacity} {read : List (InnerPoll μ ε count capacity)}

theorem served_batch {batch : Batch μ count capacity} {clock : Nat → Nat} {map : InterposeMap}
    (h : Compacted batch clock map batch.datagrams.length walked)
    (inner : List (InnerPoll μ ε count capacity))
    (hempty : walked.writeIdx = 0 → batch.datagrams = []) :
    Served map [.ok batch clock] ⟨.ok walked.writeIdx, walked.slots, walked.map, inner⟩ := by
  have hkept := h.kept
  have hheard := h.heard
  rw [List.take_length] at hkept hheard
  refine ⟨?_, ?_, ?_⟩
  · rw [List.flatMap_singleton, InnerPoll.arrivals, map_fst_timed]
    exact filterMap_of_map_eq hkept
  · rw [List.flatMap_singleton]
    exact hheard
  · rintro n ⟨⟩
    exact ⟨[], batch, clock, rfl, hkept, hempty⟩

theorem served_nothing {map : InterposeMap} {slots : Slots μ count capacity}
    {inner : List (InnerPoll μ ε count capacity)} {result : PollRecv ε}
    (hread : read.flatMap InnerPoll.arrivals = []) (hresult : ∀ n, result ≠ .ok n) :
    Served map read ⟨result, slots, map, inner⟩ := by
  refine ⟨?_, ?_, fun n hn => absurd hn (hresult n)⟩
  · rw [hread]
    cases result with
    | ok n => exact absurd rfl (hresult n)
    | pending => rfl
    | error e => rfl
  · intro source
    rw [hread]
    rfl

theorem Served.cons {batch : Batch μ count capacity} {clock : Nat → Nat} {map : InterposeMap}
    {out : Polled μ ε count capacity} (h : Compacted batch clock map batch.datagrams.length walked)
    (hnone : walked.writeIdx = 0)
    (hrest : Served walked.map read out) : Served map (.ok batch clock :: read) out := by
  have hkept := h.kept
  have hheard := h.heard
  rw [List.take_length] at hkept hheard
  have hplain : batch.datagrams.filter Datagram.isPlain = [] := by
    rw [hnone] at hkept
    exact List.map_eq_nil_iff.1 hkept.symm
  refine ⟨?_, ?_, ?_⟩
  · rw [List.flatMap_cons, List.map_append, List.filter_append, InnerPoll.arrivals, map_fst_timed,
      hplain, List.nil_append]
    exact hrest.surfaced
  · intro source
    rw [hrest.heard, hheard, List.flatMap_cons, lastHeard_append, Option.or_assoc]
    rfl
  · intro n hn
    obtain ⟨before, last, clock', rfl, hlast⟩ := hrest.last n hn
    exact ⟨.ok batch clock :: before, last, clock', rfl, hlast⟩

theorem exists_pollRecv (slots : Slots μ count capacity) (map : InterposeMap)
    (inner : List (InnerPoll μ ε count capacity)) :
    ∃ out read, pollRecv slots map inner = some out ∧ inner = read ++ out.unread ∧
      Served map read out := by
  induction inner generalizing slots map with
  | nil => exact ⟨_, [], rfl, rfl, served_nothing rfl nofun⟩
  | cons answer inner ih =>
      cases answer with
      | pending => exact ⟨_, [.pending], rfl, rfl, served_nothing rfl nofun⟩
      | error e => exact ⟨_, [.error e], rfl, rfl, served_nothing rfl nofun⟩
      | ok batch clock =>
          obtain ⟨walked, hwalked, hcompacted⟩ := exists_walk batch clock slots map
          by_cases hzero : batch.datagrams.length = 0
          · have hempty := List.eq_nil_of_length_eq_zero hzero
            have hstart : walked = ⟨slots.fill batch, 0, map⟩ := by
              rw [hzero] at hwalked
              exact (Option.some.inj hwalked).symm
            have hserved := served_batch hcompacted inner fun _ => hempty
            rw [hstart] at hserved
            exact ⟨_, [.ok batch clock], if_pos hzero, rfl, hserved⟩
          · by_cases hsome : 0 < walked.writeIdx
            · refine ⟨_, [.ok batch clock], ?_, rfl,
                served_batch hcompacted inner fun h => absurd h (Nat.ne_of_gt hsome)⟩
              rw [pollRecv, if_neg hzero, hwalked]
              exact if_pos hsome
            · obtain ⟨out, read, hout, hinner, hserved⟩ := ih walked.slots walked.map
              refine ⟨out, .ok batch clock :: read, ?_, by rw [List.cons_append, ← hinner],
                hserved.cons hcompacted (Nat.eq_zero_of_not_pos hsome)⟩
              rw [pollRecv, if_neg hzero, hwalked]
              exact (if_neg hsome).trans hout

variable (μ ε) in
inductive InterposeEvent where
  /-- A call with slots of the caller's, and what the inner socket answers meanwhile. -/
  | recv {count capacity : Nat} (slots : Slots μ count capacity)
      (inner : List (InnerPoll μ ε count capacity))
  | reap (now : Nat)

def consumed (inner unread : List (InnerPoll μ ε count capacity)) :
    List (InnerPoll μ ε count capacity) :=
  inner.take (inner.length - unread.length)

@[simp] theorem consumed_append (read unread : List (InnerPoll μ ε count capacity)) :
    consumed (read ++ unread) unread = read := by
  simp [consumed]

def ReadLast (inner unread : List (InnerPoll μ ε count capacity))
    (batch : Batch μ count capacity) : Prop :=
  ∃ before clock, consumed inner unread = before ++ [.ok batch clock]

structure Interposed (μ : Type) where
  map : InterposeMap
  arrived : List (Datagram μ × Nat)
  surfaced : List (Datagram μ)

namespace Interposed

def start : Interposed μ := ⟨∅, [], []⟩

def step (socket : Interposed μ) : InterposeEvent μ ε → Option (Interposed μ)
  | .recv slots inner =>
      (pollRecv slots socket.map inner).map fun out =>
        ⟨out.map, socket.arrived ++ (consumed inner out.unread).flatMap InnerPoll.arrivals,
          socket.surfaced ++ out.surfaced⟩
  | .reap now => some { socket with map := socket.map.reap now }

def plainArrived (socket : Interposed μ) : List (Datagram μ) :=
  (socket.arrived.map Prod.fst).filter Datagram.isPlain

theorem step_recv (socket : Interposed μ) (slots : Slots μ count capacity)
    (inner : List (InnerPoll μ ε count capacity)) :
    ∃ next, socket.step (.recv slots inner) = some next ∧
      ∃ arrivals surfaced, next.arrived = socket.arrived ++ arrivals ∧
        next.surfaced = socket.surfaced ++ surfaced ∧
        surfaced = (arrivals.map Prod.fst).filter Datagram.isPlain ∧
        ∀ source, AList.lookup source next.map =
          (lastHeard arrivals source).or (AList.lookup source socket.map) := by
  obtain ⟨out, read, hout, hinner, hserved⟩ := exists_pollRecv slots socket.map inner
  refine ⟨_, by rw [step, hout]; rfl, read.flatMap InnerPoll.arrivals, out.surfaced, ?_, rfl,
    hserved.surfaced, hserved.heard⟩
  dsimp only
  rw [hinner, consumed_append]

/-- Entries are the last announcements, of which some that are stale may be gone. -/
structure Faithful (stale : MapEntry → Prop) (socket : Interposed μ) : Prop where
  surfaced : socket.surfaced = socket.plainArrived
  heard : ∀ source, AList.lookup source socket.map = lastHeard socket.arrived source ∨
    AList.lookup source socket.map = none ∧
      ∃ entry, lastHeard socket.arrived source = some entry ∧ stale entry

def ReapsStale (stale : MapEntry → Prop) (event : InterposeEvent μ ε) : Prop :=
  ∀ now, event = .reap now → ∀ entry, mapTtl < now - entry.lastSeen → stale entry

variable {stale : MapEntry → Prop} {socket : Interposed μ} {events : List (InterposeEvent μ ε)}

theorem Faithful.recv {next : Interposed μ} {slots : Slots μ count capacity}
    {inner : List (InnerPoll μ ε count capacity)} (h : Faithful stale socket)
    (hstep : socket.step (.recv slots inner) = some next) : Faithful stale next := by
  obtain ⟨next', hnext, arrivals, surfaced, harrived, hsurfaced, hplain, hheard⟩ :=
    step_recv socket slots inner
  cases hnext.symm.trans hstep
  refine ⟨?_, fun source => ?_⟩
  · rw [hsurfaced, plainArrived, harrived, List.map_append, List.filter_append, hplain,
      h.surfaced, plainArrived]
  · rw [harrived, lastHeard_append, hheard]
    cases lastHeard arrivals source with
    | some entry => exact .inl rfl
    | none => exact h.heard source

theorem Faithful.reap (h : Faithful stale socket) {now : Nat}
    (hstale : ∀ entry, mapTtl < now - entry.lastSeen → stale entry) :
    Faithful stale { socket with map := socket.map.reap now } := by
  refine ⟨h.surfaced, fun source => ?_⟩
  dsimp only
  rw [InterposeMap.lookup_reap]
  rcases h.heard source with hsame | ⟨hnone, hgone⟩
  · rw [hsame]
    cases lastHeard socket.arrived source with
    | none => exact .inl rfl
    | some entry =>
        by_cases hfresh : now - entry.lastSeen ≤ mapTtl
        · exact .inl (Option.filter_some_pos (decide_eq_true hfresh))
        · refine .inr ⟨Option.filter_some_neg (decide_eq_false hfresh), entry, rfl, ?_⟩
          exact hstale entry (Nat.lt_of_not_le hfresh)
  · rw [hnone]
    exact .inr ⟨rfl, hgone⟩

theorem Faithful.step {next : Interposed μ} {event : InterposeEvent μ ε} (h : Faithful stale socket)
    (hstale : ReapsStale stale event)
    (hstep : socket.step event = some next) : Faithful stale next := by
  cases event with
  | recv slots inner => exact h.recv hstep
  | reap now =>
      cases hstep
      exact h.reap (hstale now rfl)

theorem Faithful.run (hstale : ∀ event ∈ events, ReapsStale stale event)
    (hrun : Foundation.run Interposed.step start events = some socket) : Faithful stale socket := by
  have hguard : Along Interposed.step (fun _ => ReapsStale stale) start events :=
    along_of_mem Interposed.step hstale start
  have hstart : Faithful stale (start : Interposed μ) := ⟨rfl, fun source => .inl rfl⟩
  exact run_invariant_of_guard Interposed.step (fun _ _ _ h hevent hstep => h.step hevent hstep)
    hstart hguard hrun

theorem exists_step (socket : Interposed μ) (event : InterposeEvent μ ε) :
    ∃ next, socket.step event = some next := by
  cases event with
  | recv slots inner =>
      obtain ⟨next, hnext, -⟩ := step_recv socket slots inner
      exact ⟨next, hnext⟩
  | reap now => exact ⟨_, rfl⟩

/-- What a handler is told at an instant after all reaper passes. -/
theorem lookup_eq_lastHeard (hrun : Foundation.run Interposed.step start events = some socket)
    {now : Nat} (hreaps : ∀ before, .reap before ∈ events → before ≤ now) (source : SocketAddr) :
    socket.map.lookup source now =
      (lastHeard socket.arrived source).bind fun entry =>
        if mapTtl < now - entry.lastSeen then none else some entry.realClient := by
  have hstale : ∀ event ∈ events,
      ReapsStale (fun entry => mapTtl < now - entry.lastSeen) event := by
    rintro event hevent before rfl entry hold
    have hbefore := hreaps before hevent
    omega
  rw [InterposeMap.lookup]
  rcases (Faithful.run hstale hrun).heard source with hsame | ⟨hnone, entry, hlast, hold⟩
  · rw [hsame]
    rfl
  · rw [hnone, hlast]
    exact (if_pos hold).symm

def toyRelay (port : UInt16) : SocketAddr := ⟨.v4 0xc6336401, port⟩

def toyClient : SocketAddr := ⟨.v4 0xcb007107, 54321⟩

/-- An announcement and a datagram of the same flow, read in one call. -/
def toyCall (port : UInt16) (now : Nat) : InterposeEvent Unit Unit :=
  let relay := toyRelay port
  let slots : Slots Unit 2 28 := {
    bufs := [List.replicate 28 0, List.replicate 28 0]
    metas := [⟨relay, 0, ()⟩, ⟨relay, 0, ()⟩]
    bufs_length := rfl
    metas_length := rfl
    buf_length := by decide }
  let batch : Batch Unit 2 28 := {
    datagrams := [⟨encodeV2 toyClient relay, ⟨relay, 28, ()⟩⟩, ⟨[0xc0, 0x01], ⟨relay, 2, ()⟩⟩]
    length_le := le_rfl
    len_eq := by simp [relay, toyRelay, toyClient, encodeV2, v2Sig]
    len_le := by simp [relay, toyRelay, toyClient, encodeV2, v2Sig] }
  .recv slots [.ok batch fun _ => now]

/-- Of two announcements the reaper takes the older one. -/
theorem lookup_eq_lastHeard_reaped :
    ∃ socket : Interposed Unit,
      Foundation.run step start [toyCall 1 0, toyCall 2 mapTtl, .reap (mapTtl + 1)] =
        some socket ∧
      lastHeard socket.arrived (toyRelay 1) = some ⟨toyClient, 0⟩ ∧
      socket.map.lookup (toyRelay 1) (mapTtl + 2) = none ∧
      socket.map.lookup (toyRelay 2) (mapTtl + 2) = some toyClient := by
  obtain ⟨socket, hrun, hold, hnew⟩ : ∃ socket : Interposed Unit,
      Foundation.run step start [toyCall 1 0, toyCall 2 mapTtl, .reap (mapTtl + 1)] =
        some socket ∧
      lastHeard socket.arrived (toyRelay 1) = some ⟨toyClient, 0⟩ ∧
      lastHeard socket.arrived (toyRelay 2) = some ⟨toyClient, mapTtl⟩ :=
    ⟨_, rfl, by decide, by decide⟩
  have hreaps : ∀ before, .reap before ∈
      [toyCall 1 0, toyCall 2 mapTtl, .reap (mapTtl + 1)] → before ≤ mapTtl + 2 := by
    simp [toyCall]
  refine ⟨socket, hrun, hold, ?_, ?_⟩
  · rw [lookup_eq_lastHeard hrun hreaps, hold]
    rfl
  · rw [lookup_eq_lastHeard hrun hreaps, hnew]
    rfl

/--
The endpoint is handed all datagrams that are no announcement, in order, and
nothing else; each call hands over those of the last batch it read, and says
that there are none only after the inner socket has.  The map holds the last
announcement of each source, as long as the reaper leaves it there.
-/
theorem interpose_filter_exact (events : List (InterposeEvent μ ε)) :
    ∃ socket, Foundation.run Interposed.step start events = some socket ∧
      socket.surfaced = (socket.arrived.map Prod.fst).filter Datagram.isPlain ∧
      (∀ source entry, AList.lookup source socket.map = some entry →
        lastHeard socket.arrived source = some entry) ∧
      ((∀ now, .reap now ∉ events) →
        ∀ source, AList.lookup source socket.map = lastHeard socket.arrived source) ∧
      ∀ (count capacity : Nat) (slots : Slots μ count capacity)
        (inner : List (InnerPoll μ ε count capacity)),
        ∃ out, pollRecv slots socket.map inner = some out ∧
          (∀ n, out.result = .ok n → 0 < n → ∃ batch, ReadLast inner out.unread batch ∧
            (List.range n).map out.slots.datagramAt =
              (batch.datagrams.filter Datagram.isPlain).map some) ∧
          (out.result = .ok 0 → ∃ batch, ReadLast inner out.unread batch ∧
            batch.datagrams = []) := by
  obtain ⟨socket, hrun⟩ := exists_run Interposed.step exists_step (start : Interposed μ) events
  refine ⟨socket, hrun, ?_, ?_, ?_, ?_⟩
  · have hany : ∀ event ∈ events, ReapsStale (fun _ => True) event :=
      fun _ _ _ _ _ _ => trivial
    exact (Faithful.run hany hrun).surfaced
  · intro source entry hentry
    have hany : ∀ event ∈ events, ReapsStale (fun _ => True) event :=
      fun _ _ _ _ _ _ => trivial
    rcases (Faithful.run hany hrun).heard source with hsame | ⟨hnone, -⟩
    · rw [← hsame, hentry]
    · cases hnone.symm.trans hentry
  · intro hnever source
    have hnone : ∀ event ∈ events, ReapsStale (fun _ => False) event :=
      fun event hevent now hnow => absurd (hnow ▸ hevent) (hnever now)
    rcases (Faithful.run hnone hrun).heard source with hsame | ⟨-, -, -, hstale⟩
    · exact hsame
    · exact hstale.elim
  · intro count capacity slots inner
    obtain ⟨out, read, hout, rfl, hserved⟩ := exists_pollRecv slots socket.map inner
    refine ⟨out, hout, ?_, ?_⟩
    · intro n hn _
      obtain ⟨before, batch, clock, hread, hkept, -⟩ := hserved.last n hn
      exact ⟨batch, ⟨before, clock, (consumed_append read out.unread).trans hread⟩, hkept⟩
    · intro hzero
      obtain ⟨before, batch, clock, hread, -, hempty⟩ := hserved.last 0 hzero
      exact ⟨batch, ⟨before, clock, (consumed_append read out.unread).trans hread⟩, hempty rfl⟩

end Interposed

end

end Yggdrasil.Proxy
