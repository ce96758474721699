import Yggdrasil.Foundation.Keyed
import Yggdrasil.Foundation.Run
import Yggdrasil.Ratatoskr.RuleSet

/-!
# Why a flow is removed

The reaper and the task of a flow decide on a removal first and carry it out
later, by the client's address.  In between the entry may be used again, or a
new flow of the same client may have taken its place.  Flows are told apart
here by the order in which they are made, and every access to a table, to the
time an entry was last seen and to a socket is a step of its own.

An instant that is stored may have been read from the clock some time before.
-/

namespace Yggdrasil.Proxy

open Foundation Ratatoskr

inductive TaskPhase where
  | receiving
  /-- Its socket has failed; the entry of its client is yet to be removed. -/
  | failed
  | ended
  deriving DecidableEq, Repr

structure FlowRecord where
  key : Nat × SocketAddr
  lastSeenMs : Nat
  phase : TaskPhase
  deriving DecidableEq, Repr

def FlowRecord.seenAt (atMs : Nat) (record : FlowRecord) : FlowRecord :=
  { record with lastSeenMs := atMs }

def FlowRecord.inPhase (phase : TaskPhase) (record : FlowRecord) : FlowRecord :=
  { record with phase := phase }

inductive Reaper where
  | sleeping
  | scanning (nowMs worker : Nat) (victims : List SocketAddr)
  | removing (nowMs worker : Nat) (victims : List SocketAddr)
  deriving DecidableEq, Repr

namespace Reaper

def victims : Reaper → List (Nat × SocketAddr)
  | .sleeping => []
  | .scanning _ worker victims => victims.map (Prod.mk worker)
  | .removing _ worker victims => victims.map (Prod.mk worker)

def since : Reaper → Nat
  | .sleeping => 0
  | .scanning nowMs _ _ => nowMs
  | .removing nowMs _ _ => nowMs

end Reaper

structure FlowTables where
  nowMs : Nat
  /-- Every flow ever made; a flow is known by its place. -/
  flows : List FlowRecord
  table : AList (fun _ : Nat × SocketAddr => Nat)
  creating : List Nat
  inHand : AList (fun _ : Nat => Nat)
  reaper : Reaper

inductive RemovalEvent where
  | tick (nowMs : Nat)
  | lookup (worker : Nat) (client : SocketAddr)
  | store (worker atMs : Nat)
  /-- `create_flow` has its socket and has spawned the task. -/
  | spawn (worker : Nat) (client : SocketAddr) (atMs : Nat)
  | insert (flow : Nat) (admitted : Bool)
  /-- The task of a flow marks the entry of its client as seen. -/
  | refresh (flow atMs : Nat)
  | recvError (flow : Nat)
  | remove (flow : Nat)
  | stop (flow : Nat)
  | beginPass
  | look (client : SocketAddr)
  | scanned
  | reap
  | nextShard
  | drain (worker : Nat) (client : SocketAddr)
  deriving DecidableEq, Repr

namespace FlowTables

def start : FlowTables := ⟨0, [], ∅, [], ∅, .sleeping⟩

def touch (tables : FlowTables) (flow atMs : Nat) : FlowTables :=
  { tables with flows := tables.flows.modify flow (FlowRecord.seenAt atMs) }

def setPhase (tables : FlowTables) (flow : Nat) (phase : TaskPhase) : FlowTables :=
  { tables with flows := tables.flows.modify flow (FlowRecord.inPhase phase) }

def removeEntry (tables : FlowTables) (key : Nat × SocketAddr) : FlowTables :=
  { tables with table := tables.table.erase key }

def insertEntry (tables : FlowTables) (key : Nat × SocketAddr) (flow : Nat) (admitted : Bool) :
    FlowTables :=
  if key ∈ tables.table ∨ !admitted then tables
  else { tables with table := tables.table.insert key flow }

section

variable (idleMs workers : Nat)

def taskIn (tables : FlowTables) (flow : Nat) (phase : TaskPhase) : Option FlowRecord :=
  (tables.flows[flow]?).filter (fun record => record.phase = phase)

def step (tables : FlowTables) : RemovalEvent → Option FlowTables
  | .tick nowMs => if tables.nowMs ≤ nowMs then some { tables with nowMs := nowMs } else none
  | .lookup worker client =>
      (tables.table.lookup (worker, client)).map fun flow =>
        { tables with inHand := tables.inHand.insert worker flow }
  | .store worker atMs =>
      if atMs ≤ tables.nowMs then
        (tables.inHand.lookup worker).map fun flow =>
          { tables.touch flow atMs with inHand := tables.inHand.erase worker }
      else none
  | .spawn worker client atMs =>
      if atMs ≤ tables.nowMs then
        some { tables with
          flows := tables.flows ++ [⟨(worker, client), atMs, .receiving⟩]
          creating := tables.flows.length :: tables.creating }
      else none
  | .insert flow admitted =>
      if flow ∈ tables.creating then
        (tables.flows[flow]?).map fun record =>
          { tables.insertEntry record.key flow admitted with
            creating := tables.creating.erase flow }
      else none
  | .refresh flow atMs =>
      if atMs ≤ tables.nowMs then
        (tables.taskIn flow .receiving).map fun record =>
          match tables.table.lookup record.key with
          | some current => tables.touch current atMs
          | none => tables
      else none
  | .recvError flow =>
      (tables.taskIn flow .receiving).map fun _ => tables.setPhase flow .failed
  | .remove flow =>
      (tables.taskIn flow .failed).map fun record =>
        (tables.setPhase flow .ended).removeEntry record.key
  | .stop flow => (tables.taskIn flow .receiving).map fun _ => tables.setPhase flow .ended
  | .beginPass =>
      match tables.reaper with
      | .sleeping => some { tables with reaper := .scanning tables.nowMs 0 [] }
      | _ => none
  | .look client =>
      match tables.reaper with
      | .scanning nowMs worker victims =>
          (tables.table.lookup (worker, client)).bind fun flow =>
            (tables.flows[flow]?).map fun record =>
              if idleMs ≤ nowMs - record.lastSeenMs then
                { tables with reaper := .scanning nowMs worker (victims ++ [client]) }
              else tables
      | _ => none
  | .scanned =>
      match tables.reaper with
      | .scanning nowMs worker victims =>
          some { tables with reaper := .removing nowMs worker victims }
      | _ => none
  | .reap =>
      match tables.reaper with
      | .removing nowMs worker (client :: victims) =>
          some { tables.removeEntry (worker, client) with
            reaper := .removing nowMs worker victims }
      | _ => none
  | .nextShard =>
      match tables.reaper with
      | .removing nowMs worker [] =>
          some { tables with
            reaper := if worker + 1 < workers then .scanning nowMs (worker + 1) [] else .sleeping }
      | _ => none
  | .drain worker client =>
      if (worker, client) ∈ tables.table then some (tables.removeEntry (worker, client)) else none

inductive Stepped (tables : FlowTables) : RemovalEvent → FlowTables → Prop
  | tick {nowMs : Nat} (hnow : tables.nowMs ≤ nowMs) :
      Stepped tables (.tick nowMs) { tables with nowMs := nowMs }
  | lookup {worker flow : Nat} {client : SocketAddr} :
      Stepped tables (.lookup worker client)
        { tables with inHand := tables.inHand.insert worker flow }
  | store {worker atMs flow : Nat} (hflow : tables.inHand.lookup worker = some flow) :
      Stepped tables (.store worker atMs)
        { tables.touch flow atMs with inHand := tables.inHand.erase worker }
  | spawn {worker atMs : Nat} {client : SocketAddr} :
      Stepped tables (.spawn worker client atMs)
        { tables with
          flows := tables.flows ++ [⟨(worker, client), atMs, .receiving⟩]
          creating := tables.flows.length :: tables.creating }
  | insert {flow : Nat} {admitted : Bool} {record : FlowRecord}
      (hrecord : tables.flows[flow]? = some record) :
      Stepped tables (.insert flow admitted)
        { tables.insertEntry record.key flow admitted with
          creating := tables.creating.erase flow }
  | refresh {flow atMs current : Nat} {record : FlowRecord}
      (hrecord : tables.flows[flow]? = some record)
      (hcurrent : tables.table.lookup record.key = some current) :
      Stepped tables (.refresh flow atMs) (tables.touch current atMs)
  | refreshNone {flow atMs : Nat} {record : FlowRecord}
      (hrecord : tables.flows[flow]? = some record)
      (hnone : tables.table.lookup record.key = none) :
      Stepped tables (.refresh flow atMs) tables
  | recvError {flow : Nat} : Stepped tables (.recvError flow) (tables.setPhase flow .failed)
  | remove {flow : Nat} {record : FlowRecord} (hrecord : tables.flows[flow]? = some record)
      (hfailed : record.phase = .failed) :
      Stepped tables (.remove flow) ((tables.setPhase flow .ended).removeEntry record.key)
  | stop {flow : Nat} : Stepped tables (.stop flow) (tables.setPhase flow .ended)
  | beginPass :
      Stepped tables .beginPass { tables with reaper := .scanning tables.nowMs 0 [] }
  | look {nowMs worker flow : Nat} {client : SocketAddr} {victims : List SocketAddr}
      {record : FlowRecord} (hreaper : tables.reaper = .scanning nowMs worker victims)
      (hflow : tables.table.lookup (worker, client) = some flow)
      (hrecord : tables.flows[flow]? = some record)
      (hidle : idleMs ≤ nowMs - record.lastSeenMs) :
      Stepped tables (.look client)
        { tables with reaper := .scanning nowMs worker (victims ++ [client]) }
  | lookFresh {client : SocketAddr} : Stepped tables (.look client) tables
  | scanned {nowMs worker : Nat} {victims : List SocketAddr}
      (hreaper : tables.reaper = .scanning nowMs worker victims) :
      Stepped tables .scanned { tables with reaper := .removing nowMs worker victims }
  | reap {nowMs worker : Nat} {client : SocketAddr} {victims : List SocketAddr}
      (hreaper : tables.reaper = .removing nowMs worker (client :: victims)) :
      Stepped tables .reap
        { tables.removeEntry (worker, client) with reaper := .removing nowMs worker victims }
  | nextShard {nowMs worker : Nat} (hreaper : tables.reaper = .removing nowMs worker []) :
      Stepped tables .nextShard
        { tables with
          reaper := if worker + 1 < workers then .scanning nowMs (worker + 1) [] else .sleeping }
  | drain {worker : Nat} {client : SocketAddr} :
      Stepped tables (.drain worker client) (tables.removeEntry (worker, client))

end

theorem taskIn_eq_some {tables : FlowTables} {flow : Nat} {phase : TaskPhase} {record : FlowRecord}
    (h : tables.taskIn flow phase = some record) :
    tables.flows[flow]? = some record ∧ record.phase = phase := by
  obtain ⟨hrecord, hphase⟩ := Option.filter_eq_some_iff.1 h
  exact ⟨hrecord, by simpa using hphase⟩

theorem stepped_of_step {idleMs workers : Nat} {tables next : FlowTables} {event : RemovalEvent}
    (hstep : tables.step idleMs workers event = some next) :
    Stepped idleMs workers tables event next := by
  cases event with
  | tick nowMs =>
      simp only [step] at hstep
      split_ifs at hstep with hnow
      cases hstep
      exact .tick hnow
  | lookup worker client =>
      obtain ⟨flow, -, rfl⟩ := Option.map_eq_some_iff.1 hstep
      exact .lookup
  | store worker atMs =>
      simp only [step] at hstep
      split_ifs at hstep
      obtain ⟨flow, hflow, rfl⟩ := Option.map_eq_some_iff.1 hstep
      exact .store hflow
  | spawn worker client atMs =>
      simp only [step] at hstep
      split_ifs at hstep
      cases hstep
      exact .spawn
  | insert flow admitted =>
      simp only [step] at hstep
      split_ifs at hstep
      obtain ⟨record, hrecord, rfl⟩ := Option.map_eq_some_iff.1 hstep
      exact .insert hrecord
  | refresh flow atMs =>
      simp only [step] at hstep
      split_ifs at hstep
      obtain ⟨record, htask, rfl⟩ := Option.map_eq_some_iff.1 hstep
      have hrecord := (taskIn_eq_some htask).1
      split
      next current hcurrent => exact .refresh hrecord hcurrent
      next hnone => exact .refreshNone hrecord hnone
  | recvError flow =>
      obtain ⟨record, -, rfl⟩ := Option.map_eq_some_iff.1 hstep
      exact .recvError
  | remove flow =>
      obtain ⟨record, htask, rfl⟩ := Option.map_eq_some_iff.1 hstep
      obtain ⟨hrecord, hfailed⟩ := taskIn_eq_some htask
      exact .remove hrecord hfailed
  | stop flow =>
      obtain ⟨record, -, rfl⟩ := Option.map_eq_some_iff.1 hstep
      exact .stop
  | beginPass =>
      simp only [step] at hstep
      split at hstep
      · cases hstep
        exact .beginPass
      · cases hstep
  | look client =>
      simp only [step] at hstep
      split at hstep
      next nowMs worker victims hreaper =>
        obtain ⟨flow, hflow, hstep⟩ := Option.bind_eq_some_iff.1 hstep
        obtain ⟨record, hrecord, rfl⟩ := Option.map_eq_some_iff.1 hstep
        split
        next hidle => exact .look hreaper hflow hrecord hidle
        next => exact .lookFresh
      next => cases hstep
  | scanned =>
      simp only [step] at hstep
      split at hstep
      next nowMs worker victims hreaper =>
        cases hstep
        exact .scanned hreaper
      next => cases hstep
  | reap =>
      simp only [step] at hstep
      split at hstep
      next nowMs worker client victims hreaper =>
        cases hstep
        exact .reap hreaper
      next => cases hstep
  | nextShard =>
      simp only [step] at hstep
      split at hstep
      next nowMs worker hreaper =>
        cases hstep
        exact .nextShard hreaper
      next => cases hstep
  | drain worker client =>
      simp only [step] at hstep
      split_ifs at hstep
      cases hstep
      exact .drain

/-! ## Reasons -/

/-- The entry of the flow is drained, idle by its own account, or its own socket has failed. -/
inductive OwnReason (idleMs : Nat) (tables : FlowTables) (flow : Nat) : RemovalEvent → Prop
  | drained (worker : Nat) (client : SocketAddr) :
      OwnReason idleMs tables flow (.drain worker client)
  | idle {record : FlowRecord} (hrecord : tables.flows[flow]? = some record)
      (hidle : idleMs ≤ tables.nowMs - record.lastSeenMs) : OwnReason idleMs tables flow .reap
  | failed : OwnReason idleMs tables flow (.remove flow)

def RemovesOwn (idleMs workers : Nat) (tables : FlowTables) (event : RemovalEvent) : Prop :=
  ∀ next, tables.step idleMs workers event = some next →
    ∀ key flow, tables.table.lookup key = some flow →
      next.table.lookup key = some flow ∨ OwnReason idleMs tables flow event

def CarriesOut : RemovalEvent → Prop
  | .scanned => True
  | .reap => True
  | .remove _ => True
  | _ => False

/-- Every removal that is decided or comes next has a reason of the entry's own. -/
def Safe (idleMs workers : Nat) (tables : FlowTables) : Prop :=
  ∀ events reached, (∀ event ∈ events, CarriesOut event) →
    run (step idleMs workers) tables events = some reached →
      ∀ event, RemovesOwn idleMs workers reached event

def Usable (idleMs : Nat) (tables : FlowTables) (flow atMs : Nat) : Prop :=
  ∀ key ∈ tables.reaper.victims, tables.table.lookup key = some flow →
    idleMs ≤ tables.nowMs - atMs

/-- The step lets no removal that is decided hit an entry it was not decided for. -/
def Orderly (idleMs : Nat) (tables : FlowTables) : RemovalEvent → Prop
  | .store worker atMs => ∀ flow, tables.inHand.lookup worker = some flow →
      Usable idleMs tables flow atMs
  | .refresh flow atMs => ∀ record current, tables.flows[flow]? = some record →
      tables.table.lookup record.key = some current → Usable idleMs tables current atMs
  | .insert flow admitted => ∀ record, tables.flows[flow]? = some record → admitted = true →
      record.key ∉ tables.table →
        (record.key ∈ tables.reaper.victims → idleMs ≤ tables.nowMs - record.lastSeenMs) ∧
        ∀ other older, tables.flows[other]? = some older → older.phase = .failed →
          older.key = record.key → other = flow
  | .recvError flow => ∀ record current, tables.flows[flow]? = some record →
      tables.table.lookup record.key = some current → current = flow
  | _ => True

structure Sound (idleMs : Nat) (tables : FlowTables) : Prop where
  known : ∀ key flow, tables.table.lookup key = some flow →
    ∃ record, tables.flows[flow]? = some record ∧ record.key = key
  idle : ∀ key ∈ tables.reaper.victims, ∀ flow record, tables.table.lookup key = some flow →
    tables.flows[flow]? = some record → idleMs ≤ tables.nowMs - record.lastSeenMs
  own : ∀ flow record current, tables.flows[flow]? = some record → record.phase = .failed →
    tables.table.lookup record.key = some current → current = flow
  since : tables.reaper.since ≤ tables.nowMs

section

variable {idleMs workers : Nat} {tables next : FlowTables} {flow atMs : Nat}

variable {record : FlowRecord} {key : Nat × SocketAddr} {event : RemovalEvent}

theorem exists_getElem?_modify {records : List FlowRecord} (f : FlowRecord → FlowRecord)
    (hkey : ∀ record, (f record).key = record.key) (i : Nat) {j : Nat}
    (h : records[j]? = some record) :
    ∃ after, (records.modify i f)[j]? = some after ∧ after.key = record.key := by
  rw [List.getElem?_modify, h]
  refine ⟨_, rfl, ?_⟩
  split
  · exact hkey record
  · rfl

theorem lookup_insertEntry {other : Nat × SocketAddr} {made current : Nat} {admitted : Bool}
    (h : tables.table.lookup other = some current) :
    (tables.insertEntry key made admitted).table.lookup other = some current := by
  unfold insertEntry
  split
  · exact h
  next hfree =>
    have hne : other ≠ key := by
      rintro rfl
      exact hfree (.inl (mem_iff_lookup.2 ⟨current, h⟩))
    exact (AList.lookup_insert_ne hne).trans h

theorem lookup_step (hstep : tables.step idleMs workers event = some next)
    (hflow : tables.table.lookup key = some flow) :
    next.table.lookup key = some flow ∨ (∃ worker client, event = .drain worker client) ∨
      (event = .reap ∧ key ∈ tables.reaper.victims) ∨
      ∃ task record, event = .remove task ∧ tables.flows[task]? = some record ∧
        record.phase = .failed ∧ key = record.key := by
  cases stepped_of_step hstep with
  | insert hrecord => exact .inl (lookup_insertEntry hflow)
  | @remove task record hrecord hfailed =>
      by_cases hkey : key = record.key
      · exact .inr (.inr (.inr ⟨task, record, rfl, hrecord, hfailed, hkey⟩))
      · exact .inl ((AList.lookup_erase_ne hkey).trans hflow)
  | @reap nowMs worker client victims hreaper =>
      by_cases hkey : key = (worker, client)
      · refine .inr (.inr (.inl ⟨rfl, ?_⟩))
        rw [hreaper, hkey]
        exact List.mem_cons_self
      · exact .inl ((AList.lookup_erase_ne hkey).trans hflow)
  | @drain worker client => exact .inr (.inl ⟨worker, client, rfl⟩)
  | _ => exact .inl hflow

theorem orderly_of_carriesOut (h : CarriesOut event) : Orderly idleMs tables event := by
  cases event with
  | scanned => trivial
  | reap => trivial
  | remove flow => trivial
  | _ => exact h.elim

theorem sound_start : Sound idleMs start :=
  ⟨nofun, nofun, nofun, le_rfl⟩

namespace Sound

theorem modify (h : Sound idleMs tables) {f : FlowRecord → FlowRecord}
    (hkey : ∀ record, (f record).key = record.key)
    (hidle : ∀ key ∈ tables.reaper.victims, ∀ record, tables.table.lookup key = some flow →
      tables.flows[flow]? = some record → idleMs ≤ tables.nowMs - (f record).lastSeenMs)
    (hown : ∀ record current, tables.flows[flow]? = some record → (f record).phase = .failed →
      tables.table.lookup record.key = some current → current = flow) :
    Sound idleMs { tables with flows := tables.flows.modify flow f } := by
  refine ⟨?_, ?_, ?_, h.since⟩
  · intro key current hcurrent
    obtain ⟨record, hrecord, rfl⟩ := h.known key current hcurrent
    exact exists_getElem?_modify f hkey flow hrecord
  · intro key hlisted current record hcurrent hrecord
    obtain ⟨before, hbefore, ⟨rfl, rfl⟩ | rfl⟩ := of_getElem?_modify hrecord
    · exact hidle key hlisted before hcurrent hbefore
    · exact h.idle key hlisted current record hcurrent hbefore
  · intro other record current hrecord hphase hcurrent
    obtain ⟨before, hbefore, ⟨rfl, rfl⟩ | rfl⟩ := of_getElem?_modify hrecord
    · exact hown before current hbefore hphase (hkey before ▸ hcurrent)
    · exact h.own other record current hbefore hphase hcurrent

theorem touch (h : Sound idleMs tables) (husable : Usable idleMs tables flow atMs) :
    Sound idleMs (tables.touch flow atMs) := by
  refine h.modify (f := FlowRecord.seenAt atMs) (fun _ => rfl) ?_ ?_
  · exact fun key hlisted _ hflow _ => husable key hlisted hflow
  · exact fun record current hrecord hphase => h.own flow record current hrecord hphase

theorem setPhase (h : Sound idleMs tables) {phase : TaskPhase}
    (hown : phase = .failed → ∀ record current, tables.flows[flow]? = some record →
      tables.table.lookup record.key = some current → current = flow) :
    Sound idleMs (tables.setPhase flow phase) := by
  refine h.modify (f := FlowRecord.inPhase phase) (fun _ => rfl) ?_ ?_
  · exact fun key hlisted record => h.idle key hlisted flow record
  · exact fun record current hrecord hphase => hown hphase record current hrecord

theorem removeEntry (h : Sound idleMs tables) (key : Nat × SocketAddr) :
    Sound idleMs (tables.removeEntry key) := by
  have hkept : ∀ {other current}, (tables.table.erase key).lookup other = some current →
      tables.table.lookup other = some current := fun hcurrent => (of_lookup_erase hcurrent).2
  refine ⟨?_, ?_, ?_, h.since⟩
  · exact fun other current hcurrent => h.known other current (hkept hcurrent)
  · exact fun other hother current record hcurrent =>
      h.idle other hother current record (hkept hcurrent)
  · exact fun other record current hrecord hphase hcurrent =>
      h.own other record current hrecord hphase (hkept hcurrent)

theorem spawn (h : Sound idleMs tables) (record : FlowRecord) (hphase : record.phase ≠ .failed) :
    Sound idleMs { tables with flows := tables.flows ++ [record] } := by
  have hold : ∀ {key current}, tables.table.lookup key = some current →
      (tables.flows ++ [record])[current]? = tables.flows[current]? := by
    intro key current hcurrent
    obtain ⟨before, hbefore, -⟩ := h.known key current hcurrent
    exact List.getElem?_append_left (List.getElem?_eq_some_iff.1 hbefore).1
  refine ⟨?_, ?_, ?_, h.since⟩
  · intro key current hcurrent
    dsimp only
    rw [hold hcurrent]
    exact h.known key current hcurrent
  · intro key hkey current other hcurrent hother
    dsimp only at hother
    rw [hold hcurrent] at hother
    exact h.idle key hkey current other hcurrent hother
  · intro flow other current hother hfailed hcurrent
    rcases of_getElem?_concat hother with hold | ⟨-, rfl⟩
    · exact h.own flow other current hold hfailed hcurrent
    · exact absurd hfailed hphase

theorem insertEntry (h : Sound idleMs tables) {record : FlowRecord} {admitted : Bool}
    (hrecord : tables.flows[flow]? = some record)
    (horderly : admitted = true → record.key ∉ tables.table →
      (record.key ∈ tables.reaper.victims → idleMs ≤ tables.nowMs - record.lastSeenMs) ∧
      ∀ other older, tables.flows[other]? = some older → older.phase = .failed →
        older.key = record.key → other = flow) :
    Sound idleMs (tables.insertEntry record.key flow admitted) := by
  unfold FlowTables.insertEntry
  split
  · exact h
  next hfree =>
    rw [not_or] at hfree
    obtain ⟨hidle, hown⟩ := horderly (by simpa using hfree.2) hfree.1
    refine ⟨?_, ?_, ?_, h.since⟩
    · intro key current hcurrent
      rcases of_lookup_insert hcurrent with ⟨rfl, rfl⟩ | hold
      · exact ⟨record, hrecord, rfl⟩
      · exact h.known key current hold
    · intro key hkey current other hcurrent hother
      rcases of_lookup_insert hcurrent with ⟨rfl, rfl⟩ | hold
      · rw [← Option.some.inj (hrecord.symm.trans hother)]
        exact hidle hkey
      · exact h.idle key hkey current other hold hother
    · intro other older current holder hfailed hcurrent
      rcases of_lookup_insert hcurrent with ⟨hkey, rfl⟩ | hold
      · exact (hown other older holder hfailed hkey).symm
      · exact h.own other older current holder hfailed hold

theorem withReaper (h : Sound idleMs tables) {reaper : Reaper}
    (hsince : reaper.since ≤ tables.nowMs)
    (hidle : ∀ key ∈ reaper.victims, key ∈ tables.reaper.victims ∨ ∀ flow record,
      tables.table.lookup key = some flow → tables.flows[flow]? = some record →
        idleMs ≤ tables.nowMs - record.lastSeenMs) :
    Sound idleMs { tables with reaper := reaper } := by
  refine ⟨h.known, ?_, h.own, hsince⟩
  intro key hkey flow record hlookup hrecord
  rcases hidle key hkey with hlisted | hfound
  · exact h.idle key hlisted flow record hlookup hrecord
  · exact hfound flow record hlookup hrecord

theorem look (h : Sound idleMs tables) {nowMs worker : Nat} {client : SocketAddr}
    {victims : List SocketAddr} {record : FlowRecord}
    (hreaper : tables.reaper = .scanning nowMs worker victims)
    (hflow : tables.table.lookup (worker, client) = some flow)
    (hrecord : tables.flows[flow]? = some record) (hidle : idleMs ≤ nowMs - record.lastSeenMs) :
    Sound idleMs { tables with reaper := .scanning nowMs worker (victims ++ [client]) } := by
  have hsince := h.since
  rw [hreaper] at hsince
  refine h.withReaper hsince fun key hkey => ?_
  rw [Reaper.victims, List.map_append, List.mem_append] at hkey
  rcases hkey with hlisted | hnew
  · exact .inl (hreaper ▸ hlisted)
  · obtain rfl := List.mem_singleton.1 hnew
    refine .inr fun current other hcurrent hother => ?_
    cases hflow.symm.trans hcurrent
    cases hrecord.symm.trans hother
    exact hidle.trans (Nat.sub_le_sub_right hsince _)

theorem tick (h : Sound idleMs tables) {nowMs : Nat} (hnow : tables.nowMs ≤ nowMs) :
    Sound idleMs { tables with nowMs := nowMs } := by
  refine ⟨h.known, ?_, h.own, h.since.trans hnow⟩
  intro key hkey flow record hlookup hrecord
  exact (h.idle key hkey flow record hlookup hrecord).trans (Nat.sub_le_sub_right hnow _)

theorem withHands (h : Sound idleMs tables) (creating : List Nat)
    (inHand : AList (fun _ : Nat => Nat)) :
    Sound idleMs { tables with creating := creating, inHand := inHand } :=
  ⟨h.known, h.idle, h.own, h.since⟩

theorem step {event : RemovalEvent} (h : Sound idleMs tables)
    (horderly : Orderly idleMs tables event)
    (hstep : tables.step idleMs workers event = some next) : Sound idleMs next := by
  cases stepped_of_step hstep with
  | tick hnow => exact h.tick hnow
  | lookup => exact h.withHands _ _
  | store hflow => exact (h.touch (horderly _ hflow)).withHands _ _
  | @spawn worker atMs client =>
      exact (h.spawn ⟨(worker, client), atMs, .receiving⟩ nofun).withHands _ _
  | insert hrecord => exact (h.insertEntry hrecord (horderly _ hrecord)).withHands _ _
  | refresh hrecord hcurrent => exact h.touch (horderly _ _ hrecord hcurrent)
  | refreshNone hrecord hnone => exact h
  | recvError => exact h.setPhase fun _ => horderly
  | @remove task record hrecord hfailed =>
      have hended : Sound idleMs (tables.setPhase task .ended) := h.setPhase nofun
      exact hended.removeEntry record.key
  | stop => exact h.setPhase nofun
  | beginPass => exact h.withReaper le_rfl nofun
  | look hreaper hflow hrecord hidle => exact h.look hreaper hflow hrecord hidle
  | lookFresh => exact h
  | scanned hreaper =>
      have hsince := h.since
      rw [hreaper] at hsince
      exact h.withReaper hsince fun key hkey => .inl (hreaper ▸ hkey)
  | @reap nowMs worker client victims hreaper =>
      have hsince := h.since
      rw [hreaper] at hsince
      refine (h.removeEntry (worker, client)).withReaper hsince fun key hkey => .inl ?_
      change key ∈ tables.reaper.victims
      rw [hreaper]
      exact List.mem_cons_of_mem _ hkey
  | nextShard hreaper =>
      have hsince := h.since
      rw [hreaper] at hsince
      split
      · exact h.withReaper hsince nofun
      · exact h.withReaper (Nat.zero_le _) nofun
  | @drain worker client => exact h.removeEntry (worker, client)

theorem removesOwn (h : Sound idleMs tables) (event : RemovalEvent) :
    RemovesOwn idleMs workers tables event := by
  intro next hstep key flow hflow
  rcases lookup_step hstep hflow with hkept | ⟨worker, client, rfl⟩ | ⟨rfl, hlisted⟩ |
    ⟨task, record, rfl, hrecord, hfailed, rfl⟩
  · exact .inl hkept
  · exact .inr (.drained worker client)
  · obtain ⟨record, hrecord, -⟩ := h.known key flow hflow
    exact .inr (.idle hrecord (h.idle key hlisted flow record hflow hrecord))
  · rw [h.own task record flow hrecord hfailed hflow]
    exact .inr .failed

theorem safe (h : Sound idleMs tables) : Safe idleMs workers tables := by
  intro events reached hevents hrun event
  have hguard : Along (FlowTables.step idleMs workers) (fun _ => CarriesOut) tables events :=
    along_of_mem (FlowTables.step idleMs workers) hevents tables
  have hreached : Sound idleMs reached :=
    run_invariant_of_guard (FlowTables.step idleMs workers)
      (fun _ _ _ hsound hcarries hstep => hsound.step (orderly_of_carriesOut hcarries) hstep)
      h hguard hrun
  exact hreached.removesOwn event

end Sound

/-! ## Disorder is fatal -/

theorem exists_run_to_victim (idleMs workers : Nat) {nowMs worker : Nat} {client : SocketAddr}
    {victims : List SocketAddr} (hreaper : tables.reaper = .removing nowMs worker victims)
    (hclient : client ∈ victims) :
    ∃ events reached rest, (∀ event ∈ events, CarriesOut event) ∧
      run (step idleMs workers) tables events = some reached ∧
      reached.reaper = .removing nowMs worker (client :: rest) ∧
      reached.nowMs = tables.nowMs ∧ reached.flows = tables.flows ∧
      reached.table.lookup (worker, client) = tables.table.lookup (worker, client) := by
  induction victims generalizing tables with
  | nil => cases hclient
  | cons first victims ih =>
      by_cases hfirst : client = first
      · subst hfirst
        exact ⟨[], tables, victims, nofun, rfl, hreaper, rfl, rfl, rfl⟩
      · have hrest : client ∈ victims := (List.mem_cons.1 hclient).resolve_left hfirst
        have hstep : tables.step idleMs workers .reap =
            some { tables.removeEntry (worker, first) with
              reaper := .removing nowMs worker victims } := by
          rw [step, hreaper]
        have hreaper' : { tables.removeEntry (worker, first) with
              reaper := .removing nowMs worker victims }.reaper =
            .removing nowMs worker victims := rfl
        obtain ⟨events, reached, rest, hevents, hrun, hhead, hnow, hflows, hlookup⟩ :=
          ih hreaper' hrest
        refine ⟨.reap :: events, reached, rest, List.forall_mem_cons.2 ⟨trivial, hevents⟩, ?_,
          hhead, hnow, hflows, ?_⟩
        · rw [run, hstep, Option.bind_some]
          exact hrun
        · rw [hlookup]
          exact AList.lookup_erase_ne fun heq => hfirst (Prod.mk.inj heq).2

theorem idle_of_safe_removing {nowMs worker : Nat} {victims : List SocketAddr}
    (h : Safe idleMs workers tables) (hreaper : tables.reaper = .removing nowMs worker victims)
    {client : SocketAddr} (hclient : client ∈ victims)
    (hflow : tables.table.lookup (worker, client) = some flow)
    (hrecord : tables.flows[flow]? = some record) : idleMs ≤ tables.nowMs - record.lastSeenMs := by
  obtain ⟨events, reached, rest, hevents, hrun, hhead, hnow, hflows, hlookup⟩ :=
    exists_run_to_victim idleMs workers hreaper hclient
  have hreap : reached.step idleMs workers .reap =
      some { reached.removeEntry (worker, client) with
        reaper := .removing nowMs worker rest } := by
    rw [step, hhead]
  have hthere := hlookup.trans hflow
  rcases h events reached hevents hrun .reap _ hreap _ flow hthere with hkept | hreason
  · exact absurd hkept (by simp [removeEntry])
  · cases hreason with
    | idle hrecord' hidle =>
        rw [hflows] at hrecord'
        cases hrecord.symm.trans hrecord'
        exact hnow ▸ hidle

theorem Safe.after (h : Safe idleMs workers tables) (hcarries : CarriesOut event)
    (hstep : tables.step idleMs workers event = some next) : Safe idleMs workers next := by
  intro events reached hevents hrun
  refine h (event :: events) reached (List.forall_mem_cons.2 ⟨hcarries, hevents⟩) ?_
  rw [run, hstep, Option.bind_some]
  exact hrun

theorem Safe.idle (h : Safe idleMs workers tables) (hkey : key ∈ tables.reaper.victims)
    (hflow : tables.table.lookup key = some flow) (hrecord : tables.flows[flow]? = some record) :
    idleMs ≤ tables.nowMs - record.lastSeenMs := by
  cases hreaper : tables.reaper with
  | sleeping =>
      rw [hreaper] at hkey
      cases hkey
  | scanning nowMs worker victims =>
      rw [hreaper] at hkey
      obtain ⟨client, hclient, rfl⟩ := List.mem_map.1 hkey
      have hscanned : tables.step idleMs workers .scanned =
          some { tables with reaper := .removing nowMs worker victims } := by
        rw [step, hreaper]
      have hremoving := h.after (show CarriesOut .scanned from trivial) hscanned
      have hidle := idle_of_safe_removing hremoving rfl hclient hflow hrecord
      exact hidle
  | removing nowMs worker victims =>
      rw [hreaper] at hkey
      obtain ⟨client, hclient, rfl⟩ := List.mem_map.1 hkey
      exact idle_of_safe_removing h hreaper hclient hflow hrecord

theorem Safe.own (h : Safe idleMs workers tables) {current : Nat}
    (hrecord : tables.flows[flow]? = some record) (hfailed : record.phase = .failed)
    (hcurrent : tables.table.lookup record.key = some current) : current = flow := by
  have htask : tables.taskIn flow .failed = some record :=
    Option.filter_eq_some_iff.2 ⟨hrecord, by simpa using hfailed⟩
  have hremove : tables.step idleMs workers (.remove flow) =
      some ((tables.setPhase flow .ended).removeEntry record.key) := by
    rw [step, htask, Option.map_some]
  rcases h [] tables nofun rfl (.remove flow) _ hremove _ current hcurrent with hkept | hreason
  · exact absurd hkept (by simp [removeEntry])
  · cases hreason with
    | failed => rfl

def Undisturbed (idleMs workers : Nat) (tables : FlowTables) (event : RemovalEvent) : Prop :=
  ∀ next, tables.step idleMs workers event = some next → Orderly idleMs tables event

theorem usable_of_safe_touch (hsound : Sound idleMs tables) (h : Safe idleMs workers next)
    (hflows : next.flows = (tables.touch flow atMs).flows) (htable : next.table = tables.table)
    (hreaper : next.reaper = tables.reaper) (hnow : next.nowMs = tables.nowMs) :
    Usable idleMs tables flow atMs := by
  intro key hkey hflow
  obtain ⟨record, hrecord, -⟩ := hsound.known key flow hflow
  have hseen : next.flows[flow]? = some (record.seenAt atMs) := by
    rw [hflows, touch, List.getElem?_modify_eq, hrecord]
    rfl
  rw [← hnow]
  exact h.idle (hreaper ▸ hkey) (htable ▸ hflow) hseen

theorem orderly_of_safe (hsound : Sound idleMs tables)
    (hstep : tables.step idleMs workers event = some next) (h : Safe idleMs workers next) :
    Orderly idleMs tables event := by
  cases stepped_of_step hstep with
  | store hfound =>
      intro flow hflow
      cases hfound.symm.trans hflow
      exact usable_of_safe_touch hsound h rfl rfl rfl rfl
  | refresh hfound hthere =>
      intro record current hrecord hcurrent
      cases hfound.symm.trans hrecord
      cases hthere.symm.trans hcurrent
      exact usable_of_safe_touch hsound h rfl rfl rfl rfl
  | refreshNone hfound hnone =>
      intro record current hrecord hcurrent
      cases hfound.symm.trans hrecord
      cases hnone.symm.trans hcurrent
  | @insert made admitted found hfound =>
      intro record hrecord hadmitted hfree
      cases hfound.symm.trans hrecord
      have hinsert : tables.insertEntry found.key made admitted =
          { tables with table := tables.table.insert found.key made } :=
        if_neg (by simp [hfree, hadmitted])
      rw [hinsert] at h
      have hthere : (tables.table.insert found.key made).lookup found.key = some made :=
        AList.lookup_insert _
      refine ⟨fun hkey => h.idle hkey hthere hrecord, fun other older holder hfailed hkey => ?_⟩
      exact (h.own holder hfailed (hkey ▸ hthere)).symm
  | @recvError task =>
      intro record current hrecord hcurrent
      have hfailed : (tables.setPhase task .failed).flows[task]? =
          some (record.inPhase .failed) := by
        rw [setPhase, List.getElem?_modify_eq, hrecord]
        rfl
      exact h.own hfailed rfl hcurrent
  | _ => trivial

/--
Whatever is left to be removed anywhere along a run is removed for a reason of
its own exactly when no entry is used or inserted while a removal by its address
is decided, and no task fails beside another flow of its client.
-/
theorem removals_own_iff (idleMs workers : Nat) (events : List RemovalEvent) :
    (∀ before reached, before <+: events →
        run (step idleMs workers) start before = some reached → Safe idleMs workers reached) ↔
      Along (step idleMs workers) (Undisturbed idleMs workers) start events := by
  refine reached_iff_along (step idleMs workers) (I := Sound idleMs) ?_ ?_ ?_ sound_start events
  · exact fun _ _ next hsound horderly hstep => hsound.step (horderly next hstep) hstep
  · exact fun _ hsound => hsound.safe
  · exact fun _ _ hsound hsafe next hstep => orderly_of_safe hsound hstep (hsafe next hstep)

end

def caller : SocketAddr := ⟨.v4 0xcb007107, 4000⟩

def usedBeforeReaped : List RemovalEvent :=
  [.spawn 0 caller 0, .insert 0 true, .tick 200, .beginPass, .look caller, .lookup 0 caller,
    .store 0 200, .scanned]

def replacedBeforeRemoved : List RemovalEvent :=
  [.spawn 0 caller 0, .insert 0 true, .recvError 0, .drain 0 caller, .spawn 0 caller 0,
    .insert 1 true]

def RemovesOther (idleMs workers : Nat) (events : List RemovalEvent) (event : RemovalEvent) :
    Prop :=
  ∃ reached next key flow, run (step idleMs workers) start events = some reached ∧
    reached.step idleMs workers event = some next ∧
    reached.table.lookup key = some flow ∧ next.table.lookup key = none ∧
    ¬OwnReason idleMs reached flow event

theorem entry_in_use_removed :
    RemovesOther 100 1 usedBeforeReaped .reap ∧
      RemovesOther 100 1 replacedBeforeRemoved (.remove 0) := by
  constructor
  · refine ⟨_, _, (0, caller), 0, rfl, rfl, rfl, rfl, ?_⟩
    intro hreason
    cases hreason with
    | idle hrecord hidle =>
        cases hrecord
        exact absurd hidle (by decide)
  · refine ⟨_, _, (0, caller), 1, rfl, rfl, rfl, rfl, ?_⟩
    intro hreason
    cases hreason

end FlowTables

end Yggdrasil.Proxy
