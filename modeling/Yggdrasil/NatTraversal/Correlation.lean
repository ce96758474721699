import Yggdrasil.NatTraversal.Requests

/-!
# Which request a response belongs to

All calls read from one socket, on which the answers to earlier calls may still
arrive.  A PCP answer carries the nonce of its request, and every nonce is drawn
for one mapping.  A NAT-PMP answer carries the protocol and the internal port,
and the mapper compares neither.
-/

namespace Yggdrasil.NatTraversal

open Foundation Ratatoskr

/-- The gateway copies into its response what identifies the request. -/
def MapResponse.Answers : MapResponse → MapRequest → Prop
  | pcp response, .pcp request =>
      response.nonce = request.nonce ∧ response.protocol = request.protocol ∧
        response.internalPort = request.internalPort
  | natPmp response, .natPmp request =>
      response.protocol = request.protocol ∧ response.internalPort = request.internalPort
  | _, _ => False

theorem MapResponse.Answers.key_eq {response : MapResponse} {request : MapRequest}
    (h : response.Answers request) : response.key = request.key := by
  cases response with
  | pcp response =>
      cases request with
      | pcp request => exact Prod.ext h.2.1 h.2.2
      | natPmp request => exact h.elim
  | natPmp response =>
      cases request with
      | pcp request => exact h.elim
      | natPmp request => exact Prod.ext h.1 h.2

def LogEntry.request? : LogEntry → Option MapRequest
  | .call request _ => some request
  | .released request _ => some request
  | _ => none

def requestsUpTo (request : MapRequest) (earlier : List LogEntry) : List MapRequest :=
  request :: earlier.filterMap LogEntry.request?

/-- Every grant answers the request of the call that reads it, or an earlier one whose answer the
network may still deliver. -/
def Delivers (outstanding : List LogEntry → MapRequest → Prop) (log : List LogEntry) : Prop :=
  ∀ later request response earlier, log = later ++ .call request (.ok response) :: earlier →
    response.error? = none → response.Answers request ∨
      ∃ asked ∈ earlier.filterMap LogEntry.request?, outstanding earlier asked ∧
        response.Answers asked

/-- When a NAT-PMP request goes out, no NAT-PMP answer for another key is outstanding. -/
def Undisturbed (outstanding : List LogEntry → MapRequest → Prop) (log : List LogEntry) : Prop :=
  ∀ later request outcome earlier, log = later ++ .call (.natPmp request) outcome :: earlier →
    ∀ asked, .natPmp asked ∈ earlier.filterMap LogEntry.request? →
      outstanding earlier (.natPmp asked) →
        (MapRequest.natPmp asked).key = (MapRequest.natPmp request).key

def Matched (log : List LogEntry) : Prop :=
  ∀ later request response earlier, log = later ++ .call request (.ok response) :: earlier →
    response.error? = none →
      ∃ asked ∈ requestsUpTo request earlier, asked.key = request.key ∧ response.Answers asked

def Sourced (log : List LogEntry) (key : MappingKey) (mapping : ActiveMapping) : Prop :=
  ∃ request response nonce ack epoch, .call request (.ok response) ∈ log ∧ request.key = key ∧
    response.ack nonce = .ok (ack, epoch) ∧ mapping.externalPort = ack.externalPort ∧
    mapping.assignedLifetime = ack.assignedLifetimeSecs.toNat * 1000

variable {key : MappingKey}

theorem Sourced.mono {log log' : List LogEntry} {mapping : ActiveMapping}
    (h : Sourced log key mapping) (hsuffix : log <:+ log') : Sourced log' key mapping := by
  obtain ⟨request, response, nonce, ack, epoch, hcall, hsource⟩ := h
  exact ⟨request, response, nonce, ack, epoch, hsuffix.subset hcall, hsource⟩

def Asks (log : List LogEntry) (nonce : Nonce) (key : MappingKey) : Prop :=
  ∃ request, .pcp request ∈ log.filterMap LogEntry.request? ∧ request.nonce = nonce ∧
    (MapRequest.pcp request).key = key

theorem Asks.mono {log log' : List LogEntry} {nonce : Nonce} (h : Asks log nonce key)
    (hsuffix : log <:+ log') : Asks log' nonce key := by
  obtain ⟨request, hmem, hrequest⟩ := h
  exact ⟨request, (hsuffix.sublist.filterMap _).subset hmem, hrequest⟩

theorem asks_cons {entry : LogEntry} {log : List LogEntry} {nonce : Nonce}
    (h : Asks (entry :: log) nonce key) :
    (∃ request, entry.request? = some (.pcp request) ∧ request.nonce = nonce ∧
      (MapRequest.pcp request).key = key) ∨ Asks log nonce key := by
  obtain ⟨request, hmem, hrequest⟩ := h
  cases hentry : entry.request? with
  | none =>
      rw [List.filterMap_cons_none hentry] at hmem
      exact .inr ⟨request, hmem, hrequest⟩
  | some first =>
      rw [List.filterMap_cons_some hentry] at hmem
      rcases List.mem_cons.1 hmem with rfl | hmem
      · exact .inl ⟨request, rfl, hrequest⟩
      · exact .inr ⟨request, hmem, hrequest⟩

def LogEntry.Echoed : LogEntry → Prop
  | .call (.pcp request) (.ok response) =>
      ∃ answer, response = .pcp answer ∧ answer.nonce = request.nonce
  | .call (.natPmp _) (.ok response) => ∃ answer, response = .natPmp answer
  | _ => True

theorem LogEntry.echoed_of_request?_none {entry : LogEntry} (h : entry.request? = none) :
    entry.Echoed := by
  cases entry with
  | call request outcome => cases h
  | _ => trivial

theorem echoed_call (attempt : Nat → Attempt) (drawn : Nat) (request : MapRequest) :
    LogEntry.Echoed (.call request (request.call attempt drawn).1) := by
  cases request with
  | natPmp request =>
      simp only [MapRequest.call]
      cases (natpmpRpc attempt request drawn).1 with
      | error error => trivial
      | ok answer => exact ⟨answer, rfl⟩
  | pcp request =>
      cases hcall : (pcpRpc attempt request drawn).1 with
      | error error =>
          have houtcome : ((MapRequest.pcp request).call attempt drawn).1 = .error error := by
            simp only [MapRequest.call, hcall]
            rfl
          rw [houtcome]
          trivial
      | ok answer =>
          have houtcome : ((MapRequest.pcp request).call attempt drawn).1 = .ok (.pcp answer) := by
            simp only [MapRequest.call, hcall]
            rfl
          rw [houtcome]
          exact ⟨answer, rfl, pcpRpc_nonce hcall⟩

namespace Reconciler

def Uses (r : Reconciler) (nonce : Nonce) (key : MappingKey) : Prop :=
  r.nonces.lookup key = some nonce ∨
    (∃ mapping, r.mappings.lookup key = some mapping ∧ mapping.pcpNonce = some nonce) ∨
    Asks r.log nonce key

/--
Every nonce in use was drawn for the one key it is used with; every mapping is
held under its own key and has its data from a grant for that key.
-/
structure Attributed (world : World) (r : Reconciler) : Prop where
  owned : ∃ owner : Nat → MappingKey, ∀ nonce key, r.Uses nonce key →
    ∃ draw < r.drawn, world.nonce draw = nonce ∧ owner draw = key
  keyed : ∀ key mapping, r.mappings.lookup key = some mapping → mapping.target.key = key
  nonced : ∀ key mapping, r.mappings.lookup key = some mapping → mapping.protocolUsed = .pcp →
    ∃ nonce, mapping.pcpNonce = some nonce
  sourced : ∀ key mapping, r.mappings.lookup key = some mapping → Sourced r.log key mapping
  echoed : ∀ entry ∈ r.log, entry.Echoed

theorem attributed_new (world : World) (params : NatMapperParams) :
    Attributed world (new params) := by
  refine ⟨⟨fun _ => (.tcp, 0), ?_⟩, ?_, ?_, ?_, ?_⟩
  · rintro nonce key (h | ⟨mapping, h, -⟩ | ⟨request, h, -⟩)
    · cases h
    · cases h
    · cases h
  · exact fun key mapping h => by cases h
  · exact fun key mapping h => by cases h
  · exact fun key mapping h => by cases h
  · exact fun entry h => by cases h

structure Shrinks (r r' : Reconciler) : Prop where
  drawn : r.drawn ≤ r'.drawn
  nonces : ∀ key nonce, r'.nonces.lookup key = some nonce → r.nonces.lookup key = some nonce
  mappings : ∀ key mapping, r'.mappings.lookup key = some mapping →
    r.mappings.lookup key = some mapping
  log : ∃ marks, r'.log = marks ++ r.log ∧ ∀ entry ∈ marks, entry.request? = none

theorem Shrinks.of_same {r r' : Reconciler} (hdrawn : r.drawn ≤ r'.drawn)
    (hnonces : r'.nonces = r.nonces) (hmappings : r'.mappings = r.mappings)
    (hlog : r'.log = r.log) : Shrinks r r' :=
  ⟨hdrawn, fun _ _ h => hnonces ▸ h, fun _ _ h => hmappings ▸ h, [], hlog, List.forall_mem_nil _⟩

theorem Shrinks.of_cleared {r r' : Reconciler} {marks : List LogEntry}
    (hdrawn : r.drawn ≤ r'.drawn) (hnonces : r'.nonces = ∅) (hmappings : r'.mappings = ∅)
    (hlog : r'.log = marks ++ r.log) (hmarks : ∀ entry ∈ marks, entry.request? = none) :
    Shrinks r r' := by
  refine ⟨hdrawn, ?_, ?_, marks, hlog, hmarks⟩
  · intro key nonce h
    rw [hnonces] at h
    cases h
  · intro key mapping h
    rw [hmappings] at h
    cases h

theorem Shrinks.of_mark (r : Reconciler) {mark : LogEntry} (hmark : mark.request? = none) :
    Shrinks r { r with log := mark :: r.log } :=
  ⟨le_rfl, fun _ _ h => h, fun _ _ h => h, [mark], rfl, List.forall_mem_singleton.2 hmark⟩

section

variable {world : World}

variable {r r' : Reconciler} {proto : NatProtocol} {target : MappingTarget} {nonce : Nonce}
  {request : PcpMapRequest} {ack : MapAck} {key : MappingKey}

theorem Attributed.owned_of_uses (h : Attributed world r) (hdrawn : r.drawn ≤ r'.drawn)
    (huses : ∀ nonce key, r'.Uses nonce key → r.Uses nonce key) :
    ∃ owner : Nat → MappingKey, ∀ nonce key, r'.Uses nonce key →
      ∃ draw < r'.drawn, world.nonce draw = nonce ∧ owner draw = key := by
  obtain ⟨owner, howner⟩ := h.owned
  refine ⟨owner, fun nonce key hused => ?_⟩
  obtain ⟨draw, hdraw, hnonce⟩ := howner nonce key (huses nonce key hused)
  exact ⟨draw, hdraw.trans_le hdrawn, hnonce⟩

theorem Attributed.shrink (h : Attributed world r) (hshrinks : Shrinks r r') :
    Attributed world r' := by
  obtain ⟨marks, hlog, hmarks⟩ := hshrinks.log
  have hsuffix : r.log <:+ r'.log := ⟨marks, hlog.symm⟩
  have hnone : marks.filterMap LogEntry.request? = [] := List.filterMap_eq_nil_iff.2 hmarks
  refine ⟨h.owned_of_uses hshrinks.drawn ?_, ?_, ?_, ?_, ?_⟩
  · rintro nonce key (hstored | ⟨mapping, hheld, hnonce⟩ | ⟨request, hmem, hrequest⟩)
    · exact .inl (hshrinks.nonces key nonce hstored)
    · exact .inr (.inl ⟨mapping, hshrinks.mappings key mapping hheld, hnonce⟩)
    · rw [hlog, List.filterMap_append, hnone, List.nil_append] at hmem
      exact .inr (.inr ⟨request, hmem, hrequest⟩)
  · exact fun key mapping hheld => h.keyed key mapping (hshrinks.mappings key mapping hheld)
  · exact fun key mapping hheld => h.nonced key mapping (hshrinks.mappings key mapping hheld)
  · intro key mapping hheld
    exact (h.sourced key mapping (hshrinks.mappings key mapping hheld)).mono hsuffix
  · intro entry hentry
    rw [hlog, List.mem_append] at hentry
    rcases hentry with hmark | hold
    · exact LogEntry.echoed_of_request?_none (hmarks entry hmark)
    · exact h.echoed entry hold

theorem Attributed.send {entry : LogEntry} (h : Attributed world r) (hdrawn : r.drawn ≤ r'.drawn)
    (hnonces : r'.nonces = r.nonces) (hmappings : r'.mappings = r.mappings)
    (hlog : r'.log = entry :: r.log) (hused : ∀ request, entry.request? = some (.pcp request) →
      r.Uses request.nonce (MapRequest.pcp request).key)
    (hechoed : entry.Echoed) : Attributed world r' := by
  refine ⟨h.owned_of_uses hdrawn ?_, ?_, ?_, ?_, ?_⟩
  · rintro nonce key (hstored | ⟨mapping, hheld, hnonce⟩ | hasks)
    · exact .inl (hnonces ▸ hstored)
    · exact .inr (.inl ⟨mapping, hmappings ▸ hheld, hnonce⟩)
    · rw [hlog] at hasks
      rcases asks_cons hasks with ⟨request, hentry, rfl, rfl⟩ | hold
      · exact hused request hentry
      · exact .inr (.inr hold)
  · rw [hmappings]
    exact h.keyed
  · rw [hmappings]
    exact h.nonced
  · rw [hmappings, hlog]
    exact fun key mapping hheld => (h.sourced key mapping hheld).mono (List.suffix_cons _ _)
  · rw [hlog]
    exact List.forall_mem_cons.2 ⟨hechoed, h.echoed⟩

/-! ## Acts -/

theorem attributed_drawNonce (h : Attributed world r) (key : MappingKey) :
    Attributed world
      { r with nonces := r.nonces.insert key (world.nonce r.drawn), drawn := r.drawn + 1 } := by
  obtain ⟨owner, howner⟩ := h.owned
  -- The number of the draw is new, so the key can be made its owner.
  refine ⟨⟨Function.update owner r.drawn key, ?_⟩, h.keyed, h.nonced, h.sourced, h.echoed⟩
  have hold : ∀ nonce other, r.Uses nonce other → ∃ draw < r.drawn + 1,
      world.nonce draw = nonce ∧ Function.update owner r.drawn key draw = other := by
    intro nonce other hused
    obtain ⟨draw, hdraw, hnonce, hother⟩ := howner nonce other hused
    refine ⟨draw, hdraw.trans (Nat.lt_succ_self _), hnonce, ?_⟩
    rw [Function.update_of_ne hdraw.ne]
    exact hother
  rintro nonce other (hinserted | hmapping | hasks)
  · by_cases hother : other = key
    · subst hother
      rw [AList.lookup_insert] at hinserted
      exact ⟨r.drawn, Nat.lt_succ_self _, Option.some.inj hinserted, Function.update_self ..⟩
    · rw [AList.lookup_insert_ne hother] at hinserted
      exact hold nonce other (.inl hinserted)
  · exact hold nonce other (.inr (.inl hmapping))
  · exact hold nonce other (.inr (.inr hasks))

theorem nonce_of_mapRequest (h : mapRequest proto target nonce = .pcp request) :
    request.nonce = nonce ∧ (MapRequest.pcp request).key = target.key := by
  refine ⟨?_, by rw [← h, key_mapRequest]⟩
  cases proto with
  | pcp =>
      cases h
      rfl
  | natPmp => cases h

theorem attributed_tryMapVia (h : Attributed world r)
    (hnonce : r.nonces.lookup target.key = some nonce) (proto : NatProtocol) :
    Attributed world (r.tryMapVia world proto target nonce).2 := by
  unfold tryMapVia
  split
  · refine h.send (le_call world.attempt r.drawn _) rfl rfl rfl ?_ (echoed_call _ _ _)
    intro request hrequest
    obtain ⟨hsame, hkey⟩ := nonce_of_mapRequest (Option.some.inj hrequest)
    rw [hsame, hkey]
    exact .inl hnonce
  · exact h

theorem attributed_record (h : Attributed world r)
    (hgranted : Granted r.log proto target nonce ack) :
    Attributed world (r.record world proto target nonce ack) := by
  obtain ⟨response, epoch, hcall, hack⟩ := hgranted
  have hlog : r.log <:+ (r.record world proto target nonce ack).log := List.suffix_cons _ _
  refine ⟨h.owned_of_uses (Nat.le_succ _) ?_, ?_, ?_, ?_, ?_⟩
  · rintro used key (hstored | ⟨mapping, hheld, hnonce⟩ | hasks)
    · exact .inl hstored
    · rcases of_lookup_insert hheld with ⟨rfl, rfl⟩ | hold
      · dsimp only at hnonce
        split_ifs at hnonce with hpcp
        subst hpcp
        cases hnonce
        exact .inr (.inr ⟨_, List.mem_filterMap.2 ⟨_, hcall, rfl⟩, rfl, rfl⟩)
      · exact .inr (.inl ⟨mapping, hold, hnonce⟩)
    · rcases asks_cons hasks with ⟨request, hentry, -⟩ | hold
      · cases hentry
      · exact .inr (.inr hold)
  · intro key mapping hheld
    rcases of_lookup_insert hheld with ⟨rfl, rfl⟩ | hold
    · rfl
    · exact h.keyed key mapping hold
  · intro key mapping hheld hpcp
    rcases of_lookup_insert hheld with ⟨rfl, rfl⟩ | hold
    · exact ⟨nonce, if_pos hpcp⟩
    · exact h.nonced key mapping hold hpcp
  · intro key mapping hheld
    rcases of_lookup_insert hheld with ⟨rfl, rfl⟩ | hold
    · exact ⟨_, response, nonce, ack, epoch, hlog.subset hcall, key_mapRequest proto target nonce,
        hack, rfl, rfl⟩
    · exact (h.sourced key mapping hold).mono hlog
  · exact List.forall_mem_cons.2 ⟨trivial, h.echoed⟩

theorem attributed_failed (h : Attributed world r) (key : MappingKey)
    (error : RpcError) : Attributed world (r.failed key error) := by
  rw [failed_eq]
  refine h.shrink ⟨le_rfl, fun _ _ h => h, ?_, [], rfl, List.forall_mem_nil _⟩
  intro other mapping hheld
  dsimp only at hheld
  split at hheld
  · exact hheld
  · exact (of_lookup_erase hheld).2

theorem uses_of_unmapRequest (h : Attributed world r) {mapping : ActiveMapping}
    (hheld : r.mappings.lookup key = some mapping) (fallback : Nonce)
    (hrequest : unmapRequest mapping.protocolUsed mapping.target
      (mapping.pcpNonce.getD fallback) = .pcp request) :
    r.Uses request.nonce (MapRequest.pcp request).key := by
  rw [← hrequest, key_unmapRequest, h.keyed key mapping hheld]
  cases hproto : mapping.protocolUsed with
  | natPmp =>
      rw [hproto] at hrequest
      cases hrequest
  | pcp =>
      obtain ⟨nonce, hnonce⟩ := h.nonced key mapping hheld hproto
      rw [hproto, hnonce] at hrequest
      cases hrequest
      exact .inr (.inl ⟨mapping, hheld, hnonce⟩)

theorem attributed_sendUnmap (h : Attributed world r) {mapping : ActiveMapping}
    (hheld : r.mappings.lookup key = some mapping) (fallback : Nonce) :
    Attributed world (r.sendUnmap world mapping (mapping.pcpNonce.getD fallback)) :=
  h.send (Nat.le_succ _) rfl rfl rfl
    (fun _ hrequest => uses_of_unmapRequest h hheld fallback (Option.some.inj hrequest)) trivial

theorem attributed_dropOne (h : Attributed world r) (key : MappingKey) :
    Attributed world (r.dropOne world key) := by
  unfold dropOne
  split
  · exact h
  · rename_i mapping hheld
    refine (attributed_sendUnmap h hheld ((r.nonces.lookup mapping.target.key).getD 0)).shrink ?_
    exact ⟨le_rfl, fun _ _ h => (of_lookup_erase h).2, fun _ _ h => (of_lookup_erase h).2, [], rfl,
      List.forall_mem_nil _⟩

theorem attributed_act (hact : Act world r r') (h : Attributed world r) : Attributed world r' := by
  cases hact with
  | tune hsame hdrawn => exact h.shrink (.of_same hdrawn hsame.nonces hsame.mappings hsame.log)
  | openSocket => exact h.shrink (.of_same (Nat.le_succ _) rfl rfl rfl)
  | drawNonce => exact attributed_drawNonce h _
  | call _ hnonce proto => exact attributed_tryMapVia h hnonce proto
  | record _ _ hgranted => exact attributed_record h hgranted
  | failed => exact attributed_failed h _ _
  | reset => exact h.shrink (.of_cleared le_rfl rfl rfl rfl (List.forall_mem_singleton.2 rfl))
  | drop => exact attributed_dropOne h _

theorem attributed_rebuildTable (h : Attributed world r) :
    Attributed world (r.rebuildTable world) := by
  have hcleared : Attributed world r.clearTable :=
    h.shrink (.of_cleared (Nat.le_succ _) rfl rfl rfl (List.forall_mem_singleton.2 rfl))
  have hrequested :
      Attributed world ((r.targets world).foldl (sendMapRequest world) r.clearTable) :=
    (Acts.foldl (acts_sendMapRequest world) _ _).invariant attributed_act hcleared
  exact hrequested.shrink (.of_mark _ rfl)

theorem attributed_sendUnmaps {mappings : List ActiveMapping} (h : Attributed world r)
    (hheld : ∀ mapping ∈ mappings, ∃ key, r.mappings.lookup key = some mapping) :
    Attributed world (r.sendUnmaps world mappings) := by
  induction mappings generalizing r with
  | nil => exact h
  | cons mapping rest ih =>
      obtain ⟨⟨key, hkey⟩, hrest⟩ := List.forall_mem_cons.1 hheld
      exact ih (attributed_sendUnmap h hkey 0) hrest

theorem attributed_releaseAllWithDeadline (h : Attributed world r) :
    Attributed world (r.releaseAllWithDeadline world) := by
  unfold releaseAllWithDeadline
  split
  · exact h
  · refine (attributed_sendUnmaps h ?_).shrink
      (.of_cleared le_rfl rfl rfl rfl (List.forall_mem_nil _))
    intro mapping hmapping
    obtain ⟨entry, hentry, rfl⟩ := List.mem_map.1 hmapping
    exact ⟨entry.1, (mem_entries_iff r.mappings).1 hentry⟩

theorem attributed_step {next : Reconciler} {event : Event} (h : Attributed world r)
    (hstep : step world r event = some next) : Attributed world next := by
  rcases step_cases attributed_act attributed_rebuildTable h hstep with ⟨hnext, -⟩ | rfl
  · exact hnext
  · exact (attributed_releaseAllWithDeadline h).shrink (.of_same le_rfl rfl rfl rfl)

theorem attributed_run {params : NatMapperParams} {rules : RuleSet} {events : List Event}
    {final : Reconciler}
    (hrun : run (step world) (start world params rules) events = some final) :
    Attributed world final :=
  run_invariant (step world) (P := Attributed world)
    (fun _ _ _ h hstep => attributed_step h hstep)
    ((acts_start world params rules).invariant attributed_act (attributed_new world params)) hrun

theorem Attributed.key_unique (h : Attributed world r)
    (hnonces : Set.InjOn world.nonce (Set.Iio r.drawn)) {other : MappingKey}
    (hkey : r.Uses nonce key) (hother : r.Uses nonce other) : key = other := by
  obtain ⟨owner, howner⟩ := h.owned
  obtain ⟨draw, hdraw, hdrew, rfl⟩ := howner nonce key hkey
  obtain ⟨draw', hdraw', hdrew', rfl⟩ := howner nonce other hother
  rw [hnonces hdraw hdraw' (hdrew.trans hdrew'.symm)]

theorem mem_requests_of_upTo {log later earlier : List LogEntry} {request asked : MapRequest}
    {outcome : Except RpcError MapResponse}
    (hlog : log = later ++ .call request outcome :: earlier)
    (hasked : asked ∈ requestsUpTo request earlier) :
    asked ∈ log.filterMap LogEntry.request? := by
  rw [hlog, List.filterMap_append, List.mem_append]
  exact .inr hasked

/-- The answer a PCP call takes is one to a request for its own key. -/
theorem Attributed.key_of_answers (h : Attributed world r)
    (hnonces : Set.InjOn world.nonce (Set.Iio r.drawn)) {later earlier : List LogEntry}
    {response : MapResponse} {asked : MapRequest}
    (hlog : r.log = later ++ .call (.pcp request) (.ok response) :: earlier)
    (hasked : asked ∈ requestsUpTo (.pcp request) earlier) (hanswers : response.Answers asked) :
    asked.key = (MapRequest.pcp request).key := by
  have hcall : .call (.pcp request) (.ok response) ∈ r.log := by
    rw [hlog]
    exact List.mem_append_right later List.mem_cons_self
  obtain ⟨answer, rfl, hecho⟩ := h.echoed _ hcall
  cases asked with
  | natPmp asked => exact hanswers.elim
  | pcp asked =>
      have hown := mem_requests_of_upTo hlog List.mem_cons_self
      have huses : r.Uses request.nonce (MapRequest.pcp request).key :=
        .inr (.inr ⟨request, hown, rfl, rfl⟩)
      refine h.key_unique hnonces (.inr (.inr ⟨asked, ?_, ?_, rfl⟩)) huses
      · exact mem_requests_of_upTo hlog hasked
      · exact hanswers.1.symm.trans hecho

end

section

variable {outstanding : List LogEntry → MapRequest → Prop} {entry : LogEntry}
  {log : List LogEntry}

theorem delivers_cons (hentry : ∀ request response, entry = .call request (.ok response) →
      response.error? = none → response.Answers request ∨
        ∃ asked ∈ log.filterMap LogEntry.request?, outstanding log asked ∧ response.Answers asked)
    (h : Delivers outstanding log) : Delivers outstanding (entry :: log) := by
  intro later request response earlier hlog hgranted
  cases later with
  | nil =>
      obtain ⟨rfl, rfl⟩ := List.cons.inj hlog
      exact hentry request response rfl hgranted
  | cons first later => exact h later request response earlier (List.cons.inj hlog).2 hgranted

theorem delivers_nil : Delivers outstanding [] := by
  intro later request response earlier hlog
  simp at hlog

/-- All requests are for one key. -/
theorem undisturbed_of_key (h : ∀ asked ∈ log.filterMap LogEntry.request?, asked.key = key) :
    Undisturbed outstanding log := by
  intro later request outcome earlier hlog asked hasked _
  rw [hlog, List.filterMap_append, List.forall_mem_append] at h
  have hrequest : (MapRequest.natPmp request).key = key := h.2 _ List.mem_cons_self
  exact (h.2 _ (List.mem_cons_of_mem _ hasked)).trans hrequest.symm

end

theorem injOn_nonce_plainWorld (attempt : Nat → Attempt) {bound : Nat} (hbound : bound ≤ 2 ^ 96) :
    Set.InjOn (plainWorld attempt).nonce (Set.Iio bound) := by
  intro first hfirst second hsecond heq
  have hvalue : (BitVec.ofNat 96 first).toNat = (BitVec.ofNat 96 second).toNat :=
    congrArg BitVec.toNat heq
  rwa [BitVec.toNat_ofNat, BitVec.toNat_ofNat, Nat.mod_eq_of_lt (hfirst.trans_le hbound),
    Nat.mod_eq_of_lt (hsecond.trans_le hbound)] at hvalue

def natPmpParams : NatMapperParams := { pcpParams with mode := .natPmp, enabled := by decide }

def lateSshWorld : World :=
  plainWorld (answering [(12, natPmpReply (mapRequest .natPmp sshTarget 0))])

def sshHttpRules : RuleSet where
  rules := [⟨"ssh", ⟨.v4 0xC0A8010A, 22⟩, .tcp, some 22, none, none, none⟩,
    ⟨"http", ⟨.v4 0xC0A8010A, 80⟩, .tcp, some 80, none, none, none⟩]
  routes := []
  bindable := by decide
  names_nodup := by decide
  claims_nodup := by decide

def lateWorld : World := plainWorld (answering [(8, natPmpReply (mapRequest .natPmp sshTarget 0))])

end Reconciler

end Yggdrasil.NatTraversal
