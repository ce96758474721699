import Yggdrasil.NatTraversal.Targets

/-!
# Calls to the gateway

One call sends its request up to three times on the connected socket and reads
one datagram, a socket error or nothing each time.  A PCP answer with another
nonce uses up its attempt; a NAT-PMP answer is taken for the request whatever
mapping it names.
-/

namespace Yggdrasil.NatTraversal

open Foundation

inductive NatProtocol where
  | pcp
  | natPmp
  deriving DecidableEq, Repr

def requestedLifetimeSecs : UInt32 := 7200

def rpcMaxRetries : Nat := 3

def recvBufferLen : Nat := 1500

inductive RpcError where
  | noSocket
  | timeout (retries : Nat)
  | pcp (code : PcpResultCode)
  | natPmp (code : NatPmpResultCode)
  | wire (error : WireError)
  | io (message : String)
  deriving DecidableEq, Repr

namespace RpcError

def toString (text : AddrText) : RpcError → String
  | noSocket => "no RPC socket bound"
  | timeout retries => s!"RPC timed out after {retries} retries"
  | pcp code => "PCP error: " ++ code.debug
  | natPmp code => "NAT-PMP error: " ++ code.debug
  | wire error => "wire: " ++ error.toString text
  | io message => "io: " ++ message

def isTransient : RpcError → Bool
  | pcp code => code.isTransient
  | natPmp code => code.isTransient
  | timeout _ | io _ | noSocket => true
  | wire _ => false

def shouldFallBackToNatpmp : RpcError → Bool
  | pcp code => code.shouldFallBackToNatpmp
  | timeout _ => true
  | _ => false

end RpcError

inductive Reception where
  | packet (bytes : Bytes)
  | ioError (message : String)
  | elapsed
  deriving DecidableEq, Repr

/-- What the socket does with one transmission: the result of sending and, if sent, of waiting. -/
structure Attempt where
  sent : Except String Unit
  reception : Reception

/--
The loop shared by both protocols, from the attempt numbered `drawn`, with the
number of the attempt after the last one used.  `accept` decodes a datagram;
`none` discards it.
-/
def rpcLoop {ρ : Type} (attempt : Nat → Attempt) (accept : Bytes → Except WireError (Option ρ)) :
    Nat → Nat → Except RpcError ρ × Nat
  | 0, drawn => (.error (.timeout rpcMaxRetries), drawn)
  | retries + 1, drawn =>
      match (attempt drawn).sent with
      | .error message => (.error (.io message), drawn + 1)
      | .ok () =>
          match (attempt drawn).reception with
          | .ioError message => (.error (.io message), drawn + 1)
          | .elapsed => rpcLoop attempt accept retries (drawn + 1)
          | .packet bytes =>
              match accept (bytes.take recvBufferLen) with
              | .error error => (.error (.wire error), drawn + 1)
              | .ok none => rpcLoop attempt accept retries (drawn + 1)
              | .ok (some response) => (.ok response, drawn + 1)

def acceptPcp (request : PcpMapRequest) (bytes : Bytes) :
    Except WireError (Option PcpMapResponse) :=
  (Pcp.decodeMapResponse bytes).map fun parsed =>
    if parsed.nonce = request.nonce then some parsed else none

def pcpRpc (attempt : Nat → Attempt) (request : PcpMapRequest) (drawn : Nat) :
    Except RpcError PcpMapResponse × Nat :=
  rpcLoop attempt (acceptPcp request) rpcMaxRetries drawn

def natpmpRpc (attempt : Nat → Attempt) (_request : NatPmpMapRequest) (drawn : Nat) :
    Except RpcError NatPmpMapResponse × Nat :=
  rpcLoop attempt (fun bytes => (NatPmp.decodeMapResponse bytes).map some) rpcMaxRetries drawn

section

variable {ρ : Type} {attempt : Nat → Attempt} {accept : Bytes → Except WireError (Option ρ)}

theorem rpcLoop_ok {retries drawn : Nat} {response : ρ}
    (h : (rpcLoop attempt accept retries drawn).1 = .ok response) :
    ∃ used bytes, (attempt used).reception = .packet bytes ∧
      accept (bytes.take recvBufferLen) = .ok (some response) := by
  induction retries generalizing drawn with
  | zero => cases h
  | succ retries ih =>
      rw [rpcLoop] at h
      split at h
      · cases h
      · split at h
        · cases h
        · exact ih h
        · rename_i bytes hreception
          split at h
          · cases h
          · exact ih h
          · rename_i accepted haccept
            cases h
            exact ⟨drawn, bytes, hreception, haccept⟩

end

theorem pcpRpc_nonce {attempt : Nat → Attempt} {request : PcpMapRequest} {drawn : Nat}
    {response : PcpMapResponse} (h : (pcpRpc attempt request drawn).1 = .ok response) :
    response.nonce = request.nonce := by
  obtain ⟨used, bytes, -, haccept⟩ := rpcLoop_ok h
  unfold acceptPcp at haccept
  cases hdecode : Pcp.decodeMapResponse (bytes.take recvBufferLen) with
  | error error => rw [hdecode] at haccept; cases haccept
  | ok parsed =>
      rw [hdecode] at haccept
      simp only [Except.map, Except.ok.injEq] at haccept
      split at haccept
      · rename_i hnonce
        exact Option.some.inj haccept ▸ hnonce
      · cases haccept

inductive MapRequest where
  | pcp (request : PcpMapRequest)
  | natPmp (request : NatPmpMapRequest)
  deriving DecidableEq, Repr

inductive MapResponse where
  | pcp (response : PcpMapResponse)
  | natPmp (response : NatPmpMapResponse)
  deriving DecidableEq, Repr

def MapRequest.key : MapRequest → MappingKey
  | pcp request => (request.protocol, request.internalPort)
  | natPmp request => (request.protocol, request.internalPort)

def MapResponse.key : MapResponse → MappingKey
  | pcp response => (response.protocol, response.internalPort)
  | natPmp response => (response.protocol, response.internalPort)

def mapRequest (proto : NatProtocol) (target : MappingTarget) (nonce : Nonce) : MapRequest :=
  match proto with
  | .pcp => .pcp {
      lifetimeSecs := requestedLifetimeSecs
      clientAddr := target.internalAddr
      nonce := nonce
      protocol := target.protocol
      internalPort := target.internalPort
      suggestedExternalPort := target.internalPort
      suggestedExternalAddr := 0 }
  | .natPmp => .natPmp {
      protocol := target.protocol
      internalPort := target.internalPort
      suggestedExternalPort := target.internalPort
      lifetimeSecs := requestedLifetimeSecs }

def unmapRequest (proto : NatProtocol) (target : MappingTarget) (nonce : Nonce) : MapRequest :=
  match proto with
  | .pcp => .pcp {
      lifetimeSecs := 0
      clientAddr := target.internalAddr
      nonce := nonce
      protocol := target.protocol
      internalPort := target.internalPort
      suggestedExternalPort := target.internalPort
      suggestedExternalAddr := 0 }
  | .natPmp => .natPmp {
      protocol := target.protocol
      internalPort := target.internalPort
      suggestedExternalPort := 0
      lifetimeSecs := 0 }

@[simp] theorem key_mapRequest (proto : NatProtocol) (target : MappingTarget) (nonce : Nonce) :
    (mapRequest proto target nonce).key = target.key := by
  cases proto <;> rfl

@[simp] theorem key_unmapRequest (proto : NatProtocol) (target : MappingTarget) (nonce : Nonce) :
    (unmapRequest proto target nonce).key = target.key := by
  cases proto <;> rfl

def MapRequest.call (attempt : Nat → Attempt) (drawn : Nat) :
    MapRequest → Except RpcError MapResponse × Nat
  | pcp request =>
      let (outcome, next) := pcpRpc attempt request drawn
      (outcome.map .pcp, next)
  | natPmp request =>
      let (outcome, next) := natpmpRpc attempt request drawn
      (outcome.map .natPmp, next)

structure MapAck where
  externalPort : UInt16
  externalAddr : Option Ipv4Addr
  assignedLifetimeSecs : UInt32
  deriving DecidableEq, Repr

def MapResponse.ack (nonce : Nonce) : MapResponse → Except RpcError (MapAck × UInt32)
  | pcp response =>
      if response.resultCode ≠ .success then .error (.pcp response.resultCode)
      else if response.nonce ≠ nonce then .error (.wire .nonceMismatch)
      else .ok (⟨response.assignedExternalPort, some response.assignedExternalAddr,
        response.assignedLifetime⟩, response.epochTime)
  | natPmp response =>
      if response.resultCode ≠ .success then .error (.natPmp response.resultCode)
      else .ok (⟨response.assignedExternalPort, none, response.assignedLifetime⟩,
        response.secondsSinceEpoch)

def MapResponse.error? : MapResponse → Option RpcError
  | pcp response =>
      if response.resultCode ≠ .success then some (.pcp response.resultCode) else none
  | natPmp response =>
      if response.resultCode ≠ .success then some (.natPmp response.resultCode) else none

def callError : Except RpcError MapResponse → Option RpcError
  | .error error => some error
  | .ok response => response.error?

theorem le_rpcLoop {ρ : Type} (attempt : Nat → Attempt)
    (accept : Bytes → Except WireError (Option ρ)) (retries drawn : Nat) :
    drawn ≤ (rpcLoop attempt accept retries drawn).2 := by
  induction retries generalizing drawn with
  | zero => exact le_rfl
  | succ retries ih =>
      have hrest : drawn ≤ (rpcLoop attempt accept retries (drawn + 1)).2 :=
        (Nat.le_succ drawn).trans (ih (drawn + 1))
      rw [rpcLoop]
      split
      · exact Nat.le_succ drawn
      · split
        · exact Nat.le_succ drawn
        · exact hrest
        · split
          · exact Nat.le_succ drawn
          · exact hrest
          · exact Nat.le_succ drawn

theorem le_call (attempt : Nat → Attempt) (drawn : Nat) (request : MapRequest) :
    drawn ≤ (request.call attempt drawn).2 := by
  cases request with
  | pcp request => exact le_rpcLoop attempt (acceptPcp request) rpcMaxRetries drawn
  | natPmp request =>
      exact le_rpcLoop attempt (fun bytes => (NatPmp.decodeMapResponse bytes).map some)
        rpcMaxRetries drawn

theorem ack_of_call {attempt : Nat → Attempt} {drawn : Nat} {proto : NatProtocol}
    {target : MappingTarget} {nonce : Nonce} {response : MapResponse}
    (h : ((mapRequest proto target nonce).call attempt drawn).1 = .ok response) :
    (∃ answer, response.ack nonce = .ok answer) ∧ response.error? = none ∨
      ∃ error, response.ack nonce = .error error ∧ response.error? = some error := by
  cases proto with
  | pcp =>
      simp only [mapRequest, MapRequest.call] at h
      cases hcall : (pcpRpc attempt _ drawn).1 with
      | error cause => rw [hcall] at h; cases h
      | ok parsed =>
          have hnonce : parsed.nonce = nonce := pcpRpc_nonce hcall
          rw [hcall] at h
          obtain rfl : MapResponse.pcp parsed = response := by simpa [Except.map] using h
          by_cases hcode : parsed.resultCode = .success
          · exact .inl (by simp [MapResponse.ack, MapResponse.error?, hcode, hnonce])
          · exact .inr ⟨.pcp parsed.resultCode, by simp [MapResponse.ack, MapResponse.error?, hcode]⟩
  | natPmp =>
      simp only [mapRequest, MapRequest.call] at h
      cases hcall : (natpmpRpc attempt _ drawn).1 with
      | error cause => rw [hcall] at h; cases h
      | ok parsed =>
          rw [hcall] at h
          obtain rfl : MapResponse.natPmp parsed = response := by simpa [Except.map] using h
          by_cases hcode : parsed.resultCode = .success
          · exact .inl (by simp [MapResponse.ack, MapResponse.error?, hcode])
          · exact .inr ⟨.natPmp parsed.resultCode, by simp [MapResponse.ack, MapResponse.error?, hcode]⟩

end Yggdrasil.NatTraversal
