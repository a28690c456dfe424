import AquaticTracker.Socket.Validator
import AquaticTracker.Protocol.Response

/-! # The mio socket worker's request path

`SocketWorker::read_and_handle_requests`, `handle_request` and the send path with its resend
buffer in `run_inner` of `crates/udp`.
-/

namespace AquaticTracker.Socket

open Wire

set_option autoImplicit false

/-- `ConnectedRequest`, over the scrape sub-requests `ρ` of `prepare_split_requests`. -/
inductive ConnectedRequest (ρ : Type) where
  | announce (request : AnnounceRequest)
  | scrape (request : ρ)

/-- What the worker sends on behalf of a source: a response it queues in
`local_responses`, or a request it passes to a swarm worker with `try_send_to`. -/
inductive SocketOutput (ρ : Type) where
  | localResponse (response : Response) (addr : CanonicalSocketAddr)
  | request (swarmWorkerIndex : Nat) (request : ConnectedRequest ρ) (addr : CanonicalSocketAddr)

/-- The source an output is for. -/
def SocketOutput.addr {ρ : Type} : SocketOutput ρ → CanonicalSocketAddr
  | .localResponse _ addr => addr
  | .request _ _ addr => addr

/-- Whether an output is a queued `ConnectResponse`. -/
def SocketOutput.isConnectResponse {ρ : Type} : SocketOutput ρ → Bool
  | .localResponse (.connect _) _ => true
  | _ => false

/-- A datagram as `recv_from` returns it, with the tracker's elapsed seconds and the access
list's verdict when the worker handles it. -/
structure Datagram where
  bytes : List U8
  src : SocketAddr
  elapsedSecs : Nat
  allows : InfoHash → Bool

/-- What `recv_from` returns. -/
inductive RecvResult where
  | ok (datagram : Datagram)
  | wouldBlock
  | error

/-- The state of `SocketWorker` that the request path reads and changes. -/
structure SocketWorker (σ : Type) where
  validator : ConnectionValidator
  pendingScrapeResponses : σ

/-- One handled datagram: the validator the worker had before it, and what it sent. -/
structure Handled (ρ : Type) where
  validator : ConnectionValidator
  datagram : Datagram
  outputs : List (SocketOutput ρ)

/-- The connection id a parsed datagram carries: that of an announce or a scrape, or the one
a sendable parse error reports. -/
def carriedConnectionId : Except RequestParseError Request → Option ConnectionId
  | .ok (.connect _) => none
  | .ok (.announce r) => some r.connectionId
  | .ok (.scrape r) => some r.connectionId
  | .error (.sendable connectionId _ _) => some connectionId
  | .error (.unsendable _) => none

section Worker

variable {σ ρ : Type} (xof : List U8 → Bytes 4) (endian : Endian)
  (canonicalize : SocketAddr → CanonicalSocketAddr) (swarmWorkerIndex : InfoHash → Nat)
  (prepareSplitRequests : σ → ScrapeRequest → ValidUntil → σ × List (Nat × ρ))
  (maxScrapeTorrents : U8) (pendingScrapeValidUntil : ValidUntil)

/-- `SocketWorker::handle_request` -/
def SocketWorker.handleRequest (w : SocketWorker σ) (elapsedSecs : Nat)
    (allows : InfoHash → Bool) (request : Request) (src : CanonicalSocketAddr) :
    SocketWorker σ × List (SocketOutput ρ) :=
  match request with
  | .connect request =>
    let (validator, connectionId) := w.validator.createConnectionId xof endian elapsedSecs src
    ({ w with validator }, [.localResponse (.connect ⟨connectionId, request.transactionId⟩) src])
  | .announce request =>
    let (validator, valid) :=
      w.validator.connectionIdValid xof endian elapsedSecs src request.connectionId
    if valid then
      if allows request.infoHash then
        ({ w with validator },
          [.request (swarmWorkerIndex request.infoHash) (.announce request) src])
      else
        ({ w with validator },
          [.localResponse (.error ⟨request.transactionId, "Info hash not allowed"⟩) src])
    else ({ w with validator }, [])
  | .scrape request =>
    let (validator, valid) :=
      w.validator.connectionIdValid xof endian elapsedSecs src request.connectionId
    if valid then
      let (pendingScrapeResponses, splitRequests) :=
        prepareSplitRequests w.pendingScrapeResponses request pendingScrapeValidUntil
      (⟨validator, pendingScrapeResponses⟩,
        splitRequests.map fun (index, request) => .request index (.scrape request) src)
    else ({ w with validator }, [])

/-- The body of `read_and_handle_requests`'s loop for one datagram. -/
def SocketWorker.handleDatagram (w : SocketWorker σ) (d : Datagram) :
    SocketWorker σ × List (SocketOutput ρ) :=
  if d.src.port = 0 then (w, [])
  else
    let src := canonicalize d.src
    match Request.parseBytes d.bytes maxScrapeTorrents with
    | .ok request =>
      w.handleRequest xof endian swarmWorkerIndex prepareSplitRequests pendingScrapeValidUntil
        d.elapsedSecs d.allows request src
    | .error (.sendable connectionId transactionId err) =>
      let (validator, valid) :=
        w.validator.connectionIdValid xof endian d.elapsedSecs src connectionId
      ({ w with validator },
        if valid then [.localResponse (.error ⟨transactionId, err⟩) src] else [])
    | .error (.unsendable _) => (w, [])

/-- `SocketWorker::read_and_handle_requests` over what `recv_from` returns, until
`WouldBlock`: the worker afterwards, and the datagrams it handled with what it sent for
each. -/
def SocketWorker.readAndHandleRequests (w : SocketWorker σ) :
    List RecvResult → SocketWorker σ × List (Handled ρ)
  | [] => (w, [])
  | .wouldBlock :: _ => (w, [])
  | .error :: rest => w.readAndHandleRequests rest
  | .ok d :: rest =>
    let (w', outputs) := w.handleDatagram xof endian canonicalize swarmWorkerIndex
      prepareSplitRequests maxScrapeTorrents pendingScrapeValidUntil d
    let (w'', handled) := w'.readAndHandleRequests rest
    (w'', ⟨w.validator, d, outputs⟩ :: handled)

/-- What the worker may send for one handled datagram: only to the source it came from, only
if that source's port is not 0, and, a `ConnectResponse` to a connect request apart, only if
the datagram carried a connection id the validator accepted. A rejected id and an
unsendable parse error bring nothing; a connect request brings exactly one `ConnectResponse`. -/
def RepliesOnlyToValid (h : Handled ρ) : Prop :=
  let src := canonicalize h.datagram.src
  let parsed := Request.parseBytes h.datagram.bytes maxScrapeTorrents
  let valid := fun connectionId =>
    (h.validator.connectionIdValid xof endian h.datagram.elapsedSecs src connectionId).2
  (∀ o ∈ h.outputs, o.addr = src ∧ h.datagram.src.port ≠ 0 ∧
    if o.isConnectResponse then ∃ r, parsed = .ok (.connect r)
    else ∃ connectionId, carriedConnectionId parsed = some connectionId ∧ valid connectionId) ∧
  (∀ connectionId, carriedConnectionId parsed = some connectionId → valid connectionId = false →
    h.outputs = []) ∧
  (∀ e, parsed = .error (.unsendable e) → h.outputs = []) ∧
  (∀ r, parsed = .ok (.connect r) → h.datagram.src.port ≠ 0 →
    ∃ connectionId, h.outputs = [.localResponse (.connect ⟨connectionId, r.transactionId⟩) src])

theorem handleDatagram_repliesOnlyToValid (w : SocketWorker σ) (d : Datagram) :
    RepliesOnlyToValid xof endian canonicalize maxScrapeTorrents
      ⟨w.validator, d, (w.handleDatagram xof endian canonicalize swarmWorkerIndex
        prepareSplitRequests maxScrapeTorrents pendingScrapeValidUntil d).2⟩ := by
  unfold SocketWorker.handleDatagram RepliesOnlyToValid
  by_cases hPort : d.src.port = 0
  · simp [hPort]
  · have hPort' : ¬d.src.port = 0#16 := hPort
    simp only [if_neg hPort]
    cases hParse : Request.parseBytes d.bytes maxScrapeTorrents with
    | ok request =>
      cases request with
      | connect r =>
        simp [SocketWorker.handleRequest, carriedConnectionId, SocketOutput.addr,
          SocketOutput.isConnectResponse, hPort']
      | announce r =>
        rcases hValid : w.validator.connectionIdValid xof endian d.elapsedSecs
          (canonicalize d.src) r.connectionId with ⟨v', valid⟩
        cases valid <;> by_cases hAllow : d.allows r.infoHash <;>
          simp [SocketWorker.handleRequest, carriedConnectionId, SocketOutput.addr,
            SocketOutput.isConnectResponse, hValid, hAllow, hPort']
      | scrape r =>
        rcases hValid : w.validator.connectionIdValid xof endian d.elapsedSecs
          (canonicalize d.src) r.connectionId with ⟨v', valid⟩
        cases valid
        · simp [SocketWorker.handleRequest, carriedConnectionId, hValid]
        · simp only [SocketWorker.handleRequest, carriedConnectionId, hValid]
          refine ⟨fun o ho => ?_, by simp [hValid], by simp, by simp⟩
          obtain ⟨_, -, rfl⟩ := List.mem_map.mp ho
          simp [SocketOutput.addr, SocketOutput.isConnectResponse, hPort', hValid]
    | error e =>
      cases e with
      | sendable connectionId transactionId err =>
        rcases hValid : w.validator.connectionIdValid xof endian d.elapsedSecs
          (canonicalize d.src) connectionId with ⟨v', valid⟩
        cases valid <;>
          simp [carriedConnectionId, SocketOutput.addr, SocketOutput.isConnectResponse, hValid,
            hPort']
      | unsendable e => simp

theorem mem_readAndHandleRequests_ok (w : SocketWorker σ) (d : Datagram) (rest : List RecvResult) :
    ∃ h ∈ (w.readAndHandleRequests xof endian canonicalize swarmWorkerIndex prepareSplitRequests
      maxScrapeTorrents pendingScrapeValidUntil (.ok d :: rest)).2,
      h.validator = w.validator ∧ h.datagram = d := by
  rcases hD : w.handleDatagram xof endian canonicalize swarmWorkerIndex prepareSplitRequests
    maxScrapeTorrents pendingScrapeValidUntil d with ⟨w', outputs⟩
  simp only [SocketWorker.readAndHandleRequests, hD]
  exact ⟨_, List.mem_cons_self _ _, rfl, rfl⟩

/-- Every datagram the worker handles, over every sequence `recv_from` returns, is answered
only as `RepliesOnlyToValid` allows. -/
theorem socket_worker_replies_only_to_valid_ids (w : SocketWorker σ)
    (received : List RecvResult) :
    ∀ h ∈ (w.readAndHandleRequests xof endian canonicalize swarmWorkerIndex prepareSplitRequests
      maxScrapeTorrents pendingScrapeValidUntil received).2,
      RepliesOnlyToValid xof endian canonicalize maxScrapeTorrents h := by
  induction received generalizing w with
  | nil => simp [SocketWorker.readAndHandleRequests]
  | cons r rest ih =>
    cases r with
    | wouldBlock => simp [SocketWorker.readAndHandleRequests]
    | error => exact ih w
    | ok d =>
      have hStep := handleDatagram_repliesOnlyToValid xof endian canonicalize swarmWorkerIndex
        prepareSplitRequests maxScrapeTorrents pendingScrapeValidUntil w d
      rcases hD : w.handleDatagram xof endian canonicalize swarmWorkerIndex prepareSplitRequests
        maxScrapeTorrents pendingScrapeValidUntil d with ⟨w', outputs⟩
      rw [hD] at hStep
      simp only [SocketWorker.readAndHandleRequests, hD, List.mem_cons]
      rintro h (rfl | hMem)
      · exact hStep
      · exact ih w' h hMem

/-- A connect request from port 6881, to a fresh validator, is handled as
`RepliesOnlyToValid` allows. -/
theorem socket_worker_replies_to_connect :
    ∃ h ∈ (SocketWorker.readAndHandleRequests (fun _ => Bytes.replicate 4 0) .little
        CanonicalSocketAddr.mk (fun _ => 0) (fun (s : Unit) _ _ => (s, ([] : List (Nat × Unit))))
        255 0 ⟨ConnectionValidator.new 120, ()⟩
        [.ok ⟨Request.writeBytes (.connect ⟨0x1234⟩), ⟨.v4 ⟨Bytes.replicate 4 10⟩, 6881⟩, 0,
          fun _ => true⟩]).2,
      h.datagram.src.port = 6881 ∧
      RepliesOnlyToValid (fun _ => Bytes.replicate 4 0) .little CanonicalSocketAddr.mk 255 h := by
  obtain ⟨h, hMem, -, hD⟩ := mem_readAndHandleRequests_ok (fun _ => Bytes.replicate 4 0) .little
    CanonicalSocketAddr.mk (fun _ => 0) (fun (s : Unit) _ _ => (s, ([] : List (Nat × Unit))))
    255 0 ⟨ConnectionValidator.new 120, ()⟩ _ []
  exact ⟨h, hMem, by rw [hD], socket_worker_replies_only_to_valid_ids (fun _ => Bytes.replicate 4 0)
    .little CanonicalSocketAddr.mk (fun _ => 0) (fun (s : Unit) _ _ => (s, ([] : List (Nat × Unit))))
    255 0 ⟨ConnectionValidator.new 120, ()⟩ _ h hMem⟩

theorem readAndHandleRequests_ok_cons (w : SocketWorker σ) (d : Datagram)
    (rest : List RecvResult) :
    (w.readAndHandleRequests xof endian canonicalize swarmWorkerIndex prepareSplitRequests
      maxScrapeTorrents pendingScrapeValidUntil (.ok d :: rest) : SocketWorker σ × List (Handled ρ)).2 =
      ⟨w.validator, d, (w.handleDatagram xof endian canonicalize swarmWorkerIndex
        prepareSplitRequests maxScrapeTorrents pendingScrapeValidUntil d).2⟩ ::
      ((w.handleDatagram xof endian canonicalize swarmWorkerIndex prepareSplitRequests
        maxScrapeTorrents pendingScrapeValidUntil d : SocketWorker σ × List (SocketOutput ρ)).1.readAndHandleRequests
          xof endian canonicalize swarmWorkerIndex prepareSplitRequests maxScrapeTorrents
          pendingScrapeValidUntil rest).2 := by
  rcases hD : (w.handleDatagram xof endian canonicalize swarmWorkerIndex prepareSplitRequests
    maxScrapeTorrents pendingScrapeValidUntil d : SocketWorker σ × List (SocketOutput ρ)) with
    ⟨w', outputs⟩
  simp only [SocketWorker.readAndHandleRequests, hD]

/-! ### Issued connection ids -/

section Issued

variable {xof endian canonicalize swarmWorkerIndex prepareSplitRequests maxScrapeTorrents
  pendingScrapeValidUntil}

theorem validator_handleDatagram {w : SocketWorker σ} (hv : w.validator.keyedHasher.input = [])
    (d : Datagram) :
    (w.handleDatagram xof endian canonicalize swarmWorkerIndex prepareSplitRequests
      maxScrapeTorrents pendingScrapeValidUntil d : SocketWorker σ × List (SocketOutput ρ)).1.validator =
      w.validator := by
  have hValid := @connectionIdValid_fst_of_input_eq_nil xof endian w.validator hv
  unfold SocketWorker.handleDatagram
  split_ifs
  · rfl
  · split
    · next request _ =>
      cases request with
      | connect r => simp [SocketWorker.handleRequest, ConnectionValidator.reset_of_input_eq_nil hv]
      | announce r =>
        rcases h : w.validator.connectionIdValid xof endian d.elapsedSecs (canonicalize d.src)
          r.connectionId with ⟨v', valid⟩
        have hv' : v' = w.validator := (congrArg Prod.fst h).symm.trans (hValid _ _ _)
        cases valid <;> simp only [SocketWorker.handleRequest, h] <;> split_ifs <;> exact hv'
      | scrape r =>
        rcases h : w.validator.connectionIdValid xof endian d.elapsedSecs (canonicalize d.src)
          r.connectionId with ⟨v', valid⟩
        have hv' : v' = w.validator := (congrArg Prod.fst h).symm.trans (hValid _ _ _)
        cases valid <;> simp only [SocketWorker.handleRequest, h] <;> exact hv'
    · next connectionId _ _ _ =>
      rcases h : w.validator.connectionIdValid xof endian d.elapsedSecs (canonicalize d.src)
        connectionId with ⟨v', valid⟩
      have hv' : v' = w.validator := (congrArg Prod.fst h).symm.trans (hValid _ _ _)
      simp only [h]
      exact hv'
    · rfl

theorem connectResponse_of_mem_handleDatagram (w : SocketWorker σ) (d : Datagram)
    {connectionId : ConnectionId} {transactionId : TransactionId} {addr : CanonicalSocketAddr}
    (h : .localResponse (.connect ⟨connectionId, transactionId⟩) addr ∈
      (w.handleDatagram xof endian canonicalize swarmWorkerIndex prepareSplitRequests
        maxScrapeTorrents pendingScrapeValidUntil d : SocketWorker σ × List (SocketOutput ρ)).2) :
    addr = canonicalize d.src ∧
      connectionId = (w.validator.createConnectionId xof endian d.elapsedSecs addr).2 := by
  unfold SocketWorker.handleDatagram at h
  split_ifs at h
  · simp at h
  · split at h
    · next request _ =>
      cases request with
      | connect r =>
        simp only [SocketWorker.handleRequest, List.mem_singleton, SocketOutput.localResponse.injEq,
          Response.connect.injEq, ConnectResponse.mk.injEq] at h
        obtain ⟨⟨rfl, -⟩, rfl⟩ := h
        exact ⟨rfl, rfl⟩
      | announce r =>
        simp only [SocketWorker.handleRequest] at h
        split_ifs at h <;> simp at h
      | scrape r =>
        simp only [SocketWorker.handleRequest] at h
        split_ifs at h <;> simp at h
    · simp only at h
      split_ifs at h <;> simp at h
    · simp at h

theorem handleDatagram_of_connect (w : SocketWorker σ) {d : Datagram} (hPort : d.src.port ≠ 0)
    {request : ConnectRequest}
    (hParse : Request.parseBytes d.bytes maxScrapeTorrents = .ok (.connect request)) :
    (w.handleDatagram xof endian canonicalize swarmWorkerIndex prepareSplitRequests
      maxScrapeTorrents pendingScrapeValidUntil d : SocketWorker σ × List (SocketOutput ρ)).2 =
      [.localResponse (.connect ⟨(w.validator.createConnectionId xof endian d.elapsedSecs
        (canonicalize d.src)).2, request.transactionId⟩) (canonicalize d.src)] := by
  unfold SocketWorker.handleDatagram
  rw [if_neg hPort, hParse]
  rfl

theorem handleDatagram_of_announce (w : SocketWorker σ) {d : Datagram} (hPort : d.src.port ≠ 0)
    {request : AnnounceRequest}
    (hParse : Request.parseBytes d.bytes maxScrapeTorrents = .ok (.announce request)) :
    (w.handleDatagram xof endian canonicalize swarmWorkerIndex prepareSplitRequests
      maxScrapeTorrents pendingScrapeValidUntil d : SocketWorker σ × List (SocketOutput ρ)).2 =
      if (w.validator.connectionIdValid xof endian d.elapsedSecs (canonicalize d.src)
          request.connectionId).2 then
        if d.allows request.infoHash then
          [.request (swarmWorkerIndex request.infoHash) (.announce request) (canonicalize d.src)]
        else [.localResponse (.error ⟨request.transactionId, "Info hash not allowed"⟩)
          (canonicalize d.src)]
      else [] := by
  unfold SocketWorker.handleDatagram
  rw [if_neg hPort, hParse]
  simp only [SocketWorker.handleRequest]
  split_ifs <;> rfl

theorem exists_of_mem_readAndHandleRequests {w : SocketWorker σ}
    (hv : w.validator.keyedHasher.input = []) (received : List RecvResult) :
    ∀ h ∈ (w.readAndHandleRequests xof endian canonicalize swarmWorkerIndex prepareSplitRequests
      maxScrapeTorrents pendingScrapeValidUntil received : SocketWorker σ × List (Handled ρ)).2,
      ∃ w' : SocketWorker σ, w'.validator = w.validator ∧
        h.outputs = (w'.handleDatagram xof endian canonicalize swarmWorkerIndex
          prepareSplitRequests maxScrapeTorrents pendingScrapeValidUntil h.datagram).2 := by
  induction received generalizing w with
  | nil => simp [SocketWorker.readAndHandleRequests]
  | cons r rest ih =>
    cases r with
    | wouldBlock => simp [SocketWorker.readAndHandleRequests]
    | error => exact ih hv
    | ok d =>
      have hv' : (w.handleDatagram xof endian canonicalize swarmWorkerIndex prepareSplitRequests
          maxScrapeTorrents pendingScrapeValidUntil d : SocketWorker σ × List (SocketOutput ρ)).1.validator =
          w.validator := validator_handleDatagram hv d
      rcases hD : (w.handleDatagram xof endian canonicalize swarmWorkerIndex prepareSplitRequests
        maxScrapeTorrents pendingScrapeValidUntil d : SocketWorker σ × List (SocketOutput ρ)) with
        ⟨w', outputs⟩
      rw [hD] at hv'
      simp only [SocketWorker.readAndHandleRequests, hD, List.mem_cons]
      rintro h (rfl | hMem)
      · exact ⟨w, rfl, by rw [hD]⟩
      · obtain ⟨w'', hw'', hOutputs⟩ := ih (hv'.symm ▸ hv) h hMem
        exact ⟨w'', hw''.trans hv', hOutputs⟩

end Issued

/-- Over every run of `read_and_handle_requests` from a fresh validator, an id the worker hands
out in a `ConnectResponse` is honoured exactly while it is young. An announce that carries it,
from a non-zero port of the same IP, goes to the swarm worker of its info hash (or is refused
with "Info hash not allowed" when the access list rejects the hash) if it arrives within
`[c, c + max_connection_age)` of the connect's elapsed seconds `c` taken as a `u32`, and draws
nothing otherwise; the order in which the two datagrams arrive plays no part. -/
theorem issued_connection_id_admits_announce (maxConnectionAge : BitVec 32) (pending : σ)
    (received : List RecvResult) :
    let handled := (SocketWorker.readAndHandleRequests xof endian canonicalize swarmWorkerIndex
      prepareSplitRequests maxScrapeTorrents pendingScrapeValidUntil
      ⟨ConnectionValidator.new maxConnectionAge, pending⟩ received).2
    ∀ hConnect ∈ handled, ∀ hAnnounce ∈ handled, ∀ (connectionId : ConnectionId)
      (transactionId : TransactionId) (addr : CanonicalSocketAddr) (request : AnnounceRequest),
      .localResponse (.connect ⟨connectionId, transactionId⟩) addr ∈ hConnect.outputs →
      Request.parseBytes hAnnounce.datagram.bytes maxScrapeTorrents = .ok (.announce request) →
      request.connectionId = connectionId → hAnnounce.datagram.src.port ≠ 0 →
      (canonicalize hAnnounce.datagram.src).get.ip = addr.get.ip →
      hAnnounce.outputs =
        if hConnect.datagram.elapsedSecs % 2 ^ 32 ≤ hAnnounce.datagram.elapsedSecs ∧
            hAnnounce.datagram.elapsedSecs <
              hConnect.datagram.elapsedSecs % 2 ^ 32 + maxConnectionAge.toNat then
          if hAnnounce.datagram.allows request.infoHash then
            [.request (swarmWorkerIndex request.infoHash) (.announce request)
              (canonicalize hAnnounce.datagram.src)]
          else [.localResponse (.error ⟨request.transactionId, "Info hash not allowed"⟩)
            (canonicalize hAnnounce.datagram.src)]
        else [] := by
  intro handled hConnect hMemConnect hAnnounce hMemAnnounce connectionId transactionId addr request
    hResponse hParse hId hPort hIp
  have hv : (ConnectionValidator.new maxConnectionAge).keyedHasher.input = [] := rfl
  obtain ⟨wConnect, hwConnect, hOutputsConnect⟩ :=
    exists_of_mem_readAndHandleRequests hv received hConnect hMemConnect
  obtain ⟨wAnnounce, hwAnnounce, hOutputsAnnounce⟩ :=
    exists_of_mem_readAndHandleRequests hv received hAnnounce hMemAnnounce
  rw [hOutputsConnect] at hResponse
  obtain ⟨-, rfl⟩ := connectResponse_of_mem_handleDatagram wConnect hConnect.datagram hResponse
  rw [hOutputsAnnounce, handleDatagram_of_announce wAnnounce hPort hParse, hwAnnounce, hId,
    ← hwConnect]
  have hvConnect : wConnect.validator.keyedHasher.input = [] := by rw [hwConnect]; rfl
  have hAge : wConnect.validator.maxConnectionAge = maxConnectionAge.toNat := by rw [hwConnect]; rfl
  have hWindow := @connectionIdValid_createConnectionId_iff xof endian wConnect.validator hvConnect
    hConnect.datagram.elapsedSecs hAnnounce.datagram.elapsedSecs addr _ hIp
  rw [hAge] at hWindow
  by_cases hIn : hConnect.datagram.elapsedSecs % 2 ^ 32 ≤ hAnnounce.datagram.elapsedSecs ∧
      hAnnounce.datagram.elapsedSecs <
        hConnect.datagram.elapsedSecs % 2 ^ 32 + maxConnectionAge.toNat
  · rw [if_pos (hWindow.mpr hIn), if_pos hIn]
  · rw [if_neg (mt hWindow.mp hIn), if_neg hIn]

/-- A client at 10.10.10.10 connects from port 6881 at second 5 and announces from port 6882 at
second 60 with the id it was given, to a fresh validator that keeps ids for 120 seconds (with a
stand-in hash that is always zero): the announce goes to swarm worker 0. -/
theorem issued_connection_id_admits_announce_within_age :
    let connect : Datagram :=
      ⟨Request.writeBytes (.connect ⟨0x1234⟩), ⟨.v4 ⟨Bytes.replicate 4 10⟩, 6881⟩, 5, fun _ => true⟩
    let request : AnnounceRequest := ⟨5, 1, 0x99, Bytes.replicate 20 1, Bytes.replicate 20 2, 0, 0,
      0, 2, Bytes.replicate 4 0, 0, 50, 6882⟩
    let announce : Datagram :=
      ⟨Request.writeBytes (.announce request), ⟨.v4 ⟨Bytes.replicate 4 10⟩, 6882⟩, 60, fun _ => true⟩
    ∃ h ∈ (SocketWorker.readAndHandleRequests (fun _ => Bytes.replicate 4 0) .little
        CanonicalSocketAddr.mk (fun _ => 0) (fun (s : Unit) _ _ => (s, ([] : List (Nat × Unit))))
        255 0 ⟨ConnectionValidator.new 120, ()⟩ [.ok connect, .ok announce]).2,
      h.datagram = announce ∧ h.outputs = [.request 0 (.announce request) ⟨announce.src⟩] := by
  intro connect request announce
  have hRun : (SocketWorker.readAndHandleRequests (fun _ => Bytes.replicate 4 0) .little
        CanonicalSocketAddr.mk (fun _ => 0) (fun (s : Unit) _ _ => (s, ([] : List (Nat × Unit))))
        255 0 ⟨ConnectionValidator.new 120, ()⟩ [.ok connect, .ok announce]).2 = _ :=
    readAndHandleRequests_ok_cons (fun _ => Bytes.replicate 4 0) .little
    CanonicalSocketAddr.mk (fun _ => 0) (fun (s : Unit) _ _ => (s, ([] : List (Nat × Unit)))) 255 0
    ⟨ConnectionValidator.new 120, ()⟩ connect [.ok announce]
  rw [readAndHandleRequests_ok_cons (fun _ => Bytes.replicate 4 0) .little
    CanonicalSocketAddr.mk (fun _ => 0) (fun (s : Unit) _ _ => (s, ([] : List (Nat × Unit)))) 255 0
    (SocketWorker.handleDatagram (fun _ => Bytes.replicate 4 0) .little
        CanonicalSocketAddr.mk (fun _ => 0) (fun (s : Unit) _ _ => (s, ([] : List (Nat × Unit))))
        255 0 ⟨ConnectionValidator.new 120, ()⟩ connect).1 announce []] at hRun
  have hMemConnect := hRun ▸ List.mem_cons_self _ _
  have hMemAnnounce := hRun ▸ List.mem_cons_of_mem _ (List.mem_cons_self _ _)
  have hAll := issued_connection_id_admits_announce (fun _ => Bytes.replicate 4 0) .little
    CanonicalSocketAddr.mk (fun _ => 0) (fun (s : Unit) _ _ => (s, ([] : List (Nat × Unit)))) 255 0
    120 () [.ok connect, .ok announce] _ hMemConnect _ hMemAnnounce
  refine ⟨_, hMemAnnounce, rfl, ?_⟩
  rw [hAll ((⟨ConnectionValidator.new 120, ()⟩ : SocketWorker Unit).validator.createConnectionId
    (fun _ => Bytes.replicate 4 0) .little connect.elapsedSecs (CanonicalSocketAddr.mk connect.src)).2
    0x1234 (CanonicalSocketAddr.mk connect.src) request ?response ?parse ?id ?port ?ip]
  case response =>
    rw [handleDatagram_of_connect _ (show connect.src.port ≠ 0 by decide)
      (Request.parseBytes_writeBytes (.connect ⟨0x1234⟩) 255 trivial)]
    exact List.mem_singleton_self _
  case parse => exact Request.parseBytes_writeBytes (.announce request) 255 (by decide)
  case id => show (5 : ConnectionId) = _; decide
  case port => show announce.src.port ≠ 0; decide
  case ip => rfl
  rw [if_pos (by decide), if_pos rfl]

end Worker

/-! ## Sending responses and the resend buffer -/

/-- What `send_to` returns, by the cases `send_response` tells apart: sent, or failed with
`ENOBUFS`, with `WouldBlock`, or otherwise. -/
inductive SendResult where
  | ok
  | noBufs
  | wouldBlock
  | error
deriving DecidableEq, Repr

/-- `err.raw_os_error() == Some(ENOBUFS) || err.kind() == ErrorKind::WouldBlock` -/
def SendResult.retryable : SendResult → Bool
  | .noBufs => true
  | .wouldBlock => true
  | _ => false

/-- A response with the address it is for, as the resend buffer holds it. -/
abbrev Outgoing := Response × CanonicalSocketAddr

/-- What the sends of one iteration of `run_inner`'s loop get: what `send_to` returns to each
response resent from the buffer, the responses sent fresh (the worker's local responses, then
the finished ones from the swarm workers), and what `send_to` returns to each of those. -/
structure SendRound where
  resendResults : Nat → SendResult
  fresh : List Outgoing
  freshResults : Nat → SendResult

section Send

variable (bufferSize resendBufferMaxLen : Nat) (sendAddr : CanonicalSocketAddr → Option SocketAddr)

/-- `SocketWorker::send_response` on `opt_resend_buffer`, with `bufferSize` the length of the
worker's buffer and `sendTo` what `send_to` returns. A response that does not fit the buffer
is not sent. `sendAddr` is the address `send_to` gets, `none` where `expect` panics on a peer
of the other family; statistics are not modelled. -/
def sendResponse (resendBuffer : Option (List Outgoing)) (response : Response)
    (addr : CanonicalSocketAddr) (sendTo : SendResult) : Option (Option (List Outgoing)) :=
  if bufferSize < response.write.length then some resendBuffer
  else (sendAddr addr).map fun _ =>
    match resendBuffer with
    | some buffer =>
      if sendTo.retryable ∧ buffer.length < resendBufferMaxLen then some (buffer ++ [(response, addr)])
      else some buffer
    | none => none

/-- `send_response` for each response of a list in turn, the `i`-th getting `results i`. -/
def sendResponses (resendBuffer : Option (List Outgoing)) (results : Nat → SendResult) :
    List Outgoing → Option (Option (List Outgoing))
  | [] => some resendBuffer
  | (response, addr) :: rest =>
    (sendResponse bufferSize resendBufferMaxLen sendAddr resendBuffer response addr
      (results 0)).bind fun resendBuffer =>
        sendResponses resendBuffer (fun i => results (i + 1)) rest

/-- The sends of one iteration of `run_inner`'s loop: the resend buffer is drained, each of its
responses sent with no buffer to fall back on, and then the fresh responses are sent with it. -/
def runInnerSends (resendBuffer : Option (List Outgoing)) (round : SendRound) :
    Option (Option (List Outgoing)) := do
  let _ ← sendResponses bufferSize resendBufferMaxLen sendAddr none round.resendResults
    (resendBuffer.getD [])
  sendResponses bufferSize resendBufferMaxLen sendAddr (resendBuffer.map fun _ => [])
    round.freshResults round.fresh

/-- `opt_resend_buffer` as `run_inner` starts: `(resend_buffer_max_len > 0).then_some(Vec::new())`. -/
def initialResendBuffer : Option (List Outgoing) :=
  if 0 < resendBufferMaxLen then some [] else none

/-- The resend buffer after each iteration of `run_inner`'s loop, until an iteration panics. -/
def resendBuffers (resendBuffer : Option (List Outgoing)) :
    List SendRound → List (Option (List Outgoing))
  | [] => []
  | round :: rounds =>
    match runInnerSends bufferSize resendBufferMaxLen sendAddr resendBuffer round with
    | some resendBuffer => resendBuffer :: resendBuffers resendBuffer rounds
    | none => []

/-- The responses of a list that `send_response` tries to queue, in order: those that fit the
buffer and whose `send_to` fails with `ENOBUFS` or `WouldBlock`. -/
def retryableFailures (results : Nat → SendResult) : List Outgoing → List Outgoing
  | [] => []
  | (response, addr) :: rest =>
    let failures := retryableFailures (fun i => results (i + 1)) rest
    if response.write.length ≤ bufferSize ∧ (results 0).retryable then (response, addr) :: failures
    else failures

theorem sendResponse_none {response : Response} {addr : CanonicalSocketAddr}
    {sendTo : SendResult} {resendBuffer' : Option (List Outgoing)}
    (h : sendResponse bufferSize resendBufferMaxLen sendAddr none response addr sendTo =
      some resendBuffer') : resendBuffer' = none := by
  unfold sendResponse at h
  split at h
  · exact (Option.some.inj h).symm
  · obtain ⟨_, -, h⟩ := Option.map_eq_some'.mp h
    exact h.symm

theorem sendResponse_some {buffer : List Outgoing} {response : Response}
    {addr : CanonicalSocketAddr} {sendTo : SendResult} {resendBuffer' : Option (List Outgoing)}
    (h : sendResponse bufferSize resendBufferMaxLen sendAddr (some buffer) response addr sendTo =
      some resendBuffer') :
    resendBuffer' = some (buffer ++ if response.write.length ≤ bufferSize ∧ sendTo.retryable ∧
      buffer.length < resendBufferMaxLen then [(response, addr)] else []) := by
  unfold sendResponse at h
  split at h
  · rename_i hBig
    cases h
    simp [Nat.not_le.mpr hBig]
  · rename_i hFits
    obtain ⟨_, -, rfl⟩ := Option.map_eq_some'.mp h
    simp only [Nat.not_lt.mp hFits, true_and]
    split_ifs <;> simp

theorem sendResponses_none (results : Nat → SendResult) :
    ∀ (items : List Outgoing) {resendBuffer' : Option (List Outgoing)},
      sendResponses bufferSize resendBufferMaxLen sendAddr none results items = some resendBuffer' →
      resendBuffer' = none
  | [], _, h => (Option.some.inj h).symm
  | (response, addr) :: rest, _, h => by
    obtain ⟨b, hOne, hRest⟩ := Option.bind_eq_some.mp h
    obtain rfl := sendResponse_none bufferSize resendBufferMaxLen sendAddr hOne
    exact sendResponses_none _ rest hRest

theorem sendResponses_some (results : Nat → SendResult) :
    ∀ (items : List Outgoing) (buffer : List Outgoing) {resendBuffer' : Option (List Outgoing)},
      buffer.length ≤ resendBufferMaxLen →
      sendResponses bufferSize resendBufferMaxLen sendAddr (some buffer) results items =
        some resendBuffer' →
      resendBuffer' = some (buffer ++ (retryableFailures bufferSize results items).take
        (resendBufferMaxLen - buffer.length))
  | [], buffer, _, _, h => by
    cases h
    simp [retryableFailures]
  | (response, addr) :: rest, buffer, _, hRoom, h => by
    obtain ⟨b, hOne, hRest⟩ := Option.bind_eq_some.mp h
    obtain rfl := sendResponse_some bufferSize resendBufferMaxLen sendAddr hOne
    have hFailures : retryableFailures bufferSize results ((response, addr) :: rest) =
        if response.write.length ≤ bufferSize ∧ (results 0).retryable then
          (response, addr) :: retryableFailures bufferSize (fun i => results (i + 1)) rest
        else retryableFailures bufferSize (fun i => results (i + 1)) rest := rfl
    by_cases hFail : response.write.length ≤ bufferSize ∧ (results 0).retryable
    · by_cases hLt : buffer.length < resendBufferMaxLen
      · rw [if_pos ⟨hFail.1, hFail.2, hLt⟩] at hRest
        rw [sendResponses_some _ rest _ (by simp; omega) hRest, hFailures, if_pos hFail]
        obtain ⟨m, hm⟩ := Nat.exists_eq_add_of_lt (Nat.sub_pos_of_lt hLt)
        rw [zero_add] at hm
        rw [hm, List.take_succ_cons]
        simp only [List.length_append, List.length_singleton, List.append_assoc,
          List.singleton_append]
        congr 4
        omega
      · rw [if_neg fun h => hLt h.2.2, List.append_nil] at hRest
        rw [sendResponses_some _ rest _ hRoom hRest, hFailures, if_pos hFail,
          show resendBufferMaxLen - buffer.length = 0 by omega]
        simp
    · rw [if_neg fun h => hFail ⟨h.1, h.2.1⟩, List.append_nil] at hRest
      rw [sendResponses_some _ rest _ hRoom hRest, hFailures, if_neg hFail]

theorem runInnerSends_eq {resendBuffer resendBuffer' : Option (List Outgoing)}
    {round : SendRound}
    (h : runInnerSends bufferSize resendBufferMaxLen sendAddr resendBuffer round =
      some resendBuffer') :
    resendBuffer' = resendBuffer.map fun _ =>
      (retryableFailures bufferSize round.freshResults round.fresh).take resendBufferMaxLen := by
  obtain ⟨_, -, hFresh⟩ := Option.bind_eq_some.mp h
  cases resendBuffer with
  | none => exact sendResponses_none bufferSize resendBufferMaxLen sendAddr _ _ hFresh
  | some buffer =>
    simpa using sendResponses_some bufferSize resendBufferMaxLen sendAddr _ _ [] (Nat.zero_le _)
      hFresh

theorem sendResponses_isSome (hAddr : ∀ addr, (sendAddr addr).isSome) (results : Nat → SendResult) :
    ∀ (items : List Outgoing) (resendBuffer : Option (List Outgoing)),
      (sendResponses bufferSize resendBufferMaxLen sendAddr resendBuffer results items).isSome
  | [], _ => rfl
  | (response, addr) :: rest, resendBuffer => by
    obtain ⟨a, ha⟩ := Option.isSome_iff_exists.mp (hAddr addr)
    unfold sendResponses sendResponse
    split <;> simp only [ha, Option.map_some', Option.some_bind] <;>
      exact sendResponses_isSome hAddr _ rest _

theorem length_resendBuffers (hAddr : ∀ addr, (sendAddr addr).isSome) :
    ∀ (rounds : List SendRound) (resendBuffer : Option (List Outgoing)),
      (resendBuffers bufferSize resendBufferMaxLen sendAddr resendBuffer rounds).length =
        rounds.length
  | [], _ => rfl
  | round :: rounds, resendBuffer => by
    obtain ⟨_, hResend⟩ := Option.isSome_iff_exists.mp
      (sendResponses_isSome bufferSize resendBufferMaxLen sendAddr hAddr round.resendResults
        (resendBuffer.getD []) none)
    obtain ⟨b, hb⟩ := Option.isSome_iff_exists.mp
      (sendResponses_isSome bufferSize resendBufferMaxLen sendAddr hAddr round.freshResults
        round.fresh (resendBuffer.map fun _ => []))
    replace hb : runInnerSends bufferSize resendBufferMaxLen sendAddr resendBuffer round = some b := by
      simp only [runInnerSends, hResend, hb, Option.bind_eq_bind, Option.some_bind]
    simp [resendBuffers, hb, length_resendBuffers hAddr rounds b]

theorem resendBuffers_prefix :
    ∀ (rounds : List SendRound) (resendBuffer : Option (List Outgoing)),
      resendBuffers bufferSize resendBufferMaxLen sendAddr resendBuffer rounds <+:
        rounds.map fun round => resendBuffer.map fun _ =>
          (retryableFailures bufferSize round.freshResults round.fresh).take resendBufferMaxLen
  | [], _ => List.prefix_refl _
  | round :: rounds, resendBuffer => by
    unfold resendBuffers
    split
    · rename_i resendBuffer' hRound
      have hEq := runInnerSends_eq bufferSize resendBufferMaxLen sendAddr hRound
      refine hEq ▸ List.cons_prefix_cons.mpr ⟨rfl, ?_⟩
      simpa [hEq, Option.map_map, Function.comp_def] using resendBuffers_prefix rounds resendBuffer'
    · exact List.nil_prefix

/-- Over every run of `run_inner`'s loop, the resend buffer after each iteration is exactly the
first `resend_buffer_max_len` of that iteration's fresh responses whose sends failed with
`ENOBUFS` or `WouldBlock`, and none where the bound is 0. So it never holds more than the
bound, a response enters it only after such a failure, and one resent from it, in the next
iteration and only then, is dropped whatever its send returns. Where every address can be sent
to, no iteration panics, so this holds of every iteration of the run. -/
theorem resend_buffer_bounded_and_single_retry (rounds : List SendRound) :
    resendBuffers bufferSize resendBufferMaxLen sendAddr (initialResendBuffer resendBufferMaxLen)
        rounds <+:
      rounds.map (fun round => (initialResendBuffer resendBufferMaxLen).map fun _ =>
        (retryableFailures bufferSize round.freshResults round.fresh).take resendBufferMaxLen) ∧
    (∀ b ∈ resendBuffers bufferSize resendBufferMaxLen sendAddr
        (initialResendBuffer resendBufferMaxLen) rounds,
      ∀ buffer ∈ b, buffer.length ≤ resendBufferMaxLen) ∧
    ((∀ addr, (sendAddr addr).isSome) →
      (resendBuffers bufferSize resendBufferMaxLen sendAddr
        (initialResendBuffer resendBufferMaxLen) rounds).length = rounds.length) := by
  have hPrefix := resendBuffers_prefix bufferSize resendBufferMaxLen sendAddr rounds
    (initialResendBuffer resendBufferMaxLen)
  refine ⟨hPrefix, fun b hb buffer hBuffer => ?_, fun hAddr =>
    length_resendBuffers bufferSize resendBufferMaxLen sendAddr hAddr rounds _⟩
  obtain ⟨round, -, rfl⟩ := List.mem_map.mp (hPrefix.subset hb)
  obtain ⟨_, -, rfl⟩ := Option.mem_map.mp hBuffer
  exact List.length_take_le _ _

end Send

end AquaticTracker.Socket
