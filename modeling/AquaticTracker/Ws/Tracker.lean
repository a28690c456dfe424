import AquaticTracker.Ws.Handler
import AquaticTracker.Ws.Network

/-! # The WebSocket tracker: socket worker and request worker

`run_socket_worker` and `run_request_worker` of `aquatic_ws`, joined by their channels.
-/

namespace AquaticTracker.Ws

set_option autoImplicit false

/-- `InMessage`, by the two requests that `run_request_worker` sorts in-messages into. -/
inductive InMessage (E J O : Type) where
  | announceRequest (request : AnnounceRequest E J O)
  | scrapeRequest (request : ScrapeRequest)

/-- The batch `run_request_worker` forms from in-messages, with the `valid_until` of its
announces: the announce requests and the scrape requests among them, each in order. -/
def batchOf {E J O : Type} (validUntil : ValidUntil)
    (messages : List (ConnectionMeta × InMessage E J O)) : Batch ConnectionMeta E J O :=
  ⟨validUntil,
    messages.filterMap fun
      | (meta, .announceRequest request) => some (meta, request)
      | _ => none,
    messages.filterMap fun
      | (meta, .scrapeRequest request) => some (meta, request)
      | _ => none⟩

theorem batchOf_senders {E J O : Type} {P : ConnectionMeta → Prop} (validUntil : ValidUntil)
    {messages : List (ConnectionMeta × InMessage E J O)} (h : ∀ m ∈ messages, P m.1) :
    (∀ r ∈ (batchOf validUntil messages).announceRequests, P r.1) ∧
      ∀ r ∈ (batchOf validUntil messages).scrapeRequests, P r.1 := by
  constructor <;> intro r hr <;> obtain ⟨⟨meta, _ | _⟩, hm, hr⟩ := List.mem_filterMap.mp hr <;>
    cases hr <;> exact h _ hm

/-- The tracker along a run: the socket worker, how many of the in-messages it forwarded the
request worker has taken, the torrent map, the request worker's random number generator, and
the out messages sent to the socket worker that it has not drained yet. -/
structure TrackerState (E J O σ : Type) where
  worker : WorkerState (InMessage E J O) (OutMessage J O)
  taken : Nat
  torrents : TorrentMap ConnectionMeta
  rng : σ
  outbox : List (ConnectionMeta × OutMessage J O)

namespace TrackerState

variable {W E J O σ : Type}

/-- The tracker when both workers start, with the request worker's generator `rng`. -/
def init (rng : σ) : TrackerState E J O σ := ⟨WorkerState.init, 0, IndexMap.empty, rng, []⟩

section Run

variable (socketWorkerIndex : Nat) (fromWsMessage : W → Option (InMessage E J O))
  (fromEventAndBytesLeft : E → Nat → PeerStatus)
  (extractResponsePeers :
    σ → IndexMap PeerId (Peer ConnectionMeta) → Nat → σ × List (Peer ConnectionMeta))

/-- One step of the tracker. -/
inductive Step : TrackerState E J O σ → TrackerState E J O σ → Prop
  /-- The socket worker accepts, reads or cleans. -/
  | socket {t : TrackerState E J O σ} {worker : WorkerState (InMessage E J O) (OutMessage J O)}
      (h : WorkerState.LocalStep socketWorkerIndex fromWsMessage t.worker worker) :
      Step t { t with worker }
  /-- The socket worker drains the first `k` out messages sent to it, the ones the channel
  holds when the drain starts. -/
  | send {t : TrackerState E J O σ} (writeMessage : Nat → WsResult Unit) (writes k : Nat) :
      Step t
        { t with
          worker := t.worker.sendOut writeMessage writes (t.outbox.take k)
          outbox := t.outbox.drop k }
  /-- The request worker takes the next `n` in-messages as a batch, handles it, and sends the
  out messages to the socket worker. -/
  | batch {t : TrackerState E J O σ} {rng : σ} {torrents : TorrentMap ConnectionMeta}
      {messages : List (ConnectionMeta × OutMessage J O)} (n : Nat) (validUntil : ValidUntil)
      (hTaken : t.taken + n ≤ t.worker.sent.length)
      (h : runBatches fromEventAndBytesLeft extractResponsePeers t.rng t.torrents
        [batchOf validUntil ((t.worker.sent.drop t.taken).take n)] =
          some (rng, torrents, [messages])) :
      Step t { t with taken := t.taken + n, torrents, rng, outbox := t.outbox ++ messages }

/-- The states a run of the tracker reaches from the start with generator `rng`. -/
def Reachable (rng : σ) (t : TrackerState E J O σ) : Prop :=
  Relation.ReflTransGen
    (Step socketWorkerIndex fromWsMessage fromEventAndBytesLeft extractResponsePeers) (init rng) t

end Run

/-- Whether the socket worker has read an in-message from the connection `meta` names. -/
def Heard (t : TrackerState E J O σ) (meta : ConnectionMeta) : Prop :=
  ∃ m, (meta, m) ∈ t.worker.sent

/-- What a run keeps: the listener's slot is reserved, and every peer the map stores, every out
message waiting in the channel and every out message handed to a connection is for a
connection the socket worker has heard from. -/
structure Inv (socketWorkerIndex : Nat) (t : TrackerState E J O σ) : Prop where
  worker : WorkerState.ListenerSlotReserved socketWorkerIndex t.worker
  peers : PeersSatisfy (fun _ => t.Heard) t.torrents
  outbox : ∀ m ∈ t.outbox, t.Heard m.1
  written : ∀ w ∈ t.worker.written, t.Heard w.1

section Run

variable {socketWorkerIndex : Nat} {fromWsMessage : W → Option (InMessage E J O)}
  {fromEventAndBytesLeft : E → Nat → PeerStatus}
  {extractResponsePeers :
    σ → IndexMap PeerId (Peer ConnectionMeta) → Nat → σ × List (Peer ConnectionMeta)}

theorem Inv.step
    (hExtract : ∀ rng peers k, ∀ peer ∈ (extractResponsePeers rng peers k).2, peer ∈ peers.values)
    {t t' : TrackerState E J O σ} (hInv : Inv socketWorkerIndex t)
    (hStep : Step socketWorkerIndex fromWsMessage fromEventAndBytesLeft extractResponsePeers t t') :
    Inv socketWorkerIndex t' := by
  cases hStep with
  | socket h =>
    obtain ⟨⟨forwarded, hSent⟩, hWritten⟩ := h.sent_written
    have hHeard : ∀ meta, t.Heard meta → Heard { t with worker := _ } meta :=
      fun meta ⟨m, hm⟩ => ⟨m, by rw [hSent]; exact List.mem_append_left _ hm⟩
    exact ⟨hInv.worker.localStep h, hInv.peers.mono fun _ => hHeard,
      fun m hm => hHeard _ (hInv.outbox m hm),
      fun w hw => hHeard _ (hInv.written w (hWritten ▸ hw))⟩
  | send writeMessage writes k =>
    obtain ⟨handed, hWritten, hHanded, -⟩ := sendOutMessages_spec writeMessage
      ⟨t.worker.connections, t.worker.written, writes⟩ (t.outbox.take k)
    refine ⟨hInv.worker.sendOut writeMessage writes _, hInv.peers,
      fun m hm => hInv.outbox m (List.mem_of_mem_drop hm), fun w hw => ?_⟩
    simp only [WorkerState.sendOut, hWritten] at hw
    rcases List.mem_append.mp hw with hw | hw
    · exact hInv.written w hw
    · exact hInv.outbox _ (List.mem_of_mem_take (hHanded w hw).1)
  | batch n validUntil hTaken h =>
    have hBatch : ∀ m ∈ (t.worker.sent.drop t.taken).take n, t.Heard m.1 :=
      fun m hm => ⟨m.2, List.mem_of_mem_drop (List.mem_of_mem_take hm)⟩
    have hSenders := batchOf_senders validUntil hBatch
    obtain ⟨messages, hAnnounce, hOuts⟩ := runBatches_singleton fromEventAndBytesLeft
      extractResponsePeers h
    obtain ⟨hPeers, hMessages⟩ := handleAnnounceRequests_peersSatisfy fromEventAndBytesLeft
      extractResponsePeers hExtract validUntil _ _ _ hInv.peers
      (fun r hr _ => hSenders.1 r hr) hAnnounce
    obtain rfl := (List.singleton_inj.mp hOuts).symm
    refine ⟨hInv.worker, hPeers, fun m hm => ?_, hInv.written⟩
    rcases List.mem_append.mp hm with hm | hm
    · exact hInv.outbox m hm
    · rcases List.mem_append.mp hm with hm | hm
      · exact (hMessages m hm).elim (fun ⟨_, r, hr, hMeta⟩ => hMeta ▸ hSenders.1 r hr)
          fun ⟨_, _, hHeard⟩ => hHeard
      · obtain ⟨r, hr, rfl⟩ := List.mem_map.mp hm
        exact hSenders.2 r hr

/-- Whatever the clients send and however the steps of the two workers interleave, the tracker
hands an out message only to a connection it has heard from: each out message handed to a
connection is for a slot other than the listener's and a peer address from which the socket
worker read an in-message, and the connection it goes to has that address. -/
theorem tracker_writes_only_to_peers_heard_from
    (hExtract : ∀ rng peers k, ∀ peer ∈ (extractResponsePeers rng peers k).2, peer ∈ peers.values)
    {rng : σ} {t : TrackerState E J O σ}
    (hReach : Reachable socketWorkerIndex fromWsMessage fromEventAndBytesLeft extractResponsePeers
      rng t) :
    ∀ w ∈ t.worker.written, (∃ m, (w.1, m) ∈ t.worker.sent) ∧
      w.1.socketWorkerSlabIndex ≠ 0 ∧ w.2.1.peerSocketAddr = w.1.peerSocketAddr := by
  have hInv : Inv socketWorkerIndex t := by
    induction hReach with
    | refl => exact ⟨⟨rfl, by simp [init, WorkerState.init], by simp [init, WorkerState.init]⟩,
        fun _ _ hGet => by simp [init] at hGet, by simp [init], by simp [init, WorkerState.init]⟩
    | tail _ hStep ih => exact ih.step hExtract hStep
  exact fun w hw => ⟨hInv.written w hw, hInv.worker.written w hw⟩

/-- One connection, accepted into slot 1, announces; the request worker answers it, and the
socket worker hands the response to that connection. -/
theorem tracker_writes_only_to_peers_heard_from_announce_response :
    ∃ t : TrackerState Unit Nat Nat Unit,
      Reachable 0 (fun (_ : Unit) => some (InMessage.announceRequest
          ⟨Bytes.replicate 20 1, Bytes.replicate 20 2, (), 50, none, none, none, none⟩))
        (fun _ _ => PeerStatus.leeching)
        (fun (rng : Unit) peers k => (rng, (peers.entries.map Prod.snd).take k)) () t ∧
      t.worker.written.length = 1 ∧
      ∀ w ∈ t.worker.written, (∃ m, (w.1, m) ∈ t.worker.sent) ∧
        w.1.socketWorkerSlabIndex ≠ 0 ∧ w.2.1.peerSocketAddr = w.1.peerSocketAddr := by
  have hReach : Reachable 0 (fun (_ : Unit) => some (InMessage.announceRequest
          ⟨Bytes.replicate 20 1, Bytes.replicate 20 2, (), 50, none, none, none, none⟩))
        (fun _ _ => PeerStatus.leeching)
        (fun (rng : Unit) peers k => (rng, (peers.entries.map Prod.snd).take k)) ()
        (_ : TrackerState Unit Nat Nat Unit) :=
    .tail (.tail (.tail (.tail .refl
      (Step.socket (WorkerState.LocalStep.accept (fun _ => .ok ⟨.v4 ⟨Bytes.replicate 4 1⟩, 1⟩)
        (fun slab => slab.entries.length) 600 0 (.inr rfl) rfl)))
      (Step.socket (WorkerState.LocalStep.read (fun _ => .ok ()) 1 600 0 rfl)))
      (Step.batch 1 240 le_rfl rfl))
      (Step.send (fun _ => .ok ()) 0 1)
  exact ⟨_, hReach, rfl, tracker_writes_only_to_peers_heard_from
    (fun _ _ _ _ hPeer => Multiset.mem_coe.mpr (List.mem_of_mem_take hPeer)) hReach⟩

end Run

end TrackerState

end AquaticTracker.Ws
