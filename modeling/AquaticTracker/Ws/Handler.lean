import AquaticTracker.Swarm.Torrent

/-! # The WebSocket tracker's request worker

`handle_announce_requests` and `handle_scrape_requests` of `aquatic_ws` over the torrent map
that `run_request_worker` locks once per batch.
-/

namespace AquaticTracker.Ws

set_option autoImplicit false

/-- An offer of an `AnnounceRequest`. -/
structure AnnounceRequestOffer (J O : Type) where
  offer : J
  offerId : O

/-- `AnnounceRequest`, by the fields `handle_announce_requests` reads. -/
structure AnnounceRequest (E J O : Type) where
  infoHash : InfoHash
  peerId : PeerId
  event : E
  bytesLeft : Nat
  offers : Option (List (AnnounceRequestOffer J O))
  answer : Option J
  toPeerId : Option PeerId
  offerId : Option O

/-- `ScrapeRequest` -/
structure ScrapeRequest where
  infoHashes : List InfoHash

/-- `Peer` of the WebSocket tracker. -/
structure Peer (M : Type) where
  connectionMeta : M
  status : PeerStatus
  validUntil : ValidUntil

/-- `TorrentMap`: the torrents by info hash. -/
abbrev TorrentMap (M : Type) := IndexMap InfoHash (TorrentData (Peer M))

/-- `MiddlemanOfferToPeer` -/
structure MiddlemanOfferToPeer (J O : Type) where
  infoHash : InfoHash
  peerId : PeerId
  offer : J
  offerId : O

/-- `MiddlemanAnswerToPeer` -/
structure MiddlemanAnswerToPeer (J O : Type) where
  peerId : PeerId
  infoHash : InfoHash
  answer : J
  offerId : O

/-- `AnnounceResponse` -/
structure AnnounceResponse where
  infoHash : InfoHash
  complete : Nat
  incomplete : Nat
  announceInterval : Nat

/-- `ScrapeStatistics` -/
structure ScrapeStatistics where
  complete : Nat
  downloaded : Nat
  incomplete : Nat

/-- `ScrapeResponse`; its `files` map is read only by key. -/
structure ScrapeResponse where
  files : IndexMap InfoHash ScrapeStatistics

/-- `OutMessage` -/
inductive OutMessage (J O : Type) where
  | offer (offer : MiddlemanOfferToPeer J O)
  | answer (answer : MiddlemanAnswerToPeer J O)
  | announceResponse (response : AnnounceResponse)
  | scrapeResponse (response : ScrapeResponse)

/-- The info hash under which a message passes an offer or an answer on; `none` for a
response. -/
def OutMessage.relayedInfoHash {J O : Type} : OutMessage J O → Option InfoHash
  | .offer toPeer => some toPeer.infoHash
  | .answer toPeer => some toPeer.infoHash
  | .announceResponse _ => none
  | .scrapeResponse _ => none

section Handlers

variable {M E J O σ : Type} (fromEventAndBytesLeft : E → Nat → PeerStatus)
  (extractResponsePeers : σ → IndexMap PeerId (Peer M) → Nat → σ × List (Peer M))

/-- The offers an announce passes on, each to one of the peers `extract_response_peers` picks
from the updated torrent. -/
def offerMessages (rng : σ) (peers : IndexMap PeerId (Peer M)) (request : AnnounceRequest E J O) :
    σ × List (M × OutMessage J O) :=
  match request.offers with
  | some offers =>
    let r := extractResponsePeers rng peers (min offers.length 10)
    (r.1, (offers.zip r.2).map fun e =>
      (e.2.connectionMeta, .offer ⟨request.infoHash, request.peerId, e.1.offer, e.1.offerId⟩))
  | none => (rng, [])

/-- The answer an announce passes on to the peer it names, when the torrent holds that peer. -/
def answerMessages (peers : IndexMap PeerId (Peer M)) (request : AnnounceRequest E J O) :
    List (M × OutMessage J O) :=
  match request.answer, request.toPeerId, request.offerId with
  | some answer, some toPeerId, some offerId =>
    match peers.get toPeerId with
    | some toPeer =>
      [(toPeer.connectionMeta, .answer ⟨request.peerId, request.infoHash, answer, offerId⟩)]
    | none => []
  | _, _, _ => []

/-- The body of `handle_announce_requests`' loop for one request from `senderMeta`; `none`
where a counter `-= 1` underflows. -/
def handleAnnounceRequest (validUntil : ValidUntil) (rng : σ) (torrents : TorrentMap M)
    (senderMeta : M) (request : AnnounceRequest E J O) :
    Option (σ × TorrentMap M × List (M × OutMessage J O)) :=
  let peer : Peer M :=
    ⟨senderMeta, fromEventAndBytesLeft request.event request.bytesLeft, validUntil⟩
  (((torrents.get request.infoHash).getD .default).announcePeer Peer.status request.peerId
      peer).map fun torrentData =>
    let offers := offerMessages extractResponsePeers rng torrentData.peers request
    (offers.1, (torrents.insert request.infoHash torrentData).1,
      offers.2 ++ answerMessages torrentData.peers request ++
        [(senderMeta, .announceResponse
          ⟨request.infoHash, torrentData.numSeeders, torrentData.numLeechers, 120⟩)])

/-- `handle_announce_requests` over a batch, with `valid_until` the instant it computes first. -/
def handleAnnounceRequests (validUntil : ValidUntil) :
    σ → TorrentMap M → List (M × AnnounceRequest E J O) →
      Option (σ × TorrentMap M × List (M × OutMessage J O))
  | rng, torrents, [] => some (rng, torrents, [])
  | rng, torrents, (senderMeta, request) :: rest =>
    match handleAnnounceRequest fromEventAndBytesLeft extractResponsePeers validUntil rng torrents
        senderMeta request with
    | none => none
    | some (rng, torrents, messages) =>
      (handleAnnounceRequests validUntil rng torrents rest).map fun r =>
        (r.1, r.2.1, messages ++ r.2.2)

/-- One turn of `handle_scrape_requests`' loop over a request's info hashes: the counters of
the torrent of `infoHash` filed, when the map holds it. -/
def fileScrapeStatistics (torrents : TorrentMap M) (files : IndexMap InfoHash ScrapeStatistics)
    (infoHash : InfoHash) : IndexMap InfoHash ScrapeStatistics :=
  match torrents.get infoHash with
  | some torrentData => (files.insert infoHash ⟨torrentData.numSeeders, 0, torrentData.numLeechers⟩).1
  | none => files

/-- `handle_scrape_requests` for one request. -/
def handleScrapeRequest (torrents : TorrentMap M) (request : ScrapeRequest) : ScrapeResponse :=
  ⟨request.infoHashes.foldl (fileScrapeStatistics torrents) IndexMap.empty⟩

/-- `handle_scrape_requests` -/
def handleScrapeRequests (torrents : TorrentMap M) (requests : List (M × ScrapeRequest)) :
    List (M × OutMessage J O) :=
  requests.map fun r => (r.1, .scrapeResponse (handleScrapeRequest torrents r.2))

/-- A batch of `run_request_worker`: the instant of its announces, its announce requests and
its scrape requests. -/
structure Batch (M E J O : Type) where
  validUntil : ValidUntil
  announceRequests : List (M × AnnounceRequest E J O)
  scrapeRequests : List (M × ScrapeRequest)

/-- The loop of `run_request_worker` on the torrent map: each batch's announce requests, then
its scrape requests, with the messages of each batch. -/
def runBatches : σ → TorrentMap M → List (Batch M E J O) →
    Option (σ × TorrentMap M × List (List (M × OutMessage J O)))
  | rng, torrents, [] => some (rng, torrents, [])
  | rng, torrents, batch :: rest =>
    match handleAnnounceRequests fromEventAndBytesLeft extractResponsePeers batch.validUntil rng
        torrents batch.announceRequests with
    | none => none
    | some (rng, torrents, messages) =>
      (runBatches rng torrents rest).map fun r =>
        (r.1, r.2.1, (messages ++ handleScrapeRequests torrents batch.scrapeRequests) :: r.2.2)

/-- The number of peers of status `st` in the torrent of `infoHash`, or 0 without one. -/
def torrentPeerCount (torrents : TorrentMap M) (infoHash : InfoHash) (st : PeerStatus) : Nat :=
  ((torrents.get infoHash).map fun td => countStatus Peer.status st td.peers).getD 0

theorem handleAnnounceRequest_of_consistent (validUntil : ValidUntil) (rng : σ)
    {torrents : TorrentMap M} (h : TorrentData.AllConsistent Peer.status torrents)
    (senderMeta : M) (request : AnnounceRequest E J O) :
    ∃ rng' torrents' passedOn,
      handleAnnounceRequest fromEventAndBytesLeft extractResponsePeers validUntil rng torrents
        senderMeta request = some (rng', torrents', passedOn ++ [(senderMeta, .announceResponse
          ⟨request.infoHash, torrentPeerCount torrents' request.infoHash .seeding,
            torrentPeerCount torrents' request.infoHash .leeching, 120⟩)]) ∧
      TorrentData.AllConsistent Peer.status torrents' := by
  obtain ⟨td', hAnnounce, hTd'⟩ := TorrentData.announcePeer_consistent (h.getD request.infoHash)
    request.peerId ⟨senderMeta, fromEventAndBytesLeft request.event request.bytesLeft, validUntil⟩
  refine ⟨(offerMessages extractResponsePeers rng td'.peers request).1,
    (torrents.insert request.infoHash td').1,
    (offerMessages extractResponsePeers rng td'.peers request).2 ++ answerMessages td'.peers request,
    ?_, h.insert _ hTd'⟩
  simp [handleAnnounceRequest, hAnnounce, torrentPeerCount, IndexMap.get_insert,
    hTd'.numSeeders_eq, hTd'.numLeechers_eq]

theorem handleAnnounceRequests_of_consistent (validUntil : ValidUntil) :
    ∀ (rng : σ) (torrents : TorrentMap M) (requests : List (M × AnnounceRequest E J O)),
      TorrentData.AllConsistent Peer.status torrents →
      ∃ rng' torrents' messages, handleAnnounceRequests fromEventAndBytesLeft extractResponsePeers
          validUntil rng torrents requests = some (rng', torrents', messages) ∧
        TorrentData.AllConsistent Peer.status torrents'
  | rng, torrents, [], h => ⟨rng, torrents, [], rfl, h⟩
  | rng, torrents, (senderMeta, request) :: rest, h => by
    obtain ⟨rng₁, torrents₁, passedOn, hOne, h₁⟩ := handleAnnounceRequest_of_consistent
      fromEventAndBytesLeft extractResponsePeers validUntil rng h senderMeta request
    obtain ⟨rng', torrents', messages, hRest, h'⟩ :=
      handleAnnounceRequests_of_consistent validUntil rng₁ torrents₁ rest h₁
    exact ⟨rng', torrents', _, by rw [handleAnnounceRequests, hOne]; simp only [hRest]; rfl, h'⟩

theorem runBatches_of_consistent :
    ∀ (rng : σ) (torrents : TorrentMap M) (batches : List (Batch M E J O)),
      TorrentData.AllConsistent Peer.status torrents →
      ∃ rng' torrents' outputs, runBatches fromEventAndBytesLeft extractResponsePeers rng
          torrents batches = some (rng', torrents', outputs) ∧
        TorrentData.AllConsistent Peer.status torrents'
  | rng, torrents, [], h => ⟨rng, torrents, [], rfl, h⟩
  | rng, torrents, batch :: rest, h => by
    obtain ⟨rng₁, torrents₁, messages, hBatch, h₁⟩ := handleAnnounceRequests_of_consistent
      fromEventAndBytesLeft extractResponsePeers batch.validUntil rng torrents
        batch.announceRequests h
    obtain ⟨rng', torrents', outputs, hRest, h'⟩ := runBatches_of_consistent rng₁ torrents₁ rest h₁
    exact ⟨rng', torrents', _, by rw [runBatches, hBatch]; simp only [hRest]; rfl, h'⟩

theorem get_foldl_fileScrapeStatistics (torrents : TorrentMap M) (infoHash : InfoHash) :
    ∀ (l : List InfoHash) (files : IndexMap InfoHash ScrapeStatistics),
      (l.foldl (fileScrapeStatistics torrents) files).get infoHash =
        if infoHash ∈ l then ((torrents.get infoHash).map fun td =>
          (⟨td.numSeeders, 0, td.numLeechers⟩ : ScrapeStatistics)).or (files.get infoHash)
        else files.get infoHash
  | [], files => by simp
  | x :: l, files => by
    rw [List.foldl_cons, get_foldl_fileScrapeStatistics torrents infoHash l]
    unfold fileScrapeStatistics
    by_cases hx : infoHash = x
    · subst hx
      cases torrents.get infoHash <;> simp [IndexMap.get_insert]
    · cases torrents.get x <;> simp [IndexMap.get_insert, hx]

theorem get_handleScrapeRequest {torrents : TorrentMap M}
    (h : TorrentData.AllConsistent Peer.status torrents) (request : ScrapeRequest)
    (infoHash : InfoHash) :
    (handleScrapeRequest torrents request).files.get infoHash =
      if infoHash ∈ request.infoHashes then (torrents.get infoHash).map fun td =>
        ⟨countStatus Peer.status .seeding td.peers, 0, countStatus Peer.status .leeching td.peers⟩
      else none := by
  rw [handleScrapeRequest, get_foldl_fileScrapeStatistics]
  split_ifs
  · cases hGet : torrents.get infoHash with
    | none => rfl
    | some td =>
      have hTd := h td (IndexMap.mem_values_of_get hGet)
      simp [hTd.numSeeders_eq, hTd.numLeechers_eq]
  · rfl

/-- From the empty map, every run of batches never panics and leaves every torrent's counters
equal to its numbers of seeding and leeching peers with no stopped peer stored; from there an
announce reports the counts of the torrent it stored, and a scrape the counts of every
requested torrent the map holds. -/
theorem ws_torrent_counters_invariant (rng : σ) (batches : List (Batch M E J O)) :
    ∃ rng' torrents outputs, runBatches fromEventAndBytesLeft extractResponsePeers rng
        IndexMap.empty batches = some (rng', torrents, outputs) ∧
      TorrentData.AllConsistent Peer.status torrents ∧
      (∀ (validUntil : ValidUntil) (rng : σ) (senderMeta : M) (request : AnnounceRequest E J O),
        ∃ rng' torrents' passedOn,
          handleAnnounceRequest fromEventAndBytesLeft extractResponsePeers validUntil rng torrents
            senderMeta request = some (rng', torrents', passedOn ++ [(senderMeta,
              .announceResponse ⟨request.infoHash, torrentPeerCount torrents' request.infoHash .seeding,
                torrentPeerCount torrents' request.infoHash .leeching, 120⟩)]) ∧
          TorrentData.AllConsistent Peer.status torrents') ∧
      (∀ request infoHash, (handleScrapeRequest torrents request).files.get infoHash =
        if infoHash ∈ request.infoHashes then (torrents.get infoHash).map fun td =>
          ⟨countStatus Peer.status .seeding td.peers, 0, countStatus Peer.status .leeching td.peers⟩
        else none) := by
  obtain ⟨rng', torrents, outputs, hRun, h⟩ := runBatches_of_consistent fromEventAndBytesLeft
    extractResponsePeers rng IndexMap.empty batches (by simp [TorrentData.AllConsistent])
  exact ⟨rng', torrents, outputs, hRun, h,
    fun validUntil rng senderMeta request => handleAnnounceRequest_of_consistent
      fromEventAndBytesLeft extractResponsePeers validUntil rng h senderMeta request,
    get_handleScrapeRequest h⟩

/-! ## Where an announce's messages go -/

/-- A message that `handle_announce_requests` may pass on for `request` once the torrent holds
`peers`: one of the request's offers, to a peer of the torrent, or its answer, to the peer it
names; either under the announce's info hash and peer id. -/
def PassedOn (peers : IndexMap PeerId (Peer M)) (request : AnnounceRequest E J O) :
    M × OutMessage J O → Prop
  | (meta, .offer o) => (∃ peer ∈ peers.values, meta = peer.connectionMeta) ∧
    o.infoHash = request.infoHash ∧ o.peerId = request.peerId ∧
    ∃ offers, request.offers = some offers ∧ ⟨o.offer, o.offerId⟩ ∈ offers
  | (meta, .answer a) => (∃ toPeerId peer, request.toPeerId = some toPeerId ∧
      peers.get toPeerId = some peer ∧ meta = peer.connectionMeta) ∧
    a.infoHash = request.infoHash ∧ a.peerId = request.peerId ∧
    request.answer = some a.answer ∧ request.offerId = some a.offerId
  | (_, .announceResponse _) => False
  | (_, .scrapeResponse _) => False

theorem passedOn_offerMessages
    (hExtract : ∀ rng peers k, ∀ peer ∈ (extractResponsePeers rng peers k).2, peer ∈ peers.values)
    (rng : σ) (peers : IndexMap PeerId (Peer M)) (request : AnnounceRequest E J O) :
    ∀ message ∈ (offerMessages extractResponsePeers rng peers request).2,
      PassedOn peers request message := by
  unfold offerMessages
  split
  · next offers hOffers =>
    intro message hMessage
    obtain ⟨⟨offer, peer⟩, hZip, rfl⟩ := List.mem_map.mp hMessage
    exact ⟨⟨peer, hExtract _ _ _ _ (List.of_mem_zip hZip).2, rfl⟩, rfl, rfl, offers, hOffers,
      (List.of_mem_zip hZip).1⟩
  · simp

theorem passedOn_answerMessages (peers : IndexMap PeerId (Peer M))
    (request : AnnounceRequest E J O) :
    ∀ message ∈ answerMessages peers request, PassedOn peers request message := by
  unfold answerMessages
  split
  · next answer toPeerId offerId hAnswer hToPeerId hOfferId =>
    split
    · next toPeer hGet =>
      simp only [List.mem_singleton, forall_eq]
      exact ⟨⟨toPeerId, toPeer, hToPeerId, hGet, rfl⟩, rfl, rfl, hAnswer, hOfferId⟩
    · simp
  · simp

/-! ## Whom a run's messages go to -/

/-- Every peer that the map stores under an info hash has metadata that satisfies `P` there. -/
def PeersSatisfy (P : InfoHash → M → Prop) (torrents : TorrentMap M) : Prop :=
  ∀ infoHash torrentData, torrents.get infoHash = some torrentData →
    ∀ peer ∈ torrentData.peers.values, P infoHash peer.connectionMeta

theorem PeersSatisfy.mono {P Q : InfoHash → M → Prop} {torrents : TorrentMap M}
    (h : PeersSatisfy P torrents) (hPQ : ∀ infoHash meta, P infoHash meta → Q infoHash meta) :
    PeersSatisfy Q torrents :=
  fun infoHash torrentData hGet peer hPeer => hPQ _ _ (h infoHash torrentData hGet peer hPeer)

theorem PassedOn.relayed {peers : IndexMap PeerId (Peer M)} {request : AnnounceRequest E J O}
    {message : M × OutMessage J O} (h : PassedOn peers request message) :
    (∃ peer ∈ peers.values, message.1 = peer.connectionMeta) ∧
      message.2.relayedInfoHash = some request.infoHash := by
  obtain ⟨meta, _ | _ | _ | _⟩ := message
  · exact ⟨h.1, congrArg some h.2.1⟩
  · obtain ⟨⟨_, peer, -, hGet, hMeta⟩, hInfoHash, -⟩ := h
    exact ⟨⟨peer, IndexMap.mem_values_of_get hGet, hMeta⟩, congrArg some hInfoHash⟩
  · exact h.elim
  · exact h.elim

theorem handleAnnounceRequest_peersSatisfy
    (hExtract : ∀ rng peers k, ∀ peer ∈ (extractResponsePeers rng peers k).2, peer ∈ peers.values)
    {P : InfoHash → M → Prop} {validUntil : ValidUntil} {rng rng' : σ}
    {torrents torrents' : TorrentMap M} {senderMeta : M} {request : AnnounceRequest E J O}
    {messages : List (M × OutMessage J O)} (hTorrents : PeersSatisfy P torrents)
    (hSender : fromEventAndBytesLeft request.event request.bytesLeft ≠ .stopped →
      P request.infoHash senderMeta)
    (h : handleAnnounceRequest fromEventAndBytesLeft extractResponsePeers validUntil rng torrents
      senderMeta request = some (rng', torrents', messages)) :
    PeersSatisfy P torrents' ∧ ∀ message ∈ messages,
      message.2.relayedInfoHash = none ∧ message.1 = senderMeta ∨
        ∃ infoHash, message.2.relayedInfoHash = some infoHash ∧ P infoHash message.1 := by
  obtain ⟨td', hAnnounce, hEq⟩ := Option.map_eq_some'.mp h
  cases hEq
  have hPeers : ∀ peer ∈ td'.peers.values, P request.infoHash peer.connectionMeta := by
    intro peer hPeer
    rw [TorrentData.peers_announcePeer hAnnounce] at hPeer
    rcases mem_values_peersAfterAnnounce hPeer with ⟨rfl, hLive⟩ | hOld
    · exact hSender hLive
    · cases hGet : torrents.get request.infoHash with
      | none => simp [hGet, TorrentData.default] at hOld
      | some td => exact hTorrents _ td hGet _ (by simpa [hGet] using hOld)
  refine ⟨fun infoHash td hGet => ?_, fun message hMessage => ?_⟩
  · rw [IndexMap.get_insert] at hGet
    split_ifs at hGet with hInfoHash
    · cases hGet
      subst hInfoHash
      exact hPeers
    · exact hTorrents _ _ hGet
  · rcases List.mem_append.mp hMessage with hPassed | hResponse
    · have hRelayed : PassedOn td'.peers request message := by
        rcases List.mem_append.mp hPassed with hOffer | hAnswer
        · exact passedOn_offerMessages extractResponsePeers hExtract rng td'.peers request message
            hOffer
        · exact passedOn_answerMessages td'.peers request message hAnswer
      obtain ⟨⟨peer, hPeer, hMeta⟩, hInfoHash⟩ := hRelayed.relayed
      exact .inr ⟨_, hInfoHash, hMeta ▸ hPeers peer hPeer⟩
    · rw [List.mem_singleton.mp hResponse]
      exact .inl ⟨rfl, rfl⟩

theorem handleAnnounceRequests_peersSatisfy
    (hExtract : ∀ rng peers k, ∀ peer ∈ (extractResponsePeers rng peers k).2, peer ∈ peers.values)
    {P : InfoHash → M → Prop} (validUntil : ValidUntil) :
    ∀ (requests : List (M × AnnounceRequest E J O)) (rng : σ) (torrents : TorrentMap M)
      {rng' : σ} {torrents' : TorrentMap M} {messages : List (M × OutMessage J O)},
      PeersSatisfy P torrents →
      (∀ r ∈ requests, fromEventAndBytesLeft r.2.event r.2.bytesLeft ≠ .stopped →
        P r.2.infoHash r.1) →
      handleAnnounceRequests fromEventAndBytesLeft extractResponsePeers validUntil rng torrents
        requests = some (rng', torrents', messages) →
      PeersSatisfy P torrents' ∧ ∀ message ∈ messages,
        message.2.relayedInfoHash = none ∧ (∃ r ∈ requests, message.1 = r.1) ∨
          ∃ infoHash, message.2.relayedInfoHash = some infoHash ∧ P infoHash message.1
  | [], _, _, _, _, _, hTorrents, _, h => by
    cases h
    exact ⟨hTorrents, by simp⟩
  | (senderMeta, request) :: rest, rng, torrents, _, _, _, hTorrents, hSenders, h => by
    simp only [handleAnnounceRequests] at h
    split at h
    · cases h
    · next rng₁ torrents₁ messages₁ h₁ =>
      obtain ⟨r, hRest, hEq⟩ := Option.map_eq_some'.mp h
      obtain ⟨hTorrents₁, hMessages₁⟩ := handleAnnounceRequest_peersSatisfy fromEventAndBytesLeft
        extractResponsePeers hExtract hTorrents (hSenders _ (List.mem_cons_self _ _)) h₁
      obtain ⟨hTorrents', hMessages'⟩ := handleAnnounceRequests_peersSatisfy hExtract validUntil
        rest _ _ hTorrents₁ (fun r hr => hSenders r (List.mem_cons_of_mem _ hr)) hRest
      cases hEq
      refine ⟨hTorrents', fun m hm => ?_⟩
      rcases List.mem_append.mp hm with hm | hm
      · exact (hMessages₁ m hm).imp_left fun ⟨hNone, hMeta⟩ =>
          ⟨hNone, _, List.mem_cons_self _ _, hMeta⟩
      · exact (hMessages' m hm).imp_left fun ⟨hNone, r, hr, hMeta⟩ =>
          ⟨hNone, r, List.mem_cons_of_mem _ hr, hMeta⟩

theorem runBatches_singleton {rng rng' : σ} {torrents torrents' : TorrentMap M}
    {batch : Batch M E J O} {outs : List (List (M × OutMessage J O))}
    (h : runBatches fromEventAndBytesLeft extractResponsePeers rng torrents [batch] =
      some (rng', torrents', outs)) :
    ∃ messages, handleAnnounceRequests fromEventAndBytesLeft extractResponsePeers batch.validUntil
        rng torrents batch.announceRequests = some (rng', torrents', messages) ∧
      outs = [messages ++ handleScrapeRequests torrents' batch.scrapeRequests] := by
  simp only [runBatches] at h
  split at h
  · cases h
  · next messages hAnnounce =>
    cases h
    exact ⟨messages, hAnnounce, rfl⟩

/-- That a batch of the run announced to `infoHash` from the connection `meta`, with an event
other than `stopped`. -/
def AnnouncedIn (batches : List (Batch M E J O)) (infoHash : InfoHash) (meta : M) : Prop :=
  ∃ batch ∈ batches, ∃ r ∈ batch.announceRequests, r.1 = meta ∧ r.2.infoHash = infoHash ∧
    fromEventAndBytesLeft r.2.event r.2.bytesLeft ≠ .stopped

theorem runBatches_relays
    (hExtract : ∀ rng peers k, ∀ peer ∈ (extractResponsePeers rng peers k).2, peer ∈ peers.values) :
    ∀ (before batches : List (Batch M E J O)) (rng : σ) (torrents : TorrentMap M) {rng' : σ}
      {torrents' : TorrentMap M} {outs : List (List (M × OutMessage J O))},
      PeersSatisfy (AnnouncedIn fromEventAndBytesLeft before) torrents →
      runBatches fromEventAndBytesLeft extractResponsePeers rng torrents batches =
        some (rng', torrents', outs) →
      ∀ i out, outs[i]? = some out → ∀ message ∈ out, ∀ infoHash,
        message.2.relayedInfoHash = some infoHash →
        AnnouncedIn fromEventAndBytesLeft (before ++ batches.take (i + 1)) infoHash message.1
  | _, [], _, _, _, _, _, _, h => by
    cases h
    simp
  | before, batch :: rest, rng, torrents, _, _, _, hTorrents, h => by
    simp only [runBatches] at h
    split at h
    · cases h
    · next rng₁ torrents₁ messages₁ h₁ =>
      obtain ⟨r, hRest, hEq⟩ := Option.map_eq_some'.mp h
      have hMono : ∀ infoHash meta, AnnouncedIn fromEventAndBytesLeft before infoHash meta →
          AnnouncedIn fromEventAndBytesLeft (before ++ [batch]) infoHash meta :=
        fun _ _ ⟨b, hb, hAnnounced⟩ => ⟨b, List.mem_append_left _ hb, hAnnounced⟩
      obtain ⟨hTorrents₁, hMessages₁⟩ := handleAnnounceRequests_peersSatisfy
        fromEventAndBytesLeft extractResponsePeers hExtract batch.validUntil _ _ _
        (hTorrents.mono hMono)
        (fun r hr hLive => ⟨batch, by simp, r, hr, rfl, rfl, hLive⟩) h₁
      cases hEq
      rintro (_ | i) out hOut message hMessage infoHash hRelayed
      · obtain rfl := Option.some.inj (List.getElem?_cons_zero.symm.trans hOut)
        rcases List.mem_append.mp hMessage with hMessage | hMessage
        · rcases hMessages₁ message hMessage with ⟨hNone, -⟩ | ⟨_, hSome, hAnnounced⟩
          · cases hNone.symm.trans hRelayed
          · obtain rfl := Option.some.inj (hSome.symm.trans hRelayed)
            simpa using hAnnounced
        · obtain ⟨_, -, rfl⟩ := List.mem_map.mp hMessage
          cases hRelayed
      · simpa using runBatches_relays hExtract (before ++ [batch]) rest _ _ hTorrents₁ hRest i out
          (List.getElem?_cons_succ.symm.trans hOut) message hMessage infoHash hRelayed

/-- Over every run of batches from the empty map, each offer and answer that a batch relays
under an info hash goes to a connection that announced to that info hash, in that batch or an
earlier one, with an event other than `stopped`: relays never cross torrents. -/
theorem relays_reach_only_announcers_of_torrent
    (hExtract : ∀ rng peers k, ∀ peer ∈ (extractResponsePeers rng peers k).2, peer ∈ peers.values)
    (rng : σ) (batches : List (Batch M E J O)) {rng' : σ} {torrents' : TorrentMap M}
    {outs : List (List (M × OutMessage J O))}
    (h : runBatches fromEventAndBytesLeft extractResponsePeers rng IndexMap.empty batches =
      some (rng', torrents', outs))
    (i : Nat) {out : List (M × OutMessage J O)} (hOut : outs[i]? = some out) :
    ∀ message ∈ out, ∀ infoHash, message.2.relayedInfoHash = some infoHash →
      ∃ batch ∈ batches.take (i + 1), ∃ r ∈ batch.announceRequests, r.1 = message.1 ∧
        r.2.infoHash = infoHash ∧ fromEventAndBytesLeft r.2.event r.2.bytesLeft ≠ .stopped := by
  intro message hMessage infoHash hRelayed
  simpa [AnnouncedIn] using runBatches_relays fromEventAndBytesLeft extractResponsePeers hExtract
    [] batches rng IndexMap.empty (fun _ _ hGet => by simp at hGet) h i out hOut message hMessage
    infoHash hRelayed

/-- Two announces to one torrent in a batch, the second with an offer: the offer goes to the
first announcer, with `extract_response_peers` taking the first peers of the torrent. -/
theorem relays_reach_only_announcers_of_torrent_offer :
    ∃ (torrents' : TorrentMap Nat) (outs : List (List (Nat × OutMessage Nat Nat))),
      runBatches (fun (_ : Unit) _ => PeerStatus.leeching)
          (fun (rng : Unit) peers k => (rng, (peers.entries.map Prod.snd).take k)) ()
          IndexMap.empty
          [⟨0, [(3, ⟨Bytes.replicate 20 1, Bytes.replicate 20 2, (), 50, none, none, none, none⟩),
            (4, ⟨Bytes.replicate 20 1, Bytes.replicate 20 5, (), 50, some [⟨7, 8⟩], none, none,
              none⟩)], []⟩] = some ((), torrents', outs) ∧
      ∃ out, outs[0]? = some out ∧
        (3, .offer ⟨Bytes.replicate 20 1, Bytes.replicate 20 5, 7, 8⟩) ∈ out ∧
        ∀ message ∈ out, ∀ infoHash, message.2.relayedInfoHash = some infoHash →
          ∃ batch ∈ [(⟨0, [(3, ⟨Bytes.replicate 20 1, Bytes.replicate 20 2, (), 50, none, none,
              none, none⟩), (4, ⟨Bytes.replicate 20 1, Bytes.replicate 20 5, (), 50,
              some [⟨7, 8⟩], none, none, none⟩)], []⟩ : Batch Nat Unit Nat Nat)].take (0 + 1),
            ∃ r ∈ batch.announceRequests, r.1 = message.1 ∧ r.2.infoHash = infoHash ∧
              PeerStatus.leeching ≠ .stopped :=
  ⟨_, _, rfl, _, rfl, .tail _ (.head _), relays_reach_only_announcers_of_torrent
    (fun (_ : Unit) _ => PeerStatus.leeching)
    (fun (rng : Unit) peers k => (rng, (peers.entries.map Prod.snd).take k))
    (fun _ _ _ _ hPeer => Multiset.mem_coe.mpr (List.mem_of_mem_take hPeer)) () _ (by rfl) 0
    (by rfl)⟩

end Handlers

end AquaticTracker.Ws
