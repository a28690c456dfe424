import AquaticTracker.Udp.Swarm
import AquaticTracker.Collections.BTreeMap
import AquaticTracker.Protocol.Response

/-! # The UDP request worker's handlers

`handle_announce_request` and `handle_scrape_request` of `aquatic_udp` over the torrent maps,
and the counter invariant over every run of announces and cleanings.
-/

namespace AquaticTracker.Udp

open Wire

set_option autoImplicit false

/-- `aquatic_udp::config::ProtocolConfig`, by the fields the modelled workers read. -/
structure ProtocolConfig where
  maxScrapeTorrents : U8
  maxResponsePeers : Nat
  peerAnnounceInterval : I32

/-- `aquatic_udp::config::Config`, by the fields the modelled workers read. -/
structure Config where
  requestWorkers : Nat
  protocol : ProtocolConfig

/-- `ProtocolConfig::default()` -/
def ProtocolConfig.default : ProtocolConfig := ⟨255, 255, 60 * 15⟩

/-- `Config::default()`, by the fields the modelled workers read. -/
def Config.default : Config := ⟨1, ProtocolConfig.default⟩

/-- Modelled from the spec: the `AnnounceRequest` of the `aquatic_udp_protocol` release that
`aquatic_udp` is built against, by the fields `handle_announce_request` reads. Unlike the
zero-copy request of `crates/udp_protocol`, its event is already an `AnnounceEvent`. -/
structure AnnounceRequest where
  transactionId : TransactionId
  infoHash : InfoHash
  peerId : PeerId
  bytesLeft : NumberOfBytes
  event : AnnounceEvent
  peersWanted : NumberOfPeers
  port : Port

/-- `ProtocolAnnounceResponse<I>` -/
structure ProtocolAnnounceResponse (I : Type) where
  transactionId : TransactionId
  announceInterval : AnnounceInterval
  leechers : NumberOfPeers
  seeders : NumberOfPeers
  peers : List (ProtocolResponsePeer I)

/-- `PendingScrapeRequest` -/
structure PendingScrapeRequest where
  transactionId : TransactionId
  infoHashes : BTreeMap InfoHash

/-- `PendingScrapeResponse` -/
structure PendingScrapeResponse where
  transactionId : TransactionId
  torrentStats : BTreeMap TorrentScrapeStatistics

/-- `ConnectedResponse` -/
inductive ConnectedResponse where
  | announceIpv4 (r : AnnounceResponseIpv4)
  | announceIpv6 (r : AnnounceResponseIpv6)
  | scrape (r : PendingScrapeResponse)

/-- `impl Into<ConnectedResponse> for ProtocolAnnounceResponse<Ipv4Addr>` -/
def ProtocolAnnounceResponse.intoIpv4 (r : ProtocolAnnounceResponse Ipv4Addr) :
    ConnectedResponse :=
  .announceIpv4 ⟨r.transactionId, r.announceInterval, r.leechers, r.seeders,
    r.peers.map fun peer => ⟨peer.ipAddress, peer.port⟩⟩

/-- `impl Into<ConnectedResponse> for ProtocolAnnounceResponse<Ipv6Addr>` -/
def ProtocolAnnounceResponse.intoIpv6 (r : ProtocolAnnounceResponse Ipv6Addr) :
    ConnectedResponse :=
  .announceIpv6 ⟨r.transactionId, r.announceInterval, r.leechers, r.seeders,
    r.peers.map fun peer => ⟨peer.ipAddress, peer.port⟩⟩

/-- `n as i32` for a `usize`: its low 32 bits. -/
def usizeAsI32 (n : Nat) : I32 := BitVec.ofNat 32 n

/-! ## Announce -/

/-- `calc_max_num_peers_to_take` -/
def calcMaxNumPeersToTake (config : Config) (peersWanted : Int) : Nat :=
  if peersWanted ≤ 0 then config.protocol.maxResponsePeers
  else min config.protocol.maxResponsePeers peersWanted.toNat

/-- Modelled from the spec: `aquatic_common::extract_response_peers`. When the map holds at
most `max_num_peers_to_take + 1` peers, all of them but the sender, in map order; otherwise
`max_num_peers_to_take` peers from a random offset on, wrapping around, less the sender if
it is among them. The random offset is an argument. -/
def extractResponsePeers {V R : Type} (offset : Nat) (peerMap : IndexMap PeerId V)
    (maxNumPeersToTake : Nat) (senderPeerMapKey : PeerId) (peerConversionFunction : V → R) :
    List R :=
  let window :=
    if peerMap.len ≤ maxNumPeersToTake + 1 then peerMap.entries
    else (peerMap.entries.rotate offset).take maxNumPeersToTake
  (window.filter fun e => e.1 ≠ senderPeerMapKey).map fun e => peerConversionFunction e.2

/-- The response `handle_announce_request_inner` builds from the updated torrent. -/
def announceResponse {I : Type} (config : Config) (offset : Nat) (request : AnnounceRequest)
    (torrentData : TorrentData (Peer I)) : ProtocolAnnounceResponse I :=
  let maxNumPeersToTake := calcMaxNumPeersToTake config request.peersWanted.toInt
  let responsePeers := extractResponsePeers offset torrentData.peers maxNumPeersToTake
    request.peerId Peer.toResponsePeer
  ⟨request.transactionId, config.protocol.peerAnnounceInterval,
    usizeAsI32 torrentData.numLeechers, usizeAsI32 torrentData.numSeeders, responsePeers⟩

/-- `handle_announce_request_inner`, with the random offset of `extract_response_peers`;
`none` where a counter would be decremented at 0. The torrent that `entry(..).or_default()`
gives is updated, then stored back under its info hash. -/
def handleAnnounceRequestInner {I : Type} (config : Config) (offset : Nat)
    (torrents : TorrentMap I) (request : AnnounceRequest) (peerIp : I)
    (peerValidUntil : ValidUntil) : Option (TorrentMap I × ProtocolAnnounceResponse I) :=
  let peerStatus := PeerStatus.fromEventAndBytesLeft request.event request.bytesLeft
  let peer : Peer I := ⟨peerIp, request.port, peerStatus, peerValidUntil⟩
  (((torrents.get request.infoHash).getD .default).announcePeer Peer.status request.peerId
    peer).map fun torrentData =>
      ((torrents.insert request.infoHash torrentData).1,
        announceResponse config offset request torrentData)

/-- `handle_announce_request`: the announce goes to the map of the source's family. -/
def handleAnnounceRequest (config : Config) (offset : Nat) (torrents : TorrentMaps)
    (request : AnnounceRequest) (src : SocketAddr) (peerValidUntil : ValidUntil) :
    Option (TorrentMaps × ConnectedResponse) :=
  match src.ip with
  | .v4 ip =>
    (handleAnnounceRequestInner config offset torrents.ipv4 request ip peerValidUntil).map
      fun (ipv4, response) => ({ torrents with ipv4 }, response.intoIpv4)
  | .v6 ip =>
    (handleAnnounceRequestInner config offset torrents.ipv6 request ip peerValidUntil).map
      fun (ipv6, response) => ({ torrents with ipv6 }, response.intoIpv6)

/-! ## Scrape -/

/-- `create_torrent_scrape_statistics` -/
def createTorrentScrapeStatistics (seeders leechers : I32) : TorrentScrapeStatistics :=
  ⟨seeders, 0, leechers⟩

/-- The statistics `handle_scrape_request` reports for one info hash: the counters of the
torrent, or `EMPTY_STATS` for an absent one. -/
def scrapeStatistics {I : Type} (torrents : TorrentMap I) (infoHash : InfoHash) :
    TorrentScrapeStatistics :=
  match torrents.get infoHash with
  | some torrentData =>
    createTorrentScrapeStatistics (usizeAsI32 torrentData.numSeeders)
      (usizeAsI32 torrentData.numLeechers)
  | none => createTorrentScrapeStatistics 0 0

/-- `handle_scrape_request`; it only reads the maps. -/
def handleScrapeRequest (torrents : TorrentMaps) (src : SocketAddr)
    (request : PendingScrapeRequest) : PendingScrapeResponse :=
  let torrentStats :=
    if src.ip.isIpv4 then
      BTreeMap.empty.extend (request.infoHashes.entries.map fun e =>
        (e.1, scrapeStatistics torrents.ipv4 e.2))
    else
      BTreeMap.empty.extend (request.infoHashes.entries.map fun e =>
        (e.1, scrapeStatistics torrents.ipv6 e.2))
  ⟨request.transactionId, torrentStats⟩

/-! ## The counters over whole runs -/

/-- What the request worker and the cleaning task do to the torrent maps: an announce, with
the random offset its peer extraction draws, or a cleaning at an instant, with the access
list's verdict at that time. A scrape only reads the maps. -/
inductive Operation where
  | announce (request : AnnounceRequest) (src : SocketAddr) (peerValidUntil : ValidUntil)
      (offset : Nat)
  | clean (now : Instant) (allows : InfoHash → Bool)

/-- One operation on the torrent maps; `none` where it panics. -/
def TorrentMaps.apply (config : Config) (torrents : TorrentMaps) : Operation → Option TorrentMaps
  | .announce request src peerValidUntil offset =>
    (handleAnnounceRequest config offset torrents request src peerValidUntil).map Prod.fst
  | .clean now allows => torrents.clean now allows

/-- A sequence of operations from some maps; `none` where one of them panics. -/
def runOperations (config : Config) : TorrentMaps → List Operation → Option TorrentMaps
  | torrents, [] => some torrents
  | torrents, op :: ops =>
    (torrents.apply config op).bind fun torrents => runOperations config torrents ops

/-- The number of peers of status `st` of the torrent `infoHash` in a map; 0 when it is
absent. -/
def torrentPeerCount {I : Type} (torrents : TorrentMap I) (infoHash : InfoHash)
    (st : PeerStatus) : Nat :=
  ((torrents.get infoHash).map fun td => countStatus Peer.status st td.peers).getD 0

/-- The number of peers of status `st` of the torrent `infoHash` in the map of the address
family of `ip`. -/
def TorrentMaps.peerCount (torrents : TorrentMaps) (ip : IpAddr) (infoHash : InfoHash)
    (st : PeerStatus) : Nat :=
  match ip with
  | .v4 _ => torrentPeerCount torrents.ipv4 infoHash st
  | .v6 _ => torrentPeerCount torrents.ipv6 infoHash st

/-- The seeders and leechers an announce response reports. -/
def ConnectedResponse.announceCounts : ConnectedResponse → Option (NumberOfPeers × NumberOfPeers)
  | .announceIpv4 r => some (r.seeders, r.leechers)
  | .announceIpv6 r => some (r.seeders, r.leechers)
  | .scrape _ => none

section Inner

variable {I : Type} (config : Config) (offset : Nat) (request : AnnounceRequest) (peerIp : I)
  (peerValidUntil : ValidUntil)

theorem handleAnnounceRequestInner_of_consistent {torrents : TorrentMap I}
    (h : TorrentMap.Consistent torrents) :
    ∃ torrents' response,
      handleAnnounceRequestInner config offset torrents request peerIp peerValidUntil =
        some (torrents', response) ∧ TorrentMap.Consistent torrents' ∧
      response.seeders = usizeAsI32 (torrentPeerCount torrents' request.infoHash .seeding) ∧
      response.leechers = usizeAsI32 (torrentPeerCount torrents' request.infoHash .leeching) := by
  obtain ⟨td', hAnnounce, hTd'⟩ :=
    TorrentData.announcePeer_consistent (TorrentData.AllConsistent.getD h request.infoHash)
      request.peerId ⟨peerIp, request.port,
        PeerStatus.fromEventAndBytesLeft request.event request.bytesLeft, peerValidUntil⟩
  refine ⟨_, _, by simp only [handleAnnounceRequestInner, hAnnounce]; rfl,
    TorrentData.AllConsistent.insert h _ hTd', ?_, ?_⟩ <;>
  simp [announceResponse, torrentPeerCount, IndexMap.get_insert, hTd'.numSeeders_eq,
    hTd'.numLeechers_eq]

end Inner

theorem TorrentMaps.announce_consistent (config : Config) (offset : Nat)
    {torrents : TorrentMaps} (h : torrents.Consistent) (request : AnnounceRequest)
    (src : SocketAddr) (peerValidUntil : ValidUntil) :
    ∃ torrents' response,
      handleAnnounceRequest config offset torrents request src peerValidUntil =
        some (torrents', response) ∧ torrents'.Consistent ∧
      response.announceCounts = some
        (usizeAsI32 (torrents'.peerCount src.ip request.infoHash .seeding),
          usizeAsI32 (torrents'.peerCount src.ip request.infoHash .leeching)) := by
  obtain ⟨ip, port⟩ := src
  cases ip with
  | v4 ip =>
    obtain ⟨t, r, hInner, hCons, hs, hl⟩ :=
      handleAnnounceRequestInner_of_consistent config offset request ip peerValidUntil h.ipv4
    exact ⟨{ torrents with ipv4 := t }, r.intoIpv4, by simp [handleAnnounceRequest, hInner],
      ⟨hCons, h.ipv6⟩,
      by simp [ConnectedResponse.announceCounts, ProtocolAnnounceResponse.intoIpv4,
        TorrentMaps.peerCount, hs, hl]⟩
  | v6 ip =>
    obtain ⟨t, r, hInner, hCons, hs, hl⟩ :=
      handleAnnounceRequestInner_of_consistent config offset request ip peerValidUntil h.ipv6
    exact ⟨{ torrents with ipv6 := t }, r.intoIpv6, by simp [handleAnnounceRequest, hInner],
      ⟨h.ipv4, hCons⟩,
      by simp [ConnectedResponse.announceCounts, ProtocolAnnounceResponse.intoIpv6,
        TorrentMaps.peerCount, hs, hl]⟩

theorem TorrentMaps.apply_consistent (config : Config) {torrents : TorrentMaps}
    (h : torrents.Consistent) (op : Operation) :
    ∃ torrents', torrents.apply config op = some torrents' ∧ torrents'.Consistent := by
  cases op with
  | announce request src peerValidUntil offset =>
    obtain ⟨t, r, hAnnounce, hCons, -⟩ :=
      TorrentMaps.announce_consistent config offset h request src peerValidUntil
    exact ⟨t, by simp [TorrentMaps.apply, hAnnounce], hCons⟩
  | clean now allows => exact TorrentMaps.clean_consistent now allows h

theorem runOperations_consistent (config : Config) (ops : List Operation) :
    ∀ {torrents : TorrentMaps}, torrents.Consistent →
      ∃ torrents', runOperations config torrents ops = some torrents' ∧ torrents'.Consistent := by
  induction ops with
  | nil => exact fun h => ⟨_, rfl, h⟩
  | cons op ops ih =>
    intro torrents h
    obtain ⟨t, hApply, hCons⟩ := TorrentMaps.apply_consistent config h op
    simpa [runOperations, hApply] using ih hCons

theorem scrapeStatistics_of_consistent {I : Type} {torrents : TorrentMap I}
    (h : TorrentMap.Consistent torrents) (infoHash : InfoHash) :
    scrapeStatistics torrents infoHash =
      ⟨usizeAsI32 (torrentPeerCount torrents infoHash .seeding), 0,
        usizeAsI32 (torrentPeerCount torrents infoHash .leeching)⟩ := by
  unfold scrapeStatistics torrentPeerCount
  split
  · next td hGet =>
    have hTd := h td (IndexMap.mem_values_of_get hGet)
    simp [hGet, createTorrentScrapeStatistics, hTd.numSeeders_eq, hTd.numLeechers_eq]
  · next hGet =>
    simp [hGet, createTorrentScrapeStatistics]
    rfl

theorem get_handleScrapeRequest (torrents : TorrentMaps) (src : SocketAddr)
    (request : PendingScrapeRequest) (i : Nat) :
    (handleScrapeRequest torrents src request).torrentStats.get i =
      (request.infoHashes.get i).map fun infoHash =>
        if src.ip.isIpv4 then scrapeStatistics torrents.ipv4 infoHash
        else scrapeStatistics torrents.ipv6 infoHash := by
  have hKeys : ∀ (f : InfoHash → TorrentScrapeStatistics),
      ((request.infoHashes.entries.map fun e => (e.1, f e.2)).map Prod.fst).Nodup := fun f => by
    simpa [Function.comp_def] using request.infoHashes.nodup_keys
  unfold handleScrapeRequest
  split_ifs <;> rw [BTreeMap.get_extend_empty (hKeys _)]
  · exact BTreeMap.lookup_map_snd (fun _ => scrapeStatistics torrents.ipv4) _ i
  · exact BTreeMap.lookup_map_snd (fun _ => scrapeStatistics torrents.ipv6) _ i

/-- From the empty maps, every sequence of announces (from any source, for any torrent, peer,
event, bytes left, port, peers wanted and expiry) and cleanings (at any instant, with any
access list) runs without a counter being decremented at 0 and ends in consistent maps: in
both families, every torrent counts exactly its seeding and its leeching peers, and holds no
stopped peer. From there, every announce reports those counts for its torrent, and every
scrape reports them under each requested index, zero for an absent torrent. -/
theorem torrent_maps_counters_invariant (config : Config) (ops : List Operation) :
    ∃ torrents, runOperations config TorrentMaps.default ops = some torrents ∧
      torrents.Consistent ∧
      (∀ request src peerValidUntil offset, ∃ torrents' response,
        handleAnnounceRequest config offset torrents request src peerValidUntil =
          some (torrents', response) ∧
        response.announceCounts = some
          (usizeAsI32 (torrents'.peerCount src.ip request.infoHash .seeding),
            usizeAsI32 (torrents'.peerCount src.ip request.infoHash .leeching))) ∧
      (∀ src request i, (handleScrapeRequest torrents src request).torrentStats.get i =
        (request.infoHashes.get i).map fun infoHash =>
          ⟨usizeAsI32 (torrents.peerCount src.ip infoHash .seeding), 0,
            usizeAsI32 (torrents.peerCount src.ip infoHash .leeching)⟩) := by
  obtain ⟨torrents, hRun, hCons⟩ := runOperations_consistent config ops TorrentMaps.default_consistent
  refine ⟨torrents, hRun, hCons, fun request src peerValidUntil offset => ?_, fun src request i => ?_⟩
  · obtain ⟨t, r, h, -, hCounts⟩ :=
      TorrentMaps.announce_consistent config offset hCons request src peerValidUntil
    exact ⟨t, r, h, hCounts⟩
  · rw [get_handleScrapeRequest]
    obtain ⟨ip, port⟩ := src
    cases ip <;>
      simp [IpAddr.isIpv4, TorrentMaps.peerCount, scrapeStatistics_of_consistent hCons.ipv4,
        scrapeStatistics_of_consistent hCons.ipv6]

/-! ## What an announce changes -/

section Frame

variable {I : Type} {config : Config} {offset : Nat} {torrents torrents' : TorrentMap I}
  {request : AnnounceRequest} {peerIp : I} {peerValidUntil : ValidUntil}
  {response : ProtocolAnnounceResponse I}

end Frame

end AquaticTracker.Udp
