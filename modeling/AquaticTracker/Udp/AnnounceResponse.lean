import AquaticTracker.Udp.Handlers

/-! # The peers of an announce response

What `extract_response_peers` draws into the response of `handle_announce_request_inner`, and
that every announce response `Response::write` produces fits `MAX_PACKET_SIZE`.
-/

namespace AquaticTracker.Udp

open Wire

set_option autoImplicit false

/-- `MAX_PACKET_SIZE` -/
def maxPacketSize : Nat := 8192

theorem calcMaxNumPeersToTake_le (config : Config) (peersWanted : Int) :
    calcMaxNumPeersToTake config peersWanted ≤ config.protocol.maxResponsePeers := by
  unfold calcMaxNumPeersToTake
  split
  · exact le_rfl
  · exact min_le_left _ _

section Extract

variable {V R : Type} (offset : Nat) (peerMap : IndexMap PeerId V) (k : Nat) (sender : PeerId)
  (f : V → R)

theorem extractResponsePeers_spec :
    ∃ l : List (PeerId × V), extractResponsePeers offset peerMap k sender f = l.map (f ·.2) ∧
      (∀ e ∈ l, e ∈ peerMap.entries ∧ e.1 ≠ sender) ∧ (l.map Prod.fst).Nodup ∧
      (peerMap.len ≤ k + 1 → l = peerMap.entries.filter fun e => e.1 ≠ sender) ∧
      ((peerMap.get sender).isSome → l.length ≤ k) ∧ l.length ≤ k + 1 := by
  have hFilter : ∀ {w : List (PeerId × V)}, (w.map Prod.fst).Nodup → (∀ e ∈ w, e ∈ peerMap.entries) →
      (∀ e ∈ w.filter (fun e => e.1 ≠ sender), e ∈ peerMap.entries ∧ e.1 ≠ sender) ∧
        ((w.filter fun e => e.1 ≠ sender).map Prod.fst).Nodup :=
    fun hNodup hSub => ⟨fun e he => ⟨hSub e (List.mem_filter.mp he).1,
        by simpa using (List.mem_filter.mp he).2⟩,
      ((List.filter_sublist _).map Prod.fst).nodup hNodup⟩
  unfold extractResponsePeers
  split
  · rename_i hLen
    obtain ⟨hMem, hNodup⟩ := hFilter peerMap.nodup_keys fun _ => id
    refine ⟨_, rfl, hMem, hNodup, fun _ => rfl, fun hSender => ?_,
      (List.length_filter_le _ _).trans hLen⟩
    obtain ⟨v, hv⟩ := Option.isSome_iff_exists.mp hSender
    have hLt : (peerMap.entries.filter fun e => e.1 ≠ sender).length < peerMap.len :=
      List.length_filter_lt_length_iff_exists.mpr
        ⟨(sender, v), (IndexMap.get_eq_some_iff peerMap).mp hv, by simp⟩
    unfold IndexMap.len at hLen hLt
    omega
  · rename_i hLen
    have hWindow : List.Sublist (((peerMap.entries.rotate offset).take k).map Prod.fst)
        ((peerMap.entries.map Prod.fst).rotate offset) := by
      rw [← List.map_rotate]
      exact (List.take_sublist _ _).map _
    obtain ⟨hMem, hNodup⟩ := hFilter (hWindow.nodup (List.nodup_rotate.mpr peerMap.nodup_keys))
      fun e he => List.mem_rotate.mp (List.mem_of_mem_take he)
    have hShort := (List.length_filter_le (fun e : PeerId × V => e.1 ≠ sender) _).trans
      (List.length_take_le k (peerMap.entries.rotate offset))
    exact ⟨_, rfl, hMem, hNodup, fun h => absurd h hLen, fun _ => hShort, by omega⟩

end Extract

section Announce

variable {I : Type}

/-- The peers of the response to an announce: with `take` the number that
`calc_max_num_peers_to_take` gives, they are stored peers of the torrent the announce left, under
distinct peer ids other than the announcing one; at most `take` of them unless the announce was
a stop, and never more than `take + 1`; and when that torrent holds at most `take + 1` peers,
all of them but the announcing one, in map order. -/
theorem announce_response_peers (config : Config) (offset : Nat) (torrents : TorrentMap I)
    (request : AnnounceRequest) (peerIp : I) (peerValidUntil : ValidUntil)
    {torrents' : TorrentMap I} {response : ProtocolAnnounceResponse I}
    (h : handleAnnounceRequestInner config offset torrents request peerIp peerValidUntil =
      some (torrents', response)) :
    ∃ (td' : TorrentData (Peer I)) (l : List (PeerId × Peer I)),
      torrents'.get request.infoHash = some td' ∧ response.peers = l.map (·.2.toResponsePeer) ∧
      (∀ e ∈ l, e ∈ td'.peers.entries ∧ e.1 ≠ request.peerId) ∧ (l.map Prod.fst).Nodup ∧
      (td'.peers.len ≤ calcMaxNumPeersToTake config request.peersWanted.toInt + 1 →
        l = td'.peers.entries.filter fun e => e.1 ≠ request.peerId) ∧
      (PeerStatus.fromEventAndBytesLeft request.event request.bytesLeft ≠ .stopped →
        l.length ≤ calcMaxNumPeersToTake config request.peersWanted.toInt) ∧
      l.length ≤ calcMaxNumPeersToTake config request.peersWanted.toInt + 1 := by
  obtain ⟨td', hAnnounce, hEq⟩ := Option.map_eq_some'.mp h
  obtain ⟨rfl, rfl⟩ := Prod.mk.inj hEq
  obtain ⟨l, hPeers, hMem, hNodup, hAll, hSender, hLen⟩ := extractResponsePeers_spec offset
    td'.peers (calcMaxNumPeersToTake config request.peersWanted.toInt) request.peerId
    Peer.toResponsePeer
  refine ⟨td', l, by rw [IndexMap.get_insert, if_pos rfl], hPeers, hMem, hNodup, hAll,
    fun hStatus => hSender ?_, hLen⟩
  rw [TorrentData.peers_announcePeer hAnnounce, get_peersAfterAnnounce, if_pos rfl]
  simp [hStatus]

/-- An announce to a torrent that holds one other leecher: the response lists exactly that
leecher. -/
theorem announce_response_peers_other_leecher :
    ∃ (torrents' : TorrentMap Ipv4Addr) (response : ProtocolAnnounceResponse Ipv4Addr),
      handleAnnounceRequestInner Config.default 0
        ⟨[(Bytes.replicate 20 0xaa, ⟨⟨[(Bytes.replicate 20 0xcc,
          ⟨⟨Bytes.replicate 4 11⟩, 6882, .leeching, 900⟩)], List.nodup_singleton _⟩, 0, 1⟩)],
          List.nodup_singleton _⟩
        ⟨0x11223344, Bytes.replicate 20 0xaa, Bytes.replicate 20 0xbb, 10, .started, 10, 6881⟩
        ⟨Bytes.replicate 4 10⟩ 0 = some (torrents', response) ∧
      response.peers = [⟨⟨Bytes.replicate 4 11⟩, 6882⟩] ∧
      ∃ (td' : TorrentData (Peer Ipv4Addr)) (l : List (PeerId × Peer Ipv4Addr)),
        torrents'.get (Bytes.replicate 20 0xaa) = some td' ∧
        response.peers = l.map (·.2.toResponsePeer) ∧
        ∀ e ∈ l, e ∈ td'.peers.entries ∧ e.1 ≠ Bytes.replicate 20 0xbb :=
  have h := announce_response_peers Config.default 0
    ⟨[(Bytes.replicate 20 0xaa, ⟨⟨[(Bytes.replicate 20 0xcc,
      ⟨⟨Bytes.replicate 4 11⟩, 6882, .leeching, 900⟩)], List.nodup_singleton _⟩, 0, 1⟩)],
      List.nodup_singleton _⟩
    ⟨0x11223344, Bytes.replicate 20 0xaa, Bytes.replicate 20 0xbb, 10, .started, 10, 6881⟩
    ⟨Bytes.replicate 4 10⟩ 0 rfl
  ⟨_, _, rfl, rfl, h.imp fun _ ⟨l, hGet, hPeers, hMem, _⟩ => ⟨l, hGet, hPeers, hMem⟩⟩

theorem length_peers_of_handleAnnounceRequestInner {config : Config} {offset : Nat}
    {torrents torrents' : TorrentMap I} {request : AnnounceRequest} {peerIp : I}
    {peerValidUntil : ValidUntil} {response : ProtocolAnnounceResponse I}
    (h : handleAnnounceRequestInner config offset torrents request peerIp peerValidUntil =
      some (torrents', response)) :
    response.peers.length ≤ config.protocol.maxResponsePeers + 1 := by
  obtain ⟨td', -, hEq⟩ := Option.map_eq_some'.mp h
  cases (Prod.mk.inj hEq).2
  obtain ⟨l, hPeers, -, -, -, -, hLen⟩ := extractResponsePeers_spec offset td'.peers
    (calcMaxNumPeersToTake config request.peersWanted.toInt) request.peerId Peer.toResponsePeer
  have hTake := calcMaxNumPeersToTake_le config request.peersWanted.toInt
  show (extractResponsePeers _ _ _ _ _).length ≤ _
  rw [hPeers, List.length_map]
  omega

end Announce

/-! ## Packet size -/

theorem length_write_announceIpv4 (r : AnnounceResponseIpv4) :
    (Response.announceIpv4 r).write.length = 20 + 6 * r.peers.length := by
  simp [Response.write, List.length_flatten, Function.comp_def]
  omega

theorem length_write_announceIpv6 (r : AnnounceResponseIpv6) :
    (Response.announceIpv6 r).write.length = 20 + 18 * r.peers.length := by
  simp [Response.write, List.length_flatten, Function.comp_def]
  omega

/-- With `max_response_peers` at most 453, every response `handle_announce_request` gives is an
announce response for the source's family that `Response::write` fits in `MAX_PACKET_SIZE`
bytes. -/
theorem announce_response_fits_packet (config : Config)
    (hMax : config.protocol.maxResponsePeers ≤ 453) (offset : Nat) (torrents : TorrentMaps)
    (request : AnnounceRequest) (src : SocketAddr) (peerValidUntil : ValidUntil)
    {torrents' : TorrentMaps} {response : ConnectedResponse}
    (h : handleAnnounceRequest config offset torrents request src peerValidUntil =
      some (torrents', response)) :
    (∃ r, response = .announceIpv4 r ∧ (Response.announceIpv4 r).write.length ≤ maxPacketSize) ∨
      (∃ r, response = .announceIpv6 r ∧
        (Response.announceIpv6 r).write.length ≤ maxPacketSize) := by
  obtain ⟨ip, port⟩ := src
  cases ip with
  | v4 ip =>
    obtain ⟨⟨t, r⟩, hInner, hEq⟩ := Option.map_eq_some'.mp h
    cases (Prod.mk.inj hEq).2
    have hLen := length_peers_of_handleAnnounceRequestInner hInner
    refine .inl ⟨_, rfl, ?_⟩
    rw [length_write_announceIpv4]
    simp only [ProtocolAnnounceResponse.intoIpv4, List.length_map, maxPacketSize]
    omega
  | v6 ip =>
    obtain ⟨⟨t, r⟩, hInner, hEq⟩ := Option.map_eq_some'.mp h
    cases (Prod.mk.inj hEq).2
    have hLen := length_peers_of_handleAnnounceRequestInner hInner
    refine .inr ⟨_, rfl, ?_⟩
    rw [length_write_announceIpv6]
    simp only [ProtocolAnnounceResponse.intoIpv6, List.length_map, maxPacketSize]
    omega

/-- An announce under the default config to a torrent that holds one other leecher: the
response, one peer long, fits `MAX_PACKET_SIZE`. -/
theorem announce_response_fits_packet_other_leecher :
    Config.default.protocol.maxResponsePeers ≤ 453 ∧
      ∃ (torrents' : TorrentMaps) (response : ConnectedResponse),
        handleAnnounceRequest Config.default 0
          ⟨⟨[(Bytes.replicate 20 0xaa, ⟨⟨[(Bytes.replicate 20 0xcc,
            ⟨⟨Bytes.replicate 4 11⟩, 6882, .leeching, 900⟩)], List.nodup_singleton _⟩, 0, 1⟩)],
            List.nodup_singleton _⟩, IndexMap.empty⟩
          ⟨0x11223344, Bytes.replicate 20 0xaa, Bytes.replicate 20 0xbb, 10, .started, 10, 6881⟩
          ⟨.v4 ⟨Bytes.replicate 4 10⟩, 6881⟩ 0 = some (torrents', response) ∧
        (∃ r, response = .announceIpv4 r ∧ r.peers.length = 1) ∧
        ((∃ r, response = .announceIpv4 r ∧
            (Response.announceIpv4 r).write.length ≤ maxPacketSize) ∨
          (∃ r, response = .announceIpv6 r ∧
            (Response.announceIpv6 r).write.length ≤ maxPacketSize)) :=
  ⟨by decide, _, _, rfl, ⟨_, rfl, rfl⟩, announce_response_fits_packet Config.default (by decide) 0
    ⟨⟨[(Bytes.replicate 20 0xaa, ⟨⟨[(Bytes.replicate 20 0xcc,
      ⟨⟨Bytes.replicate 4 11⟩, 6882, .leeching, 900⟩)], List.nodup_singleton _⟩, 0, 1⟩)],
      List.nodup_singleton _⟩, IndexMap.empty⟩
    ⟨0x11223344, Bytes.replicate 20 0xaa, Bytes.replicate 20 0xbb, 10, .started, 10, 6881⟩
    ⟨.v4 ⟨Bytes.replicate 4 10⟩, 6881⟩ 0 rfl⟩

end AquaticTracker.Udp
