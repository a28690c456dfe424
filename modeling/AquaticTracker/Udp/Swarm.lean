import AquaticTracker.Swarm.Torrent
import AquaticTracker.Protocol.Request

/-! # The torrent maps of a UDP request worker

`TorrentMaps` of `aquatic_udp` and its `clean`, which keeps the allowed torrents' peers while
`valid_until > now` and lowers the counters by the peers it drops.
-/

namespace AquaticTracker.Udp

set_option autoImplicit false

/-- `PeerStatus::from_event_and_bytes_left` -/
def PeerStatus.fromEventAndBytesLeft (event : AnnounceEvent) (bytesLeft : NumberOfBytes) :
    PeerStatus :=
  if event = .stopped then .stopped
  else if bytesLeft = 0 then .seeding
  else .leeching

/-- `Peer<I>` -/
structure Peer (I : Type) where
  ipAddress : I
  port : Port
  status : PeerStatus
  validUntil : ValidUntil
deriving DecidableEq, Repr

/-- `ProtocolResponsePeer<I>` -/
structure ProtocolResponsePeer (I : Type) where
  ipAddress : I
  port : Port
deriving DecidableEq, Repr

/-- `Peer::to_response_peer` -/
def Peer.toResponsePeer {I : Type} (peer : Peer I) : ProtocolResponsePeer I :=
  ⟨peer.ipAddress, peer.port⟩

/-- `TorrentMap<I>` -/
abbrev TorrentMap (I : Type) := IndexMap InfoHash (TorrentData (Peer I))

/-- `TorrentMaps` -/
structure TorrentMaps where
  ipv4 : TorrentMap Ipv4Addr
  ipv6 : TorrentMap Ipv6Addr

/-- `TorrentMaps::default()` -/
def TorrentMaps.default : TorrentMaps := ⟨IndexMap.empty, IndexMap.empty⟩

/-- Every torrent of a map satisfies the counter invariant. -/
def TorrentMap.Consistent {I : Type} (torrents : TorrentMap I) : Prop :=
  ∀ td ∈ torrents.values, td.Consistent Peer.status

/-- The counter invariant over both maps. -/
structure TorrentMaps.Consistent (maps : TorrentMaps) : Prop where
  ipv4 : TorrentMap.Consistent maps.ipv4
  ipv6 : TorrentMap.Consistent maps.ipv6

theorem TorrentMaps.default_consistent : TorrentMaps.default.Consistent :=
  ⟨by simp [TorrentMap.Consistent, TorrentMaps.default], by
    simp [TorrentMap.Consistent, TorrentMaps.default]⟩

/-! ## Cleaning -/

section Clean

variable {I : Type} (now : Instant)

/-- The closure of the peer `retain` in `clean_torrent_and_peers`, over the two counters it
borrows mutably: keep a peer while `valid_until > now`, and count out a peer it drops. -/
def cleanPeer (counters : Nat × Nat) (_ : PeerId) (peer : Peer I) :
    Option ((Nat × Nat) × Peer I × Bool) :=
  if peer.validUntil > now then some (counters, peer, true)
  else
    match peer.status with
    | .seeding => (decrementCounter counters.1).map fun n => ((n, counters.2), peer, false)
    | .leeching => (decrementCounter counters.2).map fun n => ((counters.1, n), peer, false)
    | .stopped => some (counters, peer, false)

/-- `TorrentMaps::clean_torrent_and_peers`: the cleaned torrent and whether to keep it. -/
def TorrentMaps.cleanTorrentAndPeers (torrent : TorrentData (Peer I)) :
    Option (TorrentData (Peer I) × Bool) :=
  (torrent.peers.retain (cleanPeer now) (torrent.numSeeders, torrent.numLeechers)).map
    fun (counters, peers) => (⟨peers, counters.1, counters.2⟩, !peers.isEmpty)

/-- The closure of the torrent `retain` in `TorrentMaps::clean`: `allows` is the access
list's verdict, and a torrent it refuses is dropped without being cleaned. -/
def cleanTorrent (allows : InfoHash → Bool) (_ : Unit) (infoHash : InfoHash)
    (td : TorrentData (Peer I)) : Option (Unit × TorrentData (Peer I) × Bool) :=
  if allows infoHash then
    (TorrentMaps.cleanTorrentAndPeers now td).map fun (td, keep) => ((), td, keep)
  else some ((), td, false)

/-- `TorrentMaps::clean` at the instant `now`, with the access list's verdict `allows`. -/
def TorrentMaps.clean (allows : InfoHash → Bool) (maps : TorrentMaps) : Option TorrentMaps := do
  let ((), ipv4) ← maps.ipv4.retain (cleanTorrent now allows) ()
  let ((), ipv6) ← maps.ipv6.retain (cleanTorrent now allows) ()
  pure ⟨ipv4, ipv6⟩

/-- The number of expired peers of status `st` among some entries. -/
def numExpired (st : PeerStatus) (l : List (PeerId × Peer I)) : Nat :=
  l.countP fun e => !(e.2.validUntil > now) && e.2.status = st

/-- The peers still live at `now`. -/
def livePeers (l : List (PeerId × Peer I)) : List (PeerId × Peer I) :=
  l.filter fun e => e.2.validUntil > now

/-- The torrent that `clean_torrent_and_peers` leaves, said directly: its live peers in their
order, each counter lowered by the expired peers of its status. -/
def cleanedTorrent (td : TorrentData (Peer I)) : TorrentData (Peer I) :=
  ⟨td.peers.filter fun _ peer => peer.validUntil > now,
    td.numSeeders - numExpired now .seeding td.peers.entries,
    td.numLeechers - numExpired now .leeching td.peers.entries⟩

/-- Whether a torrent still has a peer live at `now`. -/
def hasLivePeer (td : TorrentData (Peer I)) : Bool :=
  td.peers.entries.any fun e => e.2.validUntil > now

/-- What `clean` makes of one family map, said directly: the torrents that the access list
allows and that still have a live peer, in their order, each cleaned. -/
def TorrentMap.cleaned (allows : InfoHash → Bool) (torrents : TorrentMap I) : TorrentMap I :=
  (torrents.filter fun infoHash td => allows infoHash && hasLivePeer now td).mapValues
    (cleanedTorrent now)

section Cons

variable {st : PeerStatus} {k : PeerId} {peer : Peer I} (l : List (PeerId × Peer I))

theorem numExpired_cons_of_live (h : peer.validUntil > now) :
    numExpired now st ((k, peer) :: l) = numExpired now st l := by
  simp [numExpired, h]

theorem numExpired_cons_of_expired (h : ¬peer.validUntil > now) :
    numExpired now st ((k, peer) :: l) = numExpired now st l + if peer.status = st then 1 else 0 := by
  simp [numExpired, List.countP_cons, show ¬now < peer.validUntil from h]

theorem livePeers_cons_of_live (h : peer.validUntil > now) :
    livePeers now ((k, peer) :: l) = (k, peer) :: livePeers now l := by
  simp [livePeers, h]

theorem livePeers_cons_of_expired (h : ¬peer.validUntil > now) :
    livePeers now ((k, peer) :: l) = livePeers now l := by
  simp [livePeers, h]

end Cons

theorem retainEntries_cleanPeer (l : List (PeerId × Peer I)) (s n : Nat) :
    IndexMap.retainEntries (cleanPeer now) (s, n) l =
      if numExpired now .seeding l ≤ s ∧ numExpired now .leeching l ≤ n then
        some ((s - numExpired now .seeding l, n - numExpired now .leeching l), livePeers now l)
      else none := by
  induction l generalizing s n with
  | nil => simp [IndexMap.retainEntries, numExpired, livePeers]
  | cons e l ih =>
    obtain ⟨peerId, peer⟩ := e
    by_cases hLive : peer.validUntil > now
    · simp only [IndexMap.retainEntries, cleanPeer, if_pos hLive, ih,
        numExpired_cons_of_live now l hLive, livePeers_cons_of_live now l hLive]
      split_ifs <;> rfl
    · simp only [numExpired_cons_of_expired now l hLive, livePeers_cons_of_expired now l hLive]
      cases hs : peer.status <;>
        simp only [IndexMap.retainEntries, cleanPeer, if_neg hLive, hs, decrementCounter]
      · by_cases hs0 : s = 0
        · simp [hs0]
        · simp [hs0, ih]
          split_ifs <;> (try simp) <;> omega
      · by_cases hn0 : n = 0
        · simp [hn0]
        · simp [hn0, ih]
          split_ifs <;> (try simp) <;> omega
      · simp [ih]
        split_ifs <;> rfl

theorem countStatus_eq_countP {P : Type} (status : P → PeerStatus) (st : PeerStatus)
    (peers : IndexMap PeerId P) :
    countStatus status st peers = peers.entries.countP fun e => status e.2 = st := by
  simp [countStatus, IndexMap.values, List.countP_map, Function.comp_def]

theorem countP_status_eq (st : PeerStatus) (l : List (PeerId × Peer I)) :
    l.countP (fun e => e.2.status = st) =
      (livePeers now l).countP (fun e => e.2.status = st) + numExpired now st l := by
  induction l with
  | nil => rfl
  | cons e l ih =>
    obtain ⟨k, peer⟩ := e
    by_cases hLive : peer.validUntil > now
    · simp only [livePeers_cons_of_live now l hLive, numExpired_cons_of_live now l hLive,
        List.countP_cons, ih]
      omega
    · simp only [livePeers_cons_of_expired now l hLive, numExpired_cons_of_expired now l hLive,
        List.countP_cons, ih, decide_eq_true_eq]
      omega

theorem countStatus_cleanedTorrent_add (td : TorrentData (Peer I)) (st : PeerStatus) :
    countStatus Peer.status st (cleanedTorrent now td).peers + numExpired now st td.peers.entries =
      countStatus Peer.status st td.peers := by
  rw [countStatus_eq_countP, countStatus_eq_countP, countP_status_eq now st td.peers.entries]
  rfl

theorem cleanedTorrent_counters {td : TorrentData (Peer I)} (h : td.Consistent Peer.status) :
    (cleanedTorrent now td).numSeeders + numExpired now .seeding td.peers.entries =
        td.numSeeders ∧
      (cleanedTorrent now td).numLeechers + numExpired now .leeching td.peers.entries =
        td.numLeechers := by
  have hs := countStatus_cleanedTorrent_add now td .seeding
  have hl := countStatus_cleanedTorrent_add now td .leeching
  rw [← h.numSeeders_eq] at hs
  rw [← h.numLeechers_eq] at hl
  exact ⟨by simp only [cleanedTorrent]; omega, by simp only [cleanedTorrent]; omega⟩

theorem cleanedTorrent_consistent {td : TorrentData (Peer I)} (h : td.Consistent Peer.status) :
    (cleanedTorrent now td).Consistent Peer.status := by
  have hs := countStatus_cleanedTorrent_add now td .seeding
  have hl := countStatus_cleanedTorrent_add now td .leeching
  rw [← h.numSeeders_eq] at hs
  rw [← h.numLeechers_eq] at hl
  refine ⟨?_, ?_, fun p hp => h.not_stopped p ?_⟩
  · show td.numSeeders - _ = _
    omega
  · show td.numLeechers - _ = _
    omega
  · obtain ⟨e, he, rfl⟩ := List.mem_map.mp (Multiset.mem_coe.mp hp)
    exact Multiset.mem_coe.mpr (List.mem_map_of_mem _ (List.mem_of_mem_filter he))

theorem isEmpty_cleanedTorrent (td : TorrentData (Peer I)) :
    (cleanedTorrent now td).peers.isEmpty = !hasLivePeer now td := by
  rw [Bool.eq_iff_iff]
  simp [cleanedTorrent, hasLivePeer, IndexMap.isEmpty, IndexMap.filter, List.isEmpty_iff,
    List.filter_eq_nil_iff]

theorem TorrentMaps.cleanTorrentAndPeers_eq {td : TorrentData (Peer I)}
    (h : td.Consistent Peer.status) :
    TorrentMaps.cleanTorrentAndPeers now td = some (cleanedTorrent now td, hasLivePeer now td) := by
  obtain ⟨hs, hl⟩ := cleanedTorrent_counters now h
  have hRetain : td.peers.retain (cleanPeer now) (td.numSeeders, td.numLeechers) =
      some (((cleanedTorrent now td).numSeeders, (cleanedTorrent now td).numLeechers),
        (cleanedTorrent now td).peers) := by
    rw [IndexMap.retain_eq_some_iff, retainEntries_cleanPeer, if_pos ⟨by omega, by omega⟩]
    rfl
  rw [TorrentMaps.cleanTorrentAndPeers, hRetain]
  simp only [Option.map_some', isEmpty_cleanedTorrent, Bool.not_not]

theorem TorrentMaps.cleanTorrentAndPeers_of_consistent {td : TorrentData (Peer I)}
    (h : td.Consistent Peer.status) :
    ∃ td', TorrentMaps.cleanTorrentAndPeers now td = some (td', !td'.peers.isEmpty) ∧
      td'.peers.entries = livePeers now td.peers.entries ∧ td'.Consistent Peer.status :=
  ⟨cleanedTorrent now td,
    by rw [TorrentMaps.cleanTorrentAndPeers_eq now h, isEmpty_cleanedTorrent, Bool.not_not], rfl,
    cleanedTorrent_consistent now h⟩

theorem cleanTorrent_of_consistent (allows : InfoHash → Bool) (u : Unit) (infoHash : InfoHash)
    {td : TorrentData (Peer I)} (h : td.Consistent Peer.status) :
    ∃ u' td' keep, cleanTorrent now allows u infoHash td = some (u', td', keep) ∧
      td'.Consistent Peer.status := by
  unfold cleanTorrent
  split
  · obtain ⟨td', hClean, -, hCons⟩ := TorrentMaps.cleanTorrentAndPeers_of_consistent now h
    exact ⟨(), td', _, by rw [hClean]; rfl, hCons⟩
  · exact ⟨(), td, false, rfl, h⟩

theorem TorrentMaps.clean_consistent (allows : InfoHash → Bool) {maps : TorrentMaps}
    (h : maps.Consistent) : ∃ maps', maps.clean now allows = some maps' ∧ maps'.Consistent := by
  obtain ⟨_, ipv4, h4, hc4⟩ := IndexMap.retain_of_forall _
    (fun s k _ hv => cleanTorrent_of_consistent now allows s k hv) () h.ipv4
  obtain ⟨_, ipv6, h6, hc6⟩ := IndexMap.retain_of_forall _
    (fun s k _ hv => cleanTorrent_of_consistent now allows s k hv) () h.ipv6
  exact ⟨⟨ipv4, ipv6⟩, by simp [TorrentMaps.clean, h4, h6, bind, pure], hc4, hc6⟩

theorem TorrentMap.retain_cleanTorrent (allows : InfoHash → Bool) {torrents : TorrentMap I}
    (h : torrents.Consistent) :
    torrents.retain (cleanTorrent now allows) () = some ((), torrents.cleaned now allows) := by
  refine IndexMap.retain_of_pure _ _ fun e he => ?_
  have hCons := h e.2 (Multiset.mem_coe.mpr (List.mem_map_of_mem _ he))
  unfold cleanTorrent
  cases hAllows : allows e.1
  · exact ⟨e.2, rfl, by simp⟩
  · exact ⟨cleanedTorrent now e.2, by simp [TorrentMaps.cleanTorrentAndPeers_eq now hCons],
      fun _ => rfl⟩

theorem TorrentMap.get_cleaned_eq_some_iff (allows : InfoHash → Bool) (torrents : TorrentMap I)
    {infoHash : InfoHash} {td' : TorrentData (Peer I)} :
    (torrents.cleaned now allows).get infoHash = some td' ↔
      ∃ td, torrents.get infoHash = some td ∧ allows infoHash = true ∧
        hasLivePeer now td = true ∧ cleanedTorrent now td = td' := by
  simp [TorrentMap.cleaned, IndexMap.get_filter_eq_some_iff, and_assoc]

theorem TorrentMaps.clean_eq_cleaned (allows : InfoHash → Bool) {maps : TorrentMaps}
    (h : maps.Consistent) :
    maps.clean now allows =
      some ⟨maps.ipv4.cleaned now allows, maps.ipv6.cleaned now allows⟩ := by
  simp [TorrentMaps.clean, TorrentMap.retain_cleanTorrent now allows h.ipv4,
    TorrentMap.retain_cleanTorrent now allows h.ipv6, bind, pure]

/-- A family map after `clean`, as the amended property describes it: a torrent is there
exactly when the access list allows it and one of its peers has `valid_until > now`; it keeps
exactly those peers, in their order, and each counter drops by exactly the removed peers of its
status. -/
def TorrentMap.CleanedFrom (allows : InfoHash → Bool) (torrents torrents' : TorrentMap I) :
    Prop :=
  ∀ infoHash td', torrents'.get infoHash = some td' ↔
    ∃ td, torrents.get infoHash = some td ∧ allows infoHash = true ∧
      (∃ peer ∈ td.peers.values, peer.validUntil > now) ∧
      td'.peers.entries = td.peers.entries.filter (fun e => e.2.validUntil > now) ∧
      td'.numSeeders + numExpired now .seeding td.peers.entries = td.numSeeders ∧
      td'.numLeechers + numExpired now .leeching td.peers.entries = td.numLeechers

theorem hasLivePeer_iff (td : TorrentData (Peer I)) :
    hasLivePeer now td = true ↔ ∃ peer ∈ td.peers.values, peer.validUntil > now := by
  simp only [hasLivePeer, IndexMap.values, List.any_eq_true, decide_eq_true_eq, Multiset.mem_coe,
    List.mem_map, Prod.exists]
  exact ⟨fun ⟨k, peer, hMem, hLive⟩ => ⟨peer, ⟨k, peer, hMem, rfl⟩, hLive⟩,
    fun ⟨peer, ⟨k, _, hMem, rfl⟩, hLive⟩ => ⟨k, _, hMem, hLive⟩⟩

theorem TorrentMap.cleanedFrom_cleaned (allows : InfoHash → Bool) {torrents : TorrentMap I}
    (h : torrents.Consistent) : torrents.CleanedFrom now allows (torrents.cleaned now allows) := by
  intro infoHash td'
  rw [TorrentMap.get_cleaned_eq_some_iff]
  constructor
  · rintro ⟨td, hGet, hAllows, hLive, rfl⟩
    exact ⟨td, hGet, hAllows, (hasLivePeer_iff now td).mp hLive, rfl,
      cleanedTorrent_counters now (h td (IndexMap.mem_values_of_get hGet))⟩
  · rintro ⟨td, hGet, hAllows, hLive, hPeers, hSeeders, hLeechers⟩
    refine ⟨td, hGet, hAllows, (hasLivePeer_iff now td).mpr hLive, ?_⟩
    obtain ⟨peers', seeders', leechers'⟩ := td'
    simp only [cleanedTorrent, TorrentData.mk.injEq] at hSeeders hLeechers ⊢
    exact ⟨IndexMap.ext hPeers.symm, by omega, by omega⟩

/-- Under the counter invariant, `clean` never panics and keeps the invariant, and leaves in
each family map exactly the allowed torrents that still have a peer with `valid_until > now`,
each with exactly those peers in their order and its counters lowered by the removed ones. -/
theorem clean_keeps_live_peers_of_allowed_torrents (allows : InfoHash → Bool)
    {maps : TorrentMaps} (h : maps.Consistent) :
    ∃ maps', maps.clean now allows = some maps' ∧ maps'.Consistent ∧
      maps.ipv4.CleanedFrom now allows maps'.ipv4 ∧ maps.ipv6.CleanedFrom now allows maps'.ipv6 := by
  obtain ⟨maps', hClean, hCons⟩ := TorrentMaps.clean_consistent now allows h
  obtain rfl := Option.some.inj ((TorrentMaps.clean_eq_cleaned now allows h).symm.trans hClean)
  exact ⟨_, hClean, hCons, TorrentMap.cleanedFrom_cleaned now allows h.ipv4,
    TorrentMap.cleanedFrom_cleaned now allows h.ipv6⟩

/-- Two seeders of one torrent, valid until 5 and 9, cleaned at 5. -/
theorem clean_keeps_live_peers_of_allowed_torrents_two_seeders :
    ∃ maps', TorrentMaps.clean 5 (fun _ => true)
        ⟨⟨[(Bytes.replicate 20 0,
          ⟨⟨[(Bytes.replicate 20 1, ⟨⟨Bytes.replicate 4 1⟩, 6881, .seeding, 5⟩),
            (Bytes.replicate 20 2, ⟨⟨Bytes.replicate 4 2⟩, 6881, .seeding, 9⟩)], by decide⟩,
            2, 0⟩)], List.nodup_singleton _⟩, IndexMap.empty⟩ = some maps' ∧ maps'.Consistent ∧
      TorrentMap.CleanedFrom 5 (fun _ => true)
        ⟨[(Bytes.replicate 20 0,
          ⟨⟨[(Bytes.replicate 20 1, ⟨⟨Bytes.replicate 4 1⟩, 6881, .seeding, 5⟩),
            (Bytes.replicate 20 2, ⟨⟨Bytes.replicate 4 2⟩, 6881, .seeding, 9⟩)], by decide⟩,
            2, 0⟩)], List.nodup_singleton _⟩ maps'.ipv4 ∧
      TorrentMap.CleanedFrom 5 (fun _ => true) IndexMap.empty maps'.ipv6 :=
  clean_keeps_live_peers_of_allowed_torrents 5 (fun _ => true)
    ⟨fun td htd => by
      obtain rfl := Multiset.mem_singleton.mp htd
      exact ⟨rfl, rfl, by decide⟩,
    by simp [TorrentMap.Consistent, IndexMap.values, IndexMap.empty]⟩

theorem clean_drops_peer_valid_until_now (allows : InfoHash → Bool) {maps : TorrentMaps}
    (h : maps.Consistent) {infoHash : InfoHash} {td : TorrentData (Peer Ipv4Addr)}
    (hGet : maps.ipv4.get infoHash = some td) {peerId : PeerId} {peer : Peer Ipv4Addr}
    (hPeer : td.peers.get peerId = some peer) (hNow : peer.validUntil = now) :
    ∃ maps', maps.clean now allows = some maps' ∧
      ∀ td', maps'.ipv4.get infoHash = some td' → td'.peers.get peerId = none := by
  refine ⟨_, TorrentMaps.clean_eq_cleaned now allows h, fun td' hGet' => ?_⟩
  obtain ⟨td₀, hGet₀, -, -, rfl⟩ := (TorrentMap.get_cleaned_eq_some_iff now allows _).mp hGet'
  obtain rfl : td₀ = td := Option.some.inj (hGet₀.symm.trans hGet)
  refine Option.eq_none_iff_forall_not_mem.mpr fun p hp => ?_
  obtain ⟨hp', hLive⟩ := (IndexMap.get_filter_eq_some_iff _ _).mp hp
  obtain rfl := Option.some.inj (hp'.symm.trans hPeer)
  simp [hNow] at hLive

/-- Two seeders of one torrent, valid until 5 and 9, cleaned at 5: the first seeder, live by
`now <= valid_until`, is dropped. -/
theorem clean_drops_seeder_valid_until_five :
    ∃ maps', TorrentMaps.clean 5 (fun _ => true)
        ⟨⟨[(Bytes.replicate 20 0,
          ⟨⟨[(Bytes.replicate 20 1, ⟨⟨Bytes.replicate 4 1⟩, 6881, .seeding, 5⟩),
            (Bytes.replicate 20 2, ⟨⟨Bytes.replicate 4 2⟩, 6881, .seeding, 9⟩)], by decide⟩,
            2, 0⟩)], List.nodup_singleton _⟩, IndexMap.empty⟩ = some maps' ∧
      ∀ td', maps'.ipv4.get (Bytes.replicate 20 0) = some td' →
        td'.peers.get (Bytes.replicate 20 1) = none := by
  apply clean_drops_peer_valid_until_now 5 (fun _ => true)
  · refine ⟨fun td htd => ?_, by simp [TorrentMap.Consistent, IndexMap.values, IndexMap.empty]⟩
    obtain rfl := Multiset.mem_singleton.mp htd
    exact ⟨rfl, rfl, by decide⟩
  all_goals rfl

end Clean

end AquaticTracker.Udp
