import AquaticTracker.Collections.IndexMap

/-! # The peers of one torrent and their counters

The announce update that the UDP and WebSocket trackers share, over any peer record carrying a
`PeerStatus`, and the invariant that the counters count the peers of each status.
-/

namespace AquaticTracker

set_option autoImplicit false

/-- `PeerStatus` -/
inductive PeerStatus where
  | seeding
  | leeching
  | stopped
deriving DecidableEq, Repr

/-- `TorrentData`, over the peer record `P` of the tracker that stores it. -/
structure TorrentData (P : Type) where
  peers : IndexMap PeerId P
  numSeeders : Nat
  numLeechers : Nat

/-- `TorrentData::default()` -/
def TorrentData.default {P : Type} : TorrentData P := ⟨IndexMap.empty, 0, 0⟩

section Counters

variable {P : Type} (status : P → PeerStatus)

/-- The number of peers of a map that have status `st`. -/
def countStatus (st : PeerStatus) (peers : IndexMap PeerId P) : Nat :=
  peers.values.countP (status · = st)

/-- The torrent that a peer map determines: its counters are the true counts. -/
def TorrentData.ofPeers (peers : IndexMap PeerId P) : TorrentData P :=
  ⟨peers, countStatus status .seeding peers, countStatus status .leeching peers⟩

/-- The counter invariant of a torrent: each counter is the number of its peers of that
status, and no stored peer has stopped. -/
structure TorrentData.Consistent (td : TorrentData P) : Prop where
  numSeeders_eq : td.numSeeders = countStatus status .seeding td.peers
  numLeechers_eq : td.numLeechers = countStatus status .leeching td.peers
  not_stopped : ∀ p ∈ td.peers.values, status p ≠ .stopped

theorem countStatus_insert_of_get_none {peers : IndexMap PeerId P} {peerId : PeerId} (peer : P)
    (h : peers.get peerId = none) (st : PeerStatus) :
    countStatus status st (peers.insert peerId peer).1 =
      countStatus status st peers + if status peer = st then 1 else 0 := by
  simp [countStatus, IndexMap.values_insert_of_get_none peer h, Multiset.countP_cons]

theorem countStatus_insert_of_get_some {peers : IndexMap PeerId P} {peerId : PeerId} (peer : P)
    {old : P} (h : peers.get peerId = some old) (st : PeerStatus) :
    countStatus status st (peers.insert peerId peer).1 + (if status old = st then 1 else 0) =
      countStatus status st peers + if status peer = st then 1 else 0 := by
  have hValues := congrArg (Multiset.countP (status · = st)) (IndexMap.values_insert_of_get_some peer h)
  simpa [countStatus, Multiset.countP_cons] using hValues

theorem countStatus_remove_of_get_some {peers : IndexMap PeerId P} {peerId : PeerId} {old : P}
    (h : peers.get peerId = some old) (st : PeerStatus) :
    countStatus status st (peers.remove peerId).1 + (if status old = st then 1 else 0) =
      countStatus status st peers := by
  have hValues := congrArg (Multiset.countP (status · = st)) (IndexMap.values_remove h)
  simpa [countStatus, Multiset.countP_cons] using hValues

variable {status}

theorem TorrentData.Consistent.eq_ofPeers {td : TorrentData P} (h : td.Consistent status) :
    td = TorrentData.ofPeers status td.peers := by
  obtain ⟨peers, s, l⟩ := td
  obtain ⟨hs, hl, -⟩ := h
  simp only at hs hl
  simp [TorrentData.ofPeers, hs, hl]

theorem TorrentData.ofPeers_consistent {peers : IndexMap PeerId P}
    (h : ∀ p ∈ peers.values, status p ≠ .stopped) :
    (TorrentData.ofPeers status peers).Consistent status :=
  ⟨rfl, rfl, h⟩

theorem TorrentData.default_consistent : (TorrentData.default : TorrentData P).Consistent status :=
  ⟨rfl, rfl, by simp [TorrentData.default]⟩

theorem TorrentData.consistent_of_get {td : TorrentData P} (h : td.Consistent status)
    {peerId : PeerId} {p : P} (hGet : td.peers.get peerId = some p) : status p ≠ .stopped :=
  h.not_stopped p (IndexMap.mem_values_of_get hGet)

variable (status) in
/-- The counter invariant of every torrent of a map by info hash. -/
def TorrentData.AllConsistent (torrents : IndexMap InfoHash (TorrentData P)) : Prop :=
  ∀ td ∈ torrents.values, td.Consistent status

theorem TorrentData.AllConsistent.getD {torrents : IndexMap InfoHash (TorrentData P)}
    (h : TorrentData.AllConsistent status torrents) (infoHash : InfoHash) :
    ((torrents.get infoHash).getD .default).Consistent status := by
  cases hGet : torrents.get infoHash with
  | none => exact TorrentData.default_consistent
  | some td => exact h td (IndexMap.mem_values_of_get hGet)

theorem TorrentData.AllConsistent.insert {torrents : IndexMap InfoHash (TorrentData P)}
    (h : TorrentData.AllConsistent status torrents) (infoHash : InfoHash) {td : TorrentData P}
    (hTd : td.Consistent status) : TorrentData.AllConsistent status (torrents.insert infoHash td).1 :=
  fun x hx => (IndexMap.mem_values_insert hx).elim (· ▸ hTd) (h x)

end Counters

/-! ## Announce -/

section Announce

variable {P : Type} (status : P → PeerStatus)

/-- The first half of the peer update of an announce, `match peer_status { .. }`: count the
peer in under its status and insert it, or remove it when it stopped; with the peer that
the insert replaced or the remove took out. -/
def TorrentData.putPeer (td : TorrentData P) (peerId : PeerId) (peer : P) :
    TorrentData P × Option P :=
  match status peer with
  | .leeching =>
    ({ td with numLeechers := td.numLeechers + 1, peers := (td.peers.insert peerId peer).1 },
      (td.peers.insert peerId peer).2)
  | .seeding =>
    ({ td with numSeeders := td.numSeeders + 1, peers := (td.peers.insert peerId peer).1 },
      (td.peers.insert peerId peer).2)
  | .stopped => ({ td with peers := (td.peers.remove peerId).1 }, (td.peers.remove peerId).2)

/-- The second half, `match opt_removed_peer.map(|peer| peer.status) { .. }`: count out the
displaced peer; `none` where its counter is 0. -/
def TorrentData.countOut (td : TorrentData P) (removed : Option P) : Option (TorrentData P) :=
  match removed.map status with
  | some .leeching => (decrementCounter td.numLeechers).map fun n => { td with numLeechers := n }
  | some .seeding => (decrementCounter td.numSeeders).map fun n => { td with numSeeders := n }
  | _ => some td

/-- The peer update that `handle_announce_request_inner` (UDP) and `handle_announce_requests`
(WebSocket) share line for line, on the torrent that `entry(info_hash).or_default()` gave. -/
def TorrentData.announcePeer (td : TorrentData P) (peerId : PeerId) (peer : P) :
    Option (TorrentData P) :=
  let r := td.putPeer status peerId peer
  r.1.countOut status r.2

/-- The peer map an announce leaves: the peer bound to its id, or the id removed when the
peer stopped. -/
def peersAfterAnnounce (peers : IndexMap PeerId P) (peerId : PeerId) (peer : P) :
    IndexMap PeerId P :=
  if status peer = .stopped then (peers.remove peerId).1 else (peers.insert peerId peer).1

variable {status}

@[simp] theorem TorrentData.countOut_none (td : TorrentData P) : td.countOut status none = some td :=
  rfl

theorem TorrentData.putPeer_eq (td : TorrentData P) (peerId : PeerId) (peer : P) :
    td.putPeer status peerId peer =
      (⟨peersAfterAnnounce status td.peers peerId peer,
        td.numSeeders + if status peer = .seeding then 1 else 0,
        td.numLeechers + if status peer = .leeching then 1 else 0⟩, td.peers.get peerId) := by
  unfold TorrentData.putPeer peersAfterAnnounce
  split <;> simp_all

theorem TorrentData.countOut_of_pos (td : TorrentData P) (removed : Option P)
    (hs : removed.map status = some .seeding → 0 < td.numSeeders)
    (hl : removed.map status = some .leeching → 0 < td.numLeechers) :
    td.countOut status removed = some ⟨td.peers,
      td.numSeeders - if removed.map status = some .seeding then 1 else 0,
      td.numLeechers - if removed.map status = some .leeching then 1 else 0⟩ := by
  unfold TorrentData.countOut
  cases hm : removed.map status with
  | none => rfl
  | some st =>
    cases st
    · simp [decrementCounter_of_pos (hs hm)]
    · simp [decrementCounter_of_pos (hl hm)]
    · rfl

theorem TorrentData.peers_countOut {td td' : TorrentData P} {removed : Option P}
    (h : td.countOut status removed = some td') : td'.peers = td.peers := by
  unfold TorrentData.countOut at h
  split at h
  · obtain ⟨n, -, rfl⟩ := Option.map_eq_some'.mp h
    rfl
  · obtain ⟨n, -, rfl⟩ := Option.map_eq_some'.mp h
    rfl
  · cases h
    rfl

theorem TorrentData.peers_announcePeer {td td' : TorrentData P} {peerId : PeerId} {peer : P}
    (h : td.announcePeer status peerId peer = some td') :
    td'.peers = peersAfterAnnounce status td.peers peerId peer := by
  rw [TorrentData.peers_countOut h, TorrentData.putPeer_eq]

variable (status) in
theorem countStatus_peersAfterAnnounce (peers : IndexMap PeerId P) (peerId : PeerId) (peer : P)
    {st : PeerStatus} (hst : st ≠ .stopped) :
    countStatus status st (peersAfterAnnounce status peers peerId peer) +
        (if (peers.get peerId).map status = some st then 1 else 0) =
      countStatus status st peers + if status peer = st then 1 else 0 := by
  unfold peersAfterAnnounce
  by_cases hStop : status peer = .stopped
  · have hNe : status peer ≠ st := fun h => hst (h.symm.trans hStop)
    rw [if_pos hStop, if_neg hNe, Nat.add_zero]
    cases hGet : peers.get peerId with
    | none => simp [IndexMap.remove_of_get_none hGet]
    | some old => simpa using countStatus_remove_of_get_some status hGet st
  · rw [if_neg hStop]
    cases hGet : peers.get peerId with
    | none => simpa using countStatus_insert_of_get_none status peer hGet st
    | some old => simpa using countStatus_insert_of_get_some status peer hGet st

theorem TorrentData.announcePeer_of_consistent {td : TorrentData P} (h : td.Consistent status)
    (peerId : PeerId) (peer : P) :
    td.announcePeer status peerId peer =
      some (TorrentData.ofPeers status (peersAfterAnnounce status td.peers peerId peer)) := by
  have hs := countStatus_peersAfterAnnounce status td.peers peerId peer
    (by decide : PeerStatus.seeding ≠ .stopped)
  have hl := countStatus_peersAfterAnnounce status td.peers peerId peer
    (by decide : PeerStatus.leeching ≠ .stopped)
  rw [TorrentData.announcePeer, TorrentData.putPeer_eq, TorrentData.countOut_of_pos]
  · simp only [TorrentData.ofPeers, h.numSeeders_eq, h.numLeechers_eq, Option.some.injEq,
      TorrentData.mk.injEq, true_and]
    omega
  · dsimp only
    intro hS
    rw [if_pos hS] at hs
    rw [h.numSeeders_eq]
    omega
  · dsimp only
    intro hL
    rw [if_pos hL] at hl
    rw [h.numLeechers_eq]
    omega

theorem get_peersAfterAnnounce (peers : IndexMap PeerId P) (peerId : PeerId) (peer : P)
    (k : PeerId) : (peersAfterAnnounce status peers peerId peer).get k =
      if k = peerId then (if status peer = .stopped then none else some peer) else peers.get k := by
  unfold peersAfterAnnounce
  split_ifs <;> simp_all [IndexMap.get_remove, IndexMap.get_insert]

theorem mem_values_peersAfterAnnounce {peers : IndexMap PeerId P} {peerId : PeerId} {peer x : P}
    (h : x ∈ (peersAfterAnnounce status peers peerId peer).values) :
    (x = peer ∧ status peer ≠ .stopped) ∨ x ∈ peers.values := by
  unfold peersAfterAnnounce at h
  split_ifs at h with hStopped
  · exact .inr (IndexMap.mem_values_remove h)
  · rcases IndexMap.mem_values_insert h with rfl | h
    · exact .inl ⟨rfl, hStopped⟩
    · exact .inr h

theorem TorrentData.announcePeer_consistent {td : TorrentData P} (h : td.Consistent status)
    (peerId : PeerId) (peer : P) :
    ∃ td', td.announcePeer status peerId peer = some td' ∧ td'.Consistent status := by
  refine ⟨_, TorrentData.announcePeer_of_consistent h peerId peer,
    TorrentData.ofPeers_consistent fun p hp => ?_⟩
  rcases mem_values_peersAfterAnnounce hp with ⟨rfl, hp⟩ | hp
  · exact hp
  · exact h.not_stopped p hp

end Announce

end AquaticTracker
