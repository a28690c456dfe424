import AquaticTracker.Udp.Handlers
import Mathlib.Data.List.Dedup

/-! # Split scrapes of the glommio socket worker

A scrape split by owning request worker and reassembled by
`PendingScrapeResponses::add_and_get_finished`, keyed by transaction id.
-/

namespace AquaticTracker.Udp.Glommio

set_option autoImplicit false

/-- `PendingScrapeResponse` -/
structure PendingScrapeResponse where
  pendingWorkerResponses : Nat
  validUntil : ValidUntil
  stats : BTreeMap TorrentScrapeStatistics

/-- `PendingScrapeResponses` -/
structure PendingScrapeResponses where
  map : IndexMap TransactionId PendingScrapeResponse

namespace PendingScrapeResponses

/-- `PendingScrapeResponses::default()` -/
def default : PendingScrapeResponses := ⟨IndexMap.empty⟩

/-- `PendingScrapeResponses::prepare` -/
def prepare (p : PendingScrapeResponses) (transactionId : TransactionId)
    (pendingWorkerResponses : Nat) (validUntil : ValidUntil) : PendingScrapeResponses :=
  ⟨(p.map.insert transactionId ⟨pendingWorkerResponses, validUntil, BTreeMap.empty⟩).1⟩

/-- `PendingScrapeResponses::add_and_get_finished`; `none` where `pending_worker_responses -= 1`
underflows or the `unwrap` of the removed entry fails. -/
def addAndGetFinished (p : PendingScrapeResponses) (response : ScrapeResponse)
    (originalIndices : List Nat) : Option (PendingScrapeResponses × Option ScrapeResponse) :=
  match p.map.get response.transactionId with
  | none => some (p, none)
  | some r => do
    let pendingWorkerResponses ← decrementCounter r.pendingWorkerResponses
    let r : PendingScrapeResponse :=
      { r with
        pendingWorkerResponses := pendingWorkerResponses
        stats := r.stats.extend (originalIndices.zip response.torrentStats) }
    let map := (p.map.insert response.transactionId r).1
    if pendingWorkerResponses = 0 then
      match map.remove response.transactionId with
      | (map, some r) => some (⟨map⟩, some ⟨response.transactionId, r.stats.values⟩)
      | (_, none) => none
    else some (⟨map⟩, none)

/-- `PendingScrapeResponses::clean` at the instant `now`: the entries valid after it stay.
`shrink_to_fit` changes no entry. -/
def clean (p : PendingScrapeResponses) (now : Instant) : Option PendingScrapeResponses :=
  (p.map.retain (fun _ _ v => some ((), v, decide (now < v.validUntil))) ()).map fun r => ⟨r.2⟩

/-- `add_and_get_finished` called on each partial response in turn, with what each call
returned. -/
def addEachAndGetFinished :
    PendingScrapeResponses → List (ScrapeResponse × List Nat) →
      Option (PendingScrapeResponses × List (Option ScrapeResponse))
  | p, [] => some (p, [])
  | p, (response, originalIndices) :: rest => do
    let r ← p.addAndGetFinished response originalIndices
    let s ← r.1.addEachAndGetFinished rest
    some (s.1, r.2 :: s.2)

end PendingScrapeResponses

/-- `ConnectedRequest` as the glommio socket worker sends it: a scrape travels as a sub-request
with the indices its info hashes had in the client's request. -/
inductive ConnectedRequest where
  | announce (request : AnnounceRequest)
  | scrape (request : ScrapeRequest) (originalIndices : List Nat)

/-- `ConnectedResponse` as the glommio socket worker receives it: an announce response as it
is passed on, or a partial scrape response with the indices of its sub-request. -/
inductive ConnectedResponse where
  | announce (response : Response)
  | scrape (response : ScrapeResponse) (originalIndices : List Nat)

/-- `calculate_request_consumer_index`: the info hash's first byte modulo `request_workers`;
`none` where the remainder by zero panics. -/
def calculateRequestConsumerIndex (config : Config) (infoHash : InfoHash) : Option Nat :=
  if config.requestWorkers = 0 then none
  else some ((infoHash.get 0).toNat % config.requestWorkers)

/-- One turn of the loop of `read_requests` that builds `consumer_requests`: the info hash at
index `e.1` goes to `entry(consumer_index).or_insert_with` a sub-request with the client's ids
and no info hashes, and is pushed there with its index. -/
def pushInfoHash (config : Config) (request : ScrapeRequest)
    (consumerRequests : IndexMap Nat (ScrapeRequest × List Nat)) (e : Nat × InfoHash) :
    Option (IndexMap Nat (ScrapeRequest × List Nat)) :=
  (calculateRequestConsumerIndex config e.2).map fun consumerIndex =>
    let entry := (consumerRequests.get consumerIndex).getD
      (⟨request.connectionId, request.transactionId, []⟩, [])
    (consumerRequests.insert consumerIndex
      ({ entry.1 with infoHashes := entry.1.infoHashes ++ [e.2] }, entry.2 ++ [e.1])).1

/-- The loop of `read_requests` that builds `consumer_requests`. -/
def splitScrapeRequest (config : Config) (request : ScrapeRequest) :
    Option (IndexMap Nat (ScrapeRequest × List Nat)) :=
  request.infoHashes.enum.foldlM (pushInfoHash config request) IndexMap.empty

/-- The `Scrape` arm of `read_requests` for a request from `src`, given whether `connections`
holds its connection id: the pending entry prepared, and the sub-requests sent with `send_to`
in the order of `consumer_requests`. -/
def readScrapeRequest (config : Config) (pending : PendingScrapeResponses)
    (pendingScrapeValidUntil : ValidUntil) (connected : Bool) (request : ScrapeRequest)
    (src : SocketAddr) : Option (PendingScrapeResponses × List (Nat × ConnectedRequest × SocketAddr)) :=
  if connected then
    (splitScrapeRequest config request).map fun consumerRequests =>
      (pending.prepare request.transactionId consumerRequests.len pendingScrapeValidUntil,
        consumerRequests.entries.map fun e => (e.1, .scrape e.2.1 e.2.2, src))
  else some (pending, [])

/-- One turn of `handle_shared_responses`: what it passes to `local_sender`, if anything. -/
def handleSharedResponse (pending : PendingScrapeResponses) (response : ConnectedResponse)
    (addr : SocketAddr) : Option (PendingScrapeResponses × Option (Response × SocketAddr)) :=
  match response with
  | .announce response => some (pending, some (response, addr))
  | .scrape response originalIndices =>
    (pending.addAndGetFinished response originalIndices).map fun r =>
      (r.1, r.2.map fun response => (.scrape response, addr))

/-! ## The split -/

section Split

variable {config : Config} {request : ScrapeRequest}

theorem calculateRequestConsumerIndex_of_pos (hWorkers : 0 < config.requestWorkers)
    (infoHash : InfoHash) : calculateRequestConsumerIndex config infoHash =
      some ((infoHash.get 0).toNat % config.requestWorkers) :=
  if_neg (Nat.pos_iff_ne_zero.mp hWorkers)

/-- A sub-request for consumer `j`: the client's ids, and at each place the info hash that the
client's request holds at the index recorded there, one owned by `j`. -/
structure SubRequestOf (config : Config) (request : ScrapeRequest) (j : Nat)
    (sub : ScrapeRequest) (indices : List Nat) : Prop where
  connectionId_eq : sub.connectionId = request.connectionId
  transactionId_eq : sub.transactionId = request.transactionId
  length_eq : indices.length = sub.infoHashes.length
  aligned : ∀ p i : Nat, indices[p]? = some i → ∃ h, request.infoHashes[i]? = some h ∧
    sub.infoHashes[p]? = some h ∧ calculateRequestConsumerIndex config h = some j

theorem SubRequestOf.fresh (j : Nat) :
    SubRequestOf config request j ⟨request.connectionId, request.transactionId, []⟩ [] :=
  ⟨rfl, rfl, rfl, by simp⟩

theorem SubRequestOf.push {j : Nat} {sub : ScrapeRequest} {indices : List Nat}
    (hSub : SubRequestOf config request j sub indices) {k : Nat} {h : InfoHash}
    (hk : request.infoHashes[k]? = some h) (hj : calculateRequestConsumerIndex config h = some j) :
    SubRequestOf config request j { sub with infoHashes := sub.infoHashes ++ [h] }
      (indices ++ [k]) where
  connectionId_eq := hSub.connectionId_eq
  transactionId_eq := hSub.transactionId_eq
  length_eq := by simp [hSub.length_eq]
  aligned p i hp := by
    rcases Nat.lt_or_ge p indices.length with hLt | hGe
    · rw [List.getElem?_append_left hLt] at hp
      obtain ⟨h', h₁, h₂, h₃⟩ := hSub.aligned p i hp
      exact ⟨h', h₁, by rwa [List.getElem?_append_left (hSub.length_eq ▸ hLt)], h₃⟩
    · rw [List.getElem?_append_right hGe, List.getElem?_eq_some_iff] at hp
      obtain ⟨hp₁, hi⟩ := hp
      simp only [List.length_singleton, List.getElem_singleton] at hp₁ hi
      subst hi
      have hp : p = sub.infoHashes.length := by rw [← hSub.length_eq]; omega
      exact ⟨h, hk, by simp [hp], hj⟩

/-- What the loop building `consumer_requests` keeps true once it has pushed the info hashes
before index `k`: each entry is a sub-request for its key with at least one index, and the
indices recorded are `0, …, k - 1`, each once. -/
structure SplitInv (config : Config) (request : ScrapeRequest) (k : Nat)
    (m : IndexMap Nat (ScrapeRequest × List Nat)) : Prop where
  subRequest : ∀ j sub indices, m.get j = some (sub, indices) →
    SubRequestOf config request j sub indices ∧ indices ≠ []
  indices_perm : (m.entries.flatMap fun e => e.2.2).Perm (List.range k)

theorem splitInv_empty : SplitInv config request 0 IndexMap.empty :=
  ⟨by simp, by simp [IndexMap.empty]⟩

theorem flatMap_pushInfoHash_perm {m m' : IndexMap Nat (ScrapeRequest × List Nat)} {i : Nat}
    {infoHash : InfoHash} (hPush : pushInfoHash config request m (i, infoHash) = some m') :
    (m'.entries.flatMap fun e => e.2.2).Perm ((m.entries.flatMap fun e => e.2.2) ++ [i]) := by
  obtain ⟨j, -, rfl⟩ := Option.map_eq_some'.mp hPush
  cases hGet : m.get j with
  | none => simp [IndexMap.insert_entries_of_get_none _ hGet, hGet]
  | some old =>
    have hPerm := (IndexMap.insert_entries_perm_of_get_some
      ({ old.1 with infoHashes := old.1.infoHashes ++ [infoHash] }, old.2 ++ [i]) hGet).flatMap_right
        fun e => e.2.2
    simp only [hGet, Option.getD_some, List.flatMap_cons, List.append_assoc] at hPerm ⊢
    exact ((List.perm_append_left_iff _).mp hPerm).trans List.perm_append_comm

theorem SplitInv.push {k : Nat} {m m' : IndexMap Nat (ScrapeRequest × List Nat)}
    (hInv : SplitInv config request k m) {h : InfoHash} (hk : request.infoHashes[k]? = some h)
    (hPush : pushInfoHash config request m (k, h) = some m') : SplitInv config request (k + 1) m' := by
  refine ⟨fun j' sub indices hGet => ?_, ?_⟩
  · obtain ⟨j, hj, rfl⟩ := Option.map_eq_some'.mp hPush
    rw [IndexMap.get_insert] at hGet
    split_ifs at hGet with hj'
    · obtain ⟨rfl, rfl⟩ := Prod.mk.inj (Option.some.inj hGet.symm)
      subst j'
      have hSub : SubRequestOf config request j ((m.get j).getD
          (⟨request.connectionId, request.transactionId, []⟩, [])).1
          ((m.get j).getD (⟨request.connectionId, request.transactionId, []⟩, [])).2 := by
        cases hOld : m.get j with
        | none => exact SubRequestOf.fresh j
        | some old => exact (hInv.subRequest j old.1 old.2 hOld).1
      exact ⟨hSub.push hk hj, by simp⟩
    · exact hInv.subRequest j' sub indices hGet
  · rw [List.range_succ]
    exact (flatMap_pushInfoHash_perm hPush).trans (hInv.indices_perm.append_right [k])

theorem SplitInv.foldlM :
    ∀ (xs : List InfoHash) (k : Nat) (m m' : IndexMap Nat (ScrapeRequest × List Nat)),
      (∀ p, xs[p]? = request.infoHashes[k + p]?) → SplitInv config request k m →
      (xs.enumFrom k).foldlM (pushInfoHash config request) m = some m' →
      SplitInv config request (k + xs.length) m'
  | [], k, m, m', _, hInv, h => by
    cases h
    exact hInv
  | x :: xs, k, m, m', hXs, hInv, h => by
    obtain ⟨m₁, hPush, hRest⟩ := Option.bind_eq_some.mp h
    have hInv' := SplitInv.foldlM xs (k + 1) m₁ m'
      (fun p => by rw [show k + 1 + p = k + (p + 1) by omega]; simpa using hXs (p + 1))
      (hInv.push (by simpa using (hXs 0).symm) hPush) hRest
    have hLen : k + (x :: xs).length = k + 1 + xs.length := by simp only [List.length_cons]; omega
    exact hLen ▸ hInv'

theorem splitInv_of_splitScrapeRequest {m : IndexMap Nat (ScrapeRequest × List Nat)}
    (h : splitScrapeRequest config request = some m) :
    SplitInv config request request.infoHashes.length m := by
  simpa using SplitInv.foldlM request.infoHashes 0 IndexMap.empty m (by simp) splitInv_empty h

theorem splitScrapeRequest_isSome (hWorkers : 0 < config.requestWorkers) (request : ScrapeRequest) :
    ∃ m, splitScrapeRequest config request = some m := by
  suffices ∀ (l : List (Nat × InfoHash)) m, ∃ m', l.foldlM (pushInfoHash config request) m = some m'
    from this _ _
  intro l
  induction l with
  | nil => exact fun m => ⟨m, rfl⟩
  | cons e l ih =>
    intro m
    obtain ⟨m', hm'⟩ := ih (pushInfoHash config request m e |>.getD m)
    refine ⟨m', ?_⟩
    simpa [pushInfoHash, calculateRequestConsumerIndex_of_pos hWorkers] using hm'

theorem SplitInv.exists_of_lt {k : Nat} {m : IndexMap Nat (ScrapeRequest × List Nat)}
    (hInv : SplitInv config request k m) {i : Nat} (hi : i < k) :
    ∃ j sub indices, ∃ p : Nat, m.get j = some (sub, indices) ∧ indices[p]? = some i := by
  obtain ⟨e, he, hi⟩ := List.mem_flatMap.mp (hInv.indices_perm.mem_iff.mpr (List.mem_range.mpr hi))
  obtain ⟨p, hp⟩ := List.mem_iff_getElem?.mp hi
  exact ⟨e.1, e.2.1, e.2.2, p, (IndexMap.get_eq_some_iff m).mpr he, hp⟩

theorem SplitInv.transactionId_of_mem {k : Nat} {m : IndexMap Nat (ScrapeRequest × List Nat)}
    (hInv : SplitInv config request k m) {e : Nat × ScrapeRequest × List Nat}
    (he : e ∈ m.entries) : e.2.1.transactionId = request.transactionId :=
  (hInv.subRequest _ _ _ ((IndexMap.get_eq_some_iff m).mpr he)).1.transactionId_eq

theorem SplitInv.keys_perm {m : IndexMap Nat (ScrapeRequest × List Nat)}
    (hInv : SplitInv config request request.infoHashes.length m) :
    (m.entries.map Prod.fst).Perm
      (request.infoHashes.filterMap (calculateRequestConsumerIndex config)).dedup := by
  refine (List.perm_ext_iff_of_nodup m.nodup_keys (List.nodup_dedup _)).mpr fun j => ?_
  rw [List.mem_dedup, List.mem_filterMap]
  constructor
  · intro hj
    obtain ⟨⟨sub, indices⟩, hGet⟩ := Option.ne_none_iff_exists'.mp
      (mt IndexMap.lookup_eq_none_iff_not_mem.mp (not_not.mpr hj))
    obtain ⟨hSub, hNe⟩ := hInv.subRequest j sub indices hGet
    obtain ⟨p, hp⟩ := List.mem_iff_getElem?.mp (List.head_mem hNe)
    obtain ⟨h, h₁, -, h₃⟩ := hSub.aligned p _ hp
    exact ⟨h, List.mem_iff_getElem?.mpr ⟨_, h₁⟩, h₃⟩
  · rintro ⟨h, hh, hj⟩
    obtain ⟨i, hi⟩ := List.mem_iff_getElem?.mp hh
    obtain ⟨j', sub, indices, p, hGet, hp⟩ :=
      hInv.exists_of_lt (List.getElem?_eq_some_iff.mp hi).1
    obtain ⟨h', h₁, -, h₃⟩ := (hInv.subRequest j' sub indices hGet).1.aligned p i hp
    obtain rfl : h' = h := Option.some.inj (h₁.symm.trans hi)
    obtain rfl : j' = j := Option.some.inj (h₃.symm.trans hj)
    exact List.mem_map_of_mem _ ((IndexMap.get_eq_some_iff m).mp hGet)

end Split

/-! ## Assembling the partial responses -/

/-- A request worker's reply to a sub-request: the consumer index, the sub-request and the
original indices it came with, and the statistics the worker reported for it. -/
structure SubReply where
  consumerIndex : Nat
  request : ScrapeRequest
  originalIndices : List Nat
  stats : List TorrentScrapeStatistics

namespace SubReply

/-- The entry of `consumer_requests` the reply answers. -/
def sent (r : SubReply) : Nat × ScrapeRequest × List Nat :=
  (r.consumerIndex, r.request, r.originalIndices)

/-- The sub-request the reply answers, as `read_requests` sent it for a client at `src`. -/
def sentFrom (src : SocketAddr) (r : SubReply) : Nat × ConnectedRequest × SocketAddr :=
  (r.consumerIndex, .scrape r.request r.originalIndices, src)

/-- The partial response and original indices the reply brings to `add_and_get_finished`. -/
def toResponse (r : SubReply) : ScrapeResponse × List Nat :=
  (⟨r.request.transactionId, r.stats⟩, r.originalIndices)

/-- The statistics the reply files under original indices. -/
def indexed (r : SubReply) : List (Nat × TorrentScrapeStatistics) := r.originalIndices.zip r.stats

end SubReply

/-- `stats` answers `request` from `replies`: one entry per info hash, the one at `i` being what
the consumer owning `h_i` reported at the place where its sub-request holds `h_i`. -/
def AnswersScrape (config : Config) (request : ScrapeRequest) (replies : List SubReply)
    (stats : List TorrentScrapeStatistics) : Prop :=
  stats.length = request.infoHashes.length ∧
  ∀ (i : Nat) (h : InfoHash), request.infoHashes[i]? = some h → ∃ r ∈ replies,
    calculateRequestConsumerIndex config h = some r.consumerIndex ∧
    ∃ p : Nat, r.originalIndices[p]? = some i ∧ r.request.infoHashes[p]? = some h ∧
      stats[i]? = r.stats[p]?

theorem AnswersScrape.mono {config : Config} {request : ScrapeRequest}
    {replies replies' : List SubReply} {stats : List TorrentScrapeStatistics}
    (h : AnswersScrape config request replies stats) (hSub : replies ⊆ replies') :
    AnswersScrape config request replies' stats :=
  ⟨h.1, fun i hash hi => let ⟨r, hr, hRest⟩ := h.2 i hash hi; ⟨r, hSub hr, hRest⟩⟩

section Assembly

variable {config : Config} {request : ScrapeRequest} {m : IndexMap Nat (ScrapeRequest × List Nat)}
  {replies : List SubReply}

theorem indexed_keys_perm (hInv : SplitInv config request request.infoHashes.length m)
    (hPerm : (replies.map SubReply.sent).Perm m.entries)
    (hLen : ∀ r ∈ replies, r.stats.length = r.request.infoHashes.length) :
    ((replies.flatMap SubReply.indexed).map Prod.fst).Perm
      (List.range request.infoHashes.length) := by
  have hFst : (replies.flatMap SubReply.indexed).map Prod.fst =
      replies.flatMap SubReply.originalIndices := by
    rw [List.map_flatMap]
    refine List.flatMap_congr fun r hr => List.map_fst_zip _ _ ?_
    have hGet := (IndexMap.get_eq_some_iff m).mpr (hPerm.mem_iff.mp (List.mem_map_of_mem _ hr))
    rw [hLen r hr, ← (hInv.subRequest _ _ _ hGet).1.length_eq]
  have hIndices := hPerm.flatMap_right fun e => e.2.2
  rw [List.flatMap_map] at hIndices
  exact hFst ▸ hIndices.trans hInv.indices_perm

theorem answersScrape_of_perm (hInv : SplitInv config request request.infoHashes.length m)
    (hPerm : (replies.map SubReply.sent).Perm m.entries)
    (hLen : ∀ r ∈ replies, r.stats.length = r.request.infoHashes.length) :
    AnswersScrape config request replies
      (BTreeMap.empty.extend (replies.flatMap SubReply.indexed)).values := by
  have hKeys := indexed_keys_perm hInv hPerm hLen
  obtain ⟨hLength, hValues⟩ := BTreeMap.values_extend_empty hKeys
  refine ⟨hLength, fun i h hi => ?_⟩
  obtain ⟨j, sub, indices, p, hGet, hp⟩ := hInv.exists_of_lt (List.getElem?_eq_some_iff.mp hi).1
  obtain ⟨hSub, -⟩ := hInv.subRequest j sub indices hGet
  obtain ⟨r, hr, hrSent⟩ := List.mem_map.mp (hPerm.mem_iff.mpr ((IndexMap.get_eq_some_iff m).mp hGet))
  obtain ⟨h', h₁, h₂, h₃⟩ := hSub.aligned p i hp
  obtain rfl : h' = h := Option.some.inj (h₁.symm.trans hi)
  simp only [SubReply.sent, Prod.mk.injEq] at hrSent
  obtain ⟨rfl, rfl, rfl⟩ := hrSent
  have hp' : p < r.stats.length := by
    rw [hLen r hr, ← hSub.length_eq]
    exact (List.getElem?_eq_some_iff.mp hp).1
  have hMem : (i, r.stats[p]) ∈ replies.flatMap SubReply.indexed :=
    List.mem_flatMap.mpr ⟨r, hr, List.mem_iff_getElem?.mpr
      ⟨p, List.getElem?_zip_eq_some.mpr ⟨hp, List.getElem?_eq_getElem hp'⟩⟩⟩
  refine ⟨r, hr, h₃, p, hp, h₂, ?_⟩
  rw [hValues, List.getElem?_eq_getElem hp']
  exact (IndexMap.lookup_eq_some_iff_mem (hKeys.nodup_iff.mpr (List.nodup_range _))).mpr hMem

end Assembly

namespace PendingScrapeResponses

variable {p : PendingScrapeResponses} {response : ScrapeResponse} {r : PendingScrapeResponse}

theorem addAndGetFinished_of_get_none (h : p.map.get response.transactionId = none)
    (originalIndices : List Nat) : p.addAndGetFinished response originalIndices = some (p, none) := by
  simp [addAndGetFinished, h]

theorem addAndGetFinished_of_count_zero (h : p.map.get response.transactionId = some r)
    (hZero : r.pendingWorkerResponses = 0) (originalIndices : List Nat) :
    p.addAndGetFinished response originalIndices = none := by
  simp [addAndGetFinished, h, hZero, decrementCounter]

/-- The pending entry once a partial response has been filed, with `c` responses left. -/
def filed (r : PendingScrapeResponse) (c : Nat) (response : ScrapeResponse)
    (originalIndices : List Nat) : PendingScrapeResponse :=
  { r with
    pendingWorkerResponses := c
    stats := r.stats.extend (originalIndices.zip response.torrentStats) }

theorem addAndGetFinished_of_count_succ (h : p.map.get response.transactionId = some r) {c : Nat}
    (hCount : r.pendingWorkerResponses = c + 1) (originalIndices : List Nat) :
    p.addAndGetFinished response originalIndices =
      some (if c = 0 then
          (⟨((p.map.insert response.transactionId (filed r c response originalIndices)).1.remove
            response.transactionId).1⟩,
            some ⟨response.transactionId, (filed r c response originalIndices).stats.values⟩)
        else (⟨(p.map.insert response.transactionId (filed r c response originalIndices)).1⟩, none)) := by
  have hRemove : ((p.map.insert response.transactionId (filed r c response originalIndices)).1.remove
      response.transactionId).2 = some (filed r c response originalIndices) := by
    rw [IndexMap.remove_snd, IndexMap.get_insert, if_pos rfl]
  simp only [addAndGetFinished, h, hCount, decrementCounter_succ, Option.bind_eq_bind,
    Option.some_bind, filed] at hRemove ⊢
  split_ifs
  · generalize @IndexMap.remove TransactionId PendingScrapeResponse _ _ _ = removed at hRemove ⊢
    obtain ⟨map, _⟩ := removed
    cases hRemove
    rfl
  · rfl

theorem get_of_clean {p' : PendingScrapeResponses} {now : Instant} (h : p.clean now = some p')
    {T : TransactionId} {e : PendingScrapeResponse} (hGet : p'.map.get T = some e) :
    p.map.get T = some e := by
  obtain ⟨⟨_, m'⟩, hRetain, rfl⟩ := Option.map_eq_some'.mp h
  exact IndexMap.get_of_retain_of_keeps (by simp) hRetain hGet

theorem addEachAndGetFinished_of_get {T : TransactionId} :
    ∀ (partials : List (ScrapeResponse × List Nat)) (p : PendingScrapeResponses)
      (r : PendingScrapeResponse), p.map.get T = some r →
      r.pendingWorkerResponses = partials.length → partials ≠ [] →
      (∀ q ∈ partials, q.1.transactionId = T) →
      ∃ p', p.addEachAndGetFinished partials = some (p', List.replicate (partials.length - 1) none ++
          [some ⟨T, (r.stats.extend (partials.flatMap fun q => q.2.zip q.1.torrentStats)).values⟩]) ∧
        p'.map.get T = none
  | [], _, _, _, _, hNe, _ => absurd rfl hNe
  | (response, originalIndices) :: rest, p, r, hGet, hCount, _, hT => by
    obtain rfl : response.transactionId = T := hT _ (List.mem_cons_self _ _)
    have hStep := addAndGetFinished_of_count_succ hGet hCount originalIndices
    rcases rest with _ | ⟨q, rest⟩
    · rw [if_pos List.length_nil] at hStep
      simp [addEachAndGetFinished, hStep, filed, IndexMap.get_remove]
    · rw [if_neg (List.length_cons _ _ ▸ Nat.succ_ne_zero _)] at hStep
      obtain ⟨p', hRest, hGet'⟩ := addEachAndGetFinished_of_get (q :: rest)
        ⟨(p.map.insert response.transactionId (filed r (q :: rest).length response originalIndices)).1⟩
        (filed r (q :: rest).length response originalIndices) (by simp [IndexMap.get_insert]) rfl
        (List.cons_ne_nil _ _) fun q hq => hT q (List.mem_cons_of_mem _ hq)
      refine ⟨p', ?_, hGet'⟩
      rw [addEachAndGetFinished, hStep]
      simp only [Option.bind_eq_bind, Option.some_bind, hRest]
      simp [filed, BTreeMap.extend_append, List.replicate_succ]

end PendingScrapeResponses

theorem readScrapeRequest_connected {config : Config} {pending pending' : PendingScrapeResponses}
    {pendingScrapeValidUntil : ValidUntil} {request : ScrapeRequest} {src : SocketAddr}
    {sends : List (Nat × ConnectedRequest × SocketAddr)}
    (h : readScrapeRequest config pending pendingScrapeValidUntil true request src =
      some (pending', sends)) :
    ∃ m, splitScrapeRequest config request = some m ∧
      pending' = pending.prepare request.transactionId m.len pendingScrapeValidUntil ∧
      sends = m.entries.map fun e => (e.1, .scrape e.2.1 e.2.2, src) := by
  obtain ⟨m, hSplit, hEq⟩ := Option.map_eq_some'.mp h
  obtain ⟨rfl, rfl⟩ := Prod.mk.inj hEq
  exact ⟨m, hSplit, rfl, rfl⟩

theorem sent_perm_entries {m : IndexMap Nat (ScrapeRequest × List Nat)} {src : SocketAddr}
    {replies : List SubReply}
    (hPerm : (replies.map (SubReply.sentFrom src)).Perm
      (m.entries.map fun e => (e.1, ConnectedRequest.scrape e.2.1 e.2.2, src))) :
    (replies.map SubReply.sent).Perm m.entries := by
  have h := hPerm.map fun x => match x.2.1 with
    | .scrape sub indices => (x.1, sub, indices)
    | .announce _ => (x.1, ⟨0, 0, []⟩, [])
  simpa [Function.comp_def, SubReply.sentFrom, SubReply.sent] using h

/-- A scrape split over the request workers is completed, whatever order their replies come in,
by the last reply, with one entry per info hash in the client's order. -/
theorem scrape_split_reassembles_in_any_order (config : Config)
    (hWorkers : 0 < config.requestWorkers) (pending : PendingScrapeResponses)
    (pendingScrapeValidUntil : ValidUntil) (request : ScrapeRequest) (src : SocketAddr)
    (hNonempty : request.infoHashes ≠ []) :
    ∃ pending₁ sent,
      readScrapeRequest config pending pendingScrapeValidUntil true request src =
        some (pending₁, sent) ∧
      sent.length = (request.infoHashes.filterMap (calculateRequestConsumerIndex config)).dedup.length ∧
      ∀ replies : List SubReply, (replies.map (SubReply.sentFrom src)).Perm sent →
        (∀ r ∈ replies, r.stats.length = r.request.infoHashes.length) →
        ∃ pending₂ stats, pending₁.addEachAndGetFinished (replies.map SubReply.toResponse) =
            some (pending₂, List.replicate (sent.length - 1) none ++
              [some ⟨request.transactionId, stats⟩]) ∧
          pending₂.map.get request.transactionId = none ∧ AnswersScrape config request replies stats := by
  obtain ⟨m, hSplit⟩ := splitScrapeRequest_isSome hWorkers request
  have hInv := splitInv_of_splitScrapeRequest hSplit
  refine ⟨pending.prepare request.transactionId m.len pendingScrapeValidUntil,
    m.entries.map fun e => (e.1, .scrape e.2.1 e.2.2, src), by simp [readScrapeRequest, hSplit],
    by simpa using hInv.keys_perm.length_eq, fun replies hPerm hLen => ?_⟩
  have hSent := sent_perm_entries hPerm
  have hCount : m.len = (replies.map SubReply.toResponse).length := by
    simpa [IndexMap.len] using hSent.length_eq.symm
  have hNe : replies.map SubReply.toResponse ≠ [] := by
    obtain ⟨j, sub, indices, p, hGet, -⟩ := hInv.exists_of_lt (List.length_pos.mpr hNonempty)
    obtain ⟨r, hr, -⟩ := List.mem_map.mp (hSent.mem_iff.mpr ((IndexMap.get_eq_some_iff m).mp hGet))
    exact List.ne_nil_of_mem (List.mem_map_of_mem _ hr)
  have hT : ∀ q ∈ replies.map SubReply.toResponse, q.1.transactionId = request.transactionId := by
    intro q hq
    obtain ⟨r, hr, rfl⟩ := List.mem_map.mp hq
    exact hInv.transactionId_of_mem (hSent.mem_iff.mp (List.mem_map_of_mem SubReply.sent hr))
  obtain ⟨pending₂, hRun, hGet⟩ := PendingScrapeResponses.addEachAndGetFinished_of_get _
    (pending.prepare request.transactionId m.len pendingScrapeValidUntil)
    ⟨m.len, pendingScrapeValidUntil, BTreeMap.empty⟩
    (by simp [PendingScrapeResponses.prepare, IndexMap.get_insert]) hCount hNe hT
  refine ⟨pending₂, _, ?_, hGet, answersScrape_of_perm hInv hSent hLen⟩
  have hLenEq : replies.length = m.entries.length := by simpa using hSent.length_eq
  rw [hRun]
  simp only [List.length_map, hLenEq, List.flatMap_map]
  rfl

theorem scrape_split_reassembles_three_hashes :
    ∃ pending₁ sent, readScrapeRequest ⟨2, ⟨255, 255, 900⟩⟩ PendingScrapeResponses.default 30 true
        ⟨0, 0x1234, [Bytes.replicate 20 1, Bytes.replicate 20 2, Bytes.replicate 20 3]⟩
        ⟨.v4 ⟨Bytes.replicate 4 10⟩, 6881⟩ = some (pending₁, sent) ∧ sent.length = 2 := by
  obtain ⟨pending₁, sent, hRead, hLen, -⟩ := scrape_split_reassembles_in_any_order
    ⟨2, ⟨255, 255, 900⟩⟩ (by decide) PendingScrapeResponses.default 30
    ⟨0, 0x1234, [Bytes.replicate 20 1, Bytes.replicate 20 2, Bytes.replicate 20 3]⟩
    ⟨.v4 ⟨Bytes.replicate 4 10⟩, 6881⟩ (by simp)
  exact ⟨pending₁, sent, hRead, hLen.trans (by decide)⟩

end AquaticTracker.Udp.Glommio
