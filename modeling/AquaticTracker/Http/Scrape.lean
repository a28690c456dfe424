import AquaticTracker.Collections.BTreeMap
import Mathlib.Data.Finmap

/-! # The request path of an HTTP socket worker

`Connection::handle_request` of `aquatic_http`: an announce goes to the swarm worker owning its
info hash; a scrape is split by owner and the replies are merged in any order of arrival.
-/

namespace AquaticTracker.Http

set_option autoImplicit false

/-- `ScrapeRequest` of `aquatic_http_protocol`. -/
structure ScrapeRequest where
  infoHashes : List InfoHash
deriving DecidableEq, Repr

/-- `ScrapeResponse` of `aquatic_http_protocol`. Its `BTreeMap<InfoHash, ScrapeStatistics>` is
a finite map: no modelled code reads the order of its entries. -/
structure ScrapeResponse (Stats : Type) where
  files : Finmap fun _ : InfoHash => Stats

/-- `Request` of `aquatic_http_protocol`, by what `handle_request` reads of it. -/
inductive Request where
  | announce (infoHash : InfoHash)
  | scrape (request : ScrapeRequest)

/-- `Response` of `aquatic_http_protocol`, over the announce response `A` that a swarm worker
sends back whole. -/
inductive Response (A Stats : Type) where
  | announce (response : A)
  | scrape (response : ScrapeResponse Stats)
  | failure (failureReason : String)

/-- `PendingScrapeResponse` -/
structure PendingScrapeResponse (Stats : Type) where
  pendingWorkerResponses : Nat
  stats : Finmap fun _ : InfoHash => Stats

/-- `calculate_request_consumer_index`: the info hash's first byte modulo the number of swarm
workers; `none` where `%` by zero panics. -/
def calculateRequestConsumerIndex (swarmWorkers : Nat) (infoHash : InfoHash) : Option Nat :=
  if swarmWorkers = 0 then none else some ((infoHash.get 0).toNat % swarmWorkers)

theorem calculateRequestConsumerIndex_of_pos {swarmWorkers : Nat} (h : 0 < swarmWorkers)
    (infoHash : InfoHash) :
    calculateRequestConsumerIndex swarmWorkers infoHash =
      some ((infoHash.get 0).toNat % swarmWorkers) :=
  if_neg (Nat.pos_iff_ne_zero.mp h)

/-! ## Splitting a scrape -/

section Split

variable (swarmWorkers : Nat)

/-- The first loop of the scrape arm of `handle_request`, over the info hashes in request
order: `info_hashes_by_worker.entry(index).or_default().push(info_hash)`; `none` where the
index panics. -/
def infoHashesByWorker (byWorker : BTreeMap (List InfoHash)) :
    List InfoHash → Option (BTreeMap (List InfoHash))
  | [] => some byWorker
  | infoHash :: rest => (calculateRequestConsumerIndex swarmWorkers infoHash).bind fun index =>
    infoHashesByWorker (byWorker.insert index ((byWorker.get index).getD [] ++ [infoHash])) rest

/-- The info hashes of a list that swarm worker `index` owns, in their order. -/
def ownedBy (index : Nat) (infoHashes : List InfoHash) : List InfoHash :=
  infoHashes.filter fun infoHash => calculateRequestConsumerIndex swarmWorkers infoHash = some index

theorem mem_ownedBy {index : Nat} {infoHashes : List InfoHash} {infoHash : InfoHash} :
    infoHash ∈ ownedBy swarmWorkers index infoHashes ↔
      infoHash ∈ infoHashes ∧ calculateRequestConsumerIndex swarmWorkers infoHash = some index := by
  simp [ownedBy]

theorem infoHashesByWorker_of_pos (h : 0 < swarmWorkers) :
    ∀ (infoHashes : List InfoHash) (byWorker : BTreeMap (List InfoHash)),
      ∃ byWorker', infoHashesByWorker swarmWorkers byWorker infoHashes = some byWorker' ∧
        ∀ index, byWorker'.get index =
          if (byWorker.get index).isNone ∧ ownedBy swarmWorkers index infoHashes = [] then none
          else some ((byWorker.get index).getD [] ++ ownedBy swarmWorkers index infoHashes)
  | [], byWorker => ⟨byWorker, rfl, fun index => by cases byWorker.get index <;> simp [ownedBy]⟩
  | infoHash :: rest, byWorker => by
    let owner := (infoHash.get 0).toNat % swarmWorkers
    obtain ⟨byWorker', hRun, hGet⟩ := infoHashesByWorker_of_pos h rest
      (byWorker.insert owner ((byWorker.get owner).getD [] ++ [infoHash]))
    refine ⟨byWorker', by
      simp [infoHashesByWorker, calculateRequestConsumerIndex_of_pos h, owner, hRun],
      fun index => ?_⟩
    rw [hGet, BTreeMap.get_insert]
    by_cases hIndex : index = owner
    · subst hIndex
      simp [ownedBy, List.filter_cons, calculateRequestConsumerIndex_of_pos h, owner]
    · simp [hIndex, ownedBy, List.filter_cons, calculateRequestConsumerIndex_of_pos h,
        Ne.symm hIndex, owner]

theorem infoHashesByWorker_empty (h : 0 < swarmWorkers) (infoHashes : List InfoHash) :
    ∃ byWorker, infoHashesByWorker swarmWorkers BTreeMap.empty infoHashes = some byWorker ∧
      (∀ index, index ∈ byWorker.entries.map Prod.fst ↔
        ∃ infoHash ∈ infoHashes, calculateRequestConsumerIndex swarmWorkers infoHash = some index) ∧
      ∀ p ∈ byWorker.entries, p.2 = ownedBy swarmWorkers p.1 infoHashes := by
  obtain ⟨byWorker, hRun, hGet⟩ := infoHashesByWorker_of_pos swarmWorkers h infoHashes .empty
  simp only [BTreeMap.get_empty, Option.isNone_none, true_and, Option.getD_none,
    List.nil_append] at hGet
  refine ⟨byWorker, hRun, fun index => ?_, fun ⟨index, hs⟩ hMem => ?_⟩
  · rw [BTreeMap.mem_keys_iff_get_ne_none, hGet]
    simp [ownedBy, List.filter_eq_nil_iff]
  · have hSome := (BTreeMap.get_eq_some_iff byWorker).mpr hMem
    rw [hGet] at hSome
    split at hSome
    · cases hSome
    · exact (Option.some.inj hSome).symm

end Split

/-! ## Waiting for the replies -/

section Wait

variable {A Stats : Type}

/-- `Connection::wait_for_scrape_responses`, over the items that the stream of replies yields,
in the order it yields them: `none` for a receiver whose sender has closed. Each reply is
merged in with `extend`, whose later entries win. The outer `none` is the panic of the
`usize` decrement. -/
def waitForScrapeResponses :
    List (Option (ScrapeResponse Stats)) → PendingScrapeResponse Stats →
      Option (Except String (Response A Stats))
  | [], _ => some (.error "stream ended before all partial scrape responses received")
  | none :: _, _ =>
    some (.error "wait_for_scrape_response: can't receive response, sender is closed")
  | some response :: rest, pending =>
    (decrementCounter pending.pendingWorkerResponses).bind fun n =>
      if n = 0 then some (.ok (.scrape ⟨response.files ∪ pending.stats⟩))
      else waitForScrapeResponses rest ⟨n, response.files ∪ pending.stats⟩

theorem waitForScrapeResponses_of_replies (rest : List (Option (ScrapeResponse Stats))) :
    ∀ (responses : List (ScrapeResponse Stats)) (stats : Finmap fun _ : InfoHash => Stats),
      responses ≠ [] →
      (waitForScrapeResponses (responses.map some ++ rest) ⟨responses.length, stats⟩ :
          Option (Except String (Response A Stats))) =
        some (.ok (.scrape ⟨responses.foldl (fun acc r => r.files ∪ acc) stats⟩))
  | [response], stats, _ => by simp [waitForScrapeResponses]
  | response :: response' :: responses, stats, _ => by
    simp only [List.map_cons, List.cons_append, waitForScrapeResponses, List.length_cons,
      decrementCounter_succ, Option.bind_some, Nat.add_one_ne_zero, if_false, List.foldl_cons]
    exact waitForScrapeResponses_of_replies rest (response' :: responses) _ (List.cons_ne_nil _ _)

variable (reply : Nat → ScrapeResponse Stats) (owner : InfoHash → Nat)

theorem lookup_foldl_union
    (hOwn : ∀ index infoHash, infoHash ∈ (reply index).files → owner infoHash = index)
    (infoHash : InfoHash) :
    ∀ (indices : List Nat) (stats : Finmap fun _ : InfoHash => Stats),
      ((indices.map reply).foldl (fun acc r => r.files ∪ acc) stats).lookup infoHash =
        if owner infoHash ∈ indices ∧ infoHash ∈ (reply (owner infoHash)).files then
          (reply (owner infoHash)).files.lookup infoHash
        else stats.lookup infoHash
  | [], stats => by simp
  | index :: indices, stats => by
    rw [List.map_cons, List.foldl_cons, lookup_foldl_union hOwn infoHash indices]
    by_cases hMem : infoHash ∈ (reply index).files
    · obtain rfl := hOwn index infoHash hMem
      simp [hMem, Finmap.lookup_union_left hMem]
    · rw [Finmap.lookup_union_right hMem]
      by_cases hIndex : owner infoHash = index
      · subst hIndex
        simp [hMem]
      · simp [hIndex]

end Wait

/-! ## handle_request -/

section HandleRequest

variable {A Stats : Type}

/-- `Connection::handle_request`. The swarm workers and the channels to them are the
environment: `announceReply index` is what worker `index` sends back for an announce (`none`
where its sender has closed), and `scrapeReplies sent` the items that the stream of replies to
the sub-requests `sent`, each with the worker it went to, yields in the order it yields them.
The refresh of the connection's `valid_until` is not modelled. -/
def handleRequest (swarmWorkers : Nat) (allows : InfoHash → Bool)
    (announceReply : Nat → Option A)
    (scrapeReplies : List (Nat × ScrapeRequest) → List (Option (ScrapeResponse Stats))) :
    Request → Option (Except String (Response A Stats))
  | .announce infoHash =>
    if allows infoHash then
      (calculateRequestConsumerIndex swarmWorkers infoHash).map fun index =>
        match announceReply index with
        | some response => .ok (.announce response)
        | none => .error "response sender closed"
    else some (.ok (.failure "Info hash not allowed"))
  | .scrape request => do
    let byWorker ← infoHashesByWorker swarmWorkers BTreeMap.empty request.infoHashes
    let sent := byWorker.entries.map fun (index, infoHashes) => (index, ⟨infoHashes⟩)
    waitForScrapeResponses (scrapeReplies sent) ⟨byWorker.entries.length, ∅⟩

/-- A scrape with at least one info hash, and at least one swarm worker: the sub-requests go
in increasing index order, one to each worker that owns a requested info hash, each with the
info hashes that worker owns. If each worker's reply holds only info hashes of its own
sub-request, then one reply from each, in any order of arrival, completes the scrape with the
same map, whose entry for a requested info hash is what its owner reported. -/
theorem scrape_response_merges_shards_in_any_order (swarmWorkers : Nat)
    (hWorkers : 0 < swarmWorkers) (allows : InfoHash → Bool) (announceReply : Nat → Option A)
    (infoHashes : List InfoHash) (hNonempty : infoHashes ≠ [])
    (reply : Nat → ScrapeResponse Stats)
    (hReply : ∀ index infoHash, infoHash ∈ (reply index).files →
      infoHash ∈ ownedBy swarmWorkers index infoHashes) :
    ∃ (sent : List (Nat × ScrapeRequest)) (files : Finmap fun _ : InfoHash => Stats),
      (sent.map Prod.fst).Sorted (· < ·) ∧
      (∀ index, index ∈ sent.map Prod.fst ↔
        ∃ infoHash ∈ infoHashes, calculateRequestConsumerIndex swarmWorkers infoHash = some index) ∧
      (∀ p ∈ sent, p.2 = ⟨ownedBy swarmWorkers p.1 infoHashes⟩) ∧
      (∀ infoHash index, calculateRequestConsumerIndex swarmWorkers infoHash = some index →
        files.lookup infoHash =
          if infoHash ∈ infoHashes then (reply index).files.lookup infoHash else none) ∧
      ∀ scrapeReplies : List (Nat × ScrapeRequest) → List (Option (ScrapeResponse Stats)),
        (∃ order : List (Nat × ScrapeRequest), order.Perm sent ∧
          scrapeReplies sent = order.map fun p => some (reply p.1)) →
        handleRequest swarmWorkers allows announceReply scrapeReplies (.scrape ⟨infoHashes⟩) =
          some (.ok (.scrape ⟨files⟩)) := by
  obtain ⟨byWorker, hRun, hKeys, hEntries⟩ := infoHashesByWorker_empty swarmWorkers hWorkers infoHashes
  let owner : InfoHash → Nat := fun infoHash => (infoHash.get 0).toNat % swarmWorkers
  have hIndex : ∀ infoHash index, calculateRequestConsumerIndex swarmWorkers infoHash = some index ↔
      owner infoHash = index := by
    simp [calculateRequestConsumerIndex_of_pos hWorkers, owner]
  have hOwn : ∀ index infoHash, infoHash ∈ (reply index).files → owner infoHash = index :=
    fun index infoHash hMem =>
      (hIndex _ _).mp ((mem_ownedBy swarmWorkers).mp (hReply index infoHash hMem)).2
  let sent : List (Nat × ScrapeRequest) :=
    byWorker.entries.map fun (index, infoHashes) => (index, ⟨infoHashes⟩)
  have hSentKeys : sent.map Prod.fst = byWorker.entries.map Prod.fst := by
    simp [sent, Function.comp_def]
  let merge (indices : List Nat) : Finmap fun _ : InfoHash => Stats :=
    (indices.map reply).foldl (fun acc r => r.files ∪ acc) ∅
  have hMerge : ∀ indices infoHash, (merge indices).lookup infoHash =
      if owner infoHash ∈ indices ∧ infoHash ∈ (reply (owner infoHash)).files then
        (reply (owner infoHash)).files.lookup infoHash else none := fun indices infoHash => by
    rw [lookup_foldl_union reply owner hOwn infoHash indices, Finmap.lookup_empty]
  refine ⟨sent, merge (sent.map Prod.fst), hSentKeys ▸ byWorker.sorted, ?keys, ?subRequests,
    ?lookup, ?run⟩
  case keys => exact fun index => hSentKeys ▸ hKeys index
  case subRequests =>
    intro p hp
    obtain ⟨⟨index, hs⟩, hMem, rfl⟩ := List.mem_map.mp hp
    exact congrArg ScrapeRequest.mk (hEntries _ hMem)
  case lookup =>
    intro infoHash index hOwner
    obtain rfl := (hIndex _ _).mp hOwner
    rw [hMerge]
    by_cases hFiles : infoHash ∈ (reply (owner infoHash)).files
    · have hMem := ((mem_ownedBy swarmWorkers).mp (hReply _ _ hFiles)).1
      have hKey : owner infoHash ∈ sent.map Prod.fst :=
        hSentKeys ▸ (hKeys _).mpr ⟨infoHash, hMem, hOwner⟩
      simp [hMem, hKey, hFiles]
    · simp [hFiles, Finmap.lookup_eq_none.mpr hFiles]
  case run =>
    rintro scrapeReplies ⟨order, hPerm, hReplies⟩
    have hOrder : order.map (fun p => reply p.1) ≠ [] := by
      obtain ⟨infoHash, hMem⟩ := List.exists_mem_of_ne_nil _ hNonempty
      have hKey : owner infoHash ∈ order.map Prod.fst := (hPerm.map Prod.fst).mem_iff.mpr
        (hSentKeys ▸ (hKeys _).mpr ⟨infoHash, hMem, (hIndex _ _).mpr rfl⟩)
      simpa using List.ne_nil_of_mem hKey
    have hLength : byWorker.entries.length = (order.map fun p => reply p.1).length := by
      simp [hPerm.length_eq, sent]
    have hSame : (order.map fun p => reply p.1).foldl (fun acc r => r.files ∪ acc) ∅ =
        merge (sent.map Prod.fst) := Finmap.ext_lookup fun infoHash => by
      rw [show order.map (fun p => reply p.1) = (order.map Prod.fst).map reply by simp,
        lookup_foldl_union reply owner hOwn infoHash, hMerge, Finmap.lookup_empty]
      simp only [(hPerm.map Prod.fst).mem_iff]
    have hWait : (waitForScrapeResponses ((order.map fun p => reply p.1).map some ++ [])
        ⟨(order.map fun p => reply p.1).length, ∅⟩ : Option (Except String (Response A Stats))) =
        _ := waitForScrapeResponses_of_replies [] _ ∅ hOrder
    simp only [handleRequest, hRun, Option.bind_eq_bind, Option.some_bind]
    rw [hReplies, hLength, ← hSame, ← hWait, List.append_nil, List.map_map]
    rfl

/-- Two info hashes, owned by the two swarm workers, each worker reporting its own: the scrape
completes, and the second hash reads what worker 1 reported. -/
theorem scrape_response_merges_two_shards :
    ∃ files : Finmap (fun _ : InfoHash => Nat),
      handleRequest 2 (fun _ => true) (fun _ => (none : Option Unit))
          (fun sent => sent.map fun p =>
            some ⟨if p.1 = 0 then Finmap.singleton (Bytes.replicate 20 0) 7
              else if p.1 = 1 then Finmap.singleton (Bytes.replicate 20 1) 9 else ∅⟩)
          (.scrape ⟨[Bytes.replicate 20 0, Bytes.replicate 20 1]⟩) =
        some (.ok (.scrape ⟨files⟩)) ∧
      files.lookup (Bytes.replicate 20 1) = some 9 := by
  obtain ⟨sent, files, -, -, -, hLookup, hRun⟩ := scrape_response_merges_shards_in_any_order 2
    (by decide) (fun _ => true) (fun _ => (none : Option Unit))
    [Bytes.replicate 20 0, Bytes.replicate 20 1] (List.cons_ne_nil _ _)
    (fun index => ⟨if index = 0 then Finmap.singleton (Bytes.replicate 20 0) 7
      else if index = 1 then Finmap.singleton (Bytes.replicate 20 1) 9 else ∅⟩)
    (fun index infoHash hMem => by
      by_cases h0 : index = 0
      · subst h0
        simp only [if_pos, Finmap.mem_singleton] at hMem
        subst hMem
        decide
      · by_cases h1 : index = 1
        · subst h1
          simp only [h0, if_false, if_pos, Finmap.mem_singleton] at hMem
          subst hMem
          decide
        · simp [h0, h1, Finmap.not_mem_empty] at hMem)
  refine ⟨files, hRun _ ⟨sent, List.Perm.refl _, rfl⟩, ?_⟩
  rw [hLookup (Bytes.replicate 20 1) 1 (by decide)]
  simp

end HandleRequest

end AquaticTracker.Http
