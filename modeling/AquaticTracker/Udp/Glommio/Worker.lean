import AquaticTracker.Udp.Glommio.PendingScrape
import Mathlib.Logic.Relation

/-! # The glommio socket worker's scrape path over a run

`read_requests` and `handle_shared_responses` sharing `pending_scrape_responses`, as a step
relation over scrapes, replies and cleaning.
-/

namespace AquaticTracker.Udp.Glommio

set_option autoImplicit false

/-- A scrape the worker accepted: its source and request, and whether it arrived while no
sub-request with its transaction id was in flight. -/
structure ReceivedScrape where
  src : SocketAddr
  request : ScrapeRequest
  fresh : Bool

/-- A sub-request in flight to a request worker, with the place of its scrape among those
accepted. -/
structure InFlight where
  scrape : Nat
  consumerIndex : Nat
  request : ScrapeRequest
  originalIndices : List Nat
  src : SocketAddr
deriving DecidableEq

/-- The entry of `consumer_requests` a sub-request in flight was sent from. -/
def InFlight.sent (f : InFlight) : Nat × ScrapeRequest × List Nat :=
  (f.consumerIndex, f.request, f.originalIndices)

/-- What `send_to` puts in flight for the `s`-th scrape. -/
def InFlight.ofSent (s : Nat) : Nat × ConnectedRequest × SocketAddr → List InFlight
  | (j, .scrape request originalIndices, src) => [⟨s, j, request, originalIndices, src⟩]
  | (_, .announce _, _) => []

/-- The scrape path of one glommio socket worker along a run: `pending_scrape_responses`, what
it passed to `local_sender`, and the recorded scrapes, sub-requests in flight and replies, each
reply with the place of its scrape. -/
structure ScrapeRun where
  pending : PendingScrapeResponses
  sent : List (Response × SocketAddr)
  scrapes : List ReceivedScrape
  inFlight : List InFlight
  replies : List (Nat × SubReply)

namespace ScrapeRun

/-- The worker when it starts. -/
def init : ScrapeRun := ⟨PendingScrapeResponses.default, [], [], [], []⟩

/-- The sub-requests of the `s`-th scrape still in flight. -/
def inFlightOf (w : ScrapeRun) (s : Nat) : List InFlight := w.inFlight.filter (·.scrape = s)

/-- The replies to the sub-requests of the `s`-th scrape. -/
def repliesOf (w : ScrapeRun) (s : Nat) : List SubReply := (w.replies.filter (·.1 = s)).map (·.2)

/-- One step of the worker's scrape path. -/
inductive Step (config : Config) : ScrapeRun → ScrapeRun → Prop
  /-- `read_requests` accepts a scrape from `src` whose connection `connections` holds; one it
  does not hold changes nothing here. -/
  | scrape {w : ScrapeRun} {pending : PendingScrapeResponses}
      {sends : List (Nat × ConnectedRequest × SocketAddr)} (src : SocketAddr)
      (request : ScrapeRequest) (pendingScrapeValidUntil : ValidUntil)
      (h : readScrapeRequest config w.pending pendingScrapeValidUntil true request src =
        some (pending, sends)) :
      Step config w
        { w with
          pending := pending
          scrapes := w.scrapes ++ [⟨src, request,
            w.inFlight.all fun f => f.request.transactionId != request.transactionId⟩]
          inFlight := w.inFlight ++ sends.flatMap (InFlight.ofSent w.scrapes.length) }
  /-- A request worker answers the sub-request `f` with one statistics entry per info hash,
  and `handle_shared_responses` handles the partial response. -/
  | reply {w : ScrapeRun} {f : InFlight} {pending : PendingScrapeResponses}
      {out : Option (Response × SocketAddr)} (hf : f ∈ w.inFlight)
      (stats : List TorrentScrapeStatistics) (hLen : stats.length = f.request.infoHashes.length)
      (h : handleSharedResponse w.pending
        (.scrape ⟨f.request.transactionId, stats⟩ f.originalIndices) f.src = some (pending, out)) :
      Step config w
        { w with
          pending := pending
          sent := w.sent ++ out.toList
          inFlight := w.inFlight.erase f
          replies := w.replies ++ [(f.scrape, ⟨f.consumerIndex, f.request, f.originalIndices, stats⟩)] }
  /-- The timer cleans `pending_scrape_responses` at `now`. -/
  | clean {w : ScrapeRun} {pending : PendingScrapeResponses} (now : Instant)
      (h : w.pending.clean now = some pending) :
      Step config w { w with pending := pending }

/-- The states a run of the worker reaches. -/
def Reachable (config : Config) (w : ScrapeRun) : Prop :=
  Relation.ReflTransGen (Step config) init w

/-- Every scrape response the worker has sent to an address answers a scrape that address sent,
from the replies to that scrape's own sub-requests. -/
def RepliesToOwnScrape (config : Config) (w : ScrapeRun) : Prop :=
  ∀ response addr, (Response.scrape response, addr) ∈ w.sent →
    ∃ s received, w.scrapes[s]? = some received ∧ received.src = addr ∧
      received.request.transactionId = response.transactionId ∧
      AnswersScrape config received.request (w.repliesOf s) response.torrentStats

/-- What a run keeps true while every scrape it accepted arrived fresh: each scrape's
sub-requests are those of its split, each either in flight or replied to once; every pending
entry belongs to a scrape of its transaction id that owns every sub-request in flight with that
id, counts that scrape's sub-requests in flight and holds the statistics of its replies; and
every response sent so far answers a scrape of its address. -/
structure Inv (config : Config) (w : ScrapeRun) : Prop where
  parts : ∀ s received, w.scrapes[s]? = some received → ∃ m,
    splitScrapeRequest config received.request = some m ∧
    ((w.inFlightOf s).map InFlight.sent ++ (w.repliesOf s).map SubReply.sent).Perm m.entries
  inFlight_src : ∀ f ∈ w.inFlight, ∃ received, w.scrapes[f.scrape]? = some received ∧
    f.src = received.src
  replies_lt : ∀ e ∈ w.replies, e.1 < w.scrapes.length
  replies_length : ∀ e ∈ w.replies, e.2.stats.length = e.2.request.infoHashes.length
  pending : ∀ T e, w.pending.map.get T = some e → ∃ s received, w.scrapes[s]? = some received ∧
    received.request.transactionId = T ∧
    (∀ f ∈ w.inFlight, f.request.transactionId = T → f.scrape = s) ∧
    e.pendingWorkerResponses = (w.inFlightOf s).length ∧
    e.stats = BTreeMap.empty.extend ((w.repliesOf s).flatMap SubReply.indexed)
  sent : w.RepliesToOwnScrape config

variable {config : Config} {w : ScrapeRun}

theorem inv_init : Inv config init :=
  ⟨by simp [init], by simp [init], by simp [init], by simp [init],
    by simp [init, PendingScrapeResponses.default], by simp [RepliesToOwnScrape, init]⟩

theorem getElem?_append_singleton {α : Type} {l : List α} {x r : α} {s : Nat}
    (h : (l ++ [x])[s]? = some r) : l[s]? = some r ∨ (s = l.length ∧ r = x) := by
  rcases Nat.lt_or_ge s l.length with hs | hs
  · exact .inl (by rwa [List.getElem?_append_left hs] at h)
  · rw [List.getElem?_append_right hs, List.getElem?_eq_some_iff] at h
    obtain ⟨hs', rfl⟩ := h
    simp only [List.length_singleton] at hs'
    exact .inr ⟨by omega, by simp⟩

theorem getElem?_append_of_getElem? {α : Type} {l l' : List α} {r : α} {s : Nat}
    (h : l[s]? = some r) : (l ++ l')[s]? = some r := by
  rwa [List.getElem?_append_left (List.getElem?_eq_some_iff.mp h).1]

theorem Inv.received_of_inFlight (hInv : Inv config w) {f : InFlight} (hf : f ∈ w.inFlight) :
    ∃ received, w.scrapes[f.scrape]? = some received ∧ f.src = received.src ∧
      f.request.transactionId = received.request.transactionId := by
  obtain ⟨received, hs, hSrc⟩ := hInv.inFlight_src f hf
  obtain ⟨m, hSplit, hPerm⟩ := hInv.parts _ received hs
  have hMem : f.sent ∈ m.entries := hPerm.subset (List.mem_append_left _
    (List.mem_map_of_mem _ (List.mem_filter.mpr ⟨hf, by simp⟩)))
  exact ⟨received, hs, hSrc, (splitInv_of_splitScrapeRequest hSplit).transactionId_of_mem hMem⟩

theorem flatMap_ofSent (s : Nat) (src : SocketAddr) (l : List (Nat × ScrapeRequest × List Nat)) :
    (l.map fun e => (e.1, ConnectedRequest.scrape e.2.1 e.2.2, src)).flatMap (InFlight.ofSent s) =
      l.map fun e => ⟨s, e.1, e.2.1, e.2.2, src⟩ := by
  induction l with
  | nil => rfl
  | cons e l ih => simp [InFlight.ofSent, ih]

theorem filter_scrape_append_of_lt {l news : List InFlight} {n : Nat}
    (hLt : ∀ f ∈ l, f.scrape < n) (hNews : ∀ f ∈ news, f.scrape = n) (s : Nat) :
    (l ++ news).filter (·.scrape = s) = if s = n then news else l.filter (·.scrape = s) := by
  have hOld : s = n → l.filter (·.scrape = s) = [] := fun hs =>
    List.filter_eq_nil_iff.mpr fun f hf => by simpa [hs] using (hLt f hf).ne
  have hNew : news.filter (·.scrape = s) = if s = n then news else [] := by
    split_ifs with hs
    · exact List.filter_eq_self.mpr fun f hf => by simpa [hs] using hNews f hf
    · exact List.filter_eq_nil_iff.mpr fun f hf => by simpa [hNews f hf] using Ne.symm hs
  rw [List.filter_append, hNew]
  split_ifs with hs
  · rw [hOld hs, List.nil_append]
  · exact List.append_nil _

theorem Inv.scrape (hInv : Inv config w) {pending : PendingScrapeResponses}
    {sends : List (Nat × ConnectedRequest × SocketAddr)} {src : SocketAddr}
    {request : ScrapeRequest} {pendingScrapeValidUntil : ValidUntil}
    (h : readScrapeRequest config w.pending pendingScrapeValidUntil true request src =
      some (pending, sends)) (fresh : Bool)
    (hFresh : ∀ f ∈ w.inFlight, f.request.transactionId ≠ request.transactionId) :
    Inv config { w with
      pending := pending
      scrapes := w.scrapes ++ [⟨src, request, fresh⟩]
      inFlight := w.inFlight ++ sends.flatMap (InFlight.ofSent w.scrapes.length) } := by
  obtain ⟨m, hSplit, rfl, rfl⟩ := readScrapeRequest_connected h
  have hInvM := splitInv_of_splitScrapeRequest hSplit
  rw [flatMap_ofSent]
  set n := w.scrapes.length
  set news := m.entries.map fun e => (⟨n, e.1, e.2.1, e.2.2, src⟩ : InFlight)
  have hLt : ∀ f ∈ w.inFlight, f.scrape < n := fun f hf =>
    let ⟨_, hs, _⟩ := hInv.inFlight_src f hf
    (List.getElem?_eq_some_iff.mp hs).1
  have hOf := filter_scrape_append_of_lt hLt (show ∀ f ∈ news, f.scrape = n by
    rintro _ hf
    obtain ⟨e, -, rfl⟩ := List.mem_map.mp hf
    rfl)
  have hRepliesNew : w.replies.filter (·.1 = n) = [] :=
    List.filter_eq_nil_iff.mpr fun e he => by simpa using (hInv.replies_lt e he).ne
  have hTid : ∀ f ∈ news, f.request.transactionId = request.transactionId := by
    intro f hf
    obtain ⟨e, he, rfl⟩ := List.mem_map.mp hf
    exact hInvM.transactionId_of_mem he
  refine ⟨fun s received hs => ?_, fun f hf => ?_, fun e he => ?_, hInv.replies_length,
    fun T e hGet => ?_, fun response addr hSent => ?_⟩
  · rcases getElem?_append_singleton hs with hs | ⟨rfl, rfl⟩
    · have hsn : s ≠ n := (List.getElem?_eq_some_iff.mp hs).1.ne
      simpa [inFlightOf, hOf, hsn] using hInv.parts s received hs
    · refine ⟨m, hSplit, ?_⟩
      simp [inFlightOf, repliesOf, hOf, hRepliesNew, news, Function.comp_def, InFlight.sent]
  · rcases List.mem_append.mp hf with hf | hf
    · obtain ⟨received, hs, hSrc⟩ := hInv.inFlight_src f hf
      exact ⟨received, getElem?_append_of_getElem? hs, hSrc⟩
    · obtain ⟨e, -, rfl⟩ := List.mem_map.mp hf
      exact ⟨⟨src, request, fresh⟩, by simp [n], rfl⟩
  · exact Nat.lt_of_lt_of_le (hInv.replies_lt e he) (by simp)
  · simp only [PendingScrapeResponses.prepare, IndexMap.get_insert] at hGet
    split_ifs at hGet with hT
    · cases hGet
      refine ⟨n, ⟨src, request, fresh⟩, by simp [n], hT.symm, fun f hf hfT => ?_,
        by simp [inFlightOf, hOf, news, IndexMap.len], by simp [repliesOf, hRepliesNew]; rfl⟩
      rcases List.mem_append.mp hf with hf | hf
      · exact absurd (hfT.trans hT) (hFresh f hf)
      · obtain ⟨e, -, rfl⟩ := List.mem_map.mp hf
        rfl
    · obtain ⟨s, received, hs, hsT, hOwn, hCount, hStats⟩ := hInv.pending T e hGet
      have hsn : s ≠ n := (List.getElem?_eq_some_iff.mp hs).1.ne
      refine ⟨s, received, getElem?_append_of_getElem? hs, hsT, fun f hf hfT => ?_,
        by simpa [inFlightOf, hOf, hsn] using hCount, hStats⟩
      rcases List.mem_append.mp hf with hf | hf
      · exact hOwn f hf hfT
      · exact absurd ((hTid f hf).symm.trans hfT).symm hT
  · obtain ⟨s, received, hs, hRest⟩ := hInv.sent response addr hSent
    exact ⟨s, received, getElem?_append_of_getElem? hs, hRest⟩

theorem inFlightOf_perm_erase {f : InFlight} (hf : f ∈ w.inFlight) (s : Nat) :
    (w.inFlightOf s).Perm
      ((if f.scrape = s then [f] else []) ++ (w.inFlight.erase f).filter (·.scrape = s)) := by
  have h := (List.perm_cons_erase hf).filter fun g : InFlight => decide (g.scrape = s)
  rw [List.filter_cons] at h
  by_cases hs : f.scrape = s <;> simp_all [inFlightOf]

theorem repliesOf_of_replies_eq {w' : ScrapeRun} {s' : Nat} {r : SubReply}
    (h : w'.replies = w.replies ++ [(s', r)]) (s : Nat) :
    w'.repliesOf s = w.repliesOf s ++ if s' = s then [r] else [] := by
  by_cases hs : s' = s <;> simp [repliesOf, h, hs]

theorem answers_of_inFlightOf_nil {s : Nat} {received : ReceivedScrape}
    (hParts : ∃ m, splitScrapeRequest config received.request = some m ∧
      ((w.inFlightOf s).map InFlight.sent ++ (w.repliesOf s).map SubReply.sent).Perm m.entries)
    (hLen : ∀ e ∈ w.replies, e.2.stats.length = e.2.request.infoHashes.length)
    (hNil : w.inFlightOf s = []) {stats : BTreeMap TorrentScrapeStatistics}
    (hStats : stats = BTreeMap.empty.extend ((w.repliesOf s).flatMap SubReply.indexed)) :
    AnswersScrape config received.request (w.repliesOf s) stats.values := by
  obtain ⟨m, hSplit, hPerm⟩ := hParts
  rw [hNil, List.map_nil, List.nil_append] at hPerm
  refine hStats ▸ answersScrape_of_perm (splitInv_of_splitScrapeRequest hSplit) hPerm fun r hr => ?_
  obtain ⟨e, he, rfl⟩ := List.mem_map.mp hr
  exact hLen e (List.mem_filter.mp he).1

/-! The invariant across a reply to the sub-request `f`, stated of any state `w'` whose
sub-requests in flight and replies are those after it; a reply leaves the scrapes as they are. -/

section Reply

variable {f : InFlight} {stats : List TorrentScrapeStatistics} {w' : ScrapeRun}

theorem Inv.parts_of_reply (hInv : Inv config w) (hf : f ∈ w.inFlight)
    (hInFlight : w'.inFlight = w.inFlight.erase f)
    (hReplies : w'.replies =
      w.replies ++ [(f.scrape, ⟨f.consumerIndex, f.request, f.originalIndices, stats⟩)])
    (s : Nat) (received : ReceivedScrape) (hs : w.scrapes[s]? = some received) :
    ∃ m, splitScrapeRequest config received.request = some m ∧
      ((w'.inFlightOf s).map InFlight.sent ++ (w'.repliesOf s).map SubReply.sent).Perm
        m.entries := by
  obtain ⟨m, hSplit, hPerm⟩ := hInv.parts s received hs
  refine ⟨m, hSplit, List.Perm.trans ?_ hPerm⟩
  have hI := (inFlightOf_perm_erase hf s).map InFlight.sent
  rw [repliesOf_of_replies_eq hReplies, inFlightOf, hInFlight]
  by_cases hfs : f.scrape = s
  · rw [if_pos hfs] at hI ⊢
    rw [List.map_append, ← List.append_assoc]
    exact (List.perm_append_singleton _ _).trans (hI.symm.append_right _)
  · rw [if_neg hfs, List.nil_append] at hI
    rw [if_neg hfs, List.append_nil]
    exact hI.symm.append_right _

theorem Inv.pending_of_reply_of_ne (hInv : Inv config w) (hf : f ∈ w.inFlight)
    (hInFlight : w'.inFlight = w.inFlight.erase f)
    (hReplies : w'.replies =
      w.replies ++ [(f.scrape, ⟨f.consumerIndex, f.request, f.originalIndices, stats⟩)])
    {T : TransactionId} {e : PendingScrapeResponse} (hT : T ≠ f.request.transactionId)
    (hGet : w.pending.map.get T = some e) :
    ∃ s received, w.scrapes[s]? = some received ∧ received.request.transactionId = T ∧
      (∀ g ∈ w'.inFlight, g.request.transactionId = T → g.scrape = s) ∧
      e.pendingWorkerResponses = (w'.inFlightOf s).length ∧
      e.stats = BTreeMap.empty.extend ((w'.repliesOf s).flatMap SubReply.indexed) := by
  obtain ⟨received, hs, -, hfT⟩ := hInv.received_of_inFlight hf
  obtain ⟨s, received', hs', hsT, hOwn, hCount, hStats⟩ := hInv.pending T e hGet
  have hfs : f.scrape ≠ s := by
    rintro rfl
    obtain rfl : received' = received := Option.some.inj (hs'.symm.trans hs)
    exact hT (hsT.symm.trans hfT.symm)
  refine ⟨s, received', hs', hsT,
    fun g hg => hOwn g (List.mem_of_mem_erase (hInFlight ▸ hg)), ?_, ?_⟩
  · rw [hCount, (inFlightOf_perm_erase hf s).length_eq, if_neg hfs, List.nil_append, inFlightOf,
      hInFlight]
  · rw [repliesOf_of_replies_eq hReplies, if_neg hfs, List.append_nil, hStats]

theorem Inv.sent_of_reply (hInv : Inv config w) {s' : Nat} {r : SubReply}
    (hReplies : w'.replies = w.replies ++ [(s', r)])
    {response : ScrapeResponse} {addr : SocketAddr}
    (hMem : (Response.scrape response, addr) ∈ w.sent) :
    ∃ s received, w.scrapes[s]? = some received ∧ received.src = addr ∧
      received.request.transactionId = response.transactionId ∧
      AnswersScrape config received.request (w'.repliesOf s) response.torrentStats := by
  obtain ⟨s, received, hs, hSrc, hT, hAns⟩ := hInv.sent response addr hMem
  refine ⟨s, received, hs, hSrc, hT, hAns.mono ?_⟩
  rw [repliesOf_of_replies_eq hReplies]
  exact List.subset_append_left _ _

end Reply

theorem Inv.reply (hInv : Inv config w) {f : InFlight} (hf : f ∈ w.inFlight)
    {stats : List TorrentScrapeStatistics} (hLen : stats.length = f.request.infoHashes.length)
    {pending : PendingScrapeResponses} {out : Option (Response × SocketAddr)}
    (h : handleSharedResponse w.pending (.scrape ⟨f.request.transactionId, stats⟩ f.originalIndices)
      f.src = some (pending, out)) :
    Inv config { w with
      pending := pending
      sent := w.sent ++ out.toList
      inFlight := w.inFlight.erase f
      replies := w.replies ++ [(f.scrape, ⟨f.consumerIndex, f.request, f.originalIndices, stats⟩)] } := by
  set reply : SubReply := ⟨f.consumerIndex, f.request, f.originalIndices, stats⟩
  obtain ⟨received, hs, hSrc, hT⟩ := hInv.received_of_inFlight hf
  have hSrcs : ∀ g ∈ w.inFlight.erase f, ∃ received, w.scrapes[g.scrape]? = some received ∧
      g.src = received.src := fun g hg => hInv.inFlight_src g (List.mem_of_mem_erase hg)
  have hLt : ∀ e ∈ w.replies ++ [(f.scrape, reply)], e.1 < w.scrapes.length :=
    List.forall_mem_append.mpr ⟨hInv.replies_lt,
      List.forall_mem_singleton.mpr (List.getElem?_eq_some_iff.mp hs).1⟩
  have hLenAll : ∀ e ∈ w.replies ++ [(f.scrape, reply)],
      e.2.stats.length = e.2.request.infoHashes.length :=
    List.forall_mem_append.mpr ⟨hInv.replies_length, List.forall_mem_singleton.mpr hLen⟩
  obtain ⟨⟨pending', finished⟩, hAdd, hEq⟩ := Option.map_eq_some'.mp h
  obtain ⟨rfl, rfl⟩ := Prod.mk.inj hEq
  cases hGet : w.pending.map.get f.request.transactionId with
  | none =>
    rw [PendingScrapeResponses.addAndGetFinished_of_get_none hGet] at hAdd
    obtain ⟨rfl, rfl⟩ := Prod.mk.inj (Option.some.inj hAdd)
    refine ⟨hInv.parts_of_reply hf rfl rfl, hSrcs, hLt, hLenAll, fun T e hGetT => ?_,
      fun response addr hMem => hInv.sent_of_reply rfl (by simpa using hMem)⟩
    refine hInv.pending_of_reply_of_ne hf rfl rfl ?_ hGetT
    rintro rfl
    exact Option.noConfusion (hGet.symm.trans hGetT)
  | some e =>
    obtain ⟨s₀, received₀, hs₀, -, hOwn, hCount, hStats⟩ := hInv.pending _ e hGet
    obtain rfl : f.scrape = s₀ := hOwn f hf rfl
    obtain rfl := Option.some.inj (hs.symm.trans hs₀)
    have hCount' : e.pendingWorkerResponses =
        ((w.inFlight.erase f).filter (·.scrape = f.scrape)).length + 1 := by
      rw [hCount, (inFlightOf_perm_erase hf _).length_eq, if_pos rfl, List.singleton_append,
        List.length_cons]
    have hFiled : (PendingScrapeResponses.filed e
        ((w.inFlight.erase f).filter (·.scrape = f.scrape)).length
        ⟨f.request.transactionId, stats⟩ f.originalIndices).stats =
        BTreeMap.empty.extend ((((w.replies ++ [(f.scrape, reply)]).filter (·.1 = f.scrape)).map
          (·.2)).flatMap SubReply.indexed) := by
      simp [PendingScrapeResponses.filed, hStats, BTreeMap.extend_append, reply, SubReply.indexed,
        repliesOf]
    rw [PendingScrapeResponses.addAndGetFinished_of_count_succ hGet hCount'] at hAdd
    split_ifs at hAdd with hc <;> obtain ⟨rfl, rfl⟩ := Prod.mk.inj (Option.some.inj hAdd)
    · -- the last reply: the entry goes, and the assembled response is sent to the scrape
      refine ⟨hInv.parts_of_reply hf rfl rfl, hSrcs, hLt, hLenAll, fun T e' hGetT => ?_,
        fun response addr hMem => ?_⟩
      · simp only [IndexMap.get_remove, IndexMap.get_insert] at hGetT
        split_ifs at hGetT with hTeq
        exact hInv.pending_of_reply_of_ne hf rfl rfl hTeq hGetT
      · rcases List.mem_append.mp hMem with hMem | hMem
        · exact hInv.sent_of_reply rfl hMem
        · simp only [Option.map_some', Option.toList_some, List.mem_singleton, Prod.mk.injEq,
            Response.scrape.injEq] at hMem
          obtain ⟨rfl, rfl⟩ := hMem
          refine ⟨f.scrape, received, hs, hSrc.symm, hT.symm,
            answers_of_inFlightOf_nil ?_ ?_ ?_ ?_⟩
          exacts [hInv.parts_of_reply hf rfl rfl _ _ hs, hLenAll, List.length_eq_zero.mp hc, hFiled]
    · -- an earlier reply: the entry counts one response less and holds one reply more
      refine ⟨hInv.parts_of_reply hf rfl rfl, hSrcs, hLt, hLenAll, fun T e' hGetT => ?_,
        fun response addr hMem => hInv.sent_of_reply rfl (by simpa using hMem)⟩
      simp only [IndexMap.get_insert] at hGetT
      split_ifs at hGetT with hTeq
      · cases hGetT
        exact ⟨f.scrape, received, hs, hTeq ▸ hT.symm,
          fun g hg hgT => hOwn g (List.mem_of_mem_erase hg) (hgT.trans hTeq), rfl, hFiled⟩
      · exact hInv.pending_of_reply_of_ne hf rfl rfl hTeq hGetT

theorem Inv.clean (hInv : Inv config w) {pending : PendingScrapeResponses} {now : Instant}
    (h : w.pending.clean now = some pending) : Inv config { w with pending := pending } :=
  { hInv with
    pending := fun T e hGet => hInv.pending T e (PendingScrapeResponses.get_of_clean h hGet) }

theorem Step.scrapes_prefix {w' : ScrapeRun} (h : Step config w w') :
    List.IsPrefix w.scrapes w'.scrapes := by
  cases h <;> simp

theorem Reachable.inv (hReach : w.Reachable config) (hFresh : ∀ r ∈ w.scrapes, r.fresh = true) :
    Inv config w := by
  induction hReach with
  | refl => exact inv_init
  | tail _ hStep ih =>
    have hInv := ih fun r hr => hFresh r (hStep.scrapes_prefix.subset hr)
    cases hStep with
    | scrape src request pendingScrapeValidUntil h =>
      refine hInv.scrape h _ ?_
      simpa using hFresh _ (List.mem_append_right _ (List.mem_singleton_self _))
    | reply hf stats hLen h => exact hInv.reply hf hLen h
    | clean now h => exact hInv.clean h

end ScrapeRun

/-- Two clients at different addresses scrape with the same transaction id. The request worker
owning the first client's info hash replies, then the one owning the second client's second
info hash: the second client is sent the first client's statistics in place of its own. -/
theorem scrape_response_mixes_two_clients :
    ∃ w, ScrapeRun.Reachable ⟨2, ⟨255, 255, 900⟩⟩ w ∧ (w.scrapes.map ReceivedScrape.src).Nodup ∧
      (Response.scrape ⟨7, [⟨1, 0, 0⟩, ⟨3, 0, 0⟩]⟩, ⟨.v4 ⟨Bytes.replicate 4 2⟩, 2⟩) ∈ w.sent ∧
      ¬ w.RepliesToOwnScrape ⟨2, ⟨255, 255, 900⟩⟩ := by
  refine ⟨_, .tail (.tail (.tail (.tail .refl
    (ScrapeRun.Step.scrape ⟨.v4 ⟨Bytes.replicate 4 1⟩, 1⟩ ⟨0, 7, [Bytes.replicate 20 0]⟩ 30 rfl))
    (ScrapeRun.Step.scrape ⟨.v4 ⟨Bytes.replicate 4 2⟩, 2⟩
      ⟨0, 7, [Bytes.replicate 20 2, Bytes.replicate 20 1]⟩ 30 rfl))
    (@ScrapeRun.Step.reply ⟨2, ⟨255, 255, 900⟩⟩ _
      ⟨0, 0, ⟨0, 7, [Bytes.replicate 20 0]⟩, [0], ⟨.v4 ⟨Bytes.replicate 4 1⟩, 1⟩⟩
      _ _ (by decide) [⟨1, 0, 0⟩] rfl rfl))
    (@ScrapeRun.Step.reply ⟨2, ⟨255, 255, 900⟩⟩ _
      ⟨1, 1, ⟨0, 7, [Bytes.replicate 20 1]⟩, [1], ⟨.v4 ⟨Bytes.replicate 4 2⟩, 2⟩⟩
      _ _ (by decide) [⟨3, 0, 0⟩] rfl rfl), by decide, by decide, fun hOwn => ?_⟩
  obtain ⟨s, received, hs, hSrc, -, hAnswers⟩ :=
    hOwn ⟨7, [⟨1, 0, 0⟩, ⟨3, 0, 0⟩]⟩ ⟨.v4 ⟨Bytes.replicate 4 2⟩, 2⟩ (by decide)
  rcases s with _ | _ | s
  · cases hs
    exact absurd hSrc (by decide)
  · cases hs
    obtain ⟨r, hr, hIndex, -⟩ := hAnswers.2 0 (Bytes.replicate 20 2) rfl
    have hr : r = ⟨1, ⟨0, 7, [Bytes.replicate 20 1]⟩, [1], [⟨3, 0, 0⟩]⟩ := by
      simpa [ScrapeRun.repliesOf, ScrapeRun.init] using hr
    subst hr
    exact absurd hIndex (by decide)
  · simp [ScrapeRun.init] at hs

/-- When no scrape arrives while a sub-request with its transaction id is still in flight, every
pending entry counts the sub-requests in flight of the scrape that registered it and holds the
statistics of that scrape's replies and of no other's, and every scrape response the worker
sends answers a scrape of the address it goes to. -/
theorem scrape_responses_answer_own_scrape (config : Config) {w : ScrapeRun}
    (hReach : w.Reachable config) (hFresh : ∀ r ∈ w.scrapes, r.fresh = true) :
    (∀ T e, w.pending.map.get T = some e → ∃ s received, w.scrapes[s]? = some received ∧
      received.request.transactionId = T ∧ e.pendingWorkerResponses = (w.inFlightOf s).length ∧
      e.stats = BTreeMap.empty.extend ((w.repliesOf s).flatMap SubReply.indexed)) ∧
    w.RepliesToOwnScrape config := by
  have hInv := hReach.inv hFresh
  refine ⟨fun T e hGet => ?_, hInv.sent⟩
  obtain ⟨s, received, hs, hT, -, hCount, hStats⟩ := hInv.pending T e hGet
  exact ⟨s, received, hs, hT, hCount, hStats⟩

theorem scrape_responses_answer_own_scrape_one_client :
    ∃ w, ScrapeRun.Reachable ⟨2, ⟨255, 255, 900⟩⟩ w ∧ (∀ r ∈ w.scrapes, r.fresh = true) ∧
      (Response.scrape ⟨7, [⟨1, 0, 0⟩]⟩, ⟨.v4 ⟨Bytes.replicate 4 1⟩, 1⟩) ∈ w.sent ∧
      w.RepliesToOwnScrape ⟨2, ⟨255, 255, 900⟩⟩ := by
  have hReach : ScrapeRun.Reachable ⟨2, ⟨255, 255, 900⟩⟩ _ := .tail (.tail .refl
    (ScrapeRun.Step.scrape ⟨.v4 ⟨Bytes.replicate 4 1⟩, 1⟩ ⟨0, 7, [Bytes.replicate 20 0]⟩ 30 rfl))
    (@ScrapeRun.Step.reply ⟨2, ⟨255, 255, 900⟩⟩ _
      ⟨0, 0, ⟨0, 7, [Bytes.replicate 20 0]⟩, [0], ⟨.v4 ⟨Bytes.replicate 4 1⟩, 1⟩⟩
      _ _ (by decide) [⟨1, 0, 0⟩] rfl rfl)
  exact ⟨_, hReach, by decide, by decide,
    (scrape_responses_answer_own_scrape ⟨2, ⟨255, 255, 900⟩⟩ hReach (by decide)).2⟩

end AquaticTracker.Udp.Glommio
