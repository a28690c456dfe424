import AquaticTracker.Protocol.Wire

/-! # UDP tracker requests

`Request::write_bytes` and `Request::parse_bytes` of `crates/udp_protocol`.
-/

namespace AquaticTracker

open Wire

set_option autoImplicit false

/-- The array whose bytes are the first `n` of `bs`, padded with zeros. The readers below
apply it only to slices of exactly `n` bytes. -/
def Bytes.ofListD (n : Nat) (bs : List U8) : Bytes n :=
  ⟨(bs ++ List.replicate n 0).take n, by simp⟩

@[simp] theorem Bytes.ofListD_toList {n : Nat} (b : Bytes n) : Bytes.ofListD n b.toList = b := by
  cases b
  subst n
  simp [Bytes.ofListD]

theorem Bytes.toList_ofListD {n : Nat} {bs : List U8} (h : bs.length = n) :
    (Bytes.ofListD n bs).toList = bs := by
  subst h
  simp [Bytes.ofListD]

/-- `const PROTOCOL_IDENTIFIER: i64 = 4_497_486_125_440` -/
def protocolIdentifier : I64 := 4497486125440

/-- `AnnounceEvent` -/
inductive AnnounceEvent where
  | none
  | completed
  | started
  | stopped
deriving DecidableEq, Repr

/-- `AnnounceEventBytes(I32)`: the event as it sits in the packed request. -/
abbrev AnnounceEventBytes := I32

/-- `impl From<AnnounceEvent> for AnnounceEventBytes`: `value as i32`. -/
def AnnounceEvent.toBytes : AnnounceEvent → AnnounceEventBytes
  | .none => 0
  | .completed => 1
  | .started => 2
  | .stopped => 3

/-- `impl From<AnnounceEventBytes> for AnnounceEvent` -/
def AnnounceEvent.ofBytes (value : AnnounceEventBytes) : AnnounceEvent :=
  match value.toInt with
  | 1 => .completed
  | 2 => .started
  | 3 => .stopped
  | _ => .none

/-- `ConnectRequest` -/
structure ConnectRequest where
  transactionId : TransactionId
deriving DecidableEq, Repr

/-- `AnnounceRequest`, a `#[repr(C, packed)]` struct of 98 bytes. -/
structure AnnounceRequest where
  connectionId : ConnectionId
  /-- `AnnounceActionPlaceholder(I32)`, present only for the zero-copy layout. -/
  actionPlaceholder : I32
  transactionId : TransactionId
  infoHash : InfoHash
  peerId : PeerId
  bytesDownloaded : NumberOfBytes
  bytesLeft : NumberOfBytes
  bytesUploaded : NumberOfBytes
  event : AnnounceEventBytes
  ipAddress : Ipv4AddrBytes
  key : PeerKey
  peersWanted : NumberOfPeers
  port : Port
deriving DecidableEq, Repr

/-- `ScrapeRequest` -/
structure ScrapeRequest where
  connectionId : ConnectionId
  transactionId : TransactionId
  infoHashes : List InfoHash
deriving DecidableEq, Repr

/-- `Request` -/
inductive Request where
  | connect (r : ConnectRequest)
  | announce (r : AnnounceRequest)
  | scrape (r : ScrapeRequest)
deriving DecidableEq, Repr

/-! ## Writing -/

/-- `ConnectRequest::write_bytes` -/
def ConnectRequest.writeBytes (r : ConnectRequest) : List U8 :=
  beBytes 8 protocolIdentifier ++ beBytes 4 (0 : I32) ++ beBytes 4 r.transactionId

/-- `AnnounceRequest::write_bytes`, which writes `self.as_bytes()`: the fields in order. -/
def AnnounceRequest.writeBytes (r : AnnounceRequest) : List U8 :=
  beBytes 8 r.connectionId ++ beBytes 4 r.actionPlaceholder ++ beBytes 4 r.transactionId ++
    r.infoHash.toList ++ r.peerId.toList ++ beBytes 8 r.bytesDownloaded ++
    beBytes 8 r.bytesLeft ++ beBytes 8 r.bytesUploaded ++ beBytes 4 r.event ++
    r.ipAddress.toList ++ beBytes 4 r.key ++ beBytes 4 r.peersWanted ++ beBytes 2 r.port

/-- `ScrapeRequest::write_bytes` -/
def ScrapeRequest.writeBytes (r : ScrapeRequest) : List U8 :=
  beBytes 8 r.connectionId ++ beBytes 4 (2 : I32) ++ beBytes 4 r.transactionId ++
    (r.infoHashes.map Bytes.toList).flatten

/-- `Request::write_bytes` -/
def Request.writeBytes : Request → List U8
  | .connect r => r.writeBytes
  | .announce r => r.writeBytes
  | .scrape r => r.writeBytes

@[simp] theorem AnnounceRequest.length_writeBytes (r : AnnounceRequest) : r.writeBytes.length = 98 := by
  simp [AnnounceRequest.writeBytes, Bytes.length_toList]

/-! ## Parsing -/

/-- `RequestParseError` -/
inductive RequestParseError where
  | sendable (connectionId : ConnectionId) (transactionId : TransactionId) (err : String)
  | unsendable (err : IoError ⊕ String)
deriving DecidableEq, Repr

/-- `RequestParseError::sendable_text` -/
def RequestParseError.sendableText (text : String) (connectionId : ConnectionId)
    (transactionId : TransactionId) : RequestParseError :=
  .sendable connectionId transactionId text

/-- `RequestParseError::unsendable_io` -/
def RequestParseError.unsendableIo (err : IoError) : RequestParseError := .unsendable (.inl err)

/-- `RequestParseError::unsendable_text` -/
def RequestParseError.unsendableText (text : String) : RequestParseError := .unsendable (.inr text)

open RequestParseError

/-- The first `n` bytes of a slice and the rest. -/
def splitField (n : Nat) (bs : List U8) : List U8 × List U8 := (bs.take n, bs.drop n)

@[simp] theorem splitField_append {n : Nat} {bs : List U8} (rest : List U8) (h : bs.length = n) :
    splitField n (bs ++ rest) = (bs, rest) := by
  subst h
  simp [splitField]

@[simp] theorem splitField_of_length {n : Nat} {bs : List U8} (h : bs.length = n) :
    splitField n bs = (bs, []) := by
  simpa using splitField_append [] h

/-- The packed fields of an `AnnounceRequest` read from the front of a byte slice. -/
def AnnounceRequest.ofLayout (b : List U8) : AnnounceRequest :=
  let (connectionId, b) := splitField 8 b
  let (actionPlaceholder, b) := splitField 4 b
  let (transactionId, b) := splitField 4 b
  let (infoHash, b) := splitField 20 b
  let (peerId, b) := splitField 20 b
  let (bytesDownloaded, b) := splitField 8 b
  let (bytesLeft, b) := splitField 8 b
  let (bytesUploaded, b) := splitField 8 b
  let (event, b) := splitField 4 b
  let (ipAddress, b) := splitField 4 b
  let (key, b) := splitField 4 b
  let (peersWanted, b) := splitField 4 b
  let (port, _) := splitField 2 b
  { connectionId := ofBeBytes 64 connectionId
    actionPlaceholder := ofBeBytes 32 actionPlaceholder
    transactionId := ofBeBytes 32 transactionId
    infoHash := Bytes.ofListD 20 infoHash
    peerId := Bytes.ofListD 20 peerId
    bytesDownloaded := ofBeBytes 64 bytesDownloaded
    bytesLeft := ofBeBytes 64 bytesLeft
    bytesUploaded := ofBeBytes 64 bytesUploaded
    event := ofBeBytes 32 event
    ipAddress := Bytes.ofListD 4 ipAddress
    key := ofBeBytes 32 key
    peersWanted := ofBeBytes 32 peersWanted
    port := ofBeBytes 16 port }

/-- `AnnounceRequest::read_from_prefix`: the packed struct from the first 98 bytes. -/
def AnnounceRequest.readFromPrefix (bytes : List U8) : Option AnnounceRequest :=
  if 98 ≤ bytes.length then some (AnnounceRequest.ofLayout bytes) else none

/-- `<[InfoHash] as FromBytes>::slice_from`: the bytes as 20-byte info hashes, if their
number is a multiple of 20. -/
def infoHashesSliceFrom (bytes : List U8) : Option (List InfoHash) :=
  if bytes.length % 20 = 0 then some ((chunksExact 20 bytes).map (Bytes.ofListD 20)) else none

/-- `bytes.get(8..12).map(I32::from_bytes)` -/
def actionOf (bytes : List U8) : Option I32 :=
  if 12 ≤ bytes.length then some (ofBeBytes 32 ((bytes.drop 8).take 4)) else none

/-- The three words a connect or a scrape request starts with, read through a `Cursor`
(`read_i64_ne`, `read_i32_ne`, `read_i32_ne`), and the unread rest. -/
def readHeader (bytes : List U8) : Except RequestParseError (I64 × I32 × I32 × List U8) := do
  let (first, cursor) ← (readWord 64 8 bytes).mapError unsendableIo
  let (action, cursor) ← (readWord 32 4 cursor).mapError unsendableIo
  let (transactionId, rest) ← (readWord 32 4 cursor).mapError unsendableIo
  pure (first, action, transactionId, rest)

/-- The connect branch of `Request::parse_bytes`. -/
def parseConnect (bytes : List U8) : Except RequestParseError Request := do
  let (protocolId, _action, transactionId, _) ← readHeader bytes
  if protocolId = protocolIdentifier then
    pure (.connect ⟨transactionId⟩)
  else
    throw (unsendableText "Protocol identifier missing")

/-- The announce branch of `Request::parse_bytes`. -/
def parseAnnounce (bytes : List U8) : Except RequestParseError Request :=
  match AnnounceRequest.readFromPrefix bytes with
  | none => throw (unsendableText "invalid data")
  | some request =>
    if 0 ≤ request.event.toInt ∧ request.event.toInt ≤ 3 then
      pure (.announce request)
    else
      throw (sendableText "Invalid announce event" request.connectionId request.transactionId)

/-- The scrape branch of `Request::parse_bytes`. -/
def parseScrape (bytes : List U8) (maxScrapeTorrents : U8) : Except RequestParseError Request := do
  let (connectionId, _action, transactionId, remainingBytes) ← readHeader bytes
  match infoHashesSliceFrom remainingBytes with
  | none =>
    throw (sendableText "Invalid info hash list. Note that full scrapes are not allowed"
      connectionId transactionId)
  | some infoHashes =>
    pure (.scrape ⟨connectionId, transactionId,
      infoHashes.take (min maxScrapeTorrents.toNat infoHashes.length)⟩)

/-- `Request::parse_bytes` -/
def Request.parseBytes (bytes : List U8) (maxScrapeTorrents : U8) :
    Except RequestParseError Request :=
  match actionOf bytes with
  | none => throw (unsendableText "Couldn't parse action")
  | some action =>
    if action.toInt = 0 then parseConnect bytes
    else if action.toInt = 1 then parseAnnounce bytes
    else if action.toInt = 2 then parseScrape bytes maxScrapeTorrents
    else throw (unsendableText "Invalid action")

/-! ## What the parser returns -/

section Spec

variable (b : List U8)

theorem readHeader_eq : readHeader b =
    if 16 ≤ b.length then
      .ok (ofBeBytes 64 (b.take 8), ofBeBytes 32 ((b.drop 8).take 4),
        ofBeBytes 32 ((b.drop 12).take 4), b.drop 16)
    else .error (unsendableIo .unexpectedEof) := by
  by_cases h : 16 ≤ b.length
  · have h8 : 8 ≤ b.length := by omega
    have h4 : 4 ≤ b.length - 8 := by omega
    have h4' : 4 ≤ b.length - 12 := by omega
    simp [readHeader, readWord, readExact, Except.mapError, Except.map, bind, Except.bind, pure,
      Except.pure, h, h8, h4, h4']
  · rw [if_neg h]
    rcases Nat.lt_or_ge b.length 8 with h8 | h8
    · simp [readHeader, readWord, readExact, Except.mapError, Except.map, bind, Except.bind,
        Nat.not_le.mpr h8]
    · rcases Nat.lt_or_ge b.length 12 with h12 | h12
      · have h4 : ¬4 ≤ b.length - 8 := by omega
        simp [readHeader, readWord, readExact, Except.mapError, Except.map, bind, Except.bind, h8, h4]
      · have h4 : 4 ≤ b.length - 8 := by omega
        have h4' : ¬4 ≤ b.length - 12 := by omega
        simp [readHeader, readWord, readExact, Except.mapError, Except.map, bind, Except.bind, h8, h4,
          h4']

theorem parseConnect_eq : parseConnect b =
    if 16 ≤ b.length then
      if ofBeBytes 64 (b.take 8) = protocolIdentifier then
        .ok (.connect ⟨ofBeBytes 32 ((b.drop 12).take 4)⟩)
      else .error (unsendableText "Protocol identifier missing")
    else .error (unsendableIo .unexpectedEof) := by
  rw [parseConnect, readHeader_eq]
  split <;> rfl

theorem parseScrape_eq (maxScrapeTorrents : U8) : parseScrape b maxScrapeTorrents =
    if 16 ≤ b.length then
      if (b.length - 16) % 20 = 0 then
        .ok (.scrape ⟨ofBeBytes 64 (b.take 8), ofBeBytes 32 ((b.drop 12).take 4),
          ((chunksExact 20 (b.drop 16)).map (Bytes.ofListD 20)).take
            (min maxScrapeTorrents.toNat (chunksExact 20 (b.drop 16)).length)⟩)
      else .error (sendableText "Invalid info hash list. Note that full scrapes are not allowed"
        (ofBeBytes 64 (b.take 8)) (ofBeBytes 32 ((b.drop 12).take 4)))
    else .error (unsendableIo .unexpectedEof) := by
  rw [parseScrape, readHeader_eq]
  split
  · by_cases hc : (b.length - 16) % 20 = 0 <;>
      simp [bind, Except.bind, infoHashesSliceFrom, hc, pure, Except.pure, throw, throwThe,
        MonadExceptOf.throw]
  · rfl

theorem parseBytes_of_actionOf {a : I32} (h : actionOf b = some a) (maxScrapeTorrents : U8) :
    Request.parseBytes b maxScrapeTorrents =
      if a.toInt = 0 then parseConnect b
      else if a.toInt = 1 then parseAnnounce b
      else if a.toInt = 2 then parseScrape b maxScrapeTorrents
      else .error (unsendableText "Invalid action") := by
  rw [Request.parseBytes, h]
  rfl

end Spec

/-! ## Round trip -/

/-- The requests `write_bytes` is meant for: an announce carries action 1 and an event in
`0..=3`; a scrape names between one and `max_scrape_torrents` info hashes. -/
def Request.WellFormed (maxScrapeTorrents : U8) : Request → Prop
  | .connect _ => True
  | .announce r => r.actionPlaceholder = 1 ∧ 0 ≤ r.event.toInt ∧ r.event.toInt ≤ 3
  | .scrape r => 1 ≤ r.infoHashes.length ∧ r.infoHashes.length ≤ maxScrapeTorrents.toNat

instance (maxScrapeTorrents : U8) : (r : Request) → Decidable (r.WellFormed maxScrapeTorrents)
  | .connect _ => inferInstanceAs (Decidable True)
  | .announce r => inferInstanceAs (Decidable (r.actionPlaceholder = 1 ∧ _))
  | .scrape r => inferInstanceAs (Decidable (1 ≤ r.infoHashes.length ∧ _))

theorem actionOf_append (x : I64) (a : I32) (rest : List U8) :
    actionOf (beBytes 8 x ++ beBytes 4 a ++ rest) = some a := by
  rw [actionOf, if_pos (by simp; omega)]
  simp

theorem readHeader_append (x : I64) (y z : I32) (rest : List U8) :
    readHeader (beBytes 8 x ++ beBytes 4 y ++ beBytes 4 z ++ rest) = .ok (x, y, z, rest) := by
  simp [readHeader, readWord_append, Except.mapError, Except.map, bind, Except.bind, pure,
    Except.pure]

theorem AnnounceRequest.ofLayout_append (r : AnnounceRequest) (rest : List U8) :
    AnnounceRequest.ofLayout (r.writeBytes ++ rest) = r := by
  simp only [AnnounceRequest.ofLayout, AnnounceRequest.writeBytes, List.append_assoc,
    splitField_append _ (length_beBytes _ _), splitField_append _ (Bytes.length_toList _),
    ofBeBytes_beBytes, Nat.reduceMul, le_refl, Bytes.ofListD_toList]

theorem infoHashesSliceFrom_flatten (infoHashes : List InfoHash) :
    infoHashesSliceFrom (infoHashes.map Bytes.toList).flatten = some infoHashes := by
  have hPieces : ∀ p ∈ infoHashes.map Bytes.toList, p.length = 20 := by
    simp [Bytes.length_toList]
  have hChunks := chunksExact_flatten (infoHashes.map Bytes.toList) [] hPieces (by decide) (by decide)
  rw [List.append_nil] at hChunks
  simp [infoHashesSliceFrom, hChunks, List.sum_map_count_dedup_eq_length, Bytes.length_toList,
    List.length_flatten, Function.comp_def]

theorem Request.parseBytes_writeBytes (r : Request) (maxScrapeTorrents : U8)
    (h : r.WellFormed maxScrapeTorrents) :
    Request.parseBytes r.writeBytes maxScrapeTorrents = .ok r := by
  cases r with
  | connect r =>
    rw [Request.writeBytes, ConnectRequest.writeBytes,
      ← List.append_nil (beBytes 8 protocolIdentifier ++ beBytes 4 (0 : I32) ++ beBytes 4 r.transactionId),
      parseBytes_of_actionOf _ (by simpa using actionOf_append _ _ _)]
    rw [parseConnect, readHeader_append]
    simp [bind, Except.bind, pure, Except.pure]
  | announce r =>
    obtain ⟨hAction, hEvent⟩ := h
    have hPrefix : AnnounceRequest.readFromPrefix r.writeBytes = some r := by
      simpa [AnnounceRequest.readFromPrefix] using AnnounceRequest.ofLayout_append r []
    have hActionOf : actionOf r.writeBytes = some 1 := by
      rw [← hAction]
      simpa [AnnounceRequest.writeBytes] using actionOf_append r.connectionId r.actionPlaceholder _
    rw [Request.writeBytes, parseBytes_of_actionOf _ hActionOf]
    simp [parseAnnounce, hPrefix, hEvent, pure, Except.pure]
  | scrape r =>
    obtain ⟨-, hLen⟩ := h
    rw [Request.writeBytes, ScrapeRequest.writeBytes,
      parseBytes_of_actionOf _ (by simpa using actionOf_append _ _ _)]
    rw [parseScrape, readHeader_append]
    simp [infoHashesSliceFrom_flatten, bind, Except.bind, pure,
      Except.pure, List.take_of_length_le, hLen]


/-! ## What a parsed request was read from -/

section Prefix

variable {b : List U8}

theorem take_drop_append_take_drop {i j n m : Nat} (h : j = i + n) :
    (b.drop i).take n ++ (b.drop j).take m = (b.drop i).take (n + m) := by
  subst h
  rw [List.take_add, List.drop_drop]

theorem beBytes_ofBeBytes_take {w n i : Nat} (hw : 8 * n ≤ w) (h : i + n ≤ b.length) :
    beBytes n (ofBeBytes w ((b.drop i).take n)) = (b.drop i).take n :=
  beBytes_ofBeBytes (by simp; omega) hw

theorem toList_ofListD_take {n i : Nat} (h : i + n ≤ b.length) :
    (Bytes.ofListD n ((b.drop i).take n)).toList = (b.drop i).take n :=
  Bytes.toList_ofListD (by simp; omega)

theorem AnnounceRequest.writeBytes_ofLayout (h : 98 ≤ b.length) :
    (AnnounceRequest.ofLayout b).writeBytes = b.take 98 := by
  rw [show b = b.drop 0 from rfl]
  simp only [AnnounceRequest.ofLayout, AnnounceRequest.writeBytes, splitField, List.drop_drop]
  simp (disch := omega) only [beBytes_ofBeBytes_take, toList_ofListD_take, Nat.reduceAdd,
    Nat.reduceMul]
  simp (disch := omega) only [take_drop_append_take_drop, Nat.reduceAdd]

theorem header_writeBytes (h : 16 ≤ b.length) :
    beBytes 8 (ofBeBytes 64 (b.take 8)) ++ beBytes 4 (ofBeBytes 32 ((b.drop 8).take 4)) ++
      beBytes 4 (ofBeBytes 32 ((b.drop 12).take 4)) = b.take 16 := by
  rw [show b = b.drop 0 from rfl]
  simp (disch := omega) only [beBytes_ofBeBytes_take, List.drop_drop, Nat.reduceAdd, Nat.reduceMul]
  simp (disch := omega) only [take_drop_append_take_drop, Nat.reduceAdd]

theorem actionOf_eq_some {a : I32} (h : actionOf b = some a) :
    12 ≤ b.length ∧ ofBeBytes 32 ((b.drop 8).take 4) = a := by
  unfold actionOf at h
  split at h
  · exact ⟨‹_›, Option.some.inj h⟩
  · cases h

theorem Request.writeBytes_prefix_of_parseBytes {m : U8} {r : Request}
    (h : Request.parseBytes b m = .ok r) : r.writeBytes <+: b := by
  cases hA : actionOf b with
  | none => simp [Request.parseBytes, hA, throw, throwThe, MonadExceptOf.throw] at h
  | some a =>
    obtain ⟨h12, hA'⟩ := actionOf_eq_some hA
    rw [parseBytes_of_actionOf b hA] at h
    split_ifs at h with h0 h1 h2
    · rw [parseConnect_eq] at h
      split_ifs at h with h16 hId
      cases h
      have ha : a = 0 := BitVec.eq_of_toInt_eq (by simpa using h0)
      show beBytes 8 protocolIdentifier ++ beBytes 4 (0 : I32) ++ _ <+: b
      rw [← hId, ← ha, ← hA', header_writeBytes h16]
      exact List.take_prefix 16 b
    · unfold parseAnnounce AnnounceRequest.readFromPrefix at h
      by_cases h98 : 98 ≤ b.length
      · by_cases hEvent : 0 ≤ (AnnounceRequest.ofLayout b).event.toInt ∧
            (AnnounceRequest.ofLayout b).event.toInt ≤ 3
        · simp only [if_pos h98, if_pos hEvent, pure, Except.pure, Except.ok.injEq] at h
          subst h
          show (AnnounceRequest.ofLayout b).writeBytes <+: b
          rw [AnnounceRequest.writeBytes_ofLayout h98]
          exact List.take_prefix 98 b
        · simp [h98, hEvent, throw, throwThe, MonadExceptOf.throw] at h
      · simp [h98, throw, throwThe, MonadExceptOf.throw] at h
    · rw [parseScrape_eq] at h
      split_ifs at h with h16 h20
      cases h
      have ha : a = 2 := BitVec.eq_of_toInt_eq (by simpa using h2)
      have hHashes : ∀ (j : Nat), (((chunksExact 20 (b.drop 16)).map (Bytes.ofListD 20)).take j).map
          Bytes.toList = (chunksExact 20 (b.drop 16)).take j := by
        intro j
        rw [← List.map_take, List.map_map]
        conv_rhs => rw [← List.map_id (List.take j _)]
        exact List.map_congr_left fun c hc => Bytes.toList_ofListD
          (length_of_mem_chunksExact (List.mem_of_mem_take hc))
      show beBytes 8 _ ++ beBytes 4 (2 : I32) ++ _ ++ _ <+: b
      rw [← ha, ← hA', header_writeBytes h16, hHashes]
      conv_rhs => rw [← List.take_append_drop 16 b]
      rw [List.prefix_append_right_inj]
      exact flatten_take_chunksExact_isPrefix 20 _ _

end Prefix

/-- Writing a well-formed request and parsing it back gives the request, for every cap on
the scrape size; and whatever the parser accepts is what `write_bytes` would write, followed
by bytes it ignored. -/
theorem request_parse_write_round_trip :
    (∀ (r : Request) (m : U8), r.WellFormed m → Request.parseBytes r.writeBytes m = .ok r) ∧
    (∀ (b : List U8) (m : U8) (r : Request), Request.parseBytes b m = .ok r → r.writeBytes <+: b) :=
  ⟨Request.parseBytes_writeBytes, fun _ _ _ => Request.writeBytes_prefix_of_parseBytes⟩

/-- A scrape datagram that ends right after its 16-byte header is accepted as a scrape of no
info hashes: `slice_from` takes the empty rest as an empty list, so the branch whose error
says that full scrapes are not allowed is never taken for it. -/
theorem parseBytes_scrape_without_info_hashes (connectionId : ConnectionId)
    (transactionId : TransactionId) (maxScrapeTorrents : U8) :
    Request.parseBytes (beBytes 8 connectionId ++ beBytes 4 (2 : I32) ++ beBytes 4 transactionId)
      maxScrapeTorrents = .ok (.scrape ⟨connectionId, transactionId, []⟩) := by
  rw [← List.append_nil (beBytes 8 connectionId ++ beBytes 4 (2 : I32) ++ beBytes 4 transactionId),
    parseBytes_of_actionOf _ (by simpa using actionOf_append _ _ _), parseScrape, readHeader_append]
  simp [infoHashesSliceFrom, chunksExact, bind, Except.bind, pure, Except.pure]

end AquaticTracker
