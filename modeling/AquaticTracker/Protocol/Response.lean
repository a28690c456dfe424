import AquaticTracker.Protocol.Request

/-! # UDP tracker responses

`Response::write` and `Response::from_bytes` of `aquatic_udp_protocol`, with the UTF-8 encoder
and the `Utf8Chunks` scanner that `String::from_utf8_lossy` runs.
-/

namespace AquaticTracker

open Wire

set_option autoImplicit false

/-! ## UTF-8 -/

/-- `char::encode_utf8`: the one to four bytes of a scalar value, the lead byte's tag
`0b0`, `0b110`, `0b1110` or `0b11110` before its high bits and `0b10` before every six
lower bits. -/
def encodeUtf8 (c : Char) : List U8 :=
  let code := c.toNat
  if code < 0x80 then [BitVec.ofNat 8 code]
  else if code < 0x800 then
    [BitVec.ofNat 8 (0xC0 + code / 64 % 32), BitVec.ofNat 8 (0x80 + code % 64)]
  else if code < 0x10000 then
    [BitVec.ofNat 8 (0xE0 + code / 4096 % 16), BitVec.ofNat 8 (0x80 + code / 64 % 64),
      BitVec.ofNat 8 (0x80 + code % 64)]
  else
    [BitVec.ofNat 8 (0xF0 + code / 262144 % 8), BitVec.ofNat 8 (0x80 + code / 4096 % 64),
      BitVec.ofNat 8 (0x80 + code / 64 % 64), BitVec.ofNat 8 (0x80 + code % 64)]

/-- `str::as_bytes`: the UTF-8 encoding of a string. -/
def asBytes (s : String) : List U8 := s.data.flatMap encodeUtf8

/-- `(byte as i8) < -64`: a continuation byte `0x80..=0xBF`. -/
def isContinuation (b : U8) : Bool := 0x80 ≤ b.toNat && b.toNat ≤ 0xBF

/-- The second bytes `Utf8Chunks` accepts after a three-byte lead. -/
def secondOfThree (lead b : Nat) : Bool :=
  (lead = 0xE0 && 0xA0 ≤ b && b ≤ 0xBF) || (0xE1 ≤ lead && lead ≤ 0xEC && 0x80 ≤ b && b ≤ 0xBF) ||
    (lead = 0xED && 0x80 ≤ b && b ≤ 0x9F) || (0xEE ≤ lead && lead ≤ 0xEF && 0x80 ≤ b && b ≤ 0xBF)

/-- The second bytes `Utf8Chunks` accepts after a four-byte lead. -/
def secondOfFour (lead b : Nat) : Bool :=
  (lead = 0xF0 && 0x90 ≤ b && b ≤ 0xBF) || (0xF1 ≤ lead && lead ≤ 0xF3 && 0x80 ≤ b && b ≤ 0xBF) ||
    (lead = 0xF4 && 0x80 ≤ b && b ≤ 0x8F)

/-- One step of `core::str::lossy::Utf8Chunks` at the front of `bytes`: the character of a
valid sequence there, or `none` for the invalid bytes that `from_utf8_lossy` replaces by one
U+FFFD (a lead byte and the bytes that still fitted it); and the bytes after them. A
missing byte reads as 0, which fits nothing. -/
def nextUtf8 : List U8 → Option Char × List U8
  | [] => (none, [])
  | b0 :: rest =>
    let lead := b0.toNat
    if lead < 0x80 then (some (Char.ofNat lead), rest)
    else if 0xC2 ≤ lead ∧ lead ≤ 0xDF then
      match rest with
      | b1 :: rest1 =>
        if isContinuation b1 then (some (Char.ofNat (lead % 32 * 64 + b1.toNat % 64)), rest1)
        else (none, rest)
      | [] => (none, rest)
    else if 0xE0 ≤ lead ∧ lead ≤ 0xEF then
      match rest with
      | b1 :: rest1 =>
        if secondOfThree lead b1.toNat then
          match rest1 with
          | b2 :: rest2 =>
            if isContinuation b2 then
              (some (Char.ofNat (lead % 16 * 4096 + b1.toNat % 64 * 64 + b2.toNat % 64)), rest2)
            else (none, rest1)
          | [] => (none, rest1)
        else (none, rest)
      | [] => (none, rest)
    else if 0xF0 ≤ lead ∧ lead ≤ 0xF4 then
      match rest with
      | b1 :: rest1 =>
        if secondOfFour lead b1.toNat then
          match rest1 with
          | b2 :: rest2 =>
            if isContinuation b2 then
              match rest2 with
              | b3 :: rest3 =>
                if isContinuation b3 then
                  (some (Char.ofNat (lead % 8 * 262144 + b1.toNat % 64 * 4096 +
                    b2.toNat % 64 * 64 + b3.toNat % 64)), rest3)
                else (none, rest2)
              | [] => (none, rest2)
            else (none, rest1)
          | [] => (none, rest1)
        else (none, rest)
      | [] => (none, rest)
    else (none, rest)

theorem length_nextUtf8_lt (b : U8) (bs : List U8) :
    (nextUtf8 (b :: bs)).2.length < bs.length + 1 := by
  simp only [nextUtf8]
  repeat' split
  all_goals simp only [List.length_cons]; omega

/-- The characters `String::from_utf8_lossy` decodes, one U+FFFD for each invalid run. -/
def lossyChars : List U8 → List Char
  | [] => []
  | b :: bs => (nextUtf8 (b :: bs)).1.getD '�' :: lossyChars (nextUtf8 (b :: bs)).2
termination_by bytes => bytes.length
decreasing_by simp_wf; exact length_nextUtf8_lt _ _

/-- `String::from_utf8_lossy(bytes).into_owned()` -/
def fromUtf8Lossy (bytes : List U8) : String := ⟨lossyChars bytes⟩

theorem toNat_ofNat_byte {n : Nat} (h : n < 256) : (BitVec.ofNat 8 n).toNat = n :=
  Nat.mod_eq_of_lt h

/-- A byte `0b10xxxxxx` that the encoder writes is a continuation byte holding six bits. -/
@[simp] theorem toNat_continuation (k : Nat) :
    (BitVec.ofNat 8 (0x80 + k % 64)).toNat = 0x80 + k % 64 :=
  toNat_ofNat_byte (by omega)

@[simp] theorem isContinuation_continuation (k : Nat) :
    isContinuation (BitVec.ofNat 8 (0x80 + k % 64)) = true := by
  simp only [isContinuation, toNat_continuation, Bool.and_eq_true, decide_eq_true_eq]
  omega

@[simp] theorem continuation_mod (k : Nat) : (0x80 + k % 64) % 64 = k % 64 := by omega

theorem nextUtf8_oneByte {n : Nat} (h : n < 0x80) (rest : List U8) :
    nextUtf8 (BitVec.ofNat 8 n :: rest) = (some (Char.ofNat n), rest) := by
  simp [nextUtf8, toNat_ofNat_byte (show n < 256 by omega), h]

theorem nextUtf8_twoBytes {n : Nat} (h1 : 0x80 ≤ n) (h2 : n < 0x800) (rest : List U8) :
    nextUtf8 (BitVec.ofNat 8 (0xC0 + n / 64 % 32) :: BitVec.ofNat 8 (0x80 + n % 64) :: rest) =
      (some (Char.ofNat n), rest) := by
  have hLead := toNat_ofNat_byte (show 0xC0 + n / 64 % 32 < 256 by omega)
  simp only [nextUtf8, hLead, isContinuation_continuation, toNat_continuation, continuation_mod,
    if_true]
  rw [if_neg (by omega), if_pos (by omega)]
  congr 3; omega

theorem nextUtf8_threeBytes {n : Nat} (h1 : 0x800 ≤ n) (h2 : n < 0x10000)
    (hSurrogate : n < 0xD800 ∨ 0xDFFF < n) (rest : List U8) :
    nextUtf8 (BitVec.ofNat 8 (0xE0 + n / 4096 % 16) :: BitVec.ofNat 8 (0x80 + n / 64 % 64) ::
      BitVec.ofNat 8 (0x80 + n % 64) :: rest) = (some (Char.ofNat n), rest) := by
  have hLead := toNat_ofNat_byte (show 0xE0 + n / 4096 % 16 < 256 by omega)
  simp only [nextUtf8, hLead, isContinuation_continuation, toNat_continuation, continuation_mod,
    if_true]
  rw [if_neg (by omega), if_neg (by omega), if_pos (by omega),
    if_pos (by simp only [secondOfThree]; simp; omega)]
  congr 3; omega

theorem nextUtf8_fourBytes {n : Nat} (h1 : 0x10000 ≤ n) (h2 : n < 0x110000) (rest : List U8) :
    nextUtf8 (BitVec.ofNat 8 (0xF0 + n / 262144 % 8) :: BitVec.ofNat 8 (0x80 + n / 4096 % 64) ::
      BitVec.ofNat 8 (0x80 + n / 64 % 64) :: BitVec.ofNat 8 (0x80 + n % 64) :: rest) =
      (some (Char.ofNat n), rest) := by
  have hLead := toNat_ofNat_byte (show 0xF0 + n / 262144 % 8 < 256 by omega)
  simp only [nextUtf8, hLead, isContinuation_continuation, toNat_continuation, continuation_mod,
    if_true]
  rw [if_neg (by omega), if_neg (by omega), if_neg (by omega), if_pos (by omega),
    if_pos (by simp only [secondOfFour]; simp; omega)]
  congr 3; omega

theorem nextUtf8_encodeUtf8 (c : Char) (rest : List U8) :
    nextUtf8 (encodeUtf8 c ++ rest) = (some c, rest) := by
  have hValid : c.toNat < 0xD800 ∨ (0xDFFF < c.toNat ∧ c.toNat < 0x110000) := c.valid
  conv_rhs => rw [← Char.ofNat_toNat c]
  simp only [encodeUtf8]
  generalize c.toNat = n at hValid ⊢
  split_ifs with h1 h2 h3
  · exact nextUtf8_oneByte h1 rest
  · exact nextUtf8_twoBytes (by omega) h2 rest
  · exact nextUtf8_threeBytes (by omega) h3 (by omega) rest
  · exact nextUtf8_fourBytes (by omega) (by omega) rest

theorem lossyChars_of_nextUtf8 {bytes rest : List U8} {c : Char}
    (h : nextUtf8 bytes = (some c, rest)) : lossyChars bytes = c :: lossyChars rest := by
  cases bytes with
  | nil => simp [nextUtf8] at h
  | cons b bs => rw [lossyChars, h]; rfl

@[simp] theorem fromUtf8Lossy_asBytes (s : String) : fromUtf8Lossy (asBytes s) = s := by
  obtain ⟨cs⟩ := s
  show String.mk (lossyChars (cs.flatMap encodeUtf8)) = String.mk cs
  congr 1
  induction cs with
  | nil => simp [lossyChars]
  | cons c cs ih => rw [List.flatMap_cons, lossyChars_of_nextUtf8 (nextUtf8_encodeUtf8 c _), ih]

/-! ## Responses -/

/-- `TorrentScrapeStatistics` -/
structure TorrentScrapeStatistics where
  seeders : NumberOfPeers
  completed : NumberOfDownloads
  leechers : NumberOfPeers
deriving DecidableEq, Repr

/-- `ConnectResponse` -/
structure ConnectResponse where
  connectionId : ConnectionId
  transactionId : TransactionId
deriving DecidableEq, Repr

/-- `ResponsePeerIpv4` -/
structure ResponsePeerIpv4 where
  ipAddress : Ipv4Addr
  port : Port
deriving DecidableEq, Repr

/-- `ResponsePeerIpv6` -/
structure ResponsePeerIpv6 where
  ipAddress : Ipv6Addr
  port : Port
deriving DecidableEq, Repr

/-- `AnnounceResponseIpv4` -/
structure AnnounceResponseIpv4 where
  transactionId : TransactionId
  announceInterval : AnnounceInterval
  leechers : NumberOfPeers
  seeders : NumberOfPeers
  peers : List ResponsePeerIpv4
deriving DecidableEq, Repr

/-- `AnnounceResponseIpv6` -/
structure AnnounceResponseIpv6 where
  transactionId : TransactionId
  announceInterval : AnnounceInterval
  leechers : NumberOfPeers
  seeders : NumberOfPeers
  peers : List ResponsePeerIpv6
deriving DecidableEq, Repr

/-- `ScrapeResponse` -/
structure ScrapeResponse where
  transactionId : TransactionId
  torrentStats : List TorrentScrapeStatistics
deriving DecidableEq, Repr

/-- `ErrorResponse`, its `Cow<'static, str>` message as a string. -/
structure ErrorResponse where
  transactionId : TransactionId
  message : String
deriving DecidableEq, Repr

/-- `Response` -/
inductive Response where
  | connect (r : ConnectResponse)
  | announceIpv4 (r : AnnounceResponseIpv4)
  | announceIpv6 (r : AnnounceResponseIpv6)
  | scrape (r : ScrapeResponse)
  | error (r : ErrorResponse)
deriving DecidableEq, Repr

/-! ## Writing -/

/-- One peer of an announce response: `write_all(&octets())`, then `write_u16(port)`. -/
def ResponsePeerIpv4.write (p : ResponsePeerIpv4) : List U8 :=
  p.ipAddress.octets.toList ++ beBytes 2 p.port

/-- One peer of an IPv6 announce response. -/
def ResponsePeerIpv6.write (p : ResponsePeerIpv6) : List U8 :=
  p.ipAddress.octets.toList ++ beBytes 2 p.port

/-- One entry of a scrape response. -/
def TorrentScrapeStatistics.write (s : TorrentScrapeStatistics) : List U8 :=
  beBytes 4 s.seeders ++ beBytes 4 s.completed ++ beBytes 4 s.leechers

/-- `Response::write` into a `Vec<u8>`, where no write fails. -/
def Response.write : Response → List U8
  | .connect r => beBytes 4 (0 : I32) ++ beBytes 4 r.transactionId ++ beBytes 8 r.connectionId
  | .announceIpv4 r =>
    beBytes 4 (1 : I32) ++ beBytes 4 r.transactionId ++ beBytes 4 r.announceInterval ++
      beBytes 4 r.leechers ++ beBytes 4 r.seeders ++ (r.peers.map ResponsePeerIpv4.write).flatten
  | .scrape r =>
    beBytes 4 (2 : I32) ++ beBytes 4 r.transactionId ++
      (r.torrentStats.map TorrentScrapeStatistics.write).flatten
  | .error r => beBytes 4 (3 : I32) ++ beBytes 4 r.transactionId ++ asBytes r.message
  | .announceIpv6 r =>
    beBytes 4 (4 : I32) ++ beBytes 4 r.transactionId ++ beBytes 4 r.announceInterval ++
      beBytes 4 r.leechers ++ beBytes 4 r.seeders ++ (r.peers.map ResponsePeerIpv6.write).flatten

/-! ## Reading -/

/-- A peer from a 6-byte chunk: `Ipv4Addr::from(chunk[..4])` and the `u16` of `chunk[4..]`. -/
def ResponsePeerIpv4.fromChunk (chunk : List U8) : ResponsePeerIpv4 :=
  ⟨⟨Bytes.ofListD 4 (chunk.take 4)⟩, ofBeBytes 16 (chunk.drop 4)⟩

/-- A peer from an 18-byte chunk. -/
def ResponsePeerIpv6.fromChunk (chunk : List U8) : ResponsePeerIpv6 :=
  ⟨⟨Bytes.ofListD 16 (chunk.take 16)⟩, ofBeBytes 16 (chunk.drop 16)⟩

/-- Statistics from a 12-byte chunk, three `read_i32` through a cursor. -/
def TorrentScrapeStatistics.fromChunk (chunk : List U8) : TorrentScrapeStatistics :=
  let (seeders, chunk) := splitField 4 chunk
  let (downloads, chunk) := splitField 4 chunk
  let (leechers, _) := splitField 4 chunk
  ⟨ofBeBytes 32 seeders, ofBeBytes 32 downloads, ofBeBytes 32 leechers⟩

/-- The interval, leechers and seeders of an announce response, and the bytes after them. -/
def readAnnounceFields (cursor : List U8) : Except IoError (I32 × I32 × I32 × List U8) := do
  let (announceInterval, cursor) ← readWord 32 4 cursor
  let (leechers, cursor) ← readWord 32 4 cursor
  let (seeders, cursor) ← readWord 32 4 cursor
  pure (announceInterval, leechers, seeders, cursor)

/-- The arms of `Response::from_bytes`'s match on the action, over the bytes after the
transaction id. -/
def Response.fromBody (action : I32) (transactionId : TransactionId) (cursor : List U8) :
    Except IoError Response :=
  if action.toInt = 0 then
    (readWord 64 8 cursor).map fun r => .connect ⟨r.1, transactionId⟩
  else if action.toInt = 1 then
    (readAnnounceFields cursor).map fun (announceInterval, leechers, seeders, rest) =>
      .announceIpv4 ⟨transactionId, announceInterval, leechers, seeders,
        (chunksExact 6 rest).map ResponsePeerIpv4.fromChunk⟩
  else if action.toInt = 2 then
    .ok (.scrape ⟨transactionId, (chunksExact 12 cursor).map TorrentScrapeStatistics.fromChunk⟩)
  else if action.toInt = 3 then
    .ok (.error ⟨transactionId, fromUtf8Lossy cursor⟩)
  else if action.toInt = 4 then
    (readAnnounceFields cursor).map fun (announceInterval, leechers, seeders, rest) =>
      .announceIpv6 ⟨transactionId, announceInterval, leechers, seeders,
        (chunksExact 18 rest).map ResponsePeerIpv6.fromChunk⟩
  else
    .ok (.error ⟨transactionId, "Invalid action"⟩)

/-- `Response::from_bytes` -/
def Response.fromBytes (bytes : List U8) : Except IoError Response := do
  let (action, cursor) ← readWord 32 4 bytes
  let (transactionId, cursor) ← readWord 32 4 cursor
  Response.fromBody action transactionId cursor

/-! ## Round trip -/

theorem Response.fromBytes_append (action transactionId : I32) (rest : List U8) :
    Response.fromBytes (beBytes 4 action ++ (beBytes 4 transactionId ++ rest)) =
      Response.fromBody action transactionId rest := by
  simp [Response.fromBytes, readWord_append, bind, Except.bind]

theorem readAnnounceFields_append (announceInterval leechers seeders : I32) (rest : List U8) :
    readAnnounceFields (beBytes 4 announceInterval ++ (beBytes 4 leechers ++
      (beBytes 4 seeders ++ rest))) = .ok (announceInterval, leechers, seeders, rest) := by
  simp [readAnnounceFields, readWord_append, bind, Except.bind, pure, Except.pure]

@[simp] theorem ResponsePeerIpv4.length_write (p : ResponsePeerIpv4) : p.write.length = 6 := by
  simp [write, Bytes.length_toList]

@[simp] theorem ResponsePeerIpv6.length_write (p : ResponsePeerIpv6) : p.write.length = 18 := by
  simp [write, Bytes.length_toList]

@[simp] theorem TorrentScrapeStatistics.length_write (s : TorrentScrapeStatistics) :
    s.write.length = 12 := by
  simp [write]

theorem ResponsePeerIpv4.fromChunk_write (p : ResponsePeerIpv4) : fromChunk p.write = p := by
  simp [fromChunk, write, Bytes.length_toList]

theorem ResponsePeerIpv6.fromChunk_write (p : ResponsePeerIpv6) : fromChunk p.write = p := by
  simp [fromChunk, write, Bytes.length_toList]

theorem TorrentScrapeStatistics.fromChunk_write (s : TorrentScrapeStatistics) :
    fromChunk s.write = s := by
  simp [fromChunk, write, List.append_assoc]

/-- Every response `write` produces is read back by `from_bytes` as itself: each of the five
actions, peer and statistics lists of any length, and error messages of any text. -/
theorem response_from_bytes_write (r : Response) : Response.fromBytes r.write = .ok r := by
  cases r <;>
    simp [Response.write, List.append_assoc, Response.fromBytes_append, Response.fromBody,
      readWord_beBytes, readAnnounceFields_append, Except.map,
      map_chunksExact_flatten _ _ ResponsePeerIpv4.length_write ResponsePeerIpv4.fromChunk_write,
      map_chunksExact_flatten _ _ ResponsePeerIpv6.length_write ResponsePeerIpv6.fromChunk_write,
      map_chunksExact_flatten _ _ TorrentScrapeStatistics.length_write
        TorrentScrapeStatistics.fromChunk_write]

/-- `Response::from_bytes` reads a response back from its bytes followed by bytes too few to
make one more entry: a connect response whatever follows its fixed fields, an announce response
while fewer than one peer's 6 or 18 bytes follow, a scrape response while fewer than 12. Only an
error response takes what follows into its message. -/
theorem response_from_bytes_ignores_partial_entry :
    (∀ (r : ConnectResponse) (t : List U8),
      Response.fromBytes ((Response.connect r).write ++ t) = .ok (.connect r)) ∧
    (∀ (r : AnnounceResponseIpv4) (t : List U8), t.length < 6 →
      Response.fromBytes ((Response.announceIpv4 r).write ++ t) = .ok (.announceIpv4 r)) ∧
    (∀ (r : AnnounceResponseIpv6) (t : List U8), t.length < 18 →
      Response.fromBytes ((Response.announceIpv6 r).write ++ t) = .ok (.announceIpv6 r)) ∧
    (∀ (r : ScrapeResponse) (t : List U8), t.length < 12 →
      Response.fromBytes ((Response.scrape r).write ++ t) = .ok (.scrape r)) := by
  refine ⟨fun r t => ?_, fun r t ht => ?_, fun r t ht => ?_, fun r t ht => ?_⟩ <;>
    simp only [Response.write, List.append_assoc, Response.fromBytes_append, Response.fromBody]
  · simp [readWord_append, Except.map]
  · simp [readWord_beBytes, readAnnounceFields_append, Except.map, map_chunksExact_flatten_append
      _ _ ResponsePeerIpv4.length_write ResponsePeerIpv4.fromChunk_write _ ht]
  · simp [readWord_beBytes, readAnnounceFields_append, Except.map, map_chunksExact_flatten_append
      _ _ ResponsePeerIpv6.length_write ResponsePeerIpv6.fromChunk_write _ ht]
  · simp [Except.map, map_chunksExact_flatten_append
      _ _ TorrentScrapeStatistics.length_write TorrentScrapeStatistics.fromChunk_write _ ht]

end AquaticTracker
