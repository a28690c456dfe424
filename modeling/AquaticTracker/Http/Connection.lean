import AquaticTracker.Http.Scrape

/-! # Reading a request on an HTTP connection

`Connection::read_request` of `aquatic_http`: reads into the 2048-byte request buffer until the
parse, an argument here, accepts or rejects the bytes, the peer closes, or the buffer is full.
-/

namespace AquaticTracker.Http

set_option autoImplicit false

/-- `REQUEST_BUFFER_SIZE` -/
def requestBufferSize : Nat := 2048

/-- `Result<Request, RequestParseError>` of `Request::from_bytes`. -/
inductive ParseResult where
  | ok (request : Request)
  | invalid
  | needMoreData

/-! ## read_request -/

section ReadRequest

variable (fromBytes : List U8 → ParseResult) (read : Nat → Except String (List U8))

/-- The loop of `Connection::read_request`, with the bytes read so far for this request and the
number of `read` calls made on the connection: its result, `Either<FailureResponse, Request>`
as `String ⊕ Request`, and the number of reads after it. `read i` is what the `i`-th read of the
stream delivers, of which the room left in the buffer is taken. -/
def readRequestFrom (buffer : List U8) (reads : Nat) : Except String (String ⊕ Request) × Nat :=
  if buffer.length = requestBufferSize then (.error "request buffer is full", reads)
  else
    match read reads with
    | .error err => (.error err, reads + 1)
    | .ok chunk =>
      if hBytes : chunk.take (requestBufferSize - buffer.length) = [] then
        (.error "peer closed connection", reads + 1)
      else
        match fromBytes (buffer ++ chunk.take (requestBufferSize - buffer.length)) with
        | .ok request => (.ok (.inr request), reads + 1)
        | .invalid => (.ok (.inl "Invalid request"), reads + 1)
        | .needMoreData =>
          readRequestFrom (buffer ++ chunk.take (requestBufferSize - buffer.length)) (reads + 1)
termination_by requestBufferSize - buffer.length
decreasing_by
  have hPos := List.length_pos.mpr hBytes
  simp only [List.length_append, List.length_take] at hPos ⊢
  omega

/-- `Connection::read_request`: the buffer position starts at 0. -/
def readRequest (reads : Nat) : Except String (String ⊕ Request) × Nat :=
  readRequestFrom fromBytes read [] reads

theorem readRequestFrom_of_read {buffer chunk : List U8} {reads : Nat}
    (hRead : read reads = .ok chunk) (hChunk : chunk ≠ [])
    (hFit : buffer.length + chunk.length ≤ requestBufferSize) :
    readRequestFrom fromBytes read buffer reads =
      match fromBytes (buffer ++ chunk) with
      | .ok request => (.ok (.inr request), reads + 1)
      | .invalid => (.ok (.inl "Invalid request"), reads + 1)
      | .needMoreData => readRequestFrom fromBytes read (buffer ++ chunk) (reads + 1) := by
  have hTake : chunk.take (requestBufferSize - buffer.length) = chunk :=
    List.take_of_length_le (by omega)
  have hRoom : buffer.length ≠ requestBufferSize := by
    have := List.length_pos.mpr hChunk
    omega
  rw [readRequestFrom, if_neg hRoom]
  simp only [hRead, hTake, dif_neg hChunk]

theorem readRequestFrom_chunks :
    ∀ (chunks : List (List U8)) (buffer : List U8) (reads : Nat),
      (∀ i (h : i < chunks.length), read (reads + i) = .ok chunks[i]) →
      (∀ c ∈ chunks, c ≠ []) → buffer.length + chunks.flatten.length ≤ requestBufferSize →
      (∀ j, 0 < j → j ≤ chunks.length →
        fromBytes (buffer ++ (chunks.take j).flatten) = .needMoreData) →
      readRequestFrom fromBytes read buffer reads =
        readRequestFrom fromBytes read (buffer ++ chunks.flatten) (reads + chunks.length)
  | [], buffer, reads, _, _, _, _ => by simp
  | c :: rest, buffer, reads, hRead, hNonempty, hFit, hMore => by
    have hC : read reads = .ok c := by simpa using hRead 0 (Nat.succ_pos _)
    have hNeed : fromBytes (buffer ++ c) = .needMoreData := by
      simpa using hMore 1 Nat.one_pos (by simp)
    simp only [List.flatten_cons, List.length_append] at hFit
    rw [readRequestFrom_of_read fromBytes read hC (hNonempty c (List.mem_cons_self _ _))
      (by omega), hNeed]
    dsimp only
    rw [readRequestFrom_chunks rest (buffer ++ c) (reads + 1)
      (fun i h => by simpa [Nat.add_right_comm] using hRead (i + 1) (by simp; omega))
      (fun c' hc' => hNonempty c' (List.mem_cons_of_mem _ hc'))
      (by rw [List.length_append]; omega)
      (fun j hj hjLen => by simpa using hMore (j + 1) (by omega) (by simp; omega))]
    simp only [List.flatten_cons, List.append_assoc, List.length_cons]
    congr 1
    omega

/-- However the stream cuts a request of at most `REQUEST_BUFFER_SIZE` bytes into reads, if
`from_bytes` needs more data at the end of every read but the last and takes the whole as a
request, `read_request` returns that request after exactly those reads. -/
theorem read_request_split_invariant (reads : Nat) (chunks : List (List U8)) (last : List U8)
    (request : Request)
    (hRead : ∀ i (h : i < chunks.length), read (reads + i) = .ok chunks[i])
    (hLast : read (reads + chunks.length) = .ok last)
    (hNonempty : ∀ c ∈ chunks, c ≠ []) (hLastNonempty : last ≠ [])
    (hFit : (chunks.flatten ++ last).length ≤ requestBufferSize)
    (hMore : ∀ j, 0 < j → j ≤ chunks.length → fromBytes (chunks.take j).flatten = .needMoreData)
    (hParse : fromBytes (chunks.flatten ++ last) = .ok request) :
    readRequest fromBytes read reads = (.ok (.inr request), reads + chunks.length + 1) := by
  rw [List.length_append] at hFit
  unfold readRequest
  rw [readRequestFrom_chunks fromBytes read chunks [] reads hRead hNonempty
      (by rw [List.length_nil, Nat.zero_add]; omega)
      (fun j hj hjLen => by simpa using hMore j hj hjLen),
    readRequestFrom_of_read fromBytes read hLast hLastNonempty (by simpa using hFit)]
  simp [hParse]

/-- A three-byte request that arrives as two bytes and then one is read after both reads. -/
theorem read_request_split_invariant_two_reads :
    readRequest (fun b => if 3 ≤ b.length then .ok (.announce (Bytes.replicate 20 0))
        else .needMoreData) (fun i => if i = 0 then .ok [1, 2] else .ok [3]) 0 =
      (.ok (.inr (.announce (Bytes.replicate 20 0))), 2) :=
  read_request_split_invariant _ _ 0 [[1, 2]] [3] _
    (fun i h => by
      obtain rfl : i = 0 := by simpa using h
      rfl)
    rfl (by simp) (by simp) (by decide)
    (fun j hj hjLen => by
      obtain rfl : j = 1 := by simp at hjLen; omega
      rfl)
    rfl

theorem readRequestFrom_reads_le (buffer : List U8) (reads : Nat)
    (hLen : buffer.length ≤ requestBufferSize) :
    (readRequestFrom fromBytes read buffer reads).2 ≤ reads + (requestBufferSize - buffer.length) := by
  induction buffer, reads using readRequestFrom.induct fromBytes read with
  | case1 buffer reads hFull => rw [readRequestFrom, if_pos hFull]; omega
  | case2 buffer reads hRoom err hRead =>
    rw [readRequestFrom, if_neg hRoom]
    simp only [hRead]
    omega
  | case3 buffer reads hRoom chunk hRead hEmpty =>
    rw [readRequestFrom, if_neg hRoom]
    simp only [hRead, dif_pos hEmpty]
    omega
  | case4 buffer reads hRoom chunk hRead hBytes _ hParse
  | case5 buffer reads hRoom chunk hRead hBytes hParse =>
    rw [readRequestFrom, if_neg hRoom]
    simp only [hRead, dif_neg hBytes, hParse]
    omega
  | case6 buffer reads hRoom chunk hRead hBytes hParse ih =>
    have hPos := List.length_pos.mpr hBytes
    rw [readRequestFrom, if_neg hRoom]
    simp only [hRead, dif_neg hBytes, hParse]
    simp only [List.length_append, List.length_take] at ih hPos ⊢
    have := ih (by omega)
    omega

/-- Whatever the stream delivers and whatever `from_bytes` decides, `read_request` returns after
at most `REQUEST_BUFFER_SIZE` reads. -/
theorem read_request_reads_at_most_buffer_size (reads : Nat) :
    (readRequest fromBytes read reads).2 ≤ reads + requestBufferSize := by
  simpa using readRequestFrom_reads_le fromBytes read [] reads (Nat.zero_le _)

/-- A request that `from_bytes` never decides on, from a peer that keeps sending, fails with
"request buffer is full" once the buffer holds `REQUEST_BUFFER_SIZE` bytes. -/
theorem read_request_fails_when_buffer_fills (reads : Nat)
    (hNeed : ∀ bytes : List U8, bytes.length ≤ requestBufferSize → fromBytes bytes = .needMoreData)
    (hRead : ∀ i, ∃ chunk, chunk ≠ [] ∧ read i = .ok chunk) :
    (readRequest fromBytes read reads).1 = .error "request buffer is full" := by
  suffices ∀ buffer reads, buffer.length ≤ requestBufferSize →
      (readRequestFrom fromBytes read buffer reads).1 = .error "request buffer is full" from
    this [] reads (Nat.zero_le _)
  intro buffer reads
  induction buffer, reads using readRequestFrom.induct fromBytes read with
  | case1 buffer reads hFull => intro; rw [readRequestFrom, if_pos hFull]
  | case2 buffer reads hRoom err hErr =>
    obtain ⟨chunk, -, hChunk⟩ := hRead reads
    simp [hChunk] at hErr
  | case3 buffer reads hRoom chunk hChunk hEmpty =>
    intro hLen
    obtain ⟨chunk', hNonempty, hChunk'⟩ := hRead reads
    obtain rfl : chunk = chunk' := by simpa [hChunk] using hChunk'
    rcases List.take_eq_nil_iff.mp hEmpty with hFull | rfl
    · omega
    · exact absurd rfl hNonempty
  | case4 buffer reads hRoom chunk hChunk hBytes _ hParse
  | case5 buffer reads hRoom chunk hChunk hBytes hParse =>
    intro hLen
    rw [hNeed _ (by simp; omega)] at hParse
    cases hParse
  | case6 buffer reads hRoom chunk hChunk hBytes hParse ih =>
    intro hLen
    rw [readRequestFrom, if_neg hRoom]
    simp only [hChunk, dif_neg hBytes, hParse]
    exact ih (by simp; omega)

/-- A parser that always needs more data, on a stream of one-byte reads. -/
theorem read_request_fails_when_buffer_fills_one_byte_reads :
    (readRequest (fun _ => .needMoreData) (fun _ => .ok [0]) 0).1 = .error "request buffer is full" :=
  read_request_fails_when_buffer_fills _ _ 0 (fun _ _ => rfl) fun _ => ⟨[0], by simp, rfl⟩

end ReadRequest

end AquaticTracker.Http
