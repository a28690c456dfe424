import AquaticTracker.Protocol.Response
import Mathlib.Data.Nat.Digits

/-! # Response framing of an HTTP socket worker

`Connection::write_response` of `aquatic_http`: the 45-byte header with its length field, the
body and a CRLF in one buffer, sent in one `write` whose returned count is dropped.
-/

namespace AquaticTracker.Http

set_option autoImplicit false

/-- `RESPONSE_BUFFER_SIZE` -/
def responseBufferSize : Nat := 4096

/-- `RESPONSE_HEADER_A` -/
def responseHeaderA : List U8 := asBytes "HTTP/1.1 200 OK\r\nContent-Length: "

/-- `RESPONSE_HEADER_B` -/
def responseHeaderB : List U8 := asBytes "        "

/-- `RESPONSE_HEADER_C` -/
def responseHeaderC : List U8 := asBytes "\r\n\r\n"

/-- `RESPONSE_HEADER` -/
def responseHeader : List U8 := responseHeaderA ++ responseHeaderB ++ responseHeaderC

@[simp] theorem length_responseHeaderA : responseHeaderA.length = 33 := rfl

@[simp] theorem length_responseHeaderB : responseHeaderB.length = 8 := rfl

@[simp] theorem length_responseHeaderC : responseHeaderC.length = 4 := rfl

@[simp] theorem length_responseHeader : responseHeader.length = 45 := rfl

@[simp] theorem length_crlf : (asBytes "\r\n").length = 2 := rfl

/-- `itoa::Buffer::format`: the decimal digits of `n` in ASCII, the most significant first. -/
def itoa (n : Nat) : List U8 :=
  if n = 0 then asBytes "0" else (Nat.digits 10 n).reverse.map fun d => BitVec.ofNat 8 (48 + d)

theorem length_itoa_le {n k : Nat} (hk : 0 < k) (h : n < 10 ^ k) : (itoa n).length ≤ k := by
  unfold itoa
  split
  · exact hk
  · rename_i hn
    rw [List.length_map, List.length_reverse, Nat.digits_len 10 n (by norm_num) hn]
    have := Nat.log_lt_of_lt_pow hn h
    omega

/-- `buffer[start..start + src.len()].copy_from_slice(src)`; `none` where the range is out of
bounds and the indexing panics. -/
def copyFromSlice (buffer : List U8) (start : Nat) (src : List U8) : Option (List U8) :=
  if start + src.length ≤ buffer.length then
    some (buffer.take start ++ src ++ buffer.drop (start + src.length))
  else none

theorem copyFromSlice_overwrite (P Q R : List U8) {buffer src : List U8} {start : Nat}
    (hBuffer : buffer = P ++ (Q ++ R)) (hStart : start = P.length) (h : src.length = Q.length) :
    copyFromSlice buffer start src = some (P ++ (src ++ R)) := by
  subst hBuffer hStart
  rw [copyFromSlice, if_pos (by simp [h]), List.take_left, ← List.append_assoc P Q R,
    List.drop_append_eq_append_drop]
  simp [h]

theorem responseHeaderB_eq : responseHeaderB = List.replicate 8 (32 : U8) := rfl

/-- The part of `Connection` that `write_response` uses: its response buffer, and the bytes
written to its stream so far. -/
structure Connection where
  responseBuffer : List U8
  stream : List U8

/-- The connection that `Connection::run` sets up: `RESPONSE_HEADER`, then zeros, and nothing
written yet. -/
def Connection.new : Connection :=
  ⟨responseHeader ++ List.replicate (responseBufferSize - responseHeader.length) 0, []⟩

/-- `Connection::write_response` for a response whose `write` produces `body`: `written` is
what the stream's `write` returns, the number of bytes it accepted or an error, and
`flushed` what `flush` returns. A body that does not fit after the header fails as a write to
the slice does. -/
def Connection.writeResponse (conn : Connection) (body : List U8) (written : Except String Nat)
    (flushed : Except String Unit) : Option (Except String Connection) :=
  let position := responseHeader.length
  if conn.responseBuffer.length < position + body.length then
    some (.error "failed to write whole buffer")
  else do
    let buffer ← copyFromSlice conn.responseBuffer position body
    let position := position + body.length
    if buffer.length < position + 2 then
      some (.error "Response buffer is too short for response")
    else do
      let buffer ← copyFromSlice buffer position (asBytes "\r\n")
      let position := position + 2
      let contentLen := body.length + 2
      let buffer ← copyFromSlice buffer responseHeaderA.length responseHeaderB
      let buffer ← copyFromSlice buffer responseHeaderA.length (itoa contentLen)
      some do
        let accepted ← written
        flushed
        pure ⟨buffer, conn.stream ++ (buffer.take position).take accepted⟩

/-- The `write_response` calls of `run_request_response_loop` on one connection, each with a
response's body and the stream's results; the loop stops at the first error. -/
def Connection.writeResponses (conn : Connection) :
    List (List U8 × Except String Nat × Except String Unit) → Option (Except String Connection)
  | [] => some (.ok conn)
  | (body, written, flushed) :: rest =>
    (conn.writeResponse body written flushed).bind fun
      | .ok conn => conn.writeResponses rest
      | .error e => some (.error e)

/-- The frame a response should go out as: the status line and `Content-Length: `, the
decimal of the body's length plus two padded with spaces to eight bytes, the blank line, the
body, and a CRLF. -/
def responseFrame (body : List U8) : List U8 :=
  responseHeaderA ++ itoa (body.length + 2) ++
    List.replicate (8 - (itoa (body.length + 2)).length) (32 : U8) ++ responseHeaderC ++ body ++
      asBytes "\r\n"

/-- The fixed parts of `RESPONSE_HEADER` are in place in a buffer of 4096 bytes: the status
line and `Content-Length: ` first, the blank line at bytes 41 to 44, and between them the
eight bytes of the last length written. -/
def HeaderInPlace (buffer : List U8) : Prop :=
  ∃ contentLength rest, buffer = responseHeaderA ++ (contentLength ++ (responseHeaderC ++ rest)) ∧
    contentLength.length = 8 ∧ rest.length = responseBufferSize - responseHeader.length

theorem headerInPlace_new : HeaderInPlace Connection.new.responseBuffer :=
  ⟨responseHeaderB, List.replicate (responseBufferSize - responseHeader.length) 0,
    by simp [Connection.new, responseHeader], rfl, List.length_replicate _ _⟩

theorem writeResponse_of_fits {conn : Connection} (h : HeaderInPlace conn.responseBuffer)
    {body : List U8} (hFit : responseHeader.length + body.length + 2 ≤ responseBufferSize)
    (written : Except String Nat) (flushed : Except String Unit) :
    ∃ buffer, HeaderInPlace buffer ∧ conn.writeResponse body written flushed =
      some (do
        let accepted ← written
        flushed
        pure ⟨buffer, conn.stream ++ (responseFrame body).take accepted⟩) := by
  obtain ⟨contentLength, rest, hBuffer, hLength, hRest⟩ := h
  simp only [length_responseHeader, responseBufferSize] at hFit hRest
  have hDigits : (itoa (body.length + 2)).length ≤ 8 := length_itoa_le (by norm_num) (by omega)
  simp only [Connection.writeResponse, length_responseHeader, length_responseHeaderA]
  rw [if_neg (by simp [hBuffer, hLength, hRest]; omega)]
  rw [copyFromSlice_overwrite (responseHeaderA ++ (contentLength ++ responseHeaderC))
    (rest.take body.length) (rest.drop body.length) (by simp [hBuffer]) (by simp [hLength])
    (by simp; omega)]
  simp only [Option.bind_eq_bind, Option.some_bind]
  rw [if_neg (by simp [hLength, hRest]; omega)]
  let crlf := asBytes "\r\n"
  let tail := (rest.drop body.length).drop 2
  rw [copyFromSlice_overwrite (responseHeaderA ++ (contentLength ++ responseHeaderC) ++ body)
    ((rest.drop body.length).take 2) tail (by simp [tail]) (by simp [hLength]; omega)
    (by simp; omega)]
  simp only [Option.some_bind]
  rw [copyFromSlice_overwrite responseHeaderA contentLength
    (responseHeaderC ++ (body ++ (crlf ++ tail))) (by simp [crlf]) (by simp) (by simp [hLength])]
  simp only [Option.some_bind]
  rw [copyFromSlice_overwrite responseHeaderA (responseHeaderB.take (itoa (body.length + 2)).length)
    (responseHeaderB.drop (itoa (body.length + 2)).length ++
      (responseHeaderC ++ (body ++ (crlf ++ tail))))
    (by rw [← List.append_assoc (List.take _ _), List.take_append_drop])
    (by simp) (by simp; omega)]
  simp only [Option.some_bind]
  have hFrame : responseHeaderA ++ (itoa (body.length + 2) ++
      (responseHeaderB.drop (itoa (body.length + 2)).length ++
        (responseHeaderC ++ (body ++ (crlf ++ tail))))) = responseFrame body ++ tail := by
    rw [responseHeaderB_eq, List.drop_replicate]
    simp [responseFrame, crlf]
  have hFrameLength : (responseFrame body).length = 45 + body.length + 2 := by
    simp [responseFrame]
    omega
  refine ⟨responseFrame body ++ tail, hFrame ▸ ⟨itoa (body.length + 2) ++
    responseHeaderB.drop (itoa (body.length + 2)).length, body ++ (crlf ++ tail),
    by simp only [List.append_assoc],
    by simp; omega, by simp [tail, crlf, responseBufferSize]; omega⟩, ?_⟩
  rw [hFrame, ← hFrameLength, List.take_left]

theorem writeResponse_of_headerInPlace {conn : Connection} (h : HeaderInPlace conn.responseBuffer)
    {body : List U8} (hFit : responseHeader.length + body.length + 2 ≤ responseBufferSize)
    (accepted : Nat) :
    ∃ buffer, conn.writeResponse body (.ok accepted) (.ok ()) =
        some (.ok ⟨buffer, conn.stream ++ (responseFrame body).take accepted⟩) ∧
      HeaderInPlace buffer :=
  let ⟨buffer, hBuffer, hWrite⟩ := writeResponse_of_fits h hFit (.ok accepted) (.ok ())
  ⟨buffer, hWrite, hBuffer⟩

theorem length_of_headerInPlace {buffer : List U8} (h : HeaderInPlace buffer) :
    buffer.length = responseBufferSize := by
  obtain ⟨contentLength, rest, rfl, hLength, hRest⟩ := h
  simp [hLength, hRest, responseBufferSize]

theorem copyFromSlice_of_le {buffer src : List U8} {start : Nat}
    (h : start + src.length ≤ buffer.length) :
    ∃ buffer', copyFromSlice buffer start src = some buffer' ∧ buffer'.length = buffer.length :=
  ⟨_, if_pos h, by simp; omega⟩

theorem writeResponse_of_long_body {conn : Connection} (h : HeaderInPlace conn.responseBuffer)
    {body : List U8} (hLong : responseBufferSize < responseHeader.length + body.length)
    (written : Except String Nat) (flushed : Except String Unit) :
    conn.writeResponse body written flushed = some (.error "failed to write whole buffer") := by
  simp only [Connection.writeResponse]
  rw [if_pos (by rw [length_of_headerInPlace h]; exact hLong)]

theorem writeResponse_of_no_room_for_crlf {conn : Connection}
    (h : HeaderInPlace conn.responseBuffer) {body : List U8}
    (hFits : responseHeader.length + body.length ≤ responseBufferSize)
    (hLong : responseBufferSize < responseHeader.length + body.length + 2)
    (written : Except String Nat) (flushed : Except String Unit) :
    conn.writeResponse body written flushed =
      some (.error "Response buffer is too short for response") := by
  have hLength := length_of_headerInPlace h
  obtain ⟨buffer, hCopy, hBuffer⟩ :=
    @copyFromSlice_of_le conn.responseBuffer body responseHeader.length (hLength ▸ hFits)
  simp only [Connection.writeResponse]
  rw [if_neg (by omega)]
  simp only [hCopy, Option.bind_eq_bind, Option.some_bind]
  rw [if_pos (by omega)]

theorem writeResponses_of_headerInPlace :
    ∀ (responses : List (List U8 × Nat)) (conn : Connection),
      HeaderInPlace conn.responseBuffer →
      (∀ r ∈ responses, responseHeader.length + r.1.length + 2 ≤ responseBufferSize) →
      ∃ conn', conn.writeResponses (responses.map fun r => (r.1, .ok r.2, .ok ())) =
          some (.ok conn') ∧
        conn'.stream = conn.stream ++ (responses.map fun r => (responseFrame r.1).take r.2).flatten
  | [], conn, _, _ => ⟨conn, rfl, by simp⟩
  | (body, accepted) :: responses, conn, h, hFit => by
    obtain ⟨buffer, hWrite, hBuffer⟩ :=
      writeResponse_of_headerInPlace h (hFit _ (List.mem_cons_self _ _)) accepted
    obtain ⟨conn', hRun, hStream⟩ := writeResponses_of_headerInPlace responses
      ⟨buffer, conn.stream ++ (responseFrame body).take accepted⟩ hBuffer
      fun r hr => hFit r (List.mem_cons_of_mem _ hr)
    refine ⟨conn', ?_, ?_⟩
    · simp only [List.map_cons, Connection.writeResponses, hWrite, Option.some_bind, hRun]
    · simp [hStream]

/-- On a connection as `Connection::run` sets it up, every response whose body fits goes out
as its exact frame, but only the prefix of it that the stream's one `write` accepted: the
count is not looked at and the rest is never written. -/
theorem write_responses_send_accepted_prefixes (responses : List (List U8 × Nat))
    (hFit : ∀ r ∈ responses, responseHeader.length + r.1.length + 2 ≤ responseBufferSize) :
    ∃ conn, Connection.new.writeResponses (responses.map fun r => (r.1, .ok r.2, .ok ())) =
        some (.ok conn) ∧
      conn.stream = (responses.map fun r => (responseFrame r.1).take r.2).flatten :=
  writeResponses_of_headerInPlace responses Connection.new headerInPlace_new hFit

/-- A stream whose `write` takes one byte of an empty body's frame: the connection goes on
with only that byte sent. -/
theorem write_response_sends_one_byte :
    ∃ conn, Connection.new.writeResponses [([], .ok 1, .ok ())] = some (.ok conn) ∧
      conn.stream = (responseFrame []).take 1 := by
  obtain ⟨conn, hRun, hStream⟩ :=
    write_responses_send_accepted_prefixes [([], 1)] (by simp [responseBufferSize])
  exact ⟨conn, hRun, by simpa using hStream⟩

/-! ## Every run, errors included -/

/-- What a run of `write_response` calls should send, by the frames alone: each response whose
frame fits the buffer goes out cut to what its write accepted, and the run ends at the first
error: a body too long for the buffer, or a failed write or flush. -/
def framesSent (stream : List U8) :
    List (List U8 × Except String Nat × Except String Unit) → Except String (List U8)
  | [] => .ok stream
  | (body, written, flushed) :: rest =>
    if responseBufferSize < responseHeader.length + body.length then
      .error "failed to write whole buffer"
    else if responseBufferSize < responseHeader.length + body.length + 2 then
      .error "Response buffer is too short for response"
    else do
      let accepted ← written
      flushed
      framesSent (stream ++ (responseFrame body).take accepted) rest

theorem writeResponses_framesSent :
    ∀ (responses : List (List U8 × Except String Nat × Except String Unit)) (conn : Connection),
      HeaderInPlace conn.responseBuffer →
      (conn.writeResponses responses).map (Except.map Connection.stream) =
        some (framesSent conn.stream responses)
  | [], _, _ => rfl
  | (body, written, flushed) :: rest, conn, h => by
    by_cases hLong : responseBufferSize < 45 + body.length
    · simp [Connection.writeResponses, writeResponse_of_long_body h hLong, framesSent, hLong,
        Except.map]
    by_cases hCrlf : responseBufferSize < 45 + body.length + 2
    · simp [Connection.writeResponses,
        writeResponse_of_no_room_for_crlf h (Nat.not_lt.mp hLong) hCrlf, framesSent, hLong, hCrlf,
        Except.map]
    obtain ⟨buffer, hBuffer, hWrite⟩ := writeResponse_of_fits h (Nat.not_lt.mp hCrlf) written flushed
    have ih := fun stream => writeResponses_framesSent rest ⟨buffer, stream⟩ hBuffer
    cases written <;> cases flushed <;>
      simp [Connection.writeResponses, hWrite, framesSent, hLong, hCrlf, Except.map, bind,
        Except.bind, pure, Except.pure, ih]

/-- Every run of `write_response` on a connection as `Connection::run` sets it up, with any
bodies and any results of the stream's `write` and `flush`, never panics and sends exactly what
`framesSent` says: the accepted prefix of each fitting response's frame, up to the first error,
which it reports with the same text. -/
theorem write_responses_refine_frames
    (responses : List (List U8 × Except String Nat × Except String Unit)) :
    (Connection.new.writeResponses responses).map (Except.map Connection.stream) =
      some (framesSent [] responses) :=
  writeResponses_framesSent responses Connection.new headerInPlace_new

end AquaticTracker.Http
