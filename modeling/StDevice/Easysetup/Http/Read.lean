import StDevice.Foundation.Buffer
import StDevice.Easysetup.Http.Parser

/-!
# Reading a request from the connection

One request arrives in as many pieces as the network likes. `http_packet_read`
collects pieces until the blank line is there, the parser finds the length of the
body, and `http_packet_read_remaining` waits for what is missing of it. That last
loop stores every piece at the same place, so it keeps one piece only.
-/

namespace StDevice.Easysetup.Http

open CString

/-- `RX_BUFFER_MAX`. -/
def rxBufferMax : Nat := 1024

/-- A result of `port_net_read`; no bytes stand for a closed connection. -/
inductive NetRead where
  | failed
  | bytes (data : List UInt8)

/-- Why no request is handled. `waits` is a read that does not return. -/
inductive ReadFailure where
  | waits | recvFail | peerConnClosed | overrun | internalServerError
  deriving DecidableEq, Repr

/-- `port_net_read` into the buffer, for all but its last cell. A longer result,
which `port_net_read` does not give, is an overrun. -/
def portNetRead (rxBuffer : List UInt8) (offset : Nat) :
    NetRead → Except ReadFailure (List UInt8 × Nat)
  | .failed => .error .recvFail
  | .bytes data =>
      if data = [] then .error .peerConnClosed
      else if offset + data.length + 1 ≤ rxBuffer.length then
        match Buffer.write rxBuffer offset data with
        | none => .error .overrun
        | some rxBuffer => .ok (rxBuffer, data.length)
      else .error .overrun

/-- The four characters that end a header. -/
def blankAt (buf : List UInt8) (i : Nat) : Bool := (buf.drop i).take 4 = ascii "\r\n\r\n"

/-- The search for the end of the header. The bound is a difference of unsigned
numbers, which is huge for fewer than three characters. -/
def headerPosition (rxBuffer : List UInt8) (existingLen : Nat) : Option Nat :=
  ((List.range existingLen).find? fun i =>
    decide (existingLen < 3 ∨ i < existingLen - 3) && blankAt rxBuffer i).map (· + 4)

/-- What `http_packet_read` gives: the buffer, the number of bytes in it, the
length of the header, and the reads still to come. -/
structure HeaderRead where
  rxBuffer : List UInt8
  receivedLen : Nat
  headerLen : Nat
  rest : List NetRead

def httpPacketRead (rxBuffer : List UInt8) (existingLen : Nat) :
    List NetRead → Except ReadFailure HeaderRead
  | [] => .error .waits
  | read :: rest =>
      match portNetRead rxBuffer existingLen read with
      | .error err => .error err
      | .ok (rxBuffer, len) =>
          match headerPosition rxBuffer (existingLen + len) with
          | some position => .ok ⟨rxBuffer, existingLen + len, position, rest⟩
          | none => httpPacketRead rxBuffer (existingLen + len) rest

/-- `offset` does not move while `total_recv_len` does. -/
def httpPacketReadRemaining (rxBuffer : List UInt8) (offset expectedLen totalRecvLen : Nat) :
    List NetRead → Except ReadFailure (List UInt8)
  | [] => .error .waits
  | read :: rest =>
      match portNetRead rxBuffer offset read with
      | .error err => .error err
      | .ok (rxBuffer, len) =>
          if totalRecvLen + len < expectedLen then
            httpPacketReadRemaining rxBuffer offset expectedLen (totalRecvLen + len) rest
          else .ok rxBuffer

/-- The arguments of `http_msg_handler`. A `type` of `none` is `D2D_ERROR`; the
payload is the buffer from the payload's position on. -/
structure Call where
  cmd : Option Step
  type : Option Method
  payload : Option (List UInt8)

/-- One round of the loop in `process_accepted_connection`, up to the call of
`http_msg_handler`. -/
def processRequest (reads : List NetRead) : Except ReadFailure Call :=
  match httpPacketRead (List.replicate rxBufferMax 0) 0 reads with
  | .error err => .error err
  | .ok header =>
      match esMsgParser header.rxBuffer with
      | none => .ok ⟨none, none, none⟩
      | some parsed =>
          match parsed.payload with
          | none => .ok ⟨parsed.cmd, parsed.type, none⟩
          | some payload =>
              if parsed.type = some .post ∧ strlen parsed.buf payload < parsed.contentLen then
                match httpPacketReadRemaining parsed.buf header.receivedLen
                    (header.headerLen + parsed.contentLen) header.receivedLen header.rest with
                | .error .waits => .error .waits
                | .error _ => .error .internalServerError
                | .ok rxBuffer =>
                    .ok ⟨parsed.cmd, parsed.type, some (rxBuffer.drop header.headerLen)⟩
              else .ok ⟨parsed.cmd, parsed.type, some (parsed.buf.drop payload)⟩

/-- The receive buffer after the bytes have arrived. -/
def received (bytes : List UInt8) : List UInt8 :=
  bytes ++ List.replicate (rxBufferMax - bytes.length) 0

/-- A POST request that `es_msg_parser` accepts and that fits in the buffer. -/
structure PostRequest where
  header : List UInt8
  body : List UInt8
  parsed : Parsed
  complete : blankAt header (header.length - 4) = true
  first : ∀ i < header.length - 4, blankAt header i = false
  fits : header.length + body.length ≤ rxBufferMax - 1
  text : 0 ∉ body
  accepted : esMsgParser (received (header ++ body)) = some parsed
  post : parsed.type = some .post
  contentLength : parsed.contentLen = body.length

/-- A way the network cuts bytes into reads. -/
structure Segmentation (bytes : List UInt8) where
  pieces : List (List UInt8)
  nonempty : ∀ piece ∈ pieces, piece ≠ []
  whole : pieces.flatten = bytes

/-- The pieces behind the one that completes the first `n` bytes. -/
def piecesAfter (n : Nat) : List (List UInt8) → List (List UInt8)
  | [] => []
  | piece :: rest => if n ≤ piece.length then rest else piecesAfter (n - piece.length) rest

namespace PostRequest

variable (request : PostRequest)

def bytes : List UInt8 := request.header ++ request.body

/-- The parser finds the end of the header where it is. -/
def EndsHeader : Prop := EndsHeaderAt (received request.bytes) request.header.length

/-- `http_msg_handler` is called for the request, with its body. -/
def Delivered (cut : Segmentation request.bytes) : Prop :=
  ∃ call, processRequest (cut.pieces.map .bytes) = .ok call ∧ call.cmd = request.parsed.cmd ∧
    call.type = some .post ∧ (call.payload.getD []).take request.body.length = request.body

/-- The number of reads behind the one that completes the header. -/
def laterReads (cut : Segmentation request.bytes) : Nat :=
  (piecesAfter request.header.length cut.pieces).length

end PostRequest

theorem length_received {bytes : List UInt8} (fits : bytes.length ≤ rxBufferMax) :
    (received bytes).length = rxBufferMax := by
  unfold received
  rw [List.length_append, List.length_replicate]
  omega

theorem take_received {bytes : List UInt8} {n : Nat} (inside : n ≤ bytes.length) :
    (received bytes).take n = bytes.take n := by
  unfold received
  exact List.take_append_of_le_length inside

theorem drop_received {bytes : List UInt8} {n : Nat} (inside : n ≤ bytes.length) :
    (received bytes).drop n = bytes.drop n ++ List.replicate (rxBufferMax - bytes.length) 0 := by
  unfold received
  exact List.drop_append_of_le_length inside

theorem portNetRead_eq_ok {buf data stored : List UInt8} {offset len : Nat}
    (reads : portNetRead buf offset (.bytes data) = .ok (stored, len)) :
    len = data.length ∧ Buffer.write buf offset data = some stored := by
  unfold portNetRead at reads
  split at reads
  case h_1 => exact absurd reads (by simp)
  case h_2 same =>
    obtain rfl := NetRead.bytes.inj same
    split at reads
    case isTrue => exact absurd reads (by simp)
    case isFalse =>
      split at reads
      case isTrue =>
        split at reads
        case h_1 => exact absurd reads (by simp)
        case h_2 written =>
          obtain ⟨rfl, rfl⟩ := Prod.mk.inj (Except.ok.inj reads)
          exact ⟨rfl, written⟩
      case isFalse => exact absurd reads (by simp)

/-- A read behind what has arrived. -/
theorem portNetRead_received {bytes data : List UInt8} (some_data : data ≠ [])
    (fits : bytes.length + data.length < rxBufferMax) :
    portNetRead (received bytes) bytes.length (.bytes data) =
      .ok (received (bytes ++ data), data.length) := by
  have space := length_received (show bytes.length ≤ rxBufferMax by omega)
  have stored : Buffer.write (received bytes) bytes.length data =
      some (received (bytes ++ data)) := by
    rw [Buffer.write_eq_some_iff]
    refine ⟨by omega, ?_⟩
    unfold received
    rw [List.take_left, ← List.drop_drop, List.drop_left, List.drop_replicate, List.length_append,
      Nat.sub_sub]
  unfold portNetRead
  simp only [some_data, if_false, space, stored]
  rw [if_pos (by omega)]

/-- A blank line lies inside the bytes. -/
theorem blankAt_bound {bytes : List UInt8} {i : Nat} (blank : blankAt bytes i = true) :
    i + 4 ≤ bytes.length := by
  have same : (bytes.drop i).take 4 = ascii "\r\n\r\n" := by simpa [blankAt] using blank
  have length : ((bytes.drop i).take 4).length = 4 := by
    rw [same]
    rfl
  rw [List.length_take, List.length_drop] at length
  omega

theorem blankAt_append {bytes more : List UInt8} {i : Nat} (inside : i + 4 ≤ bytes.length) :
    blankAt (bytes ++ more) i = blankAt bytes i := by
  unfold blankAt
  rw [List.drop_append_of_le_length (by omega), List.take_append_of_le_length]
  rw [List.length_drop]
  omega

/-- The search sees a blank line exactly where one has arrived. -/
theorem search_received {bytes : List UInt8} {i : Nat} (inside : i < bytes.length) :
    (decide (bytes.length < 3 ∨ i < bytes.length - 3) && blankAt (received bytes) i) =
      blankAt bytes i := by
  by_cases arrived : i + 4 ≤ bytes.length
  · have bound : bytes.length < 3 ∨ i < bytes.length - 3 := by omega
    unfold received
    rw [blankAt_append arrived, decide_eq_true bound, Bool.true_and]
  · have absent : blankAt bytes i = false := by
      by_contra present
      exact arrived (blankAt_bound (by simpa using present))
    rw [absent, Bool.and_eq_false_iff]
    by_cases few : bytes.length < 3
    · -- the cell three behind `i` is still zero
      refine .inr ?_
      by_contra present
      have same : ((received bytes).drop i).take 4 = ascii "\r\n\r\n" := by
        simpa [blankAt] using present
      have cell : (received bytes)[i + 3]? = some 10 := by
        have fourth : (((received bytes).drop i).take 4)[3]? = some 10 := by
          rw [same]
          rfl
        rwa [List.getElem?_take_of_lt (by omega), List.getElem?_drop] at fourth
      unfold received at cell
      rw [List.getElem?_append_right (by omega), List.getElem?_replicate] at cell
      split at cell <;> exact absurd cell (by decide)
    · exact .inl (decide_eq_false (by omega))

theorem headerPosition_eq_none {bytes : List UInt8} (absent : ∀ i, blankAt bytes i = false) :
    headerPosition (received bytes) bytes.length = none := by
  unfold headerPosition
  rw [Option.map_eq_none_iff, List.find?_range_eq_none]
  intro i inside
  rw [search_received inside, absent i]
  rfl

theorem headerPosition_eq_some {bytes : List UInt8} {i : Nat} (blank : blankAt bytes i = true)
    (first : ∀ j < i, blankAt bytes j = false) :
    headerPosition (received bytes) bytes.length = some (i + 4) := by
  have bound := blankAt_bound blank
  unfold headerPosition
  refine Option.map_eq_some_iff.mpr ⟨i, ?_, rfl⟩
  rw [List.find?_range_eq_some, search_received (by omega)]
  refine ⟨blank, List.mem_range.mpr (by omega), ?_⟩
  intro j before
  rw [search_received (by omega), first j before]
  rfl

namespace PostRequest

variable {request : PostRequest}

theorem four_le_header : 4 ≤ request.header.length := by
  have bound := blankAt_bound request.complete
  omega

/-- What arrived starts with the header once it is long enough. -/
theorem exists_body_arrived {got rest : List UInt8} (cut : got ++ rest = request.bytes)
    (arrived : request.header.length ≤ got.length) :
    ∃ more, got = request.header ++ more ∧ request.body = more ++ rest := by
  obtain ⟨more, rfl⟩ := List.prefix_of_prefix_length_le
    (List.prefix_append request.header request.body) ⟨rest, cut⟩ arrived
  refine ⟨more, rfl, ?_⟩
  unfold bytes at cut
  rw [List.append_assoc] at cut
  exact (List.append_cancel_left cut).symm

/-- The blank line is found as soon as the header is there. -/
theorem headerPosition_arrived {got rest : List UInt8} (cut : got ++ rest = request.bytes) :
    headerPosition (received got) got.length =
      if request.header.length ≤ got.length then some request.header.length else none := by
  have bound := request.four_le_header
  split
  case isTrue arrived =>
    obtain ⟨more, rfl, -⟩ := exists_body_arrived cut arrived
    have blank : blankAt (request.header ++ more) (request.header.length - 4) = true := by
      rw [blankAt_append (by omega)]
      exact request.complete
    rw [headerPosition_eq_some blank]
    · congr 1
      omega
    · intro j before
      rw [blankAt_append (by omega)]
      exact request.first j before
  case isFalse short =>
    obtain ⟨missing, header⟩ := List.prefix_of_prefix_length_le ⟨rest, cut⟩
      (List.prefix_append request.header request.body) (by omega : got.length ≤ _)
    refine headerPosition_eq_none fun i => ?_
    by_contra present
    have blank : blankAt got i = true := by simpa using present
    have inside := blankAt_bound blank
    rw [← blankAt_append inside, header, request.first i (by omega)] at blank
    exact absurd blank (by decide)

theorem length_bytes_lt : request.bytes.length < rxBufferMax := by
  have fits := request.fits
  unfold bytes rxBufferMax at *
  rw [List.length_append]
  omega

/-- `http_packet_read` stops with the piece that completes the header. -/
theorem httpPacketRead_eq {pieces : List (List UInt8)} {before : List UInt8}
    (nonempty : ∀ piece ∈ pieces, piece ≠ []) (cut : before ++ pieces.flatten = request.bytes)
    (short : before.length < request.header.length) :
    ∃ got, httpPacketRead (received before) before.length (pieces.map .bytes) =
        .ok ⟨received got, got.length, request.header.length,
          (piecesAfter (request.header.length - before.length) pieces).map .bytes⟩ ∧
      got ++ (piecesAfter (request.header.length - before.length) pieces).flatten =
        request.bytes ∧
      request.header.length ≤ got.length := by
  induction pieces generalizing before with
  | nil =>
      have length := congrArg List.length cut
      unfold bytes at length
      simp only [List.flatten_nil, List.append_nil, List.length_append] at length
      omega
  | cons piece pieces ih =>
      have cut' : (before ++ piece) ++ pieces.flatten = request.bytes := by
        rw [List.append_assoc]
        exact cut
      have fits : before.length + piece.length < rxBufferMax := by
        have length := congrArg List.length cut'
        have bound := request.length_bytes_lt
        rw [List.length_append, List.length_append] at length
        omega
      have read := portNetRead_received (nonempty piece List.mem_cons_self) fits
      have search := headerPosition_arrived cut'
      rw [List.length_append] at search
      simp only [List.map_cons, httpPacketRead, read, search, piecesAfter]
      by_cases arrived : request.header.length ≤ before.length + piece.length
      · rw [if_pos arrived, if_pos (by omega)]
        refine ⟨before ++ piece, ?_, cut', ?_⟩
        · rw [List.length_append]
        · rwa [List.length_append]
      · rw [if_neg arrived, if_neg (by omega)]
        obtain ⟨got, reads, rest, enough⟩ := ih
          (fun later mem => nonempty later (List.mem_cons_of_mem piece mem)) cut' (by
            rw [List.length_append]
            omega)
        rw [List.length_append, ← Nat.sub_sub] at reads rest
        exact ⟨got, reads, rest, enough⟩

/-- The string behind the header is the part of the body that arrived. -/
theorem strlen_arrived {buf more : List UInt8} {n : Nat} (text : 0 ∉ more)
    (behind : buf.drop n = more ++ List.replicate (rxBufferMax - (n + more.length)) 0) :
    strlen buf n = more.length := by
  unfold strlen
  rw [behind, List.takeWhile_append_of_pos]
  · rw [List.takeWhile_replicate]
    simp
  · intro b mem
    have nonzero : b ≠ 0 := fun zero => text (zero ▸ mem)
    simpa using nonzero

end PostRequest

/-- The cells behind every piece stay as they are. -/
theorem httpPacketReadRemaining_drop {buf rxBuffer : List UInt8} {offset expectedLen total n : Nat}
    {pieces : List (List UInt8)} (short : ∀ piece ∈ pieces, offset + piece.length ≤ n)
    (reads : httpPacketReadRemaining buf offset expectedLen total (pieces.map .bytes) =
      .ok rxBuffer) : rxBuffer.drop n = buf.drop n := by
  induction pieces generalizing buf total with
  | nil => exact absurd reads (by simp [httpPacketReadRemaining])
  | cons piece pieces ih =>
      simp only [List.map_cons, httpPacketReadRemaining] at reads
      split at reads
      case h_1 => exact absurd reads (by simp)
      case h_2 stored len read =>
        have kept : stored.drop n = buf.drop n :=
          Buffer.drop_of_write (portNetRead_eq_ok read).2 (short piece List.mem_cons_self)
        split at reads
        case isTrue =>
          have rest := ih (fun later mem => short later (List.mem_cons_of_mem piece mem)) reads
          exact rest.trans kept
        case isFalse =>
          obtain rfl := Except.ok.inj reads
          exact kept

/-- A last piece is stored behind what was there. -/
theorem httpPacketReadRemaining_single {buf piece : List UInt8} {offset expectedLen : Nat}
    (nonempty : piece ≠ []) (fits : offset + piece.length < buf.length)
    (enough : expectedLen ≤ offset + piece.length) :
    httpPacketReadRemaining buf offset expectedLen offset [.bytes piece] =
      .ok (buf.take offset ++ piece ++ buf.drop (offset + piece.length)) := by
  have stored : Buffer.write buf offset piece =
      some (buf.take offset ++ piece ++ buf.drop (offset + piece.length)) :=
    Buffer.write_eq_some_iff.mpr ⟨Nat.le_of_lt fits, rfl⟩
  simp only [httpPacketReadRemaining, portNetRead, nonempty, if_false, stored]
  rw [if_pos (by omega)]
  simp only
  rw [if_neg (by omega)]

namespace PostRequest

variable {request : PostRequest}

/-- What the rest of the request becomes once the header is parsed: the body that
arrived with it is in the buffer, the other pieces go to
`http_packet_read_remaining`. -/
theorem processRequest_eq (ends : request.EndsHeader) (cut : Segmentation request.bytes)
    (content : request.body ≠ []) :
    ∃ (buf more : List UInt8) (later : List (List UInt8)),
      later = piecesAfter request.header.length cut.pieces ∧
      request.body = more ++ later.flatten ∧ buf.length = rxBufferMax ∧
      buf.drop request.header.length =
        more ++ List.replicate (rxBufferMax - (request.header.length + more.length)) 0 ∧
      processRequest (cut.pieces.map .bytes) =
        if more.length < request.body.length then
          match httpPacketReadRemaining buf (request.header.length + more.length)
              (request.header.length + request.body.length) (request.header.length + more.length)
              (later.map .bytes) with
          | .error .waits => .error .waits
          | .error _ => .error .internalServerError
          | .ok rxBuffer =>
              .ok ⟨request.parsed.cmd, some .post, some (rxBuffer.drop request.header.length)⟩
        else
          .ok ⟨request.parsed.cmd, some .post, some (buf.drop request.header.length)⟩ := by
  have bound := request.four_le_header
  obtain ⟨got, reads, rest, enough⟩ := httpPacketRead_eq cut.nonempty
    (show [] ++ cut.pieces.flatten = request.bytes from cut.whole)
    (Nat.lt_of_lt_of_le (by simp) bound)
  obtain ⟨more, rfl, body⟩ := exists_body_arrived rest enough
  have whole := request.length_bytes_lt
  have short : (request.header ++ more).length ≤ request.bytes.length := by
    rw [← rest]
    exact (List.sublist_append_left _ _).length_le
  have same : (received request.bytes).take request.header.length =
      (received (request.header ++ more)).take request.header.length := by
    unfold bytes
    rw [take_received (by simp), take_received (by simp), List.take_left, List.take_left]
  have lengths : (received request.bytes).length = (received (request.header ++ more)).length := by
    rw [length_received (by omega), length_received (by omega)]
  obtain ⟨parsed, parses, cmd, type, contentLen, payload, kept, found⟩ :=
    esMsgParser_congr same lengths ends request.accepted
  have positive : 0 < request.parsed.contentLen := by
    rw [request.contentLength]
    exact List.length_pos_of_ne_nil content
  have behind : parsed.buf.drop request.header.length =
      more ++ List.replicate (rxBufferMax - (request.header.length + more.length)) 0 := by
    rw [kept, drop_received (by simp), List.drop_left, List.length_append]
  refine ⟨parsed.buf, more, _, rfl, ?_, ?_, behind, ?_⟩
  · simpa using body
  · have length := congrArg List.length kept
    rw [List.length_drop, List.length_drop, length_received (by omega)] at length
    unfold bytes at whole
    rw [List.length_append] at whole
    omega
  · have text : 0 ∉ more := by
      intro zero
      exact request.text (by simp [body, zero])
    have start : received [] = List.replicate rxBufferMax 0 := rfl
    unfold processRequest
    rw [← start]
    simp only [List.length_nil, Nat.sub_zero] at reads
    simp only [reads, parses, payload, found positive, cmd, type, request.post, contentLen,
      request.contentLength, strlen_arrived text behind, true_and, List.length_append]

/-- A request without body is complete with its header. -/
theorem delivered_of_empty (cut : Segmentation request.bytes) (empty : request.body = []) :
    request.Delivered cut := by
  obtain ⟨got, reads, rest, enough⟩ := httpPacketRead_eq cut.nonempty
    (show [] ++ cut.pieces.flatten = request.bytes from cut.whole)
    (Nat.lt_of_lt_of_le (by simp) request.four_le_header)
  obtain rfl : got = request.bytes := by
    obtain ⟨more, rfl, body⟩ := exists_body_arrived rest enough
    rw [empty] at body
    rw [bytes, empty, (List.append_eq_nil_iff.mp body.symm).1]
  have accepted : esMsgParser (received request.bytes) = some request.parsed := request.accepted
  have nothing : request.parsed.contentLen = 0 := by
    rw [request.contentLength, empty, List.length_nil]
  have start : received [] = List.replicate rxBufferMax 0 := rfl
  rw [start, List.length_nil] at reads
  unfold Delivered processRequest
  simp only [reads, accepted, nothing, Nat.not_lt_zero, and_false, if_false, empty,
    List.length_nil, List.take_zero, and_true]
  cases request.parsed.payload with
  | none => exact ⟨_, rfl, rfl, request.post⟩
  | some payload => exact ⟨_, rfl, rfl, request.post⟩

theorem piecesAfter_subset {n : Nat} {pieces : List (List UInt8)} :
    piecesAfter n pieces ⊆ pieces := by
  induction pieces generalizing n with
  | nil => exact List.Subset.refl _
  | cons piece pieces ih =>
      unfold piecesAfter
      split
      · exact List.subset_cons_self piece pieces
      · exact List.subset_cons_of_subset piece ih

theorem length_le_flatten {pieces : List (List UInt8)}
    (nonempty : ∀ piece ∈ pieces, piece ≠ []) : pieces.length ≤ pieces.flatten.length := by
  induction pieces with
  | nil => exact Nat.zero_le _
  | cons piece pieces ih =>
      have positive := List.length_pos_of_ne_nil (nonempty piece List.mem_cons_self)
      have rest := ih fun later mem => nonempty later (List.mem_cons_of_mem piece mem)
      rw [List.flatten_cons, List.length_append, List.length_cons]
      omega

/-- A piece leaves room for one byte of every other. -/
theorem length_add_length_le {pieces : List (List UInt8)} {piece : List UInt8}
    (nonempty : ∀ piece ∈ pieces, piece ≠ []) (mem : piece ∈ pieces) :
    piece.length + pieces.length ≤ pieces.flatten.length + 1 := by
  induction pieces with
  | nil => exact absurd mem List.not_mem_nil
  | cons first pieces ih =>
      have positive := List.length_pos_of_ne_nil (nonempty first List.mem_cons_self)
      have others : ∀ later ∈ pieces, later ≠ [] :=
        fun later mem => nonempty later (List.mem_cons_of_mem first mem)
      have bound := length_le_flatten others
      rw [List.flatten_cons, List.length_append, List.length_cons]
      rcases List.mem_cons.mp mem with rfl | later
      · omega
      · have rest := ih others later
        omega

/-- When two or more pieces are missing, each ends before the last byte of the body,
which is never stored. -/
theorem take_ne_of_two {buf more rxBuffer : List UInt8} {n expectedLen total : Nat}
    {pieces : List (List UInt8)} (nonempty : ∀ piece ∈ pieces, piece ≠ [])
    (two : 2 ≤ pieces.length)
    (behind : buf.drop n = more ++ List.replicate (rxBufferMax - (n + more.length)) 0)
    (fits : n + (more ++ pieces.flatten).length < rxBufferMax)
    (text : 0 ∉ more ++ pieces.flatten)
    (reads : httpPacketReadRemaining buf (n + more.length) expectedLen total
      (pieces.map .bytes) = .ok rxBuffer) :
    (rxBuffer.drop n).take (more ++ pieces.flatten).length ≠ more ++ pieces.flatten := by
  intro delivered
  have count := length_le_flatten nonempty
  rw [List.length_append] at fits
  -- `last` cells behind the header stands the last byte of the body
  obtain ⟨last, length⟩ : ∃ last, (more ++ pieces.flatten).length = last + 1 :=
    ⟨more.length + pieces.flatten.length - 1, by rw [List.length_append]; omega⟩
  have behindAll : ∀ piece ∈ pieces, n + more.length + piece.length ≤ n + last := by
    intro piece mem
    have room := length_add_length_le nonempty mem
    rw [List.length_append] at length
    omega
  have kept := httpPacketReadRemaining_drop behindAll reads
  have missing : (buf.drop (n + last))[0]? = some 0 := by
    rw [List.length_append] at length
    rw [← List.drop_drop, behind, List.getElem?_drop, List.getElem?_append_right (by omega),
      List.getElem?_replicate, if_pos (by omega)]
  have stored : (more ++ pieces.flatten)[last]? = some 0 := by
    rw [← delivered, length, List.getElem?_take_of_lt (by omega), List.getElem?_drop]
    rw [← kept, List.getElem?_drop] at missing
    exact missing
  exact text (List.mem_of_getElem? stored)

/-- The reads behind the header give the end of the body. -/
theorem exists_body_eq (cut : Segmentation request.bytes) :
    ∃ more, request.body =
      more ++ (piecesAfter request.header.length cut.pieces).flatten := by
  obtain ⟨got, -, rest, enough⟩ := httpPacketRead_eq cut.nonempty
    (show [] ++ cut.pieces.flatten = request.bytes from cut.whole)
    (Nat.lt_of_lt_of_le (by simp) request.four_le_header)
  obtain ⟨more, -, body⟩ := exists_body_arrived rest enough
  exact ⟨more, body⟩

/-- Once the parser finds the end of the header, a request is delivered exactly
when at most one read follows the one that completes the header. -/
theorem delivered_iff (request : PostRequest) (ends : request.EndsHeader)
    (cut : Segmentation request.bytes) :
    request.Delivered cut ↔ request.laterReads cut ≤ 1 := by
  have nonempty : ∀ piece ∈ piecesAfter request.header.length cut.pieces, piece ≠ [] := by
    intro piece mem
    exact cut.nonempty piece (piecesAfter_subset mem)
  unfold laterReads
  by_cases empty : request.body = []
  · refine ⟨fun _ => ?_, fun _ => delivered_of_empty cut empty⟩
    obtain ⟨more, body⟩ := exists_body_eq cut
    have nothing := (List.append_eq_nil_iff.mp (body.symm.trans empty)).2
    have count := length_le_flatten nonempty
    rw [nothing, List.length_nil] at count
    omega
  · obtain ⟨buf, more, later, after, body, length, behind, process⟩ :=
      processRequest_eq ends cut empty
    rw [← after] at nonempty ⊢
    have fits := request.length_bytes_lt
    rw [bytes, List.length_append] at fits
    unfold Delivered
    rw [process]
    match later with
    | [] =>
        rw [List.flatten_nil, List.append_nil] at body
        rw [if_neg (by rw [body]; exact Nat.lt_irrefl _)]
        refine ⟨fun _ => by simp, fun _ => ⟨_, rfl, rfl, rfl, ?_⟩⟩
        rw [Option.getD_some, behind, body, List.take_left]
    | [piece] =>
        have single := nonempty piece (List.mem_singleton.mpr rfl)
        rw [List.flatten_singleton] at body
        have lengths := congrArg List.length body
        rw [List.length_append] at lengths
        have positive := List.length_pos_of_ne_nil single
        rw [if_pos (by omega), List.map_singleton,
          httpPacketReadRemaining_single single (by omega) (by omega)]
        refine ⟨fun _ => by simp, fun _ => ⟨_, rfl, rfl, rfl, ?_⟩⟩
        have prefixed : request.header.length ≤
            (buf.take (request.header.length + more.length)).length := by
          rw [List.length_take]
          omega
        rw [Option.getD_some, List.append_assoc, List.drop_append_of_le_length prefixed,
          List.drop_take, behind, Nat.add_sub_cancel_left, List.take_left, ← List.append_assoc,
          ← body, List.take_left]
    | first :: second :: others =>
        refine ⟨?_, fun few => absurd few (by simp)⟩
        rintro ⟨call, handled, -, -, payload⟩
        have count := length_le_flatten nonempty
        have lengths := congrArg List.length body
        rw [List.length_append] at lengths
        rw [if_pos (by simp only [List.length_cons] at count; omega)] at handled
        split at handled
        case h_1 => exact absurd handled (by simp)
        case h_2 => exact absurd handled (by simp)
        case h_3 rxBuffer reads =>
          obtain rfl := Except.ok.inj handled
          rw [Option.getD_some] at payload
          have text := request.text
          rw [body] at fits text payload
          exact absurd payload (take_ne_of_two nonempty (by simp) behind fits text reads)

end PostRequest

/-- A POST of KEYINFO with a body of three characters. -/
def keyinfoHeader : List UInt8 := ascii "POST /keyinfo HTTP/1.1\r\nContent-Length: 3\r\n\r\n"

def keyinfoBuffer : List UInt8 := received (keyinfoHeader ++ ascii "abc")

theorem keyinfoBuffer_accepted : (esMsgParser keyinfoBuffer).isSome = true := by decide +kernel

def keyinfoRequest : PostRequest where
  header := keyinfoHeader
  body := ascii "abc"
  parsed := (esMsgParser keyinfoBuffer).get keyinfoBuffer_accepted
  complete := by decide
  first := by decide
  fits := by decide
  text := by decide
  accepted := (Option.some_get keyinfoBuffer_accepted).symm
  post := by decide +kernel
  contentLength := by decide +kernel

theorem keyinfoBuffer_line : (RequestLine.read keyinfoBuffer).isSome = true := by decide +kernel

theorem keyinfoRequest_endsHeader : keyinfoRequest.EndsHeader := by
  refine ⟨(RequestLine.read keyinfoBuffer).get keyinfoBuffer_line,
    (Option.some_get keyinfoBuffer_line).symm, ?_, ?_, ?_⟩
  all_goals decide +kernel

/-- The header and the body in a read each. -/
def headerThenBody : Segmentation keyinfoRequest.bytes where
  pieces := [keyinfoHeader, ascii "abc"]
  nonempty := by decide
  whole := rfl

theorem headerThenBody_delivered :
    keyinfoRequest.laterReads headerThenBody = 1 ∧ keyinfoRequest.Delivered headerThenBody :=
  ⟨rfl, (keyinfoRequest.delivered_iff keyinfoRequest_endsHeader headerThenBody).mpr
    (Nat.le_refl 1)⟩

/-- The body in two reads. -/
def bodyInTwo : Segmentation keyinfoRequest.bytes where
  pieces := [keyinfoHeader, ascii "ab", ascii "c"]
  nonempty := by decide
  whole := rfl

/-- The second overwrites the first. -/
theorem bodyInTwo_not_delivered : ¬ keyinfoRequest.Delivered bodyInTwo := by
  rintro ⟨call, handled, -, -, payload⟩
  have overwritten : ((processRequest (bodyInTwo.pieces.map .bytes)).toOption.map fun call =>
      (call.payload.getD []).take 3) = some [99, 98, 0] := by decide +kernel
  rw [handled] at overwritten
  have first : (call.payload.getD []).take 3 = [99, 98, 0] := Option.some.inj overwritten
  exact absurd (first.symm.trans payload) (by decide)

end StDevice.Easysetup.Http
