import Vitess.Data.Framing
import Vitess.Data.LittleEndian

/-!
# MySQL packet framing

The packet layer of `go/mysql/conn.go`: `Conn.writePacket`, which cuts a payload
into packets of at most `MaxPacketSize` bytes, each behind a four-byte header of
length and sequence number, and the two readers that put it together again,
`Conn.readPacket` and `Conn.readEphemeralPacket`.

The connection is its sequence number, the bytes the peer has sent and not yet
read, the bytes written to it, and the ephemeral-buffer policy. Reads and writes
never fail in the byte stream modelled here other than by running out of input:
what `io.ReadFull` returns then (`io.EOF` before any byte, `io.ErrUnexpectedEOF`
after some) is `ReadFullError`. A failed call returns its error and no state,
as a connection is closed after one. Where the buffer a read lands in comes
from (`bufPool` or a fresh slice) and the locking and flushing of the buffered
writer are not modelled.

`writePacket` writes each header in place over the four bytes before the chunk
it heads, which for every chunk after the first are the last four bytes of the
previous chunk, and copies them back once the write is done. The payload's
frames are `Framing.split maxPacketSize`: full frames, then one shorter frame,
empty when the length is a multiple of `MaxPacketSize`.
-/

namespace Vitess.Mysql

/-- `packetHeaderSize`: three bytes of payload length, least significant first,
and the sequence number. -/
def packetHeaderSize : ℕ := 4

/-- `MaxPacketSize`, `(1 << 24) - 1`: the largest length three bytes hold. A
packet this long is followed by another of the same payload. -/
def maxPacketSize : ℕ := 2 ^ 24 - 1

instance : NeZero maxPacketSize := ⟨by decide⟩

/-- The values of `currentEphemeralPolicy`. -/
inductive EphemeralPolicy where
  | unused
  | write
  | read
  deriving DecidableEq, Repr

/-- The parts of a `Conn` the packet layer reads and writes. -/
structure Conn where
  sequence : UInt8
  /-- What the peer has sent that has not been read yet. -/
  input : List UInt8
  /-- What has been written so far. -/
  output : List UInt8
  currentEphemeralPolicy : EphemeralPolicy
  deriving DecidableEq, Repr

/-- How `io.ReadFull` fails on a stream that ends early. -/
inductive ReadFullError where
  /-- `io.EOF`: the stream ended before the first byte. -/
  | eof
  /-- `io.ErrUnexpectedEOF`: it ended after some bytes. -/
  | unexpectedEOF
  deriving DecidableEq, Repr

/-- The errors of the packet layer, by the message each one formats; the last two
are panics. -/
inductive ConnError where
  /-- `io.EOF` from the header read, passed up as it is -/
  | eof
  /-- "io.ReadFull(header size) failed" -/
  | headerReadFailed (err : ReadFullError)
  /-- "invalid sequence, expected %v got %v" -/
  | invalidSequence (expected got : UInt8)
  /-- "io.ReadFull(packet body of length %v) failed" -/
  | bodyReadFailed (length : ℕ) (err : ReadFullError)
  /-- "readEphemeralPacket: unexpected currentEphemeralPolicy: %v" -/
  | unexpectedEphemeralPolicy (policy : EphemeralPolicy)
  /-- the runtime's "slice bounds out of range" on a buffer of `length` bytes -/
  | sliceBoundsOutOfRange (high length : ℕ)
  deriving DecidableEq, Repr

/-- `io.ReadFull`: exactly `n` bytes off the front of the stream, and the rest. -/
def readFull (n : ℕ) (input : List UInt8) : Except ReadFullError (List UInt8 × List UInt8) :=
  if n ≤ input.length then .ok (input.take n, input.drop n)
  else if input = [] then .error .eof
  else .error .unexpectedEOF

/-! ### Reading -/

/-- The payload length a header carries,
`uint32(c.header[0]) | uint32(c.header[1])<<8 | uint32(c.header[2])<<16`. -/
def headerLength (h0 h1 h2 : UInt8) : ℕ :=
  h0.toNat ||| h1.toNat <<< 8 ||| h2.toNat <<< 16

namespace Conn

/-- `readHeaderFrom`: reads a header, checks its sequence number against the
connection's and counts it. -/
def readHeaderFrom (c : Conn) : Except ConnError (ℕ × Conn) :=
  match readFull packetHeaderSize c.input with
  | .error .eof => .error .eof
  | .error err => .error (.headerReadFailed err)
  | .ok (header, input) =>
    let sequence := header.getD 3 0
    if sequence ≠ c.sequence then .error (.invalidSequence c.sequence sequence)
    else .ok (headerLength (header.getD 0 0) (header.getD 1 0) (header.getD 2 0),
      { c with sequence := c.sequence + 1, input })

/-- The body read the readers share: `io.ReadFull(r, data)` into a buffer of
`length` bytes. -/
def readBody (c : Conn) (length : ℕ) : Except ConnError (List UInt8 × Conn) :=
  match readFull length c.input with
  | .error err => .error (.bodyReadFailed length err)
  | .ok (data, input) => .ok (data, { c with input })

/-- `readOnePacket`: one packet's payload, empty for a header of length 0. -/
def readOnePacket (c : Conn) : Except ConnError (List UInt8 × Conn) := do
  let (length, c) ← c.readHeaderFrom
  if length = 0 then return ([], c)
  c.readBody length

theorem readFull_eq_ok {n : ℕ} {input data rest : List UInt8}
    (read : readFull n input = .ok (data, rest)) :
    n ≤ input.length ∧ data = input.take n ∧ rest = input.drop n := by
  unfold readFull at read
  split at read
  · cases read
    exact ⟨‹_›, rfl, rfl⟩
  · split at read <;> cases read

theorem readHeaderFrom_input {c c' : Conn} {length : ℕ} (read : c.readHeaderFrom = .ok (length, c')) :
    c'.input.length < c.input.length := by
  unfold readHeaderFrom at read
  split at read
  · cases read
  · cases read
  · rename_i header input full
    obtain ⟨four, -, rfl⟩ := readFull_eq_ok full
    dsimp only at read
    split at read
    · cases read
    · cases read
      simp only [List.length_drop, packetHeaderSize] at four ⊢
      omega

theorem readBody_input {c c' : Conn} {length : ℕ} {data : List UInt8}
    (read : c.readBody length = .ok (data, c')) : c'.input.length ≤ c.input.length := by
  unfold readBody at read
  split at read
  · cases read
  · rename_i body input full
    obtain ⟨-, -, rfl⟩ := readFull_eq_ok full
    cases read
    simp only [List.length_drop]
    omega

/-- Every packet read consumes at least its header. -/
theorem readOnePacket_input_lt {c c' : Conn} {data : List UInt8}
    (read : c.readOnePacket = .ok (data, c')) : c'.input.length < c.input.length := by
  unfold readOnePacket at read
  cases header : c.readHeaderFrom with
  | error err => rw [header] at read; cases read
  | ok result =>
    obtain ⟨length, c₁⟩ := result
    have consumed := readHeaderFrom_input header
    rw [header] at read
    dsimp only [bind, Except.bind] at read
    split at read
    · cases read
      exact consumed
    · exact Nat.lt_of_le_of_lt (readBody_input read) consumed

/-- The loop `readPacket` and `readEphemeralPacket` both run once the first
packet was full: packets are appended to `data` until an empty one, which is
dropped, or one shorter than `MaxPacketSize`. -/
def readRemainingPackets (c : Conn) (data : List UInt8) : Except ConnError (List UInt8 × Conn) :=
  match _consumed : c.readOnePacket with
  | .error err => .error err
  | .ok (next, c') =>
    if next.length = 0 then .ok (data, c')
    else
      let data := data ++ next
      if next.length < maxPacketSize then .ok (data, c')
      else c'.readRemainingPackets data
termination_by c.input.length
decreasing_by exact readOnePacket_input_lt _consumed

/-- `readPacket`: a payload put together from as many packets as it spans. -/
def readPacket (c : Conn) : Except ConnError (List UInt8 × Conn) := do
  let (data, c) ← c.readOnePacket
  if data.length < maxPacketSize then return (data, c)
  c.readRemainingPackets data

/-- `readEphemeralPacket`: the same payload as `readPacket`, read by another
path, that leaves the connection's ephemeral buffer in use until
`recycleReadPacket`. -/
def readEphemeralPacket (c : Conn) : Except ConnError (List UInt8 × Conn) := do
  if c.currentEphemeralPolicy ≠ .unused then
    throw (.unexpectedEphemeralPolicy c.currentEphemeralPolicy)
  let (length, c) ← c.readHeaderFrom
  let c := { c with currentEphemeralPolicy := .read }
  if length = 0 then return ([], c)
  if length < maxPacketSize then c.readBody length
  else
    let (data, c) ← c.readBody length
    c.readRemainingPackets data

end Conn

/-! ### Writing -/

/-- The header `writePacket` puts over `data[index:index+4]`:
`data[index] = byte(toBeSent)`, `data[index+1] = byte(toBeSent >> 8)`,
`data[index+2] = byte(toBeSent >> 16)`, `data[index+3] = c.sequence`. -/
def putHeader (data : List UInt8) (index toBeSent : ℕ) (sequence : UInt8) : List UInt8 :=
  (((data.set index (UInt8.ofNat toBeSent)).set (index + 1) (UInt8.ofNat (toBeSent >>> 8))).set
    (index + 2) (UInt8.ofNat (toBeSent >>> 16))).set (index + 3) sequence

/-- `copy(data[index:index+len(src)], src)` for a window that lies within `data`. -/
def copyAt (data : List UInt8) (index : ℕ) (src : List UInt8) : List UInt8 :=
  data.take index ++ src ++ data.drop (index + src.length)

namespace Conn

/-- The loop of `writePacket` from chunk offset `index`, with `dataLength` bytes of
payload still to send. -/
def writePacketLoop (c : Conn) (data : List UInt8) (index dataLength : ℕ) :
    Except ConnError (List UInt8 × Conn) :=
  let toBeSent := if dataLength > maxPacketSize then maxPacketSize else dataLength
  -- every slice the iteration takes lies within data[index:index+toBeSent+4]
  if data.length < index + toBeSent + packetHeaderSize then
    .error (.sliceBoundsOutOfRange (index + toBeSent + packetHeaderSize) data.length)
  else
    let header := (data.drop index).take packetHeaderSize
    let data := putHeader data index toBeSent c.sequence
    let c := { c with output := c.output ++ (data.drop index).take (toBeSent + packetHeaderSize) }
    let data := copyAt data index header
    let c := { c with sequence := c.sequence + 1 }
    let dataLength := dataLength - toBeSent
    if dataLength = 0 then
      -- a last packet of exactly MaxPacketSize is followed by an empty one
      if toBeSent = maxPacketSize then
        .ok (data, { c with output := c.output ++ [0, 0, 0, c.sequence], sequence := c.sequence + 1 })
      else .ok (data, c)
    else c.writePacketLoop data (index + toBeSent) dataLength
termination_by dataLength
decreasing_by
  have : 0 < maxPacketSize := Nat.pos_of_neZero _
  split <;> omega

/-- `writePacket`: sends `data[4:]`, the first four bytes of `data` being room for
the first header. For a buffer shorter than that, Go's `len(data) - 4` is
negative where this subtraction gives 0; the first slice expression panics
either way. -/
def writePacket (c : Conn) (data : List UInt8) : Except ConnError (List UInt8 × Conn) :=
  c.writePacketLoop data 0 (data.length - packetHeaderSize)

end Conn

/-! ### The wire format -/

/-- One packet on the wire: the payload's length in three bytes, least
significant first, the sequence number, the payload. -/
def packetBytes (sequence : UInt8) (payload : List UInt8) : List UInt8 :=
  LittleEndian.encode 3 payload.length ++ sequence :: payload

/-- Packets sent one after another, numbered on from `sequence`. -/
def framesBytes (sequence : UInt8) : List (List UInt8) → List UInt8
  | [] => []
  | frame :: frames => packetBytes sequence frame ++ framesBytes (sequence + 1) frames

theorem encode_three (n : ℕ) :
    LittleEndian.encode 3 n = [UInt8.ofNat n, UInt8.ofNat (n >>> 8), UInt8.ofNat (n >>> 16)] := by
  have byte (x : ℕ) : UInt8.ofNat (x % 256) = UInt8.ofNat x := UInt8.ofNat_mod_size
  simp only [LittleEndian.encode, byte, Nat.shiftRight_eq_div_pow, Nat.div_div_eq_div_mul]

/-- The header's three length bytes are the little-endian number they hold: the
bytes occupy disjoint bits, so the `|` of the source adds them. -/
theorem headerLength_eq_decode (h0 h1 h2 : UInt8) :
    headerLength h0 h1 h2 = LittleEndian.decode [h0, h1, h2] := by
  have low : h0.toNat ||| h1.toNat <<< 8 = 2 ^ 8 * h1.toNat + h0.toNat := by
    rw [Nat.shiftLeft_eq, Nat.mul_comm, Nat.or_comm, Nat.two_pow_add_eq_or_of_lt h0.toNat_lt]
  have fits : 2 ^ 8 * h1.toNat + h0.toNat < 2 ^ 16 := by
    have := h0.toNat_lt
    have := h1.toNat_lt
    omega
  rw [headerLength, low, Nat.shiftLeft_eq, Nat.mul_comm h2.toNat, Nat.or_comm,
    ← Nat.two_pow_add_eq_or_of_lt fits]
  simp only [LittleEndian.decode]
  omega

/-! ### Reading what was sent -/

theorem readFull_append {n : ℕ} {data : List UInt8} (sized : data.length = n) (rest : List UInt8) :
    readFull n (data ++ rest) = .ok (data, rest) := by
  have room : n ≤ (data ++ rest).length := by simp [sized]
  rw [readFull, if_pos room, List.take_left' sized, List.drop_left' sized]

namespace Conn

variable {c : Conn} {payload rest : List UInt8}

/-- A header read off a packet of the expected sequence number gives the payload's
length and counts the packet. -/
theorem readHeaderFrom_packetBytes (input : c.input = packetBytes c.sequence payload ++ rest)
    (fits : payload.length ≤ maxPacketSize) :
    c.readHeaderFrom = .ok (payload.length, { c with sequence := c.sequence + 1, input := payload ++ rest }) := by
  obtain ⟨b0, b1, b2, bytes⟩ : ∃ b0 b1 b2, LittleEndian.encode 3 payload.length = [b0, b1, b2] :=
    ⟨_, _, _, rfl⟩
  have length : headerLength b0 b1 b2 = payload.length := by
    rw [headerLength_eq_decode, ← bytes, LittleEndian.decode_encode, Nat.mod_eq_of_lt]
    exact Nat.lt_of_le_of_lt fits (by decide)
  have header : c.input = [b0, b1, b2, c.sequence] ++ (payload ++ rest) := by
    simp [input, packetBytes, bytes]
  have four : [b0, b1, b2, c.sequence].length = packetHeaderSize := rfl
  rw [readHeaderFrom, header, readFull_append four]
  simp [length]

theorem readBody_append (input : c.input = payload ++ rest) :
    c.readBody payload.length = .ok (payload, { c with input := rest }) := by
  rw [readBody, input, readFull_append rfl]

/-- One packet read back: its payload, and the connection one packet further on. -/
theorem readOnePacket_packetBytes (input : c.input = packetBytes c.sequence payload ++ rest)
    (fits : payload.length ≤ maxPacketSize) :
    c.readOnePacket = .ok (payload, { c with sequence := c.sequence + 1, input := rest }) := by
  rw [readOnePacket, readHeaderFrom_packetBytes input fits]
  dsimp only [bind, Except.bind]
  split
  · rename_i empty
    rw [List.eq_nil_of_length_eq_zero empty]
    rfl
  · exact readBody_append rfl

/-- One turn of the loop, once the packet it reads is known. -/
theorem readRemainingPackets_of_ok {c' : Conn} {next : List UInt8}
    (read : c.readOnePacket = .ok (next, c')) (data : List UInt8) :
    c.readRemainingPackets data =
      if next.length = 0 then .ok (data, c')
      else if next.length < maxPacketSize then .ok (data ++ next, c')
      else c'.readRemainingPackets (data ++ next) := by
  rw [readRemainingPackets]
  split
  · rename_i err failed
    rw [read] at failed
    cases failed
  · rename_i next' c'' read'
    rw [read] at read'
    cases read'
    rfl

theorem sequence_add_succ (sequence : UInt8) (n : ℕ) :
    sequence + 1 + UInt8.ofNat n = sequence + UInt8.ofNat (n + 1) := by
  rw [UInt8.ofNat_add, UInt8.ofNat_one, UInt8.add_assoc, UInt8.add_comm 1]

variable {frames : List (List UInt8)}

/-- The loop reads the rest of a message to its last frame and stops there,
counting each frame. -/
theorem readRemainingPackets_framesBytes (fits : ∀ frame ∈ frames, frame.length ≤ maxPacketSize)
    (message : Framing.join maxPacketSize frames = some (payload, [])) :
    ∀ {c : Conn} (data : List UInt8), c.input = framesBytes c.sequence frames ++ rest →
      c.readRemainingPackets data =
        .ok (data ++ payload, { c with sequence := c.sequence + UInt8.ofNat frames.length, input := rest }) := by
  induction frames generalizing payload with
  | nil => cases message
  | cons frame frames ih =>
    intro c data input
    have read := readOnePacket_packetBytes
      (show c.input = packetBytes c.sequence frame ++ (framesBytes (c.sequence + 1) frames ++ rest) by
        simp [input, framesBytes])
      (fits frame List.mem_cons_self)
    rw [readRemainingPackets_of_ok read]
    rcases Framing.join_cons_eq_some message with ⟨short, rfl, rfl⟩ | ⟨full, ys, following, rfl⟩
    · -- the last frame, the payload's end: empty after a full one, or short
      by_cases empty : payload.length = 0
      · rw [if_pos empty, List.eq_nil_of_length_eq_zero empty]
        simp [framesBytes]
      · rw [if_neg empty, if_pos short]
        simp [framesBytes]
    · have notEmpty : frame.length ≠ 0 := by
        have := Nat.pos_of_neZero maxPacketSize
        omega
      rw [if_neg notEmpty, if_neg (Nat.not_lt.mpr full),
        ih (fun frame mem => fits frame (List.mem_cons_of_mem _ mem)) following (data ++ frame) rfl]
      simp [sequence_add_succ]

/-- `readPacket` reads a whole message, whatever follows it. -/
theorem readPacket_framesBytes (fits : ∀ frame ∈ frames, frame.length ≤ maxPacketSize)
    (message : Framing.join maxPacketSize frames = some (payload, []))
    (input : c.input = framesBytes c.sequence frames ++ rest) :
    c.readPacket =
      .ok (payload, { c with sequence := c.sequence + UInt8.ofNat frames.length, input := rest }) := by
  cases frames with
  | nil => cases message
  | cons frame frames =>
    have read := readOnePacket_packetBytes
      (show c.input = packetBytes c.sequence frame ++ (framesBytes (c.sequence + 1) frames ++ rest) by
        simp [input, framesBytes])
      (fits frame List.mem_cons_self)
    rw [readPacket, read]
    dsimp only [bind, Except.bind]
    rcases Framing.join_cons_eq_some message with ⟨short, rfl, rfl⟩ | ⟨full, ys, following, rfl⟩
    · rw [if_pos short]
      simp [framesBytes, pure, Except.pure]
    · rw [if_neg (Nat.not_lt.mpr full),
        readRemainingPackets_framesBytes (fun frame mem => fits frame (List.mem_cons_of_mem _ mem))
          following frame rfl]
      simp [sequence_add_succ]

/-- `readEphemeralPacket` reads the same message as `readPacket` and leaves the
ephemeral buffer in use. -/
theorem readEphemeralPacket_framesBytes (fits : ∀ frame ∈ frames, frame.length ≤ maxPacketSize)
    (message : Framing.join maxPacketSize frames = some (payload, []))
    (input : c.input = framesBytes c.sequence frames ++ rest) (unused : c.currentEphemeralPolicy = .unused) :
    c.readEphemeralPacket =
      .ok (payload,
        { c with
          sequence := c.sequence + UInt8.ofNat frames.length, input := rest
          currentEphemeralPolicy := .read }) := by
  cases frames with
  | nil => cases message
  | cons frame frames =>
    have header := readHeaderFrom_packetBytes
      (show c.input = packetBytes c.sequence frame ++ (framesBytes (c.sequence + 1) frames ++ rest) by
        simp [input, framesBytes])
      (fits frame List.mem_cons_self)
    rw [readEphemeralPacket]
    simp only [unused, ne_eq, not_true_eq_false, if_false, header, readBody]
    dsimp only [bind, Except.bind]
    rw [readFull_append rfl]
    dsimp only
    rcases Framing.join_cons_eq_some message with ⟨short, rfl, rfl⟩ | ⟨full, ys, following, rfl⟩
    · by_cases empty : payload.length = 0
      · rw [if_pos empty, List.eq_nil_of_length_eq_zero empty]
        simp [framesBytes, pure, Except.pure]
      · rw [if_neg empty, if_pos short]
        simp [framesBytes]
    · have notEmpty : frame.length ≠ 0 := by
        have := Nat.pos_of_neZero maxPacketSize
        omega
      rw [if_neg notEmpty, if_neg (Nat.not_lt.mpr full),
        readRemainingPackets_framesBytes (fun frame mem => fits frame (List.mem_cons_of_mem _ mem))
          following frame rfl]
      simp [sequence_add_succ]

end Conn

/-! ### Writing a payload -/

section Window

variable {data : List UInt8} {index : ℕ} {w0 w1 w2 w3 : UInt8} {more : List UInt8}

theorem exists_window (room : index + packetHeaderSize ≤ data.length) :
    ∃ w0 w1 w2 w3 more, data.drop index = w0 :: w1 :: w2 :: w3 :: more := by
  have long : packetHeaderSize ≤ (data.drop index).length := by
    simp only [List.length_drop]
    omega
  match data.drop index, long with
  | w0 :: w1 :: w2 :: w3 :: more, _ => exact ⟨w0, w1, w2, w3, more, rfl⟩

theorem length_take_of_window (window : data.drop index = w0 :: w1 :: w2 :: w3 :: more) :
    (data.take index).length = index := by
  have := congrArg List.length window
  simp only [List.length_drop, List.length_cons] at this
  simp only [List.length_take]
  omega

/-- The four header assignments replace the window at `index` by the header. -/
theorem putHeader_eq (window : data.drop index = w0 :: w1 :: w2 :: w3 :: more) (toBeSent : ℕ)
    (sequence : UInt8) :
    putHeader data index toBeSent sequence =
      data.take index ++ LittleEndian.encode 3 toBeSent ++ sequence :: more := by
  have prefixLength := length_take_of_window window
  conv_lhs => rw [← List.take_append_drop index data, window]
  simp [putHeader, prefixLength, encode_three]

/-- What `w.Write` is given: the header, then the chunk behind the window. -/
theorem written_putHeader (window : data.drop index = w0 :: w1 :: w2 :: w3 :: more) {toBeSent : ℕ}
    (fits : toBeSent ≤ more.length) (sequence : UInt8) :
    ((putHeader data index toBeSent sequence).drop index).take (toBeSent + packetHeaderSize) =
      packetBytes sequence (more.take toBeSent) := by
  have prefixLength := length_take_of_window window
  have header : (LittleEndian.encode 3 toBeSent).take (toBeSent + packetHeaderSize) =
      LittleEndian.encode 3 toBeSent := by
    rw [List.take_of_length_le]
    simp [packetHeaderSize]
  have chunkLength : (more.take toBeSent).length = toBeSent := by
    simp [fits]
  have rest : toBeSent + packetHeaderSize - (LittleEndian.encode 3 toBeSent).length = toBeSent + 1 := by
    simp only [LittleEndian.length_encode, packetHeaderSize]
    omega
  rw [putHeader_eq window, List.append_assoc, List.drop_left' prefixLength, List.take_append, header,
    rest, List.take_succ_cons, packetBytes, chunkLength]

/-- Copying the saved window back undoes the header. -/
theorem copyAt_putHeader (window : data.drop index = w0 :: w1 :: w2 :: w3 :: more) (toBeSent : ℕ)
    (sequence : UInt8) :
    copyAt (putHeader data index toBeSent sequence) index ((data.drop index).take packetHeaderSize) =
      data := by
  have prefixLength := length_take_of_window window
  conv_rhs => rw [← List.take_append_drop index data, window]
  rw [putHeader_eq window, window, copyAt]
  simp [packetHeaderSize, List.drop_append, prefixLength, List.drop_eq_nil_of_le]

end Window

namespace Conn

variable {c : Conn} {data : List UInt8} {index dataLength : ℕ}

/-- One turn of the loop of `writePacket`: it sends the next chunk of at most
`MaxPacketSize` bytes as one packet, leaves the buffer as it found it, and then
goes on, stops, or sends the empty packet that ends a payload of full chunks. -/
theorem writePacketLoop_eq (sized : index + packetHeaderSize + dataLength = data.length) :
    c.writePacketLoop data index dataLength =
      let sent : Conn :=
        { c with
          sequence := c.sequence + 1
          output := c.output ++
            packetBytes c.sequence ((data.drop (index + packetHeaderSize)).take maxPacketSize) }
      if maxPacketSize < dataLength then
        sent.writePacketLoop data (index + maxPacketSize) (dataLength - maxPacketSize)
      else if dataLength = maxPacketSize then
        .ok (data, { sent with sequence := sent.sequence + 1, output := sent.output ++ packetBytes sent.sequence [] })
      else .ok (data, sent) := by
  obtain ⟨w0, w1, w2, w3, more, window⟩ := exists_window (by omega : index + packetHeaderSize ≤ data.length)
  have remaining : data.drop (index + packetHeaderSize) = more := by
    rw [← List.drop_drop, window]
    rfl
  have moreLength : more.length = dataLength := by
    rw [← remaining, List.length_drop]
    omega
  have inBounds : ¬ data.length <
      index + (if dataLength > maxPacketSize then maxPacketSize else dataLength) + packetHeaderSize := by
    split <;> omega
  rw [writePacketLoop, if_neg inBounds]
  dsimp only
  rw [copyAt_putHeader window, remaining]
  by_cases long : maxPacketSize < dataLength
  · have notDone : dataLength - maxPacketSize ≠ 0 := by omega
    simp only [gt_iff_lt, if_pos long, if_neg notDone,
      written_putHeader window (by omega : maxPacketSize ≤ more.length)]
  · have whole : more.take dataLength = more.take maxPacketSize := by
      rw [List.take_of_length_le (by omega), List.take_of_length_le (by omega)]
    simp only [gt_iff_lt, if_neg long, Nat.sub_self, if_true,
      written_putHeader window (by omega : dataLength ≤ more.length), whole]
    by_cases last : dataLength = maxPacketSize
    · simp [last, packetBytes, LittleEndian.encode]
    · simp [last]

/-- The whole loop sends the frames of what is left of the payload, numbered on
from the connection's sequence number, and gives the buffer back unchanged. -/
theorem writePacketLoop_spec (dataLength : ℕ) :
    ∀ (index : ℕ) (c : Conn), index + packetHeaderSize + dataLength = data.length →
      c.writePacketLoop data index dataLength =
        .ok (data,
          { c with
            sequence := c.sequence +
              UInt8.ofNat (Framing.split maxPacketSize (data.drop (index + packetHeaderSize))).length
            output := c.output ++
              framesBytes c.sequence (Framing.split maxPacketSize (data.drop (index + packetHeaderSize))) }) := by
  induction dataLength using Nat.strong_induction_on with
  | _ dataLength ih =>
  intro index c sized
  have remainingLength : (data.drop (index + packetHeaderSize)).length = dataLength := by
    rw [List.length_drop]
    omega
  rw [writePacketLoop_eq sized]
  dsimp only
  by_cases long : maxPacketSize < dataLength
  · -- a full chunk, and more of the payload after it
    have tail : (data.drop (index + packetHeaderSize)).drop maxPacketSize =
        data.drop (index + maxPacketSize + packetHeaderSize) := by
      rw [List.drop_drop, Nat.add_right_comm index packetHeaderSize maxPacketSize]
    have smaller : dataLength - maxPacketSize < dataLength := by
      have := Nat.pos_of_neZero maxPacketSize
      omega
    have nextSized : index + maxPacketSize + packetHeaderSize + (dataLength - maxPacketSize) = data.length := by
      omega
    rw [if_pos long, ih _ smaller _ _ nextSized,
      Framing.split_of_le (by omega : maxPacketSize ≤ (data.drop (index + packetHeaderSize)).length), tail]
    -- rewritten rather than simplified: simp's definitional step on the frame count
    -- sends the kernel through the whole term
    rw [List.length_cons, framesBytes, ← List.append_assoc, ← sequence_add_succ]
  · by_cases last : dataLength = maxPacketSize
    · -- the last chunk is full: an empty packet follows it
      have ended : (data.drop (index + packetHeaderSize)).drop maxPacketSize = [] := by
        simp only [List.drop_eq_nil_iff]
        omega
      have emptyFrames : Framing.split maxPacketSize ([] : List UInt8) = [[]] :=
        Framing.split_of_lt (Nat.pos_of_neZero maxPacketSize)
      rw [if_neg long, if_pos last,
        Framing.split_of_le (by omega : maxPacketSize ≤ (data.drop (index + packetHeaderSize)).length),
        ended, emptyFrames]
      simp [framesBytes, UInt8.add_assoc]
    · -- the last chunk is short
      have short : (data.drop (index + packetHeaderSize)).length < maxPacketSize := by omega
      rw [if_neg long, if_neg last, Framing.split_of_lt short, List.take_of_length_le short.le]
      simp [framesBytes]

/-- `writePacket` sends what follows the four bytes of room as the frames of a
message and hands the buffer back as it was. -/
theorem writePacket_spec (c : Conn) {reserved : List UInt8} (room : reserved.length = packetHeaderSize)
    (payload : List UInt8) :
    c.writePacket (reserved ++ payload) =
      .ok (reserved ++ payload,
        { c with
          sequence := c.sequence + UInt8.ofNat (Framing.split maxPacketSize payload).length
          output := c.output ++ framesBytes c.sequence (Framing.split maxPacketSize payload) }) := by
  have sized : 0 + packetHeaderSize + ((reserved ++ payload).length - packetHeaderSize) =
      (reserved ++ payload).length := by
    simp only [List.length_append, room]
    omega
  rw [writePacket, writePacketLoop_spec _ 0 c sized, Nat.zero_add, List.drop_left' room]

end Conn

/-- A payload written by `writePacket` is read back whole by `readPacket` and by
`readEphemeralPacket` on a peer that expects the same sequence number, whatever
the peer receives after it; the payload goes in `length / MaxPacketSize + 1`
packets, both sides count them, and the writer's buffer is handed back as it was. -/
theorem packet_framing_round_trips (conn peer : Conn) (sequence r0 r1 r2 r3 : UInt8)
    (payload rest : List UInt8) :
    let data := [r0, r1, r2, r3] ++ payload
    let frames := UInt8.ofNat (payload.length / maxPacketSize + 1)
    ∃ emitted,
      { conn with sequence }.writePacket data =
        .ok (data, { conn with sequence := sequence + frames, output := conn.output ++ emitted }) ∧
      { peer with sequence, input := emitted ++ rest }.readPacket =
        .ok (payload, { peer with sequence := sequence + frames, input := rest }) ∧
      { peer with sequence, input := emitted ++ rest, currentEphemeralPolicy := .unused }.readEphemeralPacket =
        .ok (payload,
          { peer with sequence := sequence + frames, input := rest, currentEphemeralPolicy := .read }) := by
  intro data frames
  have count : UInt8.ofNat (Framing.split maxPacketSize payload).length = frames := by
    rw [Framing.length_split]
  have fits : ∀ frame ∈ Framing.split maxPacketSize payload, frame.length ≤ maxPacketSize :=
    Framing.length_le_of_mem_split payload
  refine ⟨framesBytes sequence (Framing.split maxPacketSize payload), ?_, ?_, ?_⟩
  · rw [Conn.writePacket_spec _ rfl, count]
  · rw [Conn.readPacket_framesBytes fits (Framing.join_split payload) rfl, count]
  · rw [Conn.readEphemeralPacket_framesBytes fits (Framing.join_split payload) rfl rfl, count]

end Vitess.Mysql
