import AsioPy.Read

/-!
# The `str` mode of a read against its `bytes` mode

The two modes of a read size their buffers by different constructors of different containers. The
vector of the `bytes` mode has the size that the caller asked for; the string of the `str` mode is
made with the arguments of its constructor in the wrong order and has 32 bytes for every size. So
the six reads agree between the modes exactly at the size 32 (`modes_agree_iff`).
-/

namespace AsioPy

/-- The six reads that take a size. -/
inductive ReadCall
  | read_some
  | read_some_ec
  | async_read_some
  | read
  | read_ec
  | async_read
  deriving DecidableEq

/-- What a read comes to. -/
def ReadCall.run : ReadCall → Stream → TypeArg → ℕ → Outcome
  | .read_some => AsioPy.read_some
  | .read_some_ec => AsioPy.read_some_ec
  | .async_read_some => AsioPy.async_read_some
  | .read => AsioPy.read
  | .read_ec => AsioPy.read_ec
  | .async_read => AsioPy.async_read

/-- The reads that fill their buffer. -/
def ReadCall.fills : ReadCall → Bool
  | .read | .read_ec | .async_read => true
  | .read_some | .read_some_ec | .async_read_some => false

/-- The UTF-8 decoding of what a `bytes` read returns: an exception stays what it is. -/
def decoded : Except Error PyObject → Except Error PyObject
  | .ok (.bytes data) => py_str data data.length
  | v => v

/-- What the two modes of a read owe each other on a stream, and the caller for the size `n`. -/
structure ModesAgree (f : ReadCall) (p : Stream) (n : ℕ) : Prop where
  /-- The `bytes` mode asks the stream for `n` bytes. -/
  asked_bytes : (f.run p (.mode .bytes) n).asked = n
  /-- The `str` mode asks the stream for `n` bytes. -/
  asked_str : (f.run p (.mode .str) n).asked = n
  /-- Both modes leave the same stream. -/
  rest_eq : (f.run p (.mode .str) n).rest = (f.run p (.mode .bytes) n).rest
  /-- Both modes report the same error code. -/
  ec_eq : (f.run p (.mode .str) n).ec = (f.run p (.mode .bytes) n).ec
  /-- The `str` mode returns the decoding of what the `bytes` mode returns. -/
  value_eq : (f.run p (.mode .str) n).value = decoded (f.run p (.mode .bytes) n).value
  /-- At most `n` bytes are returned. -/
  length_le : ∀ data, (f.run p (.mode .bytes) n).value = .ok (.bytes data) → data.length ≤ n
  /-- The reads that fill their buffer return exactly the next `n` bytes where there are so many. -/
  full : f.fills = true → n ≤ p.content.length →
    (f.run p (.mode .bytes) n).value = .ok (.bytes (p.content.take n))

/-- The call style of a read. -/
def ReadCall.style : ReadCall → CallStyle
  | .read_some | .read => .throwing
  | .read_some_ec | .read_ec => .error_code
  | .async_read_some | .async_read => .async

/-- The asio operation behind a read. -/
def ReadCall.op (f : ReadCall) : Stream → ℕ → Transfer :=
  if f.fills then Asio.read else Asio.read_some

/-- The six reads are one body at their own style and operation. -/
theorem ReadCall.run_eq (f : ReadCall) : f.run = read_with f.style f.op := by
  cases f <;> rfl

/-- A read of mode `m` hands asio its local buffer and makes its object of the transfer alone. -/
theorem ReadCall.run_mode (f : ReadCall) (m : Mode) (p : Stream) (n : ℕ) :
    f.run p (.mode m) n =
      finish f.style (local_buf m n).length (f.op p (local_buf m n).length).ec
        (make_object m (f.op p (local_buf m n).length).data
          (f.op p (local_buf m n).length).data.length)
        (f.op p (local_buf m n).length).rest := by
  rw [f.run_eq, read_with, make_object_fill]

/-- What a read asks for is the size of its local buffer. -/
theorem ReadCall.asked_run (f : ReadCall) (m : Mode) (p : Stream) (n : ℕ) :
    (f.run p (.mode m) n).asked = (local_buf m n).length := by
  rw [f.run_mode, finish_asked]

/-- The operation behind a read transfers no more than the buffer holds. -/
theorem ReadCall.op_length_le (f : ReadCall) (p : Stream) (n : ℕ) : (f.op p n).data.length ≤ n := by
  unfold ReadCall.op
  split_ifs with hf
  · rw [(Asio.read_spec p n).2.1]
    exact Nat.min_le_left _ _
  · exact Asio.read_some_length_le p n

/-- The two ends of a read that differ in the object only, the one object being the decoding of the
other, differ in the value only, and it is the decoding of the other. -/
theorem finish_decoded (style : CallStyle) (asked : ℕ) (ec : Option ErrorCode) (data : List UInt8)
    (rest : Stream) :
    let s := finish style asked ec (make_object .str data data.length) rest
    let b := finish style asked ec (make_object .bytes data data.length) rest
    s.rest = b.rest ∧ s.ec = b.ec ∧ s.value = decoded b.value := by
  have hdec : make_object .str data data.length =
      decoded (make_object .bytes data data.length) := by
    simp [make_object, py_bytes, decoded]
  cases style <;> cases ec <;> exact ⟨rfl, rfl, by first | exact hdec | rfl⟩

/-- A `bytes` read that returns an object returns the bytes transferred. -/
theorem ReadCall.value_bytes {f : ReadCall} {p : Stream} {n : ℕ} {data : List UInt8}
    (h : (f.run p (.mode .bytes) n).value = .ok (.bytes data)) : data = (f.op p n).data := by
  rw [f.run_mode, length_local_buf_bytes] at h
  unfold finish at h
  split at h
  · cases h
  · simpa [make_object, py_bytes, eq_comm] using h

/-- A read that fills its buffer returns the next `n` bytes where there are so many. -/
theorem ReadCall.full_bytes {f : ReadCall} (hf : f.fills = true) {p : Stream} {n : ℕ}
    (hn : n ≤ p.content.length) :
    (f.run p (.mode .bytes) n).value = .ok (.bytes (p.content.take n)) := by
  have hop : f.op = Asio.read := if_pos hf
  obtain ⟨hcont, hlen, hec⟩ := Asio.read_spec p n
  have hdata : (Asio.read p n).data = p.content.take n := by
    have hn' : (Asio.read p n).data.length = n := by omega
    rw [← hcont, List.take_left' hn']
  rw [f.run_mode, length_local_buf_bytes, hop, hec.mpr hn, hdata]
  cases f.style <;> simp [finish, make_object, py_bytes]

/-- **When the modes of a read agree.** At every stream, a read asks for the same number of bytes in
both modes, consumes the same bytes and returns the same text, exactly when the size is 32. -/
theorem modes_agree_iff (f : ReadCall) (p : Stream) (n : ℕ) : ModesAgree f p n ↔ n = 32 := by
  constructor
  · intro h
    have hasked := h.asked_str
    rw [f.asked_run, length_local_buf_str] at hasked
    exact hasked.symm
  · rintro rfl
    have hsame : (local_buf .str 32).length = (local_buf .bytes 32).length := by simp
    obtain ⟨hrest, hec, hvalue⟩ := finish_decoded f.style 32 (f.op p 32).ec (f.op p 32).data
      (f.op p 32).rest
    constructor
    · rw [f.asked_run, length_local_buf_bytes]
    · rw [f.asked_run, length_local_buf_str]
    · rw [f.run_mode, f.run_mode, hsame, length_local_buf_bytes]
      exact hrest
    · rw [f.run_mode, f.run_mode, hsame, length_local_buf_bytes]
      exact hec
    · rw [f.run_mode, f.run_mode, hsame, length_local_buf_bytes]
      exact hvalue
    · intro data hdata
      rw [f.value_bytes hdata]
      exact f.op_length_le p 32
    · intro hf hn
      exact f.full_bytes hf hn

/-- Asked for 5 bytes of a greeting, the `str` mode asks for 32 and returns all of it, and the
`bytes` mode returns 5. -/
theorem str_mode_ignores_size :
    (AsioPy.read_some (Stream.of [[104, 101, 108, 108, 111, 32, 121, 111, 117]] .eof)
        (.mode .str) 5).value = .ok (.str ['h', 'e', 'l', 'l', 'o', ' ', 'y', 'o', 'u']) ∧
      (AsioPy.read_some (Stream.of [[104, 101, 108, 108, 111, 32, 121, 111, 117]] .eof)
        (.mode .bytes) 5).value = .ok (.bytes [104, 101, 108, 108, 111]) ∧
      ¬ ModesAgree .read_some (Stream.of [[104, 101, 108, 108, 111, 32, 121, 111, 117]] .eof) 5 :=
  ⟨by rfl, by rfl, fun h => absurd h.asked_str (by decide)⟩

end AsioPy
