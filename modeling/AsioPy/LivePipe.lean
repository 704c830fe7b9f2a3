import AsioPy.ReadFailure
import AsioPy.Lib.Mealy

/-!
# A pipe with a writer and a reader at work

The two ends of a connected pipe are used by two coroutines of one event loop, as in the test of the
pipes. An `async_write` hands its bytes over in as many transfers as it takes. A read is a composed
operation: it calls asio's `read_some` until it has what it asks for, and between two of these calls
anything may happen at the other end. A read that is cancelled, or that finds the end of a closed
pipe, completes with what it has. `pipe` is this system, one step for each thing that can happen
next, in any order.

The other modules run reads on a `Stream`, which holds its chunks from the start. `pipe_reads_eq`
says that nothing is lost by that: in every run of the live pipe the reads hand back what the same
reads, one after the other, hand back on the stream of the chunks that they found (`reads`). The
heart of it is that a composed read can be cut at every chunk: `Reading.resume` is what is left of
it, and taking a chunk off the pipe does not change what it comes to (`resume_add`). `pipe_ledger`
adds up the bytes.
-/

namespace AsioPy

open Delimiter

/-- A call of a read function. -/
structure PipeRead where
  op : ReadOp
  style : CallStyle
  type : TypeArg

/-- What the call comes to on a stream. -/
def PipeRead.outcome (c : PipeRead) (p : Stream) : Outcome := c.op.outcome c.style p c.type

/-- What a read hands back: its error code, and its object or the exception that it ends with. -/
abbrev ReadResult := Option ErrorCode × Except Error PyObject

/-- An outcome without the stream. -/
def Outcome.result (o : Outcome) : ReadResult := (o.ec, o.value)

/-- The error code and the object as the call style hands them out, see `finish`. -/
def handed_out (style : CallStyle) (ec : Option ErrorCode) (value : Except Error PyObject) :
    ReadResult :=
  match style, ec with
  -- Only the throwing functions lose the object: the others return it beside the error code.
  | .throwing, some e => (none, .error (.system_error e))
  | _, ec => (ec, value)

/-- What a call hands back when it ends with the bytes `got` in its buffer. Where the delimiter of a
`read_until` is not among them, its size is 0. -/
def PipeRead.result (c : PipeRead) (got : List UInt8) (ec : Option ErrorCode) : ReadResult :=
  match c.type with
  | .mode m =>
    match c.op with
    | .read_some sz | .read sz =>
      handed_out c.style ec (make_object m (fill (local_buf m sz) got) got.length)
    | .read_until delim => handed_out c.style ec (make_object m got ((firstEnd delim got).getD 0))
  -- Refused before asio is called, so the stream does not matter.
  | .other text => (wrong_type c.style text (.of [] .eof)).result
  | .not_a_type tp_name => (no_type tp_name (.of [] .eof)).result

/-- A read under way: the chunks that its calls of `read_some` have found so far. -/
structure Reading where
  call : PipeRead
  chunks : List (List UInt8)

/-- The bytes in the buffer of the read. -/
def Reading.got (r : Reading) : List UInt8 := r.chunks.flatten

/-- Another chunk is found. -/
def Reading.add (r : Reading) (chunk : List UInt8) : Reading :=
  { r with chunks := r.chunks ++ [chunk] }

/-- The read has what it asks for. One whose `type` is no mode does not read. -/
def Reading.enough (r : Reading) : Bool :=
  match r.call.type with
  | .mode m =>
    match r.call.op with
    | .read_some sz => (local_buf m sz).length == 0 || !r.got.isEmpty
    | .read sz => (local_buf m sz).length ≤ r.got.length
    | .read_until delim => (firstEnd delim r.got).isSome
  | .other _ | .not_a_type _ => true

/-- There is room in the buffer for `n` bytes more; the buffer of `read_until` grows. -/
def Reading.has_room (r : Reading) (n : ℕ) : Bool :=
  match r.call.type, r.call.op with
  | .mode m, .read_some sz | .mode m, .read sz => r.got.length + n ≤ (local_buf m sz).length
  | _, _ => true

/-- A connected pipe. -/
structure Pipe where
  /-- What the write under way has still to transfer. -/
  writing : Option (List UInt8)
  /-- The bytes that have been transferred and not been found by a read. -/
  transit : List UInt8
  /-- The writable end is closed. -/
  closed : Bool
  reading : Option Reading

/-- A pipe as `connect_pipe` makes it. -/
def Pipe.connected : Pipe := ⟨none, [], false, none⟩

/-- The chunks that the read under way has found. -/
def Pipe.pending (s : Pipe) : List (List UInt8) := (s.reading.map Reading.chunks).getD []

/-- The bytes of the write under way that are still the writer's. -/
def Pipe.unsent (s : Pipe) : List UInt8 := s.writing.getD []

/-- What happens at a pipe. -/
inductive PipeAction
  /-- `async_write` is called with a buffer of these bytes. -/
  | async_write (data : List UInt8)
  /-- The pipe takes the next `n` bytes of the write. -/
  | transfer (n : ℕ)
  /-- The write completes. -/
  | write_done
  /-- The writable end is closed. -/
  | close
  /-- A read is called. -/
  | read (call : PipeRead)
  /-- A `read_some` of the read finds `n` bytes. -/
  | find (n : ℕ)
  /-- The read completes. -/
  | read_done
  /-- The read is cancelled. -/
  | cancel
  /-- A `read_some` of the read finds the end of the pipe. -/
  | find_eof

/-- What is seen of it. -/
inductive PipeEvent
  /-- A write or a read is under way. -/
  | started
  | sent (data : List UInt8)
  | wrote
  | closed
  | found (chunk : List UInt8)
  /-- The read has ended with the error code of asio, and hands back its result. -/
  | completed (r : Reading) (ec : Option ErrorCode) (result : ReadResult)

/-- The end of the read under way with the error code `ec`. -/
def Pipe.complete (s : Pipe) (r : Reading) (ec : Option ErrorCode) : PipeEvent × Pipe :=
  (.completed r ec (r.call.result r.got ec), { s with reading := none })

/-- The pipe and the operations on it. At each end one operation is under way at a time, as asio
demands. An operation that has what it asks for is not interrupted any more. -/
def pipe : Mealy Pipe PipeAction PipeEvent where
  step s a :=
    match a, s.writing, s.reading with
    -- The writer's end.
    | .async_write data, none, _ =>
      if s.closed then none else some (.started, { s with writing := some data })
    | .transfer n, some left, _ =>
      if 0 < n ∧ n ≤ left.length then
        some (.sent (left.take n),
          { s with writing := some (left.drop n), transit := s.transit ++ left.take n })
      else none
    | .write_done, some [], _ => some (.wrote, { s with writing := none })
    | .close, none, _ => some (.closed, { s with closed := true })
    -- The reader's end. A read that has enough can only complete.
    | .read call, _, none => some (.started, { s with reading := some ⟨call, []⟩ })
    | .find n, _, some r =>
      if ¬ r.enough ∧ r.has_room n ∧ 0 < n ∧ n ≤ s.transit.length then
        some (.found (s.transit.take n),
          { s with transit := s.transit.drop n, reading := some (r.add (s.transit.take n)) })
      else none
    | .read_done, _, some r => if r.enough then some (s.complete r none) else none
    | .cancel, _, some r =>
      if r.enough then none else some (s.complete r (some .operation_aborted))
    | .find_eof, _, some r =>
      if ¬ r.enough ∧ s.closed ∧ s.transit = [] then some (s.complete r (some .eof)) else none
    | _, _, _ => none

/-- The chunk that a step finds. -/
def PipeEvent.chunk : PipeEvent → List (List UInt8)
  | .found chunk => [chunk]
  | _ => []

/-- The call that a step completes; one that ended with an error code, with the number of chunks
that it had found. -/
def PipeEvent.call : PipeEvent → List (PipeRead × Option (ℕ × ErrorCode))
  | .completed r ec _ => [(r.call, ec.map fun e => (r.chunks.length, e))]
  | _ => []

/-- The result that a step hands back. -/
def PipeEvent.result : PipeEvent → List ReadResult
  | .completed _ _ res => [res]
  | _ => []

/-- The bytes that a step hands to a write. -/
def PipeAction.payload : PipeAction → List UInt8
  | .async_write data => data
  | _ => []

/-- Reads one after the other on a stream that holds its chunks from the start. A read that is
interrupted with an error code after `k` chunks sees a stream that fails behind them. -/
def reads : Mealy Stream (PipeRead × Option (ℕ × ErrorCode)) ReadResult where
  step p a :=
    match a with
    | (c, none) => some ((c.outcome p).result, (c.outcome p).rest)
    | (c, some (k, e)) =>
      -- What the read leaves of its own chunks goes back in front of the others.
      let o := c.outcome (.of (p.chunks.take k) e)
      some (o.result, .of (o.rest.chunks ++ p.chunks.drop k) p.fate)

/-- The steps of a pipe, one constructor for each action that is enabled. -/
inductive PipeStep : Pipe → PipeAction → PipeEvent → Pipe → Prop
  | async_write {s : Pipe} {data : List UInt8} : s.writing = none → s.closed = false →
      PipeStep s (.async_write data) .started { s with writing := some data }
  | transfer {s : Pipe} {n : ℕ} {left : List UInt8} :
      s.writing = some left → 0 < n → n ≤ left.length →
      PipeStep s (.transfer n) (.sent (left.take n))
        { s with writing := some (left.drop n), transit := s.transit ++ left.take n }
  | write_done {s : Pipe} : s.writing = some [] →
      PipeStep s .write_done .wrote { s with writing := none }
  | close {s : Pipe} : s.writing = none → PipeStep s .close .closed { s with closed := true }
  | read {s : Pipe} {call : PipeRead} : s.reading = none →
      PipeStep s (.read call) .started { s with reading := some ⟨call, []⟩ }
  | find {s : Pipe} {n : ℕ} {r : Reading} :
      s.reading = some r → r.enough = false → r.has_room n = true → 0 < n → n ≤ s.transit.length →
      PipeStep s (.find n) (.found (s.transit.take n))
        { s with transit := s.transit.drop n, reading := some (r.add (s.transit.take n)) }
  | read_done {s : Pipe} {r : Reading} : s.reading = some r → r.enough = true →
      PipeStep s .read_done (s.complete r none).1 (s.complete r none).2
  | cancel {s : Pipe} {r : Reading} : s.reading = some r → r.enough = false →
      PipeStep s .cancel (s.complete r (some .operation_aborted)).1
        (s.complete r (some .operation_aborted)).2
  | find_eof {s : Pipe} {r : Reading} :
      s.reading = some r → r.enough = false → s.closed = true → s.transit = [] →
      PipeStep s .find_eof (s.complete r (some .eof)).1 (s.complete r (some .eof)).2

/-- What a step of the pipe can be. -/
theorem pipeStep_of_step {s t : Pipe} {a : PipeAction} {o : PipeEvent}
    (h : pipe.step s a = some (o, t)) : PipeStep s a o t := by
  rcases s with ⟨writing, transit, closed, reading⟩
  simp only [pipe] at h
  split at h
  · split at h
    · cases h
    · next hclosed =>
      cases h
      exact .async_write rfl (by simpa using hclosed)
  · split at h
    · next hn =>
      cases h
      exact .transfer rfl hn.1 hn.2
    · cases h
  · cases h
    exact .write_done rfl
  · cases h
    exact .close rfl
  · cases h
    exact .read rfl
  · split at h
    · next hn =>
      cases h
      exact .find rfl (by simpa using hn.1) hn.2.1 hn.2.2.1 hn.2.2.2
    · cases h
  · split at h
    · next henough =>
      cases h
      exact .read_done rfl henough
    · cases h
  · split at h
    · cases h
    · next henough =>
      cases h
      exact .cancel rfl (by simpa using henough)
  · split at h
    · next hn =>
      cases h
      exact .find_eof rfl (by simpa using hn.1) hn.2.1 hn.2.2
    · cases h
  · cases h

/-- The bytes between the writer's calls and the reader's completed reads. -/
def Pipe.on_the_way (s : Pipe) : List UInt8 := s.pending.flatten ++ s.transit ++ s.unsent

/-- One step keeps the bytes: what is on the way to the reads, and what the step adds to it, is what
it finds, and what is on the way after it. -/
theorem pipe_step_ledger {s t : Pipe} {a : PipeAction} {o : PipeEvent} (h : PipeStep s a o t) :
    s.transit ++ s.unsent ++ a.payload = o.chunk.flatten ++ (t.transit ++ t.unsent) := by
  cases h with
  | async_write hw =>
    simp [Pipe.unsent, PipeAction.payload, PipeEvent.chunk, hw]
  | transfer hw => simp [Pipe.unsent, PipeAction.payload, PipeEvent.chunk, hw]
  | write_done hw => simp [Pipe.unsent, PipeAction.payload, PipeEvent.chunk, hw]
  | close | read => simp [Pipe.unsent, PipeAction.payload, PipeEvent.chunk]
  | find =>
    simp only [Pipe.unsent, PipeAction.payload, PipeEvent.chunk, List.append_nil,
      List.flatten_singleton]
    rw [← List.append_assoc, List.take_append_drop]
  | read_done | cancel | find_eof =>
    simp [Pipe.unsent, PipeAction.payload, PipeEvent.chunk, Pipe.complete]

/-- What a read under way comes to where the stream goes on as `p`: asio's operation from the
bytes that are in its buffer. -/
def Reading.resume (r : Reading) (p : Stream) : ReadResult × Stream :=
  match r.call.type, r.call.op with
  | .mode m, .read_some sz =>
    if r.enough then (r.call.result r.got none, p)
    else
      let x := Asio.read_some p (local_buf m sz).length
      (r.call.result x.data x.ec, x.rest)
  | .mode m, .read sz =>
    let x := Asio.read p ((local_buf m sz).length - r.got.length)
    (r.call.result (r.got ++ x.data) x.ec, x.rest)
  | .mode _, .read_until delim =>
    let u := Asio.read_until_loop delim p.fate r.got p.chunks
    (r.call.result u.buf u.ec, u.rest)
  | _, _ => (r.call.result r.got none, p)

/-- A stream is the stream of its chunks. -/
theorem Stream.of_chunks (p : Stream) : Stream.of p.chunks p.fate = p := by
  have h := Stream.chunks_of p.nonempty p.fate
  rcases p with ⟨chunks, fate, hne⟩
  exact Stream.mk.injEq .. ▸ ⟨h, rfl⟩

/-- Behind an empty chunk the stream is what it was. -/
theorem Stream.of_nil_cons (p : Stream) : Stream.of ([] :: p.chunks) p.fate = p := by
  rw [← Stream.of_chunks p]
  simp [Stream.of]

/-- The end of a call, without the stream. -/
theorem finish_result (style : CallStyle) (asked : ℕ) (ec : Option ErrorCode)
    (value : Except Error PyObject) (rest : Stream) :
    (finish style asked ec value rest).result = handed_out style ec value := by
  rcases style with - | - | - <;> rcases ec with - | ec <;> rfl

/-- The size that `read_until` returns, by what is in its buffer. -/
theorem Asio.read_until_loop_sz (delim : List UInt8) (fate : ErrorCode) :
    ∀ (cs : List (List UInt8)) (buf : List UInt8),
      (Asio.read_until_loop delim fate buf cs).sz =
        (firstEnd delim (Asio.read_until_loop delim fate buf cs).buf).getD 0
  | [], buf => by
    unfold Asio.read_until_loop
    split <;> next hk => simp [hk]
  | c :: cs, buf => by
    unfold Asio.read_until_loop
    split
    · next hk => simp [hk]
    · exact Asio.read_until_loop_sz delim fate cs (buf ++ c)

/-- A read that has not found a chunk yet is the call. -/
theorem resume_start (call : PipeRead) (p : Stream) :
    Reading.resume ⟨call, []⟩ p = ((call.outcome p).result, (call.outcome p).rest) := by
  rcases call with ⟨op, style, m | text | tp_name⟩
  · cases op with
    | read_some sz =>
      have hbody : PipeRead.outcome ⟨.read_some sz, style, .mode m⟩ p =
          read_with style Asio.read_some p (.mode m) sz := by
        cases style <;> rfl
      rw [hbody]
      simp only [Reading.resume, read_with, finish_result, finish_rest, PipeRead.result]
      -- A read that has enough before its first chunk has a buffer of length 0.
      split
      · next h =>
        have hlen : (local_buf m sz).length = 0 := by
          simpa [Reading.enough, Reading.got] using h
        simp [Asio.read_some, hlen, Reading.got]
      · rfl
    | read sz =>
      have hbody : PipeRead.outcome ⟨.read sz, style, .mode m⟩ p =
          read_with style Asio.read p (.mode m) sz := by
        cases style <;> rfl
      rw [hbody]
      simp [Reading.resume, read_with, finish_result, PipeRead.result, Reading.got]
    | read_until delim =>
      have hbody : PipeRead.outcome ⟨.read_until delim, style, .mode m⟩ p =
          read_until_with style p delim (.mode m) := by
        cases style <;> rfl
      rw [hbody]
      simp [Reading.resume, read_until_with, finish_result, PipeRead.result, Reading.got,
        Asio.read_until, Asio.read_until_loop_sz]
  · rcases op with sz | sz | delim <;> rcases style with - | - | - <;> rfl
  · rcases op with sz | sz | delim <;> rcases style with - | - | - <;> rfl

/-- A read that has what it asks for takes nothing more. -/
theorem resume_enough {r : Reading} (h : r.enough = true) (p : Stream) :
    r.resume p = (r.call.result r.got none, p) := by
  rcases r with ⟨⟨op, style, m | text | tp_name⟩, chunks⟩
  · cases op with
    | read_some sz => simp [Reading.resume, h]
    | read sz =>
      have hlen : (local_buf m sz).length ≤ chunks.flatten.length := of_decide_eq_true h
      -- The buffer is full: asio is not asked for another byte.
      have hread : Asio.read p 0 = ⟨none, [], p⟩ := by
        unfold Asio.read Asio.read_loop
        rw [Stream.of_chunks]
      simp only [Reading.resume, Reading.got, Nat.sub_eq_zero_of_le hlen, hread, List.append_nil]
    | read_until delim =>
      obtain ⟨k, hk⟩ : ∃ k, firstEnd delim chunks.flatten = some k := Option.isSome_iff_exists.mp h
      have hloop : Asio.read_until_loop delim p.fate chunks.flatten p.chunks =
          ⟨none, k, chunks.flatten, p⟩ := by
        rcases hc : p.chunks with - | ⟨c, cs⟩ <;>
          simp only [Asio.read_until_loop, hk, ← hc, Stream.of_chunks]
      simp only [Reading.resume, Reading.got, hloop]
  · rfl
  · rfl

/-- A chunk that a read finds does not change what the read comes to. -/
theorem resume_add {r : Reading} {c : List UInt8} {p q : Stream} (henough : r.enough = false)
    (hroom : r.has_room c.length = true) (hc : c ≠ []) (hp : p.chunks = c :: q.chunks)
    (hfate : p.fate = q.fate) : r.resume p = (r.add c).resume q := by
  rcases r with ⟨⟨op, style, m | text | tp_name⟩, chunks⟩
  · have hgot : (chunks ++ [c]).flatten = chunks.flatten ++ c := by simp
    cases op with
    | read_some sz =>
      -- The buffer is empty, and the chunk fits in it.
      obtain ⟨hlen, hempty⟩ : (local_buf m sz).length ≠ 0 ∧ chunks.flatten = [] := by
        simpa [Reading.enough, Reading.got] using henough
      have hfits : c.length ≤ (local_buf m sz).length := by
        have hle := of_decide_eq_true hroom
        simp only [Reading.got, hempty, List.length_nil] at hle
        omega
      have hread : Asio.read_some p (local_buf m sz).length = ⟨none, c, q⟩ := by
        rw [Asio.read_some, if_neg hlen, hp]
        simp only [List.take_of_length_le hfits, List.drop_of_length_le hfits, hfate,
          Stream.of_nil_cons]
      have hadd : (Reading.add ⟨⟨.read_some sz, style, .mode m⟩, chunks⟩ c).enough = true := by
        simp [Reading.enough, Reading.add, Reading.got, hc]
      rw [resume_enough hadd]
      simp [Reading.resume, henough, hread, Reading.add, Reading.got, hempty]
    | read sz =>
      -- One round of the loop of `read`, which asks for what is missing.
      have hlen : chunks.flatten.length < (local_buf m sz).length := by
        simpa [Reading.enough, Reading.got] using henough
      have hfits : chunks.flatten.length + c.length ≤ (local_buf m sz).length :=
        of_decide_eq_true hroom
      obtain ⟨k, hk⟩ : ∃ k, (local_buf m sz).length - chunks.flatten.length = k + 1 :=
        ⟨(local_buf m sz).length - chunks.flatten.length - 1, by omega⟩
      have hrest : k + 1 - c.length = (local_buf m sz).length - (chunks ++ [c]).flatten.length := by
        rw [hgot, List.length_append]
        omega
      have hread : Asio.read p (k + 1) =
          ⟨(Asio.read q (k + 1 - c.length)).ec, c ++ (Asio.read q (k + 1 - c.length)).data,
            (Asio.read q (k + 1 - c.length)).rest⟩ := by
        rw [Asio.read, hp, Asio.read_loop, if_neg (by omega), hfate]
        rfl
      simp only [Reading.resume, Reading.add, Reading.got, hk, hread, hrest, hgot,
        List.append_assoc]
    | read_until delim =>
      -- Without the delimiter in the buffer the loop takes the chunk.
      have hnone : firstEnd delim chunks.flatten = none := by
        simpa [Reading.enough, Reading.got] using henough
      simp only [Reading.resume, Reading.add, Reading.got, hgot, hp, hfate, Asio.read_until_loop,
        hnone]
  · cases henough
  · cases henough

/-- A read that lacks something when the stream ends fails with what it has. -/
theorem resume_end {r : Reading} {p : Stream} (henough : r.enough = false) (hp : p.chunks = []) :
    r.resume p = (r.call.result r.got (some p.fate), p) := by
  have hof : Stream.of [] p.fate = p := hp ▸ Stream.of_chunks p
  rcases r with ⟨⟨op, style, m | text | tp_name⟩, chunks⟩
  · cases op with
    | read_some sz =>
      obtain ⟨hlen, hempty⟩ : (local_buf m sz).length ≠ 0 ∧ chunks.flatten = [] := by
        simpa [Reading.enough, Reading.got] using henough
      simp [Reading.resume, henough, Asio.read_some, hlen, hp, Reading.got, hempty]
    | read sz =>
      have hlen : chunks.flatten.length < (local_buf m sz).length := by
        simpa [Reading.enough, Reading.got] using henough
      obtain ⟨k, hk⟩ : ∃ k, (local_buf m sz).length - chunks.flatten.length = k + 1 :=
        ⟨(local_buf m sz).length - chunks.flatten.length - 1, by omega⟩
      simp only [Reading.resume, Reading.got, hk, Asio.read, hp, Asio.read_loop, hof,
        List.append_nil]
    | read_until delim =>
      have hnone : firstEnd delim chunks.flatten = none := by
        simpa [Reading.enough, Reading.got] using henough
      simp [Reading.resume, Reading.got, hp, Asio.read_until_loop, hnone, hof]
  · cases henough
  · cases henough

/-- The invariant of the read under way: its chunks are chunks of a stream, and on every stream that
begins with them the call comes to what it is resumed to behind them. -/
def Pipe.Resumes (s : Pipe) : Prop :=
  ∀ r, s.reading = some r → (∀ c ∈ r.chunks, c ≠ []) ∧
    ∀ p q : Stream, p.chunks = r.chunks ++ q.chunks → p.fate = q.fate →
      ((r.call.outcome p).result, (r.call.outcome p).rest) = r.resume q

/-- Every step keeps the invariant. -/
theorem resumes_step {s t : Pipe} {a : PipeAction} {o : PipeEvent} (h : PipeStep s a o t)
    (hs : s.Resumes) : t.Resumes := by
  cases h with
  | async_write | transfer | write_done | close => exact hs
  | @read call hnone =>
    intro r hr
    obtain rfl : ⟨call, []⟩ = r := Option.some.inj hr
    refine ⟨fun c hc => (List.not_mem_nil hc).elim, fun p q hp hfate => ?_⟩
    obtain rfl : p = q := by
      rw [← Stream.of_chunks p, hp, hfate]
      exact Stream.of_chunks q
    exact (resume_start call p).symm
  | @find n r hr henough hroom hpos hle =>
    intro r' hr'
    obtain rfl : r.add (s.transit.take n) = r' := Option.some.inj hr'
    have hlen : (s.transit.take n).length = n := by
      rw [List.length_take]
      omega
    have hne : s.transit.take n ≠ [] := fun hnil => by
      rw [hnil, List.length_nil] at hlen
      omega
    obtain ⟨hchunks, hresume⟩ := hs r hr
    refine ⟨?_, fun p q hp hfate => ?_⟩
    · -- A `read_some` does not find an empty chunk, as `0 < n`.
      intro c hc
      rcases List.mem_append.mp hc with hc | hc
      · exact hchunks c hc
      · exact List.mem_singleton.mp hc ▸ hne
    · -- The stream behind the older chunks begins with the new one.
      let p' : Stream := ⟨s.transit.take n :: q.chunks, q.fate,
        List.forall_mem_cons.mpr ⟨hne, q.nonempty⟩⟩
      have hp' : p.chunks = r.chunks ++ p'.chunks := by simpa [Reading.add] using hp
      calc ((r.call.outcome p).result, (r.call.outcome p).rest)
          = r.resume p' := hresume p p' hp' hfate
        _ = (r.add (s.transit.take n)).resume q :=
            resume_add henough (by rw [hlen]; exact hroom) hne rfl rfl
  | read_done | cancel | find_eof =>
    intro r hr
    cases hr

/-- A completed read as a step on the stream: on the chunks that it has found, and on no others
where it fails. -/
theorem reads_step_of_complete {s : Pipe} {r : Reading} {ec : Option ErrorCode}
    (hs : s.Resumes) (hr : s.reading = some r) (henough : r.enough = ec.isNone) {p q : Stream}
    (hp : p.chunks = r.chunks ++ q.chunks) (hfate : p.fate = q.fate) :
    reads.step p (r.call, ec.map fun e => (r.chunks.length, e)) =
      some (r.call.result r.got ec, q) := by
  obtain ⟨hchunks, hresume⟩ := hs r hr
  cases ec with
  | none =>
    have houtcome := (hresume p q hp hfate).trans (resume_enough henough q)
    simp only [reads, Option.map_none, Prod.mk.inj houtcome]
  | some e =>
    -- The stream that the read sees ends behind its chunks, with the code that interrupts it.
    have hof : (Stream.of r.chunks e).chunks = r.chunks ++ (Stream.of [] e).chunks := by
      rw [Stream.chunks_of hchunks]
      simp [Stream.of]
    have houtcome := (hresume (.of r.chunks e) (.of [] e) hof rfl).trans
      (resume_end henough rfl)
    have hrest : Stream.of ([] ++ q.chunks) p.fate = q := by
      rw [hfate]
      exact Stream.of_chunks q
    simp only [reads, Option.map_some, hp, List.take_left, List.drop_left, Prod.mk.inj houtcome]
    exact congrArg (fun x => some (_, x)) hrest

/-- The reads of a run, from a state in which a read may be under way. -/
theorem reads_run_of_run {s t : Pipe} {as : List PipeAction} {os : List PipeEvent}
    (h : pipe.Run s as os t) (hs : s.Resumes) {later : List (List UInt8)} {p q : Stream}
    (hfate : p.fate = q.fate) (hp : p.chunks = s.pending ++ os.flatMap PipeEvent.chunk ++ later)
    (hq : q.chunks = t.pending ++ later) :
    reads.Run p (os.flatMap PipeEvent.call) (os.flatMap PipeEvent.result) q := by
  -- The stream is fixed by what the whole run finds, so the induction runs over the rest of it.
  induction h generalizing p with
  | nil =>
    obtain rfl : p = q := by
      rw [← Stream.of_chunks p, ← Stream.of_chunks q, hp, hq, hfate, List.flatMap_nil,
        List.append_nil]
    exact .nil p
  | @cons s u t a o as os hst _ ih =>
    have hstep := pipeStep_of_step hst
    have hu := resumes_step hstep hs
    cases hstep with
    | async_write | transfer | write_done | close => exact ih hu hfate hp hq
    | read hnone =>
      refine ih hu hfate ?_ hq
      simpa [Pipe.pending, hnone, PipeEvent.chunk] using hp
    | find hr =>
      refine ih hu hfate ?_ hq
      simpa [Pipe.pending, hr, PipeEvent.chunk, Reading.add] using hp
    | @read_done r hr henough | @cancel r hr henough | @find_eof r hr henough =>
      -- The rest of the run starts on the stream behind the chunks of the read.
      have hsplit : p.chunks = r.chunks ++ (os.flatMap PipeEvent.chunk ++ later) := by
        simpa [Pipe.pending, hr, Pipe.complete, PipeEvent.chunk] using hp
      let p' : Stream := ⟨os.flatMap PipeEvent.chunk ++ later, p.fate,
        fun c hc => p.nonempty c (hsplit ▸ List.mem_append_right r.chunks hc)⟩
      exact .cons (reads_step_of_complete hs hr (by exact henough) (q := p') hsplit rfl)
        (ih hu hfate rfl hq)

/-- The call under way. -/
def Pipe.under_way (s : Pipe) : List PipeRead := (s.reading.map Reading.call).toList

/-- The read that a step calls. -/
def PipeAction.call : PipeAction → List PipeRead
  | .read call => [call]
  | _ => []

/-- One step keeps the calls: a read that is called is under way until it completes. -/
theorem pipe_step_calls {s t : Pipe} {a : PipeAction} {o : PipeEvent} (h : PipeStep s a o t) :
    s.under_way ++ a.call = o.call.map Prod.fst ++ t.under_way := by
  cases h with
  | async_write | transfer | write_done | close =>
    simp [Pipe.under_way, PipeAction.call, PipeEvent.call]
  | read hnone => simp [Pipe.under_way, hnone, PipeAction.call, PipeEvent.call]
  | find hr => simp [Pipe.under_way, hr, PipeAction.call, PipeEvent.call, Reading.add]
  | read_done hr | cancel hr | find_eof hr =>
    simp [Pipe.under_way, hr, PipeAction.call, PipeEvent.call, Pipe.complete]

/-- The bytes of a run: what was on the way and what was written, in order, is what was found and
what is on the way. -/
theorem pipe_ledger {s t : Pipe} {as : List PipeAction} {os : List PipeEvent}
    (h : pipe.Run s as os t) :
    s.transit ++ s.unsent ++ as.flatMap PipeAction.payload =
      (os.flatMap PipeEvent.chunk).flatten ++ (t.transit ++ t.unsent) := by
  have hflat : (os.flatMap PipeEvent.chunk).flatten = os.flatMap fun o => o.chunk.flatten := by
    simp only [List.flatten_eq_flatMap, List.flatMap_assoc]
  rw [hflat]
  exact h.ledger fun _ _ _ _ hst => pipe_step_ledger (pipeStep_of_step hst)

/-- The calls of a run: the reads complete in the order in which they are called. -/
theorem pipe_calls {s t : Pipe} {as : List PipeAction} {os : List PipeEvent}
    (h : pipe.Run s as os t) :
    s.under_way ++ as.flatMap PipeAction.call =
      (os.flatMap PipeEvent.call).map Prod.fst ++ t.under_way := by
  rw [List.map_flatMap]
  exact h.ledger fun _ _ _ _ hst => pipe_step_calls (pipeStep_of_step hst)

/-- **A live pipe is a stream.** Take any run of a connected pipe: writes that are transferred piece
by piece, reads that find what is there, cancellations, the end of the pipe, in any order. Take the
stream of the chunks that the reads found, then of what is still on the way to them, however it will
be found. That stream holds what was written, and the reads that were called, one after the other on
it, hand back what they handed back on the pipe; one that failed sees no chunk behind those that it
found. -/
theorem pipe_reads_eq {as : List PipeAction} {os : List PipeEvent} {t : Pipe}
    (h : pipe.Run .connected as os t) {later : List (List UInt8)}
    (hlater : later.flatten = t.transit ++ t.unsent) {p : Stream}
    (hp : p.chunks = os.flatMap PipeEvent.chunk ++ later) :
    p.content = as.flatMap PipeAction.payload ∧
      (os.flatMap PipeEvent.call).map Prod.fst ++ t.under_way = as.flatMap PipeAction.call ∧
      ∀ q : Stream, q.chunks = t.pending ++ later → q.fate = p.fate →
        reads.Run p (os.flatMap PipeEvent.call) (os.flatMap PipeEvent.result) q := by
  refine ⟨?_, ?_, fun q hq hfate => ?_⟩
  · have hbytes := pipe_ledger h
    rw [Stream.content, hp, List.flatten_append, hlater, ← hbytes]
    rfl
  · exact (pipe_calls h).symm
  · refine reads_run_of_run h ?_ hfate.symm hp hq
    intro r hr
    cases hr

/-- A line that is found in two pieces while the next one is being written. -/
theorem pipe_reads_eq_two_pieces :
    (Stream.of [[97], [10], [98]] .eof).content = [97, 10, 98] ∧
      [PipeRead.mk (.read_until [10]) .async (.mode .bytes)] =
        [⟨.read_until [10], .async, .mode .bytes⟩] ∧
      ∀ q : Stream, q.chunks = [[98]] → q.fate = .eof →
        reads.Run (Stream.of [[97], [10], [98]] .eof)
          [(⟨.read_until [10], .async, .mode .bytes⟩, none)]
          [(none, .ok (.bytes [97, 10]))] q :=
  have h : pipe.Run .connected
      [.async_write [97, 10, 98], .transfer 2, .read ⟨.read_until [10], .async, .mode .bytes⟩,
        .find 1, .find 1, .read_done, .transfer 1]
      [.started, .sent [97, 10], .started, .found [97], .found [10],
        .completed ⟨⟨.read_until [10], .async, .mode .bytes⟩, [[97], [10]]⟩ none
          (none, .ok (.bytes [97, 10])), .sent [98]]
      ⟨some [], [98], false, none⟩ :=
    .cons rfl (.cons rfl (.cons rfl (.cons rfl (.cons rfl (.cons rfl (.cons rfl (.nil _)))))))
  pipe_reads_eq h (show [[98]].flatten = [98] from rfl) rfl

end AsioPy
