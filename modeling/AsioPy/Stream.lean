import AsioPy.Lib.Delimiter

/-!
# The byte streams that the read functions run on

What asio does for the bindings of `read.hpp`: a stream that hands out its content in chunks, and
asio's composed operations `read` and `read_until` over it. asio is not part of the repository; the
definitions follow its documented behaviour. A chunk schedule is fixed in advance, so a statement
about every stream is a statement about every content and every way of splitting it.
-/

namespace AsioPy

open Delimiter

/-- The error codes that a stream reports, as `asio::error_code`. -/
inductive ErrorCode
  | eof
  | invalid_argument
  | operation_aborted
  /-- Any other code, by its value. -/
  | other (value : ℕ)
  deriving DecidableEq, Repr

/-- A readable stream: the chunks that its next reads find, and the error that it reports after
them. A read never finds nothing without an error, so no chunk is empty. -/
structure Stream where
  /-- What the reads to come find, chunk by chunk. -/
  chunks : List (List UInt8)
  /-- How the stream ends or fails behind its last chunk. -/
  fate : ErrorCode
  nonempty : ∀ c ∈ chunks, c ≠ []

namespace Stream

/-- The bytes still readable from the stream. -/
def content (s : Stream) : List UInt8 := s.chunks.flatten

/-- The stream of some chunks, the empty ones left out. -/
def of (chunks : List (List UInt8)) (fate : ErrorCode) : Stream where
  chunks := chunks.filter fun c => !c.isEmpty
  fate := fate
  nonempty := by simp

/-- Leaving out empty chunks loses no content. -/
@[simp] theorem content_of (chunks : List (List UInt8)) (fate : ErrorCode) :
    (of chunks fate).content = chunks.flatten := by
  simp [content, of, List.flatten_filter_not_isEmpty]

/-- Chunks that are all nonempty stay as they are. -/
theorem chunks_of {chunks : List (List UInt8)} (h : ∀ c ∈ chunks, c ≠ []) (fate : ErrorCode) :
    (of chunks fate).chunks = chunks := by
  simpa [of, List.filter_eq_self] using h

end Stream

/-- What a composed read hands back: its error code, the bytes that it transferred into the buffer,
and the stream after it. -/
structure Transfer where
  /-- `none` is the error code of success. -/
  ec : Option ErrorCode
  data : List UInt8
  rest : Stream

namespace Asio

/-- `stream.read_some(buffer, ec)` with a buffer of `n` bytes: the next chunk, or as much of it as
fits. A buffer of no bytes is not read into. -/
def read_some (s : Stream) (n : ℕ) : Transfer :=
  if n = 0 then ⟨none, [], s⟩
  else match s.chunks with
    | [] => ⟨some s.fate, [], s⟩
    | c :: cs => ⟨none, c.take n, .of (c.drop n :: cs) s.fate⟩

/-- The loop of `asio::read`: chunks are read until the `n` bytes of the buffer are filled or the
stream reports an error. -/
def read_loop (fate : ErrorCode) : ℕ → List (List UInt8) → Transfer
  | 0, cs => ⟨none, [], .of cs fate⟩
  | _ + 1, [] => ⟨some fate, [], .of [] fate⟩
  | n + 1, c :: cs =>
    if n + 1 < c.length then ⟨none, c.take (n + 1), .of (c.drop (n + 1) :: cs) fate⟩
    else
      let r := read_loop fate (n + 1 - c.length) cs
      ⟨r.ec, c ++ r.data, r.rest⟩

/-- `asio::read(stream, buffer, ec)` with a buffer of `n` bytes. -/
def read (s : Stream) (n : ℕ) : Transfer := read_loop s.fate n s.chunks

/-- What `asio::read_until` hands back: besides the error code and the size that it returns, the
dynamic buffer that it has appended to. -/
structure Until where
  ec : Option ErrorCode
  sz : ℕ
  buf : List UInt8
  rest : Stream

/-- The loop of `asio::read_until` from a dynamic buffer `buf`: search the buffer, and read another
chunk where the delimiter does not occur in it yet. A chunk is what one of these `read_some` calls
returns, so it is appended whole. -/
def read_until_loop (delim : List UInt8) (fate : ErrorCode) :
    List UInt8 → List (List UInt8) → Until
  | buf, [] =>
    match firstEnd delim buf with
    | some k => ⟨none, k, buf, .of [] fate⟩
    | none => ⟨some fate, 0, buf, .of [] fate⟩
  | buf, c :: cs =>
    match firstEnd delim buf with
    | some k => ⟨none, k, buf, .of (c :: cs) fate⟩
    | none => read_until_loop delim fate (buf ++ c) cs

/-- `asio::read_until(stream, dynamic_buffer, delim, ec)` on an empty dynamic buffer. -/
def read_until (s : Stream) (delim : List UInt8) : Until :=
  read_until_loop delim s.fate [] s.chunks

/-- `read_some` transfers at most the `n` bytes of its buffer. -/
theorem read_some_length_le (s : Stream) (n : ℕ) : (read_some s n).data.length ≤ n := by
  unfold read_some
  split_ifs with hn
  · simp
  · split
    · simp
    · simp only [List.length_take]
      omega

/-- `read_some` hands out the front of the stream's content and leaves the rest. -/
theorem read_some_content (s : Stream) (n : ℕ) :
    (read_some s n).data ++ (read_some s n).rest.content = s.content := by
  unfold read_some
  split_ifs with hn
  · simp
  · split
    · simp
    · next c cs hc =>
      have hs : s.content = c ++ cs.flatten := by simp [Stream.content, hc]
      rw [hs, Stream.content_of, List.flatten_cons, ← List.append_assoc, List.take_append_drop]

/-- The loop of `read` hands out the front of the chunks and leaves the rest. It transfers the `n`
bytes of its buffer, or all there is where that is less, and only then it reports an error. -/
theorem read_loop_spec (fate : ErrorCode) :
    ∀ (n : ℕ) (cs : List (List UInt8)),
      (read_loop fate n cs).data ++ (read_loop fate n cs).rest.content = cs.flatten ∧
        (read_loop fate n cs).data.length = min n cs.flatten.length ∧
        ((read_loop fate n cs).ec = none ↔ n ≤ cs.flatten.length)
  | 0, cs => by simp [read_loop]
  | n + 1, [] => by simp [read_loop]
  | n + 1, c :: cs => by
    rw [List.flatten_cons, List.length_append]
    by_cases hlt : n + 1 < c.length
    · have hlen : (c.take (n + 1)).length = n + 1 := by simp; omega
      simp only [read_loop, if_pos hlt, Stream.content_of, List.flatten_cons, hlen]
      refine ⟨by rw [← List.append_assoc, List.take_append_drop], by omega, ?_⟩
      exact iff_of_true trivial (by omega)
    · obtain ⟨hcont, hlen, hec⟩ := read_loop_spec fate (n + 1 - c.length) cs
      simp only [read_loop, if_neg hlt, List.length_append]
      refine ⟨by rw [List.append_assoc, hcont], by omega, ?_⟩
      rw [hec]
      omega

/-- `read` transfers the `n` bytes of its buffer, or all there is where that is less, and only then
it reports an error. -/
theorem read_spec (s : Stream) (n : ℕ) :
    (read s n).data ++ (read s n).rest.content = s.content ∧
      (read s n).data.length = min n s.content.length ∧
      ((read s n).ec = none ↔ n ≤ s.content.length) :=
  read_loop_spec s.fate n s.chunks

/-- A successful `read_until` has read some of the chunks, and the delimiter occurs in its buffer
only once the last of them is in it. -/
theorem read_until_loop_spec (delim : List UInt8) (fate : ErrorCode) :
    ∀ (cs : List (List UInt8)) (buf : List UInt8), (read_until_loop delim fate buf cs).ec = none →
      ∃ pre post, cs = pre ++ post ∧
        (read_until_loop delim fate buf cs).buf = buf ++ pre.flatten ∧
        (read_until_loop delim fate buf cs).rest = .of post fate ∧
        firstEnd delim (buf ++ pre.flatten) = some (read_until_loop delim fate buf cs).sz ∧
        ∀ front c, pre = front ++ [c] → firstEnd delim (buf ++ front.flatten) = none
  | [], buf, h => by
    cases hk : firstEnd delim buf with
    | none => simp [read_until_loop, hk] at h
    | some k => exact ⟨[], [], by simp [read_until_loop, hk]⟩
  | c :: cs, buf, h => by
    cases hk : firstEnd delim buf with
    | some k => exact ⟨[], c :: cs, by simp [read_until_loop, hk]⟩
    | none =>
      have hstep : read_until_loop delim fate buf (c :: cs) =
          read_until_loop delim fate (buf ++ c) cs := by
        simp [read_until_loop, hk]
      rw [hstep] at h ⊢
      obtain ⟨pre, post, rfl, hbuf, hrest, hend, hfront⟩ :=
        read_until_loop_spec delim fate cs (buf ++ c) h
      refine ⟨c :: pre, post, rfl, by simpa using hbuf, hrest, by simpa using hend, ?_⟩
      intro front e hpre
      cases front with
      | nil => simpa using hk
      | cons d front =>
        obtain ⟨rfl, hpre'⟩ : c = d ∧ pre = front ++ [e] := by simpa using hpre
        simpa using hfront front e hpre'

/-- Where the delimiter does not occur in what is there, `read_until` reads it all into its buffer
and fails with the size 0. -/
theorem read_until_loop_fails {delim : List UInt8} (fate : ErrorCode) :
    ∀ (cs : List (List UInt8)) (buf : List UInt8), ¬ delim <:+: buf ++ cs.flatten →
      read_until_loop delim fate buf cs = ⟨some fate, 0, buf ++ cs.flatten, .of [] fate⟩
  | [], buf, h => by
    rw [List.flatten_nil, List.append_nil] at h ⊢
    rw [read_until_loop, firstEnd_eq_none_iff.mpr h]
  | c :: cs, buf, h => by
    have hbuf : ¬ delim <:+: buf := fun hin => h (hin.trans (List.prefix_append _ _).isInfix)
    rw [List.flatten_cons, ← List.append_assoc] at h ⊢
    rw [read_until_loop, firstEnd_eq_none_iff.mpr hbuf]
    exact read_until_loop_fails fate cs (buf ++ c) h

/-- Where the delimiter occurs in what is there, `read_until` succeeds. -/
theorem read_until_loop_succeeds {delim : List UInt8} (fate : ErrorCode) :
    ∀ (cs : List (List UInt8)) (buf : List UInt8), delim <:+: buf ++ cs.flatten →
      (read_until_loop delim fate buf cs).ec = none
  | [], buf, h => by
    rw [List.flatten_nil, List.append_nil] at h
    rcases hk : firstEnd delim buf with - | k
    · exact absurd h (firstEnd_eq_none_iff.mp hk)
    · simp [read_until_loop, hk]
  | c :: cs, buf, h => by
    rcases hk : firstEnd delim buf with - | k
    · rw [List.flatten_cons, ← List.append_assoc] at h
      simpa [read_until_loop, hk] using read_until_loop_succeeds fate cs (buf ++ c) h
    · simp [read_until_loop, hk]

/-- **`read_until`.** Where the delimiter occurs in the content, it succeeds: its buffer and what it
leaves make up the content, and its size is that of the shortest prefix that ends with the
delimiter. Where it does not occur, it takes all the content and fails with the size 0. -/
theorem read_until_spec (s : Stream) (delim : List UInt8) :
    (read_until s delim).buf ++ (read_until s delim).rest.content = s.content ∧
      match firstEnd delim s.content with
      | some k => (read_until s delim).ec = none ∧
          (read_until s delim).buf.take (read_until s delim).sz = s.content.take k
      | none => (read_until s delim).ec = some s.fate ∧ (read_until s delim).sz = 0 ∧
          (read_until s delim).rest.content = [] := by
  have hcontent : [] ++ s.chunks.flatten = s.content := rfl
  rcases hk : firstEnd delim s.content with - | k
  · have hfail := read_until_loop_fails s.fate s.chunks [] (firstEnd_eq_none_iff.mp hk)
    rw [hcontent] at hfail
    have hread : read_until s delim = ⟨some s.fate, 0, s.content, .of [] s.fate⟩ := hfail
    rw [hread]
    simp
  · obtain ⟨-, hshort⟩ := shortest_of_firstEnd hk
    have hocc : delim <:+: [] ++ s.chunks.flatten := hshort.2.1.isInfix.trans hshort.1.isInfix
    have hec := read_until_loop_succeeds s.fate s.chunks [] hocc
    obtain ⟨pre, post, hchunks, hbuf, hrest, hend, -⟩ :=
      read_until_loop_spec delim s.fate s.chunks [] hec
    rw [List.nil_append] at hbuf hend
    have hsplit : pre.flatten ++ post.flatten = s.content := by
      rw [← List.flatten_append, ← hchunks]
      rfl
    refine ⟨?_, hec, ?_⟩
    · rw [read_until, hbuf, hrest, Stream.content_of, hsplit]
    · -- The piece in the buffer is the piece of the whole content.
      have hpiece := (shortest_of_firstEnd hend).2.append post.flatten
      rw [hsplit] at hpiece
      rw [read_until, hbuf]
      exact hpiece.unique hshort

end Asio

end AsioPy
