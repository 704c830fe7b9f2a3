import AsioPy.Read
import AsioPy.Lib.Mealy

/-!
# Successive `read_until` calls on one pipe

`read_until` and its two siblings hand asio a dynamic buffer that lives for one call. asio leaves in
that buffer whatever it has read behind the delimiter, so the bytes of a chunk behind the delimiter
are gone when the call returns. `reader` is a run of successful calls on one pipe, and
`read_until_keeps_bytes_iff` says in which runs no byte is lost: those in which every piece that the
delimiters cut off ends where a chunk ends.

One call takes some chunks off the stream and returns the shortest prefix of them that ends with the
delimiter (`reader_step_spec`); the last chunk is the one that completes the delimiter. Conservation
over the run then forces every call to return all that it took, by lengths
(`reader_length_le`).
-/

namespace AsioPy

open Delimiter

/-- A call of one of the three `read_until` overloads in the `bytes` mode. The delimiter is not
empty. -/
structure UntilCall where
  style : CallStyle
  delim : List UInt8
  nonempty : delim ≠ []

/-- What a call comes to on a pipe. -/
def UntilCall.outcome (c : UntilCall) (p : Stream) : Outcome :=
  match c.style with
  | .throwing => read_until p c.delim (.mode .bytes)
  | .error_code => read_until_ec p c.delim (.mode .bytes)
  | .async => async_read_until p c.delim (.mode .bytes)

/-- Successful calls in a row on one pipe. The answer to a call is the bytes that it returns; a call
that reports an error or throws is not a step. -/
def reader : Mealy Stream UntilCall (List UInt8) where
  step p c :=
    match (c.outcome p).ec, (c.outcome p).value with
    | none, .ok (.bytes v) => some (v, (c.outcome p).rest)
    | _, _ => none

/-- The chunks fall into groups, one for each delimiter, and a rest: each group ends with its
delimiter, and the delimiter does not end earlier in it. -/
def CutAtDelims : List (List UInt8) → List (List UInt8) → Prop
  | _, [] => True
  | chunks, d :: ds => ∃ pre post, chunks = pre ++ post ∧ Shortest d pre.flatten pre.flatten ∧
      CutAtDelims post ds

/-- The end of a call in terms of what `asio::read_until` hands back. A successful call has no error
code from asio, in any style. -/
theorem finish_success {style : CallStyle} {asked : ℕ} {ec : Option ErrorCode}
    {value : Except Error PyObject} {rest : Stream} {v : PyObject}
    (hec : (finish style asked ec value rest).ec = none)
    (hv : (finish style asked ec value rest).value = .ok v) :
    ec = none ∧ value = .ok v ∧ (finish style asked ec value rest).rest = rest := by
  cases ec with
  | none => cases style <;> exact ⟨rfl, hv, rfl⟩
  | some e =>
    cases style with
    | throwing => cases hv
    | error_code => cases hec
    | async => cases hec

/-- A successful call returns the front of asio's buffer and leaves asio's stream. -/
theorem outcome_success {c : UntilCall} {p : Stream} {v : List UInt8}
    (hec : (c.outcome p).ec = none) (hv : (c.outcome p).value = .ok (.bytes v)) :
    (Asio.read_until p c.delim).ec = none ∧
      v = (Asio.read_until p c.delim).buf.take (Asio.read_until p c.delim).sz ∧
      (c.outcome p).rest = (Asio.read_until p c.delim).rest := by
  obtain ⟨style, delim, hne⟩ := c
  -- The three overloads are the same body at their own style.
  have hbody : UntilCall.outcome ⟨style, delim, hne⟩ p =
      read_until_with style p delim (.mode .bytes) := by
    cases style <;> rfl
  rw [hbody] at hec hv ⊢
  obtain ⟨h1, h2, h3⟩ := finish_success hec hv
  refine ⟨h1, ?_, h3⟩
  simpa [make_object, py_bytes, eq_comm] using h2

/-- One successful call: it takes the chunks `pre` off the stream and returns the shortest prefix of
them that ends with the delimiter, which does not occur before the last of these chunks. -/
theorem reader_step_spec {p q : Stream} {c : UntilCall} {v : List UInt8}
    (h : reader.step p c = some (v, q)) :
    ∃ pre, p.chunks = pre ++ q.chunks ∧ p.content = pre.flatten ++ q.content ∧
      Shortest c.delim pre.flatten v ∧
      ∀ front e, pre = front ++ [e] → ¬ c.delim <:+: front.flatten := by
  simp only [reader] at h
  split at h
  · next v' hec hv =>
    obtain ⟨rfl, rfl⟩ : v' = v ∧ (c.outcome p).rest = q := by simpa using h
    obtain ⟨hec', rfl, hrest⟩ := outcome_success hec hv
    obtain ⟨pre, post, hchunks, hbuf, hpost, hend, hfront⟩ :=
      Asio.read_until_loop_spec c.delim p.fate p.chunks [] hec'
    rw [List.nil_append] at hbuf hend
    have hne : ∀ d ∈ post, d ≠ [] := fun d hd =>
      p.nonempty d (hchunks ▸ List.mem_append_right pre hd)
    have hsplit : p.chunks = pre ++ (c.outcome p).rest.chunks := by
      rw [hrest, Asio.read_until, hpost, Stream.chunks_of hne, hchunks]
    refine ⟨pre, hsplit, ?_, ?_, ?_⟩
    · rw [Stream.content, hsplit, List.flatten_append, Stream.content]
    · rw [Asio.read_until, hbuf]
      exact (shortest_of_firstEnd hend).2
    · intro front e hpre
      exact not_infix_of_firstEnd (by simpa using hfront front e hpre)
  · cases h

/-- A run returns and leaves no more bytes than there were. -/
theorem reader_length_le {p q : Stream} {calls : List UntilCall} {values : List (List UInt8)}
    (h : reader.Run p calls values q) :
    values.flatten.length + q.content.length ≤ p.content.length := by
  induction h with
  | nil => simp
  | @cons s t u c v cs vs hst _ ih =>
    obtain ⟨pre, -, hcontent, hv, -⟩ := reader_step_spec hst
    have hvle := hv.1.length_le
    rw [hcontent, List.flatten_cons, List.length_append, List.length_append]
    omega

/-- The chunks that a call takes are the only group that its delimiter can cut off the front. -/
theorem group_unique {d v : List UInt8} {pre rest pre' rest' : List (List UInt8)}
    (hne : ∀ c ∈ pre' ++ rest', c ≠ []) (hsplit : pre ++ rest = pre' ++ rest')
    (hv : Shortest d pre.flatten v)
    (hfront : ∀ front e, pre = front ++ [e] → ¬ d <:+: front.flatten)
    (hcut : Shortest d pre'.flatten pre'.flatten) : pre = pre' := by
  have hocc : d <:+: pre.flatten := hv.2.1.isInfix.trans hv.1.isInfix
  have hocc' : d <:+: pre'.flatten := hcut.2.1.isInfix
  rcases List.append_eq_append_iff.mp hsplit with ⟨as, rfl, -⟩ | ⟨bs, rfl, -⟩
  · -- The group goes on behind what the call took; its delimiter would end earlier.
    have hle := hcut.prefix_of_occurs (q := pre.flatten) (by simp) hocc
    have hlen := hle.length_le
    rw [List.flatten_append, List.length_append] at hlen
    have has : as.flatten = [] := List.length_eq_zero_iff.mp (by omega)
    cases as with
    | nil => simp
    | cons c cs =>
      have hc : c ≠ [] := hne c (by simp)
      rw [List.flatten_cons, List.append_eq_nil_iff] at has
      exact absurd has.1 hc
  · -- The call took more than the group, although the delimiter occurs in the group.
    rcases List.eq_nil_or_concat bs with rfl | ⟨front, e, rfl⟩
    · simp
    · have hin : pre'.flatten <:+: (pre' ++ front).flatten := by
        rw [List.flatten_append]
        exact (List.prefix_append _ _).isInfix
      exact absurd (hocc'.trans hin) (hfront (pre' ++ front) e (by simp))

/-- **When successive `read_until` calls lose no byte.** In a run of successful calls, the values
returned and the bytes still readable make up the stream's content, and each value is the shortest
prefix of what was left that ends with its delimiter, exactly when the chunks are cut at the
delimiters: every piece ends where a chunk ends. -/
theorem read_until_keeps_bytes_iff {p q : Stream} {calls : List UntilCall}
    {values : List (List UInt8)} (h : reader.Run p calls values q) :
    (values.flatten ++ q.content = p.content ∧
        Pieces p.content (calls.map UntilCall.delim) values) ↔
      CutAtDelims p.chunks (calls.map UntilCall.delim) := by
  induction h with
  | nil s => simp [Pieces, CutAtDelims]
  | @cons s t u c v cs vs hst hrun ih =>
    obtain ⟨pre, hchunks, hcontent, hv, hfront⟩ := reader_step_spec hst
    have hlen := reader_length_le hrun
    have hvle := hv.1.length_le
    constructor
    · rintro ⟨hcons, hpieces⟩
      -- What a call keeps back cannot be made up for later, so the call returned all it took.
      have htotal := congrArg List.length hcons
      rw [hcontent, List.flatten_cons] at htotal
      simp only [List.length_append] at htotal
      have hall : v = pre.flatten := hv.1.eq_of_length (by omega)
      rw [hcontent, List.flatten_cons, List.append_assoc, hall, List.append_cancel_left_eq] at hcons
      rw [List.map_cons, Pieces, hcontent, hall, List.drop_left] at hpieces
      exact ⟨pre, t.chunks, hchunks, hall ▸ hv.self, ih.mp ⟨hcons, hpieces.2⟩⟩
    · rintro ⟨pre', post, hchunks', hcut, hrest⟩
      obtain rfl : pre = pre' :=
        group_unique (hchunks' ▸ s.nonempty) (hchunks ▸ hchunks') hv hfront hcut
      have hall : v = pre.flatten := hv.unique hcut
      have hpost : t.chunks = post := List.append_cancel_left (hchunks ▸ hchunks')
      obtain ⟨hcons, hpieces⟩ := ih.mpr (hpost ▸ hrest)
      refine ⟨?_, ?_, ?_⟩
      · rw [List.flatten_cons, List.append_assoc, hcons, hall, hcontent]
      · rw [hcontent, hall]
        exact hcut.append t.content
      · rw [hcontent, hall, List.drop_left]
        exact hpieces

/-- Two lines that arrive in one chunk each, read by an asynchronous and by a plain call. -/
theorem read_until_keeps_bytes_iff_two_lines :
    ([[97, 10], [98, 10]].flatten ++ (Stream.of [] .eof).content =
          (Stream.of [[97, 10], [98, 10]] .eof).content ∧
        Pieces (Stream.of [[97, 10], [98, 10]] .eof).content [[10], [10]] [[97, 10], [98, 10]]) ↔
      CutAtDelims (Stream.of [[97, 10], [98, 10]] .eof).chunks [[10], [10]] :=
  have h : reader.Run (Stream.of [[97, 10], [98, 10]] .eof)
      [⟨.async, [10], by decide⟩, ⟨.throwing, [10], by decide⟩] [[97, 10], [98, 10]]
      (Stream.of [] .eof) := .cons rfl (.cons rfl (.nil _))
  read_until_keeps_bytes_iff h

/-- Two lines that arrive in one chunk: the call that returns the first line loses the second. -/
theorem read_until_loses_second_line :
    reader.Run (Stream.of [[97, 10, 98, 10]] .eof) [⟨.async, [10], by decide⟩] [[97, 10]]
        (Stream.of [] .eof) ∧
      ¬ ([[97, 10]].flatten ++ (Stream.of [] .eof).content =
            (Stream.of [[97, 10, 98, 10]] .eof).content ∧
          Pieces (Stream.of [[97, 10, 98, 10]] .eof).content [[10]] [[97, 10]]) :=
  ⟨.cons rfl (.nil _), fun h => absurd h.1 (by decide)⟩

end AsioPy
