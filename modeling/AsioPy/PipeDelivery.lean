import AsioPy.LivePipe
import AsioPy.Write
import AsioPy.Lib.Segments

/-!
# What the reads of a live pipe deliver

Whatever the two ends of a pipe do, the objects that the reads hand back hold segments of what was
written, in order, and no byte twice (`delivered_in_order_iff`): a read hands back a front of what
it has taken off the pipe (`front_of_result`), and the reads take successive pieces. Nothing is lost
exactly if every read hands back all that it took, which is read off its call and its buffer
(`HandsBackAll`).

The test of the pipes sends lines as `str` and expects each `read_until` to return one of them.
`read_until` drops what it has taken behind its delimiter, so that is not so in every run: a line
must not be written before the line in front of it has been read. `lockstep_delivers_lines` says
that this is enough, however the transfers and the reads interleave. The invariant is that at most
one line is on the way.
-/

namespace AsioPy

open Delimiter Segments

/-- The bytes in the object of a result. -/
def ReadResult.data (res : ReadResult) : List UInt8 :=
  match res.2 with
  | .ok v => v.data
  | .error _ => []

/-- What a completed read has taken off the pipe. -/
def PipeEvent.taken : PipeEvent → List (List UInt8)
  | .completed r _ _ => [r.got]
  | _ => []

/-- A read that ends with the error code `ec` and the bytes `got` in its buffer hands all of them
back. The throwing functions hand back nothing with an error. -/
def HandsBackAll (c : PipeRead) (ec : Option ErrorCode) (got : List UInt8) : Prop :=
  got = [] ∨ (ec = none ∨ c.style ≠ .throwing) ∧
    -- The object is made of the bytes; that of `read_until` ends with the delimiter.
    match c.type, c.op with
    | .mode m, .read_some _ | .mode m, .read _ => m.Decodes got
    | .mode m, .read_until delim => m.Decodes got ∧ firstEnd delim got = some got.length
    | _, _ => False

/-- The object of a handed out result holds the object's bytes, or nothing. -/
theorem data_handed_out (style : CallStyle) (ec : Option ErrorCode)
    (value : Except Error PyObject) :
    ReadResult.data (handed_out style ec value) =
      if ec = none ∨ style ≠ .throwing then ReadResult.data (none, value) else [] := by
  rcases style with - | - | - <;> rcases ec with - | e <;> simp [handed_out, ReadResult.data]

/-- The bytes of the object that a read makes of `n` bytes: those bytes, or none if they do not
decode. -/
theorem data_make_object (m : Mode) (buf : List UInt8) (n : ℕ) (ec : Option ErrorCode) :
    ReadResult.data (ec, make_object m buf n) = buf.take n ∧ m.Decodes (buf.take n) ∨
      ReadResult.data (ec, make_object m buf n) = [] ∧ ¬ m.Decodes (buf.take n) := by
  rcases make_object_cases m buf n with ⟨hdec, v, hv, hdata⟩ | ⟨hdec, e, he⟩
  · exact Or.inl ⟨by rw [ReadResult.data, hv, ← hdata], hdec⟩
  · exact Or.inr ⟨by rw [ReadResult.data, he], hdec⟩

/-- What a call hands back without a mode holds no bytes. -/
theorem data_result_of_no_mode {c : PipeRead} (hc : ∀ m, c.type ≠ .mode m) (got : List UInt8)
    (ec : Option ErrorCode) : (c.result got ec).data = [] := by
  rcases c with ⟨op, style, m | text | tp_name⟩
  · exact absurd rfl (hc m)
  · cases style <;> rfl
  · rfl

/-- A read of the bytes `got` that makes its object of the first `n` hands back a front of them, and
all of them exactly if there are none, or if the object is handed out and holds all. -/
theorem handed_out_front (style : CallStyle) (ec : Option ErrorCode) (m : Mode)
    (got : List UInt8) (n : ℕ) :
    ReadResult.data (handed_out style ec (make_object m got n)) <+: got ∧
      (ReadResult.data (handed_out style ec (make_object m got n)) = got ↔
        got = [] ∨ (ec = none ∨ style ≠ .throwing) ∧ m.Decodes got ∧ got.length ≤ n) := by
  rw [data_handed_out]
  rcases eq_or_ne got [] with rfl | hgot
  · -- All of nothing is handed back, whatever becomes of the object.
    split_ifs
    · rcases data_make_object m [] n none with ⟨hdata, -⟩ | ⟨hdata, -⟩ <;> simp [hdata]
    · simp
  · split_ifs with hout
    · rcases data_make_object m got n none with ⟨hdata, hdec⟩ | ⟨hdata, hdec⟩
      · rw [hdata, List.take_eq_self_iff]
        refine ⟨List.take_prefix n got, ?_⟩
        constructor
        · intro hn
          rw [List.take_of_length_le hn] at hdec
          exact Or.inr ⟨hout, hdec, hn⟩
        · rintro (h | ⟨-, -, hn⟩)
          · exact absurd h hgot
          · exact hn
      · -- The front does not decode: the read raises, and its bytes are lost.
        rw [hdata]
        refine ⟨List.nil_prefix, iff_of_false hgot.symm ?_⟩
        rintro (h | ⟨-, hall, hn⟩)
        · exact hgot h
        · rw [List.take_of_length_le hn] at hdec
          exact hdec hall
    · simp [hgot, hgot.symm, hout]

/-- **What a read hands back.** A front of what it has taken, and all of it exactly under
`HandsBackAll`. -/
theorem front_of_result (c : PipeRead) (got : List UInt8) (ec : Option ErrorCode) :
    (c.result got ec).data <+: got ∧ ((c.result got ec).data = got ↔ HandsBackAll c ec got) := by
  rcases c with ⟨op, style, m | text | tp_name⟩
  · cases op with
    | read_some sz | read sz =>
      simpa [PipeRead.result, HandsBackAll, make_object_fill] using
        handed_out_front style ec m got got.length
    | read_until delim =>
      have hfront := handed_out_front style ec m got ((firstEnd delim got).getD 0)
      rcases eq_or_ne got [] with rfl | hgot
      · simpa [PipeRead.result, HandsBackAll] using hfront
      · -- The size of the object is that of the line, and 0 where no line was found.
        have hend : got.length ≤ (firstEnd delim got).getD 0 ↔
            firstEnd delim got = some got.length := by
          rcases hk : firstEnd delim got with - | k
          · simpa using hgot
          · have hle := (shortest_of_firstEnd hk).1
            simp only [Option.getD_some, Option.some.injEq]
            omega
        simpa [PipeRead.result, HandsBackAll, hend] using hfront
  · rw [data_result_of_no_mode (by simp)]
    simp [HandsBackAll, eq_comm]
  · rw [data_result_of_no_mode (by simp)]
    simp [HandsBackAll, eq_comm]

/-- What is on the way to the reads or has been taken by the one under way, step by step: a read
takes it off the pipe when it completes. -/
theorem pipe_step_taken {s t : Pipe} {a : PipeAction} {o : PipeEvent} (h : PipeStep s a o t) :
    s.on_the_way ++ a.payload = o.taken.flatten ++ t.on_the_way := by
  cases h with
  | async_write hw | transfer hw | write_done hw =>
    simp [Pipe.on_the_way, Pipe.pending, Pipe.unsent, PipeAction.payload, PipeEvent.taken, hw]
  | close => simp [Pipe.on_the_way, Pipe.pending, Pipe.unsent, PipeAction.payload, PipeEvent.taken]
  | read hnone =>
    simp [Pipe.on_the_way, Pipe.pending, Pipe.unsent, PipeAction.payload, PipeEvent.taken, hnone]
  | find hr =>
    simp [Pipe.on_the_way, Pipe.pending, Pipe.unsent, PipeAction.payload, PipeEvent.taken, hr,
      Reading.add]
  | read_done hr | cancel hr | find_eof hr =>
    simp [Pipe.on_the_way, Pipe.pending, Pipe.unsent, PipeAction.payload, PipeEvent.taken, hr,
      Pipe.complete, Reading.got]

/-- A read that completes hands back the result of its call on what it has taken. -/
def PipeEvent.Completes : PipeEvent → Prop
  | .completed r ec res => res = r.call.result r.got ec
  | _ => True

/-- Every step of a pipe completes a read so. -/
theorem completes_of_step {s t : Pipe} {a : PipeAction} {o : PipeEvent} (h : PipeStep s a o t) :
    o.Completes := by
  cases h <;> trivial

/-- The objects of a run hold fronts of what its reads have taken, and all of it exactly if every
read hands back all. -/
theorem fronts_of_events {os : List PipeEvent} (hos : ∀ o ∈ os, o.Completes) :
    Fronts ((os.flatMap PipeEvent.result).map ReadResult.data) (os.flatMap PipeEvent.taken) ∧
      ((os.flatMap PipeEvent.result).map ReadResult.data = os.flatMap PipeEvent.taken ↔
        ∀ r ec res, .completed r ec res ∈ os → HandsBackAll r.call ec r.got) := by
  induction os with
  | nil => exact ⟨.nil, by simp⟩
  | cons o os ih =>
    obtain ⟨ho, hos⟩ := List.forall_mem_cons.mp hos
    obtain ⟨hfronts, hall⟩ := ih hos
    rcases o with - | data | - | - | chunk | ⟨r, ec, res⟩
    case completed =>
      obtain rfl : res = r.call.result r.got ec := ho
      obtain ⟨hfront, hfirst⟩ := front_of_result r.call r.got ec
      refine ⟨.cons hfront hfronts, ?_⟩
      show ReadResult.data _ :: (os.flatMap PipeEvent.result).map ReadResult.data =
        r.got :: os.flatMap PipeEvent.taken ↔ _
      rw [List.cons.injEq, hfirst, hall]
      simp only [List.mem_cons, PipeEvent.completed.injEq]
      constructor
      · rintro ⟨hr, hrest⟩ r' ec' res' (⟨rfl, rfl, -⟩ | hmem)
        · exact hr
        · exact hrest r' ec' res' hmem
      · exact fun h => ⟨h r ec _ (Or.inl ⟨rfl, rfl, rfl⟩), fun r' ec' res' hmem =>
          h r' ec' res' (Or.inr hmem)⟩
    -- The other steps hand back nothing and take nothing.
    all_goals exact ⟨hfronts, by simpa [PipeEvent.result, PipeEvent.taken] using hall⟩

/-- **Reads deliver in order.** In every run of a connected pipe, the objects that the reads hand
back hold disjoint segments of what was written, in the order in which it was written. They and what
is on the way make up all that was written exactly if every read hands back all that it took. -/
theorem delivered_in_order_iff {as : List PipeAction} {os : List PipeEvent} {t : Pipe}
    (h : pipe.Run .connected as os t) :
    InOrder (as.flatMap PipeAction.payload)
        ((os.flatMap PipeEvent.result).map ReadResult.data) ∧
      (((os.flatMap PipeEvent.result).map ReadResult.data).flatten ++ t.on_the_way =
          as.flatMap PipeAction.payload ↔
        ∀ r ec res, .completed r ec res ∈ os → HandsBackAll r.call ec r.got) := by
  obtain ⟨hfronts, hall⟩ := fronts_of_events
    (h.answers fun _ _ _ _ hst => completes_of_step (pipeStep_of_step hst))
  have hflat : (os.flatMap PipeEvent.taken).flatten = os.flatMap fun o => o.taken.flatten := by
    simp only [List.flatten_eq_flatMap, List.flatMap_assoc]
  have hbytes : as.flatMap PipeAction.payload =
      (os.flatMap PipeEvent.taken).flatten ++ t.on_the_way := by
    rw [hflat]
    exact h.ledger fun _ _ _ _ hst => pipe_step_taken (pipeStep_of_step hst)
  rw [hbytes, List.append_left_inj, flatten_fronts_eq_iff hfronts]
  exact ⟨segments_of_fronts hfronts _, hall⟩

/-- A `read_until` that drops the byte behind its line. -/
theorem delivered_in_order_iff_dropped :
    InOrder ([97, 10, 98] : List UInt8) [[97, 10]] ∧
      ([[97, 10]].flatten ++ Pipe.on_the_way ⟨some [], [], false, none⟩ = [97, 10, 98] ↔
        ∀ r ec res, PipeEvent.completed r ec res ∈
          [.started, .sent [97, 10, 98], .started, .found [97, 10, 98],
            .completed ⟨⟨.read_until [10], .async, .mode .bytes⟩, [[97, 10, 98]]⟩ none
              (none, .ok (.bytes [97, 10]))] → HandsBackAll r.call ec r.got) :=
  have h : pipe.Run .connected
      [.async_write [97, 10, 98], .transfer 3, .read ⟨.read_until [10], .async, .mode .bytes⟩,
        .find 3, .read_done]
      [.started, .sent [97, 10, 98], .started, .found [97, 10, 98],
        .completed ⟨⟨.read_until [10], .async, .mode .bytes⟩, [[97, 10, 98]]⟩ none
          (none, .ok (.bytes [97, 10]))]
      ⟨some [], [], false, none⟩ :=
    .cons rfl (.cons rfl (.cons rfl (.cons rfl (.cons rfl (.nil _)))))
  delivered_in_order_iff h

/-- A line of a text: ASCII code points, of which the bytes end with the delimiter and do not hold
it earlier. -/
def IsLine (delim : List UInt8) (line : List Char) : Prop :=
  (∀ c ∈ line, Utf8.IsAscii c) ∧ Shortest delim (Utf8.encode line) (Utf8.encode line)

/-- The lock step: a line is written, as `str`, when nothing is on the way; the reads are
`read_until` calls for a `str`, none is cancelled, and the pipe stays open. -/
def Lockstep (order : ByteOrder) (delim : List UInt8) (s : Pipe) : PipeAction → Prop
  | .async_write data => s.on_the_way = [] ∧
      ∃ line, IsLine delim line ∧ data = (async_write_str order line).data
  | .read call => call.op = .read_until delim ∧ call.type = .mode .str
  | .close | .cancel => False
  | _ => True

/-- The invariant of the lock step: one line at most is on the way, to a `read_until`. -/
structure OneLine (delim : List UInt8) (s : Pipe) : Prop where
  line : s.on_the_way = [] ∨ ∃ line, IsLine delim line ∧ s.on_the_way = Utf8.encode line
  reading : ∀ r, s.reading = some r → r.call.op = .read_until delim ∧ r.call.type = .mode .str
  is_open : s.closed = false

/-- The line that is on the way, if one is. -/
def Pipe.lines (s : Pipe) : List (List UInt8) := if s.on_the_way = [] then [] else [s.on_the_way]

/-- The lines that a step writes. -/
def PipeAction.written : PipeAction → List (List UInt8)
  | .async_write data => [data]
  | _ => []

/-- What is on the way changes only when a write is called or a read completes. -/
theorem on_the_way_of_step {s t : Pipe} {a : PipeAction} {o : PipeEvent} (h : PipeStep s a o t)
    (ha : a.payload = []) (ho : o.taken = []) : t.on_the_way = s.on_the_way := by
  have hstep := pipe_step_taken h
  rwa [ha, ho, List.append_nil, List.flatten_nil, List.nil_append, eq_comm] at hstep

/-- The step that calls a write. -/
theorem async_write_step {s : Pipe} (data : List UInt8) (hw : s.writing = none)
    (hclosed : s.closed = false) :
    PipeStep s (.async_write data) .started { s with writing := some data } :=
  .async_write hw hclosed

/-- A write that is called when nothing is on the way has its bytes on the way. -/
theorem on_the_way_of_write {s t : Pipe} {data : List UInt8} {o : PipeEvent}
    (h : PipeStep s (.async_write data) o t) (hnil : s.on_the_way = []) : t.on_the_way = data := by
  have hstep := pipe_step_taken h
  rw [hnil, List.nil_append] at hstep
  cases h with
  | async_write => exact hstep.symm

/-- The bytes of a line that `async_write` hands over. -/
theorem data_of_line {order : ByteOrder} {delim : List UInt8} {line : List Char}
    (h : IsLine delim line) : (async_write_str order line).data = Utf8.encode line :=
  str_buffer_ascii order h.1

/-- A line is not empty, as it ends with its delimiter. -/
theorem encode_line_ne_nil {delim : List UInt8} (hdelim : delim ≠ []) {line : List Char}
    (h : IsLine delim line) : Utf8.encode line ≠ [] := by
  intro hnil
  have hsuffix := h.2.2.1
  rw [hnil, List.suffix_nil] at hsuffix
  exact hdelim hsuffix

/-- A `read_until` that has its delimiter has the whole line, nothing else is on the way, and it
hands the line back. -/
theorem lockstep_read {delim : List UInt8} {s : Pipe} {r : Reading} (hs : OneLine delim s)
    (hdelim : delim ≠ []) (hr : s.reading = some r) (henough : r.enough = true) :
    ∃ line, IsLine delim line ∧ r.got = Utf8.encode line ∧ s.on_the_way = Utf8.encode line ∧
      r.call.result r.got none = (none, .ok (.str line)) := by
  obtain ⟨hop, htype⟩ := hs.reading r hr
  obtain ⟨k, hk⟩ : ∃ k, firstEnd delim r.got = some k := by
    simpa [Reading.enough, hop, htype, Option.isSome_iff_exists] using henough
  obtain ⟨-, hpiece⟩ := shortest_of_firstEnd hk
  have hocc : delim <:+: r.got := hpiece.2.1.isInfix.trans hpiece.1.isInfix
  have hfront : r.got <+: s.on_the_way := by
    refine ⟨s.transit ++ s.unsent, ?_⟩
    simp [Pipe.on_the_way, Pipe.pending, hr, Reading.got]
  rcases hs.line with hnil | ⟨line, hline, hway⟩
  · -- The delimiter cannot be in nothing.
    rw [hnil, List.prefix_nil] at hfront
    rw [hfront, List.infix_nil] at hocc
    exact absurd hocc hdelim
  · -- The line is the shortest text that ends with the delimiter.
    rw [hway] at hfront
    have hgot : Utf8.encode line = r.got := by
      have hle := hline.2.prefix_of_occurs hfront hocc
      exact hle.eq_of_length (Nat.le_antisymm hle.length_le hfront.length_le)
    have htake : r.got.take k = r.got := by
      have hself := hline.2
      rw [hgot] at hself
      exact hpiece.unique hself
    refine ⟨line, hline, hgot.symm, hway, ?_⟩
    have hstyle : ∀ value, handed_out r.call.style none value = (none, value) := by
      intro value
      cases r.call.style <;> rfl
    simp only [PipeRead.result, htype, hop, hk, Option.getD_some, hstyle, make_object, py_str,
      htake]
    rw [← hgot, Utf8.decode_encode]

/-- The lock step keeps its invariant. -/
theorem oneLine_step {order : ByteOrder} {delim : List UInt8} {s t : Pipe} {a : PipeAction}
    {o : PipeEvent} (hdelim : delim ≠ []) (h : PipeStep s a o t) (hs : OneLine delim s)
    (ha : Lockstep order delim s a) : OneLine delim t := by
  have hway := on_the_way_of_step h
  cases h with
  | @async_write data hw hclosed =>
    obtain ⟨hnil, line, hline, rfl⟩ := ha
    have hwrite := on_the_way_of_write
      (async_write_step (async_write_str order line).data hw hclosed) hnil
    exact ⟨Or.inr ⟨line, hline, hwrite.trans (data_of_line hline)⟩, hs.reading, hs.is_open⟩
  | transfer | write_done =>
    exact ⟨(hway rfl rfl) ▸ hs.line, hs.reading, hs.is_open⟩
  | close => exact ha.elim
  | @read call hnone =>
    refine ⟨(hway rfl rfl) ▸ hs.line, fun r hr => ?_, hs.is_open⟩
    obtain rfl : ⟨call, []⟩ = r := Option.some.inj hr
    exact ha
  | @find n r hr henough hroom hpos hle =>
    refine ⟨(hway rfl rfl) ▸ hs.line, fun r' hr' => ?_, hs.is_open⟩
    obtain rfl : r.add (s.transit.take n) = r' := Option.some.inj hr'
    exact hs.reading r hr
  | @read_done r hr henough =>
    obtain ⟨line, hline, hgot, hway', -⟩ := lockstep_read hs hdelim hr henough
    refine ⟨Or.inl ?_, fun r' hr' => ?_, hs.is_open⟩
    · have hstep := pipe_step_taken (PipeStep.read_done hr henough)
      simpa [hway', Pipe.complete, PipeEvent.taken, hgot, PipeAction.payload] using hstep
    · cases hr'
  | cancel => exact ha.elim
  | find_eof _ _ hclosed =>
    rw [hs.is_open] at hclosed
    cases hclosed

/-- One step of the lock step hands over lines: the line that is on the way and the one that is
written are, in this order, the one that is read and the one that is on the way after it. -/
theorem lockstep_lines {order : ByteOrder} {delim : List UInt8} {s t : Pipe} {a : PipeAction}
    {o : PipeEvent} (hdelim : delim ≠ []) (h : PipeStep s a o t) (hs : OneLine delim s)
    (ha : Lockstep order delim s a) :
    ∃ lines : List (List Char), (∀ line ∈ lines, IsLine delim line) ∧
      s.lines ++ a.written = lines.map Utf8.encode ++ t.lines ∧
      o.result = lines.map fun line => (none, .ok (.str line)) := by
  have hway := on_the_way_of_step h
  cases h with
  | @async_write data hw hclosed =>
    -- Nothing was on the way: the line that is written is the one that is.
    obtain ⟨hnil, line, hline, rfl⟩ := ha
    have hwrite := on_the_way_of_write
      (async_write_step (async_write_str order line).data hw hclosed) hnil
    refine ⟨[], by simp, ?_, rfl⟩
    simp only [Pipe.lines, hnil, hwrite, PipeAction.written]
    simp [data_of_line hline, encode_line_ne_nil hdelim hline]
  | transfer | write_done | read | find =>
    exact ⟨[], by simp, by simp [Pipe.lines, hway rfl rfl, PipeAction.written], rfl⟩
  | close | cancel => exact ha.elim
  | @read_done r hr henough =>
    -- The read takes the line that was on the way, and with it all that was.
    obtain ⟨line, hline, hgot, hway', hresult⟩ := lockstep_read hs hdelim hr henough
    have hstep := pipe_step_taken (PipeStep.read_done hr henough)
    have hnil : (s.complete r none).2.on_the_way = [] := by
      simpa [hway', Pipe.complete, PipeEvent.taken, hgot, PipeAction.payload] using hstep
    refine ⟨[line], by simpa using hline, ?_, ?_⟩
    · simp [Pipe.lines, hway', hnil, encode_line_ne_nil hdelim hline, PipeAction.written]
    · simp [Pipe.complete, PipeEvent.result, hresult]
  | find_eof _ _ hclosed =>
    rw [hs.is_open] at hclosed
    cases hclosed

/-- A run of the lock step hands over lines. -/
theorem lockstep_run_lines {order : ByteOrder} {delim : List UInt8} (hdelim : delim ≠ [])
    {s t : Pipe} {as : List PipeAction} {os : List PipeEvent} (h : pipe.Run s as os t)
    (hs : OneLine delim s) (hlock : pipe.Meets (Lockstep order delim) s as) :
    OneLine delim t ∧ ∃ lines : List (List Char), (∀ line ∈ lines, IsLine delim line) ∧
      s.lines ++ as.flatMap PipeAction.written = lines.map Utf8.encode ++ t.lines ∧
      os.flatMap PipeEvent.result = lines.map fun line => (none, .ok (.str line)) := by
  induction h with
  | nil => exact ⟨hs, [], by simp, by simp, rfl⟩
  | @cons s u t a o as os hst _ ih =>
    obtain ⟨ha, hlock⟩ := (Mealy.meets_cons hst).mp hlock
    have hstep := pipeStep_of_step hst
    obtain ⟨first, hare, hfirst, hresult⟩ := lockstep_lines hdelim hstep hs ha
    obtain ⟨ht, lines, hall, hlines, hresults⟩ := ih (oneLine_step hdelim hstep hs ha) hlock
    refine ⟨ht, first ++ lines, List.forall_mem_append.mpr ⟨hare, hall⟩, ?_, ?_⟩
    · rw [List.flatMap_cons, ← List.append_assoc, hfirst, List.append_assoc, hlines,
        List.map_append, List.append_assoc]
    · rw [List.flatMap_cons, hresult, hresults, List.map_append]

/-- **Lines arrive as they are written.** In every run of the lock step, however the transfers and
the reads interleave, the reads hand back exactly the lines that were written, in order, as `str`
and without an error, but for one line at most that is still on the way. -/
theorem lockstep_delivers_lines {order : ByteOrder} {delim : List UInt8} (hdelim : delim ≠ [])
    {as : List PipeAction} {os : List PipeEvent} {t : Pipe} (h : pipe.Run .connected as os t)
    (hlock : pipe.Meets (Lockstep order delim) .connected as) :
    ∃ lines last : List (List Char), last.length ≤ 1 ∧ (last = [] ↔ t.on_the_way = []) ∧
      as.flatMap PipeAction.written =
        (lines ++ last).map (fun line => (async_write_str order line).data) ∧
      os.flatMap PipeEvent.result = lines.map fun line => (none, .ok (.str line)) := by
  have hstart : OneLine delim .connected := by
    refine ⟨Or.inl rfl, fun r hr => ?_, rfl⟩
    cases hr
  obtain ⟨ht, lines, hall, hlines, hresults⟩ := lockstep_run_lines hdelim h hstart hlock
  -- The lines as the writer's calls hand them over.
  have hdata : ∀ ls : List (List Char), (∀ line ∈ ls, IsLine delim line) →
      ls.map (fun line => (async_write_str order line).data) = ls.map Utf8.encode :=
    fun ls hls => List.map_congr_left fun line hline => data_of_line (hls line hline)
  have hwritten : as.flatMap PipeAction.written = lines.map Utf8.encode ++ t.lines := hlines
  -- The invariant at the end of the run says which line, if any, has not been read.
  rcases ht.line with hnil | ⟨line, hline, hway⟩
  · refine ⟨lines, [], by simp, by simp [hnil], ?_, hresults⟩
    rw [List.append_nil, hdata lines hall, hwritten, Pipe.lines, if_pos hnil, List.append_nil]
  · have hne := encode_line_ne_nil hdelim hline
    refine ⟨lines, [line], by simp, by simp [hway, hne], ?_, hresults⟩
    rw [hdata (lines ++ [line]) (List.forall_mem_append.mpr ⟨hall, by simpa using hline⟩), hwritten,
      Pipe.lines, if_neg (by simpa [hway] using hne), hway, List.map_append, List.map_singleton]

/-- The first line of the test of the pipes, short: it is written and read, in two pieces each. -/
theorem lockstep_delivers_lines_first :
    ∃ lines last : List (List Char), last.length ≤ 1 ∧
      (last = [] ↔ Pipe.on_the_way ⟨none, [], false, none⟩ = []) ∧
      [[49, 10]] = (lines ++ last).map (fun line => (async_write_str .little line).data) ∧
      [(none, .ok (.str ['1', '\n']))] =
        lines.map fun line => ((none, .ok (.str line)) : ReadResult) :=
  have h : pipe.Run .connected
      [.read ⟨.read_until [10], .async, .mode .str⟩, .async_write [49, 10], .transfer 1, .find 1,
        .transfer 1, .write_done, .find 1, .read_done]
      [.started, .started, .sent [49], .found [49], .sent [10], .wrote, .found [10],
        .completed ⟨⟨.read_until [10], .async, .mode .str⟩, [[49], [10]]⟩ none
          (none, .ok (.str ['1', '\n']))]
      ⟨none, [], false, none⟩ :=
    .cons rfl (.cons rfl (.cons rfl (.cons rfl (.cons rfl (.cons rfl (.cons rfl
      (.cons rfl (.nil _))))))))
  have hline : IsLine [10] ['1', '\n'] :=
    ⟨by simp [Utf8.IsAscii],
      (shortest_of_firstEnd (d := [10]) (s := Utf8.encode ['1', '\n']) (k := 2) rfl).2⟩
  have hlock : pipe.Meets (Lockstep .little [10]) .connected
      [.read ⟨.read_until [10], .async, .mode .str⟩, .async_write [49, 10], .transfer 1, .find 1,
        .transfer 1, .write_done, .find 1, .read_done] := by
    refine Iff.mpr (Mealy.meets_cons rfl) ⟨⟨rfl, rfl⟩, ?_⟩
    refine Iff.mpr (Mealy.meets_cons rfl) ⟨⟨rfl, _, hline, rfl⟩, ?_⟩
    iterate 6 refine Iff.mpr (Mealy.meets_cons rfl) ⟨trivial, ?_⟩
    exact trivial
  lockstep_delivers_lines (by decide) h hlock

end AsioPy
