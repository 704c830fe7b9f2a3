import AsioPy.Read

/-!
# What a failing read does to the data

A read of the bindings fails in one of two ways: asio reports an error, or the bytes in the buffer
do not decode as a `str`. The buffer is local to the call, so the bytes that were taken from the
stream survive a failure only in the object that the caller is handed. Where asio reports an error,
that is the object beside the error code: the throwing overloads hand out none, an awaited operation
throws its error code and drops the object, and `read_until` makes its object of no bytes. Where the
decoding fails there is no object at all.

`failing_read_keeps_data_iff` sums this up for every read. `delivered_keeps_iff` is the common part:
what is left of the taken bytes, by the error code and by whether the object can be made.
-/

namespace AsioPy

open Delimiter

/-- The completion token of an asynchronous operation. -/
inductive Token where
  | callback (as_tuple : Bool)
  | awaitable (as_tuple : Bool)
  | detached
  deriving DecidableEq, Repr

/-- How a read is called. -/
inductive ReadStyle where
  | throwing
  | error_code
  | async (tk : Token)
  deriving DecidableEq, Repr

/-- The overload that serves the call. -/
def ReadStyle.call_style : ReadStyle → CallStyle
  | .throwing => .throwing
  | .error_code => .error_code
  | .async _ => .async

/-- The reads of the bindings, each with the argument that says how much to read. -/
inductive ReadOp where
  | read_some (sz : ℕ)
  | read (sz : ℕ)
  | read_until (delim : List UInt8)

/-- What a read comes to before its result is delivered. -/
def ReadOp.outcome (op : ReadOp) (style : CallStyle) (p : Stream) (b : TypeArg) : Outcome :=
  match op, style with
  | .read_some sz, .throwing => AsioPy.read_some p b sz
  | .read_some sz, .error_code => read_some_ec p b sz
  | .read_some sz, .async => async_read_some p b sz
  | .read sz, .throwing => AsioPy.read p b sz
  | .read sz, .error_code => read_ec p b sz
  | .read sz, .async => async_read p b sz
  | .read_until delim, .throwing => AsioPy.read_until p delim b
  | .read_until delim, .error_code => read_until_ec p delim b
  | .read_until delim, .async => async_read_until p delim b

/-- What the caller sees of a read: whether it failed, and the object that it hands out. -/
structure Report where
  failed : Bool
  value : Option PyObject

/-- The delivery of a read's outcome. An exception leaves the function, or the event loop, and no
object with it. -/
def ReadStyle.deliver (style : ReadStyle) (o : Outcome) : Report :=
  match o.value with
  | .error _ => ⟨true, none⟩
  | .ok v =>
    match style with
    | .throwing | .error_code | .async (.callback _) | .async (.awaitable true) =>
      ⟨o.ec.isSome, some v⟩
    -- The await throws the error code as a `system_error`.
    | .async (.awaitable false) => ⟨o.ec.isSome, if o.ec.isSome then none else some v⟩
    | .async .detached => ⟨o.ec.isSome, none⟩

/-- The bytes that an object holds, a `str` as its UTF-8 encoding. -/
def PyObject.data : PyObject → List UInt8
  | .none => []
  | .bytes data => data
  | .str text => Utf8.encode text

/-- A failing read has not destroyed data: what the caller is handed and what is still readable make
up the stream. -/
def KeepsData (p : Stream) (r : Report) (rest : Stream) : Prop :=
  r.failed → (r.value.map PyObject.data).getD [] ++ rest.content = p.content

/-- An object of the mode can be made of the bytes. -/
def Mode.Decodes : Mode → List UInt8 → Prop
  | .str, bs => (Utf8.decode bs).isSome
  | .bytes, _ => True

/-- The caller is handed the object beside an error code. -/
def ReadStyle.HandsWithError : ReadStyle → Prop
  | .error_code | .async (.callback _) | .async (.awaitable true) => True
  | .throwing | .async (.awaitable false) | .async .detached => False

/-- The stream ends or fails before asio has what the read asks for. -/
def ReadOp.Short (op : ReadOp) (m : Mode) (p : Stream) : Prop :=
  match op with
  | .read_some _ => p.content = []
  | .read sz => p.content.length < (local_buf m sz).length
  | .read_until delim => ¬ delim <:+: p.content

/-- The bytes that the read makes its object of, where the stream has what it asks for. -/
def ReadOp.front (op : ReadOp) (m : Mode) (p : Stream) : List UInt8 :=
  match op with
  | .read_some sz => (p.chunks.headD []).take (local_buf m sz).length
  | .read sz => p.content.take (local_buf m sz).length
  | .read_until delim => p.content.take ((firstEnd delim p.content).getD 0)

/-- Where a failing read keeps the data. A stream that is short has nothing to lose, or the read is
one that fills its buffer and hands its object out beside the error; and the object can be made. -/
def DataSafe (op : ReadOp) (style : ReadStyle) (p : Stream) : TypeArg → Prop
  | .mode m =>
    (op.Short m p → p.content = [] ∨
      (∃ sz, op = .read sz) ∧ style.HandsWithError ∧ m.Decodes p.content) ∧
    (¬ op.Short m p → m.Decodes (op.front m p))
  | .other _ | .not_a_type _ => True

/-- The object of a read, if the bytes decode, holds them; an empty front always decodes. -/
theorem make_object_cases (m : Mode) (buf : List UInt8) (n : ℕ) :
    (m.Decodes (buf.take n) ∧ ∃ v, make_object m buf n = .ok v ∧ v.data = buf.take n) ∨
      (¬ m.Decodes (buf.take n) ∧ ∃ e, make_object m buf n = .error e) := by
  cases m with
  | bytes => exact Or.inl ⟨trivial, _, rfl, rfl⟩
  | str =>
    rcases hdec : Utf8.decode (buf.take n) with - | text
    · exact Or.inr ⟨by simp [Mode.Decodes, hdec], by simp [make_object, py_str, hdec]⟩
    · refine Or.inl ⟨by simp [Mode.Decodes, hdec], .str text, ?_, ?_⟩
      · simp [make_object, py_str, hdec]
      · exact Utf8.decode_eq_some_iff.mp hdec

/-- Nothing decodes as the empty `str`. -/
theorem Mode.decodes_nil (m : Mode) : m.Decodes [] := by
  cases m with
  | bytes => trivial
  | str => exact congrArg Option.isSome (Utf8.decode_encode [])

/-- The bytes that are handed out make up for those taken only if they are the same. -/
theorem append_content_iff {p rest : Stream} {taken : List UInt8}
    (htaken : taken ++ rest.content = p.content) (d : List UInt8) :
    d ++ rest.content = p.content ↔ d = taken := by
  rw [← htaken, List.append_left_inj]

/-- A read that makes an object of a front of what it has taken: it keeps the data if it does not
fail, if it has taken nothing, or if the caller is handed all that it took. -/
theorem object_keeps_iff (style : ReadStyle) (asked : ℕ) (ec : Option ErrorCode) {v : PyObject}
    {p rest : Stream} {taken : List UInt8} (htaken : taken ++ rest.content = p.content)
    (hfront : v.data <+: taken) :
    KeepsData p (style.deliver (finish style.call_style asked ec (.ok v) rest)) rest ↔
      (ec ≠ none → taken = [] ∨ style.HandsWithError ∧ v.data = taken) := by
  rcases ec with - | e
  · have hfailed : (style.deliver
        (finish style.call_style asked none (.ok v) rest)).failed = false := by
      rcases style with - | - | (- | (- | -) | -) <;> rfl
    simp [KeepsData, hfailed]
  · have hkept := append_content_iff htaken
    have hnothing : rest.content = p.content ↔ taken = [] := by
      rw [← htaken]
      simp
    have hsame : v.data = taken ↔ taken = [] ∨ v.data = taken := by
      constructor
      · exact Or.inr
      · rintro (rfl | h)
        · exact List.prefix_nil.mp hfront
        · exact h
    rcases style with - | - | (_ | (_ | _) | _) <;>
      simp [KeepsData, ReadStyle.deliver, ReadStyle.call_style, finish, hkept, hnothing,
        ReadStyle.HandsWithError, ← hsame]

/-- A read that makes no object of what it has taken loses it. -/
theorem no_object_loses (style : ReadStyle) (asked : ℕ) (ec : Option ErrorCode) (e : Error)
    {p rest : Stream} {taken : List UInt8} (htaken : taken ++ rest.content = p.content)
    (hne : taken ≠ []) :
    ¬ KeepsData p (style.deliver (finish style.call_style asked ec (.error e) rest)) rest := by
  have hreport : style.deliver (finish style.call_style asked ec (.error e) rest) =
      ⟨true, none⟩ := by
    rcases style with - | - | (- | (- | -) | -) <;> rcases ec with - | ec <;> rfl
  rw [hreport]
  intro h
  have hall := (append_content_iff htaken []).mp (by simpa [KeepsData] using h)
  exact hne hall.symm

/-- **Delivery.** A read that has taken the bytes `taken` and makes its object of their front `d`
keeps the data exactly if the object can be made, where asio reports no error; and where it does,
if nothing was taken or the caller is handed all that was. -/
theorem delivered_keeps_iff (style : ReadStyle) (asked : ℕ) (ec : Option ErrorCode) (m : Mode)
    (buf : List UInt8) (n : ℕ) {p rest : Stream} {taken : List UInt8}
    (htaken : taken ++ rest.content = p.content) (hfront : buf.take n <+: taken) :
    KeepsData p
        (style.deliver (finish style.call_style asked ec (make_object m buf n) rest))
        (finish style.call_style asked ec (make_object m buf n) rest).rest ↔
      (ec = none → m.Decodes (buf.take n)) ∧
        (ec ≠ none → taken = [] ∨
          style.HandsWithError ∧ m.Decodes (buf.take n) ∧ buf.take n = taken) := by
  rw [finish_rest]
  rcases make_object_cases m buf n with ⟨hdec, v, hv, hdata⟩ | ⟨hdec, e, he⟩
  · rw [hv, object_keeps_iff style asked ec htaken (hdata ▸ hfront), hdata]
    simp [hdec]
  · -- There is no object, and something was taken for it.
    have hne : taken ≠ [] := by
      rintro rfl
      rw [List.prefix_nil.mp hfront] at hdec
      exact hdec m.decodes_nil
    rw [he]
    refine iff_of_false (no_object_loses style asked ec e htaken hne) ?_
    rintro ⟨hnone, hsome⟩
    rcases ec with - | ec
    · exact hdec (hnone rfl)
    · rcases hsome (by simp) with h | ⟨-, h, -⟩
      · exact hne h
      · exact hdec h

/-- A read whose `type` is no mode takes nothing. -/
theorem keeps_of_no_mode (op : ReadOp) (style : ReadStyle) (p : Stream) {b : TypeArg}
    (hb : ∀ m, b ≠ .mode m) :
    KeepsData p (style.deliver (op.outcome style.call_style p b))
      (op.outcome style.call_style p b).rest := by
  intro _
  cases b with
  | mode m => exact absurd rfl (hb m)
  | other text =>
    rcases op with sz | sz | delim <;> rcases style with - | - | (- | (- | -) | -) <;> rfl
  | not_a_type tp_name =>
    rcases op with sz | sz | delim <;> rcases style with - | - | (- | (- | -) | -) <;> rfl

/-- What `asio::read_some` transfers: the front of the next chunk, and nothing but an error where
the stream has ended. -/
theorem read_some_cases (p : Stream) (n : ℕ) :
    ((Asio.read_some p n).ec = none ∧
        (Asio.read_some p n).data = (p.chunks.headD []).take n) ∨
      ((Asio.read_some p n).ec ≠ none ∧ (Asio.read_some p n).data = [] ∧ p.content = []) := by
  unfold Asio.read_some
  split_ifs with hn
  · exact Or.inl ⟨rfl, by simp [hn]⟩
  · rcases hc : p.chunks with - | ⟨c, cs⟩
    · exact Or.inr ⟨by simp, rfl, by simp [Stream.content, hc]⟩
    · exact Or.inl ⟨rfl, rfl⟩

/-- What `asio::read` transfers: the content up to the size of the buffer. -/
theorem read_data (p : Stream) (n : ℕ) : (Asio.read p n).data = p.content.take n := by
  obtain ⟨hcontent, hlen, -⟩ := Asio.read_spec p n
  have hprefix : (Asio.read p n).data <+: p.content := hcontent ▸ List.prefix_append _ _
  rw [List.prefix_iff_eq_take.mp hprefix, hlen]
  simp

/-- `read_some` keeps the data exactly if what it takes decodes. -/
theorem read_some_keeps_iff (sz : ℕ) (style : ReadStyle) (p : Stream) (m : Mode) :
    KeepsData p (style.deliver ((ReadOp.read_some sz).outcome style.call_style p (.mode m)))
        ((ReadOp.read_some sz).outcome style.call_style p (.mode m)).rest ↔
      DataSafe (.read_some sz) style p (.mode m) := by
  have hbody : (ReadOp.read_some sz).outcome style.call_style p (.mode m) =
      read_with style.call_style Asio.read_some p (.mode m) sz := by
    rcases style with - | - | tk <;> rfl
  rw [hbody, read_with, make_object_fill,
    delivered_keeps_iff _ _ _ _ _ _ (Asio.read_some_content p _) (by simp), List.take_length]
  simp only [DataSafe, ReadOp.Short, ReadOp.front]
  rcases read_some_cases p (local_buf m sz).length with ⟨hec, hdata⟩ | ⟨hec, hdata, hcontent⟩
  · have hempty : p.content = [] →
        m.Decodes ((p.chunks.headD []).take (local_buf m sz).length) := by
      intro h
      have hfront := Asio.read_some_content p (local_buf m sz).length
      rw [h, hdata, List.append_eq_nil_iff] at hfront
      rw [hfront.1]
      exact m.decodes_nil
    rw [hec, hdata]
    by_cases h : p.content = []
    · simpa [h] using hempty h
    · simp [h]
  · simp [hec, hdata, hcontent]

/-- `read` keeps the data exactly if what it takes decodes, and the caller is handed it where the
stream ends first. -/
theorem read_keeps_iff (sz : ℕ) (style : ReadStyle) (p : Stream) (m : Mode) :
    KeepsData p (style.deliver ((ReadOp.read sz).outcome style.call_style p (.mode m)))
        ((ReadOp.read sz).outcome style.call_style p (.mode m)).rest ↔
      DataSafe (.read sz) style p (.mode m) := by
  have hbody : (ReadOp.read sz).outcome style.call_style p (.mode m) =
      read_with style.call_style Asio.read p (.mode m) sz := by
    rcases style with - | - | tk <;> rfl
  obtain ⟨hcontent, -, hec⟩ := Asio.read_spec p (local_buf m sz).length
  rw [hbody, read_with, make_object_fill,
    delivered_keeps_iff _ _ _ _ _ _ hcontent (by simp), List.take_length, ne_eq, hec, read_data]
  simp only [DataSafe, ReadOp.Short, ReadOp.front, not_le, not_lt]
  by_cases hshort : p.content.length < (local_buf m sz).length
  · have hall : p.content.take (local_buf m sz).length = p.content :=
      List.take_of_length_le hshort.le
    simp [hshort, not_le.mpr hshort, hall]
  · simp [hshort, not_lt.mp hshort]

/-- `read_until` keeps the data exactly if the delimiter occurs and the piece decodes, or there is
no data. -/
theorem read_until_keeps_iff (delim : List UInt8) (style : ReadStyle) (p : Stream) (m : Mode) :
    KeepsData p (style.deliver ((ReadOp.read_until delim).outcome style.call_style p (.mode m)))
        ((ReadOp.read_until delim).outcome style.call_style p (.mode m)).rest ↔
      DataSafe (.read_until delim) style p (.mode m) := by
  have hbody : (ReadOp.read_until delim).outcome style.call_style p (.mode m) =
      read_until_with style.call_style p delim (.mode m) := by
    rcases style with - | - | tk <;> rfl
  obtain ⟨hcontent, hspec⟩ := Asio.read_until_spec p delim
  rw [hbody, read_until_with,
    delivered_keeps_iff _ _ _ _ _ _ hcontent (List.take_prefix _ _)]
  simp only [DataSafe, ReadOp.Short, ReadOp.front]
  rcases hk : firstEnd delim p.content with - | k
  · -- The failing call has taken the content, and makes its object of no bytes.
    simp only [hk] at hspec
    obtain ⟨hec, hsz, hrest⟩ := hspec
    rw [hrest, List.append_nil] at hcontent
    have hall : [] = p.content ↔ p.content = [] := eq_comm
    simp [hec, hsz, hcontent, firstEnd_eq_none_iff.mp hk, hall]
  · simp only [hk] at hspec
    obtain ⟨hec, hpiece⟩ := hspec
    have hocc : delim <:+: p.content := by
      by_contra h
      rw [firstEnd_eq_none_iff.mpr h] at hk
      cases hk
    simp [hec, hpiece, hocc]

/-- **When a failing read keeps the data.** For every read, in every call style, with every argument
`type`, and at every stream: if the read fails, the bytes that it took are in the object that the
caller is handed or still readable, exactly under `DataSafe`. -/
theorem failing_read_keeps_data_iff (op : ReadOp) (style : ReadStyle) (p : Stream) (b : TypeArg) :
    KeepsData p (style.deliver (op.outcome style.call_style p b))
        (op.outcome style.call_style p b).rest ↔ DataSafe op style p b := by
  cases b with
  | mode m =>
    cases op with
    | read_some sz => exact read_some_keeps_iff sz style p m
    | read sz => exact read_keeps_iff sz style p m
    | read_until delim => exact read_until_keeps_iff delim style p m
  | other text => exact iff_of_true (keeps_of_no_mode op style p (by simp)) trivial
  | not_a_type tp_name => exact iff_of_true (keeps_of_no_mode op style p (by simp)) trivial

/-- A line without its end, before the stream ends: the failing `read_until` has taken it, and hands
out no byte of it, not even beside an error code. -/
theorem read_until_drops_partial_line :
    (ReadStyle.deliver .error_code ((ReadOp.read_until [10]).outcome .error_code
        (Stream.of [[97, 98]] .eof) (.mode .bytes))) = ⟨true, some (.bytes [])⟩ ∧
      ((ReadOp.read_until [10]).outcome .error_code (Stream.of [[97, 98]] .eof)
        (.mode .bytes)).rest.content = [] ∧
      ¬ KeepsData (Stream.of [[97, 98]] .eof)
        (ReadStyle.deliver .error_code ((ReadOp.read_until [10]).outcome .error_code
          (Stream.of [[97, 98]] .eof) (.mode .bytes)))
        ((ReadOp.read_until [10]).outcome .error_code (Stream.of [[97, 98]] .eof)
          (.mode .bytes)).rest :=
  ⟨rfl, rfl, fun h => absurd (h rfl) (by decide)⟩

end AsioPy
