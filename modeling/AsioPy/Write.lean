import AsioPy.Read

/-!
# The write functions of the bindings

`register_write` of `write.hpp` binds `write` and `write_some` for three kinds of payload in the
three call styles. This file is about the `str` payloads. All six of their functions view the text
by `asio::buffer(PyUnicode_1BYTE_DATA(s.ptr()), PyUnicode_GET_LENGTH(s.ptr()))`: as many bytes of
CPython's storage of the text as it has code points. The storage has one, two or four bytes for each
code point, so the view is the UTF-8 encoding of the text, which the `str` mode of the read
functions decodes, only for an ASCII text (`str_buffer_decodes_iff`).
-/

namespace AsioPy

/-- The byte order of the machine. -/
inductive ByteOrder
  | little
  | big
  deriving DecidableEq

/-- The width in bytes of the code points of a compact `str`, by its largest code point: Latin-1,
UCS-2 or UCS-4. -/
def unicode_kind (s : List Char) : ℕ :=
  if s.all (fun c => c.val < 0x100) then 1
  else if s.all (fun c => c.val < 0x10000) then 2
  else 4

/-- A code point stored in `width` bytes. -/
def code_unit (order : ByteOrder) (width : ℕ) (c : Char) : List UInt8 :=
  let bytes := (List.range width).map fun i => (c.val >>> UInt32.ofNat (8 * i)).toUInt8
  match order with
  | .little => bytes
  | .big => bytes.reverse

/-- The storage of a compact `str`, which `PyUnicode_1BYTE_DATA` points to. -/
def unicode_data (order : ByteOrder) (s : List Char) : List UInt8 :=
  s.flatMap (code_unit order (unicode_kind s))

/-- `PyUnicode_GET_LENGTH`, the number of code points. -/
def unicode_length (s : List Char) : ℕ := s.length

/-- `asio::buffer(ptr, n)`, the first `n` bytes at a pointer. -/
def asio_buffer (memory : List UInt8) (n : ℕ) : List UInt8 := memory.take n

/-- The buffer that the `str` overloads hand to asio. -/
def str_buffer (order : ByteOrder) (s : List Char) : List UInt8 :=
  asio_buffer (unicode_data order s) (unicode_length s)

/-- The asio operations that a write may start. -/
inductive WriteOp
  | write_some
  | write
  deriving DecidableEq

/-- What a write function hands to the stream: the operation that it starts, its call style, and the
bytes of the buffer. -/
structure Handed where
  op : WriteOp
  style : CallStyle
  data : List UInt8

/-- `p.write_some(buffer)` of a `str`. -/
def write_some_str (order : ByteOrder) (s : List Char) : Handed :=
  ⟨.write_some, .throwing, str_buffer order s⟩

/-- `p.write_some(buffer, ec)` of a `str`. -/
def write_some_str_ec (order : ByteOrder) (s : List Char) : Handed :=
  ⟨.write_some, .error_code, str_buffer order s⟩

/-- `p.async_write_some(buffer)` of a `str`. -/
def async_write_some_str (order : ByteOrder) (s : List Char) : Handed :=
  ⟨.write_some, .async, str_buffer order s⟩

/-- `write(s, buffer)` of a `str`. -/
def write_str (order : ByteOrder) (s : List Char) : Handed :=
  ⟨.write, .throwing, str_buffer order s⟩

/-- `write(s, buffer, ec)` of a `str`. -/
def write_str_ec (order : ByteOrder) (s : List Char) : Handed :=
  ⟨.write, .error_code, str_buffer order s⟩

/-- `async_write(s, buffer)` of a `str`. -/
def async_write_str (order : ByteOrder) (s : List Char) : Handed :=
  ⟨.write, .async, str_buffer order s⟩

/-- The write functions of a `str`. -/
def str_writes : List (ByteOrder → List Char → Handed) :=
  [write_some_str, write_some_str_ec, async_write_some_str, write_str, write_str_ec,
    async_write_str]

/-- The six write functions of a `str` hand over the same buffer. -/
theorem str_writes_data {f : ByteOrder → List Char → Handed} (hf : f ∈ str_writes)
    (order : ByteOrder) (s : List Char) : (f order s).data = str_buffer order s := by
  simp only [str_writes, List.mem_cons, List.not_mem_nil, or_false] at hf
  rcases hf with rfl | rfl | rfl | rfl | rfl | rfl <;> rfl

/-- The buffer has at most as many bytes as the text has code points. -/
theorem length_str_buffer_le (order : ByteOrder) (s : List Char) :
    (str_buffer order s).length ≤ s.length :=
  List.length_take_le _ _

/-- A code point stored in one byte. -/
theorem code_unit_one (order : ByteOrder) (c : Char) : code_unit order 1 c = [c.val.toUInt8] := by
  cases order <;> simp [code_unit, List.range_succ]

/-- The buffer of an ASCII text is its UTF-8 encoding. -/
theorem str_buffer_ascii (order : ByteOrder) {s : List Char} (h : ∀ c ∈ s, Utf8.IsAscii c) :
    str_buffer order s = Utf8.encode s := by
  have hkind : unicode_kind s = 1 := by
    have hall : s.all (fun c => decide (c.val < 0x100)) = true := by
      rw [List.all_eq_true]
      intro c hc
      exact decide_eq_true (UInt32.lt_trans (h c hc) (by decide))
    rw [unicode_kind, if_pos hall]
  have hdata : unicode_data order s = s.map fun c => c.val.toUInt8 := by
    rw [unicode_data, hkind, List.map_eq_flatMap]
    exact List.flatMap_congr fun c _ => code_unit_one order c
  rw [str_buffer, asio_buffer, unicode_length, hdata, Utf8.encode_ascii h]
  exact List.take_of_length_le (by simp)

/-- **When text written is text read.** The bytes that a write function hands to the stream for a
text are decoded by `py::str` back to that text exactly when all of its code points are ASCII. -/
theorem str_buffer_decodes_iff {f : ByteOrder → List Char → Handed} (hf : f ∈ str_writes)
    (order : ByteOrder) (s : List Char) :
    py_str (f order s).data (f order s).data.length = .ok (.str s) ↔ ∀ c ∈ s, Utf8.IsAscii c := by
  rw [str_writes_data hf]
  constructor
  · intro h
    have hdec : Utf8.decode (str_buffer order s) = some s := by
      unfold py_str at h
      split at h
      · next t ht =>
        obtain rfl : t = s := by simpa using h
        simpa using ht
      · cases h
    -- The decoder needs at least one byte for each code point, and there are no more.
    have hlen := length_str_buffer_le order s
    rw [← Utf8.decode_eq_some_iff.mp hdec] at hlen
    exact Utf8.isAscii_of_length_encode_le hlen
  · intro h
    rw [str_buffer_ascii order h]
    simp [py_str, Utf8.decode_encode]

/-- An ASCII line is written by `async_write` as it is read. -/
theorem str_buffer_decodes_iff_line :
    py_str (async_write_str .little ['L', '1', '\n']).data
        (async_write_str .little ['L', '1', '\n']).data.length = .ok (.str ['L', '1', '\n']) ↔
      ∀ c ∈ ['L', '1', '\n'], Utf8.IsAscii c :=
  str_buffer_decodes_iff (by simp [str_writes]) .little ['L', '1', '\n']

/-- The text `é` is written as the byte `0xE9`, which does not decode. -/
theorem write_str_latin1_undecodable :
    (write_str .little ['é']).data = [0xE9] ∧
      py_str (write_str .little ['é']).data (write_str .little ['é']).data.length ≠
        .ok (.str ['é']) :=
  ⟨by decide, by decide⟩

end AsioPy
