import AsioPy.WriteBuffer

/-!
# Which write function serves a payload

`register_write` registers eighteen functions under four names, two of them methods of the pipe and
two functions of the module. A call goes to the first function of the name, in the order of
registration, whose parameter takes the payload. A `bytes` object is a buffer too, so the order
decides which copy serves it, and with it whether a slip in one of the copies shows:

* the blocking `py::bytes` overloads take the result of `PyBytes_AsStringAndSize` the wrong way
  round, and are never reached, since a `py::buffer` overload is registered before each of them;
* the module's overload for buffers is registered as `async_write_some` in place of `async_write`,
  so `async_write` refuses what `write` accepts.

`writes_agree_iff` is what this leaves of the agreement between the blocking and the asynchronous
functions.
-/

namespace AsioPy

open Strided

/-- The object that a write is called with. -/
inductive WriteArg where
  | str (s : List Char)
  | bytes (data : List UInt8)
  /-- An object that exports a buffer and is no `bytes`. -/
  | buffer (b : PyBuffer)
  | other

/-- The buffer that a `bytes` object exports. -/
def PyBuffer.of_bytes (data : List UInt8) : PyBuffer :=
  ⟨fun a => data.getD a.toNat 0, ⟨0, 1, [⟨data.length, 1⟩]⟩⟩

/-- The object as a `py::buffer`, if it is one. -/
def WriteArg.as_buffer : WriteArg → Option PyBuffer
  | .bytes data => some (.of_bytes data)
  | .buffer b => some b
  | .str _ | .other => none

/-- `PyBytes_AsStringAndSize(b, &buffer, &length)`: its result, and the memory of `length` bytes at
`buffer`, which it leaves a null pointer where it fails. -/
def PyBytes_AsStringAndSize : WriteArg → ℤ × List UInt8
  | .bytes data => (0, data)
  | .str _ | .buffer _ | .other => (-1, [])

/-- The blocking overloads for `py::bytes`. -/
def blocking_bytes (op : WriteOp) (style : CallStyle) (b : WriteArg) : Except Error Handed :=
  let (result, buffer) := PyBytes_AsStringAndSize b
  if result ≠ 0 then .ok ⟨op, style, asio_buffer buffer buffer.length⟩
  else .error (.runtime_error "Can't read size of buffer")

/-- `p.write_some(buffer)` of a `bytes`. -/
def write_some_bytes : WriteArg → Except Error Handed := blocking_bytes .write_some .throwing

/-- `p.write_some(buffer, ec)` of a `bytes`. -/
def write_some_bytes_ec : WriteArg → Except Error Handed := blocking_bytes .write_some .error_code

/-- `write(s, buffer)` of a `bytes`. -/
def write_bytes : WriteArg → Except Error Handed := blocking_bytes .write .throwing

/-- `write(s, buffer, ec)` of a `bytes`. -/
def write_bytes_ec : WriteArg → Except Error Handed := blocking_bytes .write .error_code

/-- The asynchronous overloads for `py::bytes`, which do not look at the result. -/
def async_bytes (op : WriteOp) (b : WriteArg) : Except Error Handed :=
  let (_, buffer) := PyBytes_AsStringAndSize b
  .ok ⟨op, .async, asio_buffer buffer buffer.length⟩

/-- `p.async_write_some(buffer)` of a `bytes`. -/
def async_write_some_bytes : WriteArg → Except Error Handed := async_bytes .write_some

/-- `async_write(s, buffer)` of a `bytes`. -/
def async_write_bytes : WriteArg → Except Error Handed := async_bytes .write

/-- A registered function, by its payload parameter. -/
inductive WriteBody where
  | str (f : ByteOrder → List Char → Handed)
  | buffer (f : PyBuffer → Handed)
  | bytes (f : WriteArg → Except Error Handed)

/-- A function with a payload; nothing if the payload is not what its parameter takes. -/
def WriteBody.call (order : ByteOrder) : WriteBody → WriteArg → Option (Except Error Handed)
  | .str f, .str s => some (.ok (f order s))
  | .buffer f, x => x.as_buffer.map fun b => .ok (f b)
  | .bytes f, .bytes data => some (f (.bytes data))
  | .str _, _ | .bytes _, _ => none

/-- Where a function is registered: at the class of the pipe or at the module. -/
inductive WriteScope where
  | cl | m
  deriving DecidableEq, Repr

/-- A registered function. Its call style is known from the call, by the argument `ec` and the
name. -/
structure WriteOverload where
  scope : WriteScope
  name : String
  style : CallStyle
  body : WriteBody

/-- `register_write`, in the order of the source. -/
def register_write : List WriteOverload :=
  [⟨.cl, "write_some", .throwing, .str write_some_str⟩,
    ⟨.cl, "write_some", .throwing, .buffer write_some_buffer⟩,
    ⟨.cl, "write_some", .throwing, .bytes write_some_bytes⟩,
    ⟨.cl, "write_some", .error_code, .str write_some_str_ec⟩,
    ⟨.cl, "write_some", .error_code, .buffer write_some_buffer_ec⟩,
    ⟨.cl, "write_some", .error_code, .bytes write_some_bytes_ec⟩,
    ⟨.cl, "async_write_some", .async, .str async_write_some_str⟩,
    ⟨.cl, "async_write_some", .async, .buffer async_write_some_buffer⟩,
    ⟨.cl, "async_write_some", .async, .bytes async_write_some_bytes⟩,
    ⟨.m, "write", .throwing, .str write_str⟩,
    ⟨.m, "write", .throwing, .buffer write_buffer⟩,
    ⟨.m, "write", .throwing, .bytes write_bytes⟩,
    ⟨.m, "write", .error_code, .str write_str_ec⟩,
    ⟨.m, "write", .error_code, .buffer write_buffer_ec⟩,
    ⟨.m, "write", .error_code, .bytes write_bytes_ec⟩,
    ⟨.m, "async_write", .async, .str async_write_str⟩,
    ⟨.m, "async_write_some", .async, .buffer module_async_write_some_buffer⟩,
    ⟨.m, "async_write", .async, .bytes async_write_bytes⟩]

/-- A call of a write function: the first overload that takes the payload, in the order of
registration. -/
def call_write (order : ByteOrder) (scope : WriteScope) (name : String) (style : CallStyle)
    (x : WriteArg) : Except Error Handed :=
  let overloads :=
    register_write.filter fun o => o.scope = scope && o.name = name && o.style = style
  match overloads.findSome? fun o => o.body.call order x with
  | some r => r
  | none => .error (.type_error (name ++ "(): incompatible function arguments."))

/-- What the asynchronous function owes the blocking one of the given scope and name: it accepts the
payloads that the blocking one accepts, and hands over the same bytes. -/
def AsyncFollows (order : ByteOrder) (scope : WriteScope) (name async_name : String)
    (x : WriteArg) : Prop :=
  ∀ style h, style ≠ .async → call_write order scope name style x = .ok h →
    ∃ h', call_write order scope async_name .async x = .ok h' ∧ h'.data = h.data

/-- What a blocking overload for `py::bytes` owes on its own: where `PyBytes_AsStringAndSize`
succeeds, it hands over the bytes that it gives. -/
def HandsBytes (f : WriteArg → Except Error Handed) (x : WriteArg) : Prop :=
  (PyBytes_AsStringAndSize x).1 = 0 →
    ∃ h, f x = .ok h ∧ h.data = (PyBytes_AsStringAndSize x).2

/-- What the write functions owe each other on a payload. -/
structure WritesAgree (order : ByteOrder) (x : WriteArg) : Prop where
  module : AsyncFollows order .m "write" "async_write" x
  methods : AsyncFollows order .cl "write_some" "async_write_some" x
  bytes_overloads : ∀ o ∈ register_write, o.style ≠ .async → ∀ f, o.body = .bytes f → HandsBytes f x

/-- The bytes that a call hands to the stream, if it is accepted. -/
def handed (r : Except Error Handed) : Option (List UInt8) := r.toOption.map Handed.data

/-- The bytes that a payload is sent as. -/
def WriteArg.sent (order : ByteOrder) : WriteArg → Option (List UInt8)
  | .str s => some (str_buffer order s)
  | .bytes data => some data
  | .buffer b => some (buffer_data b)
  | .other => none

/-- A `bytes` object goes through the buffer that it exports as it is. -/
@[simp] theorem buffer_data_of_bytes (data : List UInt8) : buffer_data (.of_bytes data) = data := by
  apply List.ext_getElem
  · simp [PyBuffer.of_bytes, BufferInfo.size, Strided.size]
  · intro k hk hk'
    simp [buffer_data, asio_buffer_at, PyBuffer.request, PyBuffer.of_bytes, hk']

/-- A function is accepted with some bytes exactly if it is accepted with a buffer of them. -/
theorem handed_eq_some_iff {r : Except Error Handed} {data : List UInt8} :
    handed r = some data ↔ ∃ h, r = .ok h ∧ h.data = data := by
  cases r with
  | error e => simp [handed, Except.toOption]
  | ok h => simp [handed, Except.toOption]

/-- Following is about the bytes alone. -/
theorem asyncFollows_iff {order : ByteOrder} {scope : WriteScope} {name async_name : String}
    {x : WriteArg} :
    AsyncFollows order scope name async_name x ↔
      ∀ style data, style ≠ .async → handed (call_write order scope name style x) = some data →
        handed (call_write order scope async_name .async x) = some data := by
  simp only [AsyncFollows, handed_eq_some_iff]
  constructor
  · rintro hfollow style _ hstyle ⟨h, hcall, rfl⟩
    exact hfollow style h hstyle hcall
  · intro hfollow style h hstyle hcall
    exact hfollow style h.data hstyle ⟨h, hcall, rfl⟩

/-- The blocking functions send every payload: the overload for `str` a text, the overload for
buffers, which comes before the one for `bytes`, everything else. -/
theorem handed_blocking {scope : WriteScope} {name : String}
    (hname : scope = .m ∧ name = "write" ∨ scope = .cl ∧ name = "write_some")
    {style : CallStyle} (hstyle : style ≠ .async) (order : ByteOrder) (x : WriteArg) :
    handed (call_write order scope name style x) = x.sent order := by
  have hbytes : ∀ data, some (buffer_data (.of_bytes data)) = some data := fun data => by simp
  rcases hname with ⟨rfl, rfl⟩ | ⟨rfl, rfl⟩ <;> cases style <;> cases x <;>
    first | rfl | exact hbytes _ | exact absurd rfl hstyle

/-- So does the asynchronous method. -/
theorem handed_async_method (order : ByteOrder) (x : WriteArg) :
    handed (call_write order .cl "async_write_some" .async x) = x.sent order := by
  cases x with
  | str s => rfl
  | bytes data => exact congrArg some (buffer_data_of_bytes data)
  | buffer b => rfl
  | other => rfl

/-- The module's `async_write` has no overload for buffers: it sends texts and `bytes` only. -/
theorem handed_async_module (order : ByteOrder) (x : WriteArg) :
    handed (call_write order .m "async_write" .async x) =
      match x with
      | .buffer _ => none
      | x => x.sent order := by
  cases x with
  | str s => rfl
  | bytes data => exact congrArg some (List.take_length)
  | buffer b => rfl
  | other => rfl

/-- The method `async_write_some` follows `write_some` on every payload. -/
theorem methods_follow (order : ByteOrder) (x : WriteArg) :
    AsyncFollows order .cl "write_some" "async_write_some" x := by
  rw [asyncFollows_iff]
  intro style data hstyle hcall
  rw [handed_blocking (Or.inr ⟨rfl, rfl⟩) hstyle] at hcall
  rw [handed_async_method, hcall]

/-- The module's `async_write` follows `write` on every payload but buffers that are no `bytes`. -/
theorem module_follows_iff (order : ByteOrder) (x : WriteArg) :
    AsyncFollows order .m "write" "async_write" x ↔ ∀ b, x ≠ .buffer b := by
  rw [asyncFollows_iff]
  constructor
  · rintro hfollow b rfl
    have hstyle : CallStyle.throwing ≠ .async := by simp
    have hblocking := handed_blocking (Or.inl ⟨rfl, rfl⟩) hstyle order (.buffer b)
    have hasync := hfollow .throwing _ hstyle hblocking
    rw [handed_async_module] at hasync
    cases hasync
  · intro hx style data hstyle hcall
    rw [handed_blocking (Or.inl ⟨rfl, rfl⟩) hstyle] at hcall
    rw [handed_async_module]
    cases x with
    | buffer b => exact absurd rfl (hx b)
    | str s => exact hcall
    | bytes data => exact hcall
    | other => exact hcall

/-- A blocking overload for `bytes` throws on every `bytes` object: it takes the result `0` of
success for a failure. -/
theorem handsBytes_blocking_iff (op : WriteOp) (style : CallStyle) (x : WriteArg) :
    HandsBytes (blocking_bytes op style) x ↔ ∀ data, x ≠ .bytes data := by
  cases x with
  | bytes data =>
    constructor
    · intro h
      obtain ⟨_, hcall, -⟩ := h rfl
      cases hcall
    · intro h
      exact absurd rfl (h data)
  | _ => simp [HandsBytes, PyBytes_AsStringAndSize]

/-- The registered blocking functions for `bytes` are the one body at their own operation. -/
theorem bytes_overload_eq {o : WriteOverload} (ho : o ∈ register_write) (hstyle : o.style ≠ .async)
    {f : WriteArg → Except Error Handed} (hf : o.body = .bytes f) :
    ∃ op, f = blocking_bytes op o.style := by
  simp only [register_write, List.mem_cons, List.not_mem_nil, or_false] at ho
  rcases ho with rfl | rfl | rfl | rfl | rfl | rfl | rfl | rfl | rfl | rfl | rfl | rfl | rfl | rfl |
    rfl | rfl | rfl | rfl <;>
    first | cases hf <;> exact ⟨_, rfl⟩ | exact absurd rfl hstyle

/-- **When the blocking and the asynchronous writes agree.** On a payload, `async_write` accepts
what `write` accepts, `async_write_some` accepts what `write_some` accepts, each with the same
bytes, and the blocking overloads for `bytes` hand over their argument, exactly if the payload
exports no buffer. -/
theorem writes_agree_iff (order : ByteOrder) (x : WriteArg) :
    WritesAgree order x ↔ x.as_buffer = none := by
  constructor
  · intro h
    have hbuffer := (module_follows_iff order x).mp h.module
    have hbytes := (handsBytes_blocking_iff .write .throwing x).mp
      (h.bytes_overloads ⟨.m, "write", .throwing, .bytes write_bytes⟩ (by simp [register_write])
        (by simp) write_bytes rfl)
    cases x with
    | bytes data => exact absurd rfl (hbytes data)
    | buffer b => exact absurd rfl (hbuffer b)
    | str s => rfl
    | other => rfl
  · intro h
    have hbuffer : ∀ b, x ≠ .buffer b := by
      rintro b rfl
      cases h
    have hbytes : ∀ data, x ≠ .bytes data := by
      rintro data rfl
      cases h
    constructor
    · exact (module_follows_iff order x).mpr hbuffer
    · exact methods_follow order x
    · intro o ho hstyle f hf
      obtain ⟨op, rfl⟩ := bytes_overload_eq ho hstyle hf
      exact (handsBytes_blocking_iff op o.style x).mpr hbytes

/-- A `bytearray` that `write` sends and `async_write` refuses; and a `bytes` object, on which the
blocking overload for `bytes` throws. -/
theorem async_write_refuses_bytearray :
    handed (call_write .little .m "write" .throwing (.buffer (.of_bytes [104, 105]))) =
        some [104, 105] ∧
      handed (call_write .little .m "async_write" .async (.buffer (.of_bytes [104, 105]))) = none ∧
      write_bytes (.bytes [104, 105]) = .error (.runtime_error "Can't read size of buffer") ∧
      ¬ WritesAgree .little (.buffer (.of_bytes [104, 105])) ∧
      ¬ WritesAgree .little (.bytes [104, 105]) := by
  refine ⟨by decide, by rfl, by rfl, fun h => ?_, fun h => ?_⟩
  · exact (module_follows_iff _ _).mp h.module _ rfl
  · have hthrows := h.bytes_overloads ⟨.m, "write", .throwing, .bytes write_bytes⟩
      (by simp [register_write]) (by simp) write_bytes rfl
    exact (handsBytes_blocking_iff .write .throwing _).mp hthrows _ rfl

end AsioPy
