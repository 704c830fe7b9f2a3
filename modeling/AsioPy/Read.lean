import AsioPy.Stream
import AsioPy.Lib.Utf8

/-!
# The read functions of the bindings

`register_read` of `read.hpp` binds `read_some`, `read` and `read_until`, each in three call styles:
throwing, with an `error_code`, and asynchronous. Every one of them looks at its argument `type`,
makes a local buffer of that mode, has asio fill it, and makes a Python object of the bytes that
asio reports. The copies differ only in the asio operation and in how they report an error, so they
are instances of `read_with` and `read_until_with`.
-/

namespace AsioPy

/-- The Python objects that a read returns. -/
inductive PyObject
  | none
  | bytes (data : List UInt8)
  | str (text : List Char)
  deriving DecidableEq

/-- The C++ exceptions that leave a read. -/
inductive Error
  | system_error (ec : ErrorCode)
  | type_error (what : String)
  | runtime_error (what : String)
  deriving DecidableEq

/-- The two modes of a read: the object that it makes is a `str` or a `bytes`. -/
inductive Mode
  | str
  | bytes
  deriving DecidableEq

/-- The argument `type` of a read: one of the type objects `str` and `bytes`, any other type object
with its text, or an object that is no type, with the name of its class. -/
inductive TypeArg
  | mode (m : Mode)
  | other (text : String)
  | not_a_type (tp_name : String)
  deriving DecidableEq

/-- How a read is called: the plain overload, the one with an `error_code`, or the asynchronous
operation. -/
inductive CallStyle
  | throwing
  | error_code
  | async
  deriving DecidableEq

/-- What a read comes to: the size of the fixed buffer that it hands to asio (0 where the buffer
grows), the error code that it reports, the object that it makes or the exception that it ends with,
and the stream after it. -/
structure Outcome where
  asked : ℕ
  ec : Option ErrorCode
  value : Except Error PyObject
  rest : Stream

/-- `std::string(count, ch)`. -/
def std_string (count : ℕ) (ch : UInt8) : List UInt8 := List.replicate count ch

/-- `std::vector<char>(count)`. -/
def std_vector (count : ℕ) : List UInt8 := List.replicate count 0

/-- A buffer after asio has transferred `data` to its front. -/
def fill (buf data : List UInt8) : List UInt8 := data ++ buf.drop data.length

/-- `py::str(data, n)`, which decodes UTF-8. -/
def py_str (data : List UInt8) (n : ℕ) : Except Error PyObject :=
  match Utf8.decode (data.take n) with
  | some s => .ok (.str s)
  | none => .error (.runtime_error "Could not allocate string object!")

/-- `py::bytes(data, n)`. -/
def py_bytes (data : List UInt8) (n : ℕ) : Except Error PyObject := .ok (.bytes (data.take n))

/-- The end of a read by its call style: the throwing overload throws the error code and makes no
object, the other two hand out the error code beside the object. -/
def finish (style : CallStyle) (asked : ℕ) (ec : Option ErrorCode)
    (value : Except Error PyObject) (rest : Stream) : Outcome :=
  match style, ec with
  | .throwing, some e => ⟨asked, none, .error (.system_error e), rest⟩
  | _, ec => ⟨asked, ec, value, rest⟩

/-- However a call ends, it reports what it asked for. -/
@[simp] theorem finish_asked (style : CallStyle) (asked : ℕ) (ec : Option ErrorCode)
    (value : Except Error PyObject) (rest : Stream) :
    (finish style asked ec value rest).asked = asked := by
  unfold finish
  split <;> rfl

/-- However a call ends, what asio left is still readable. -/
@[simp] theorem finish_rest (style : CallStyle) (asked : ℕ) (ec : Option ErrorCode)
    (value : Except Error PyObject) (rest : Stream) :
    (finish style asked ec value rest).rest = rest := by
  unfold finish
  split <;> rfl

/-- A read whose `type` is another type object: the asynchronous operations complete with
`invalid_argument`, the other two overloads throw. -/
def wrong_type (style : CallStyle) (text : String) (p : Stream) : Outcome :=
  match style with
  | .async => ⟨0, some .invalid_argument, .ok .none, p⟩
  | _ => ⟨0, none, .error (.type_error ("Invalid buffer type " ++ text)), p⟩

/-- A read whose `type` is no type object: the conversion `py::type(b)` throws in every style. -/
def no_type (tp_name : String) (p : Stream) : Outcome :=
  let what := "Object of type '" ++ tp_name ++ "' is not an instance of 'type'"
  ⟨0, none, .error (.type_error what), p⟩

/-- The local buffer of a read. In the `bytes` mode it is `std::vector<char> buf(sz)`. In the `str`
mode it is `std::string buf(' ', sz)`: the constructor takes the count first, so the buffer has
`' '` many characters, each of them the character `sz`. -/
def local_buf : Mode → ℕ → List UInt8
  | .str, sz => std_string 0x20 (UInt8.ofNat sz)
  | .bytes, sz => std_vector sz

/-- The object that a read makes of the first `n` bytes of its buffer. -/
def make_object : Mode → List UInt8 → ℕ → Except Error PyObject
  | .str => py_str
  | .bytes => py_bytes

/-- The common body of `read_some` and `read`: `op` is the asio operation on a buffer. -/
def read_with (style : CallStyle) (op : Stream → ℕ → Transfer) (p : Stream) (b : TypeArg)
    (sz : ℕ) : Outcome :=
  match b with
  | .mode m =>
    let buf := local_buf m sz
    let t := op p buf.length
    finish style buf.length t.ec (make_object m (fill buf t.data) t.data.length) t.rest
  | .other text => wrong_type style text p
  | .not_a_type tp_name => no_type tp_name p

/-- `p.read_some(type, size)`. -/
def read_some (p : Stream) (b : TypeArg) (sz : ℕ) : Outcome :=
  read_with .throwing Asio.read_some p b sz

/-- `p.read_some(ec, type, size)`. -/
def read_some_ec (p : Stream) (b : TypeArg) (sz : ℕ) : Outcome :=
  read_with .error_code Asio.read_some p b sz

/-- The completion of `p.async_read_some(type, size)`. -/
def async_read_some (p : Stream) (b : TypeArg) (sz : ℕ) : Outcome :=
  read_with .async Asio.read_some p b sz

/-- `read(s, type, size)`. -/
def read (p : Stream) (b : TypeArg) (sz : ℕ) : Outcome := read_with .throwing Asio.read p b sz

/-- `read(s, ec, type, size)`. -/
def read_ec (p : Stream) (b : TypeArg) (sz : ℕ) : Outcome := read_with .error_code Asio.read p b sz

/-- The completion of `async_read(s, type, size)`. -/
def async_read (p : Stream) (b : TypeArg) (sz : ℕ) : Outcome := read_with .async Asio.read p b sz

/-- The common body of the `read_until` overloads. The dynamic buffer is a local variable, or is
owned by the completion handler: what it holds behind the delimiter goes with it. -/
def read_until_with (style : CallStyle) (p : Stream) (delim : List UInt8) (b : TypeArg) : Outcome :=
  match b with
  | .mode m =>
    let r := Asio.read_until p delim
    finish style 0 r.ec (make_object m r.buf r.sz) r.rest
  | .other text => wrong_type style text p
  | .not_a_type tp_name => no_type tp_name p

/-- `read_until(s, delim, type)`. -/
def read_until (p : Stream) (delim : List UInt8) (b : TypeArg) : Outcome :=
  read_until_with .throwing p delim b

/-- `read_until(s, delim, ec, type)`. -/
def read_until_ec (p : Stream) (delim : List UInt8) (b : TypeArg) : Outcome :=
  read_until_with .error_code p delim b

/-- The completion of `async_read_until(s, delim, type)`. -/
def async_read_until (p : Stream) (delim : List UInt8) (b : TypeArg) : Outcome :=
  read_until_with .async p delim b

/-- The object that a read makes does not depend on what the buffer held before the transfer. -/
theorem make_object_fill (m : Mode) (buf data : List UInt8) :
    make_object m (fill buf data) data.length = make_object m data data.length := by
  cases m <;> simp [make_object, py_str, py_bytes, fill]

/-- The buffer of the `bytes` mode has the size that the caller asked for. -/
@[simp] theorem length_local_buf_bytes (sz : ℕ) : (local_buf .bytes sz).length = sz := by
  simp [local_buf, std_vector]

/-- The buffer of the `str` mode has 32 bytes, whatever the caller asked for. -/
@[simp] theorem length_local_buf_str (sz : ℕ) : (local_buf .str sz).length = 32 := by
  simp [local_buf, std_string]

end AsioPy
