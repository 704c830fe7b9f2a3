import AsioPy.Awaitable
import AsioPy.Lib.Utf8

/-!
# What `value_type` says of an awaitable

The result types of awaitables form a grammar: `void`, the fundamental types, `std::string`,
`py::object`, tuples of these, and registered classes. Two chains of `if constexpr` go over it:
`type_handle` gives the Python class that `value_type` reports, and `impl::await` makes the object
that the awaiting coroutine gets. `value_type_true_iff` compares them.

Both come to the class that `pybind11::cast` makes an object of (`CppType.py_type`), where they come
to it at all.
-/

namespace AsioPy

variable {γ ω ε φ : Type}

/-- The Python classes that matter here; `γ` are the others. -/
inductive PyType (γ : Type) where
  | object
  | NoneType
  | bool
  | int
  | float
  | str
  | tuple
  | cls (c : γ)
  deriving DecidableEq

/-- A Python object. -/
inductive PyValue (γ ω : Type) where
  | none
  | bool (b : Bool)
  | int (n : ℤ)
  /-- A `float`, by its bits. -/
  | float (bits : UInt64)
  | str (text : List Char)
  | tuple (items : List (PyValue γ ω))
  /-- An object of another class. -/
  | instance_of (c : γ) (o : ω)

/-- `type(o)` -/
def PyValue.type : PyValue γ ω → PyType γ
  | .none => .NoneType
  | .bool _ => .bool
  | .int _ => .int
  | .float _ => .float
  | .str _ => .str
  | .tuple _ => .tuple
  | .instance_of c _ => .cls c

/-- The other classes, by what they are derived from. -/
structure PyClasses (γ : Type) where
  bases : γ → List (PyType γ)

/-- `issubclass(a, b)` -/
def PyClasses.issubclass (K : PyClasses γ) (a b : PyType γ) : Prop :=
  a = b ∨ b = .object ∨ (a = .bool ∧ b = .int) ∨ ∃ c, a = .cls c ∧ b ∈ K.bases c

/-- `isinstance(o, t)` -/
def PyClasses.isinstance (K : PyClasses γ) (o : PyValue γ ω) (t : PyType γ) : Prop :=
  K.issubclass o.type t

/-- The types of `std::is_fundamental`, without `void`. -/
inductive Fundamental where
  | bool
  | char
  | char8_t
  | char16_t
  | char32_t
  | wchar_t
  | integer (bits : ℕ) (is_signed : Bool)
  | floating
  | nullptr_t
  deriving DecidableEq, Repr

/-- A type that an awaitable's result can have, apart from `void`, which no tuple can hold. -/
inductive CppType (γ : Type) where
  | fundamental (t : Fundamental)
  | string
  /-- `py::object` -/
  | object
  /-- `std::tuple<Ts...>` -/
  | tuple (Ts : List (CppType γ))
  /-- A class that is registered as the Python class. -/
  | registered (c : γ)

/-- The type `T` of `asio::awaitable<T, Executor>`. -/
inductive ResultType (γ : Type) where
  | void
  | value (T : CppType γ)

/-- The values of a fundamental type. A floating point number is the bits of the `double` that it is
converted to. -/
@[reducible] def Fundamental.Value : Fundamental → Type
  | .bool => Bool
  | .char | .char8_t => UInt8
  | .char16_t => UInt16
  | .char32_t | .wchar_t => UInt32
  | .integer bits _ => BitVec bits
  | .floating => UInt64
  | .nullptr_t => Unit

mutual

/-- The values of a type. A `py::object` may be a null handle; the values of a registered class are
given as the Python objects hold them. -/
def CppType.Value (ω : Type) : CppType γ → Type
  | .fundamental t => t.Value
  | .string => List UInt8
  | .object => Option (PyValue γ ω)
  | .tuple Ts => CppType.Values ω Ts
  | .registered _ => ω

/-- The values of some types, one for each. -/
def CppType.Values (ω : Type) : List (CppType γ) → Type
  | [] => Unit
  | T :: Ts => T.Value ω × CppType.Values ω Ts

end

/-- The values of a result type. -/
def ResultType.Value (ω : Type) : ResultType γ → Type
  | .void => Unit
  | .value T => T.Value ω

/-- What goes wrong where an object or its class is made. -/
inductive PyFault where
  /-- A text is not decoded. -/
  | unicode_decode_error
  /-- `type::of` of a null handle. -/
  | null_handle
  /-- `std::runtime_error("awaitable invalid")` -/
  | awaitable_invalid
  deriving DecidableEq, Repr

/-- `T{}` -/
def Fundamental.zero : (t : Fundamental) → t.Value
  | .bool => false
  | .char | .char8_t => (0 : UInt8)
  | .char16_t => (0 : UInt16)
  | .char32_t | .wchar_t => (0 : UInt32)
  | .integer bits _ => (0 : BitVec bits)
  | .floating => (0 : UInt64)
  | .nullptr_t => ()

/-- CPython's decoder for UTF-16 or UTF-32 on one unit. A byte order mark is taken off the text,
whichever its order. -/
def decode_unit (marks : List ℕ) (unit : ℕ) : Option (List Char) :=
  if unit ∈ marks then some []
  else if unit.isValidChar then some [Char.ofNat unit]
  else none

/-- The `str` of a text that is decoded. -/
def str_of : Option (List Char) → Except PyFault (PyValue γ ω)
  | some text => .ok (.str text)
  | none => .error .unicode_decode_error

/-- `pybind11::cast` of a fundamental type. -/
def cast_fundamental : (t : Fundamental) → t.Value → Except PyFault (PyValue γ ω)
  | .bool, b => .ok (.bool b)
  -- A `char` is decoded as Latin-1, the other characters as text of one unit.
  | .char, c => .ok (.str [Char.ofNat c.toNat])
  | .char8_t, c => str_of (Utf8.decode [c])
  | .char16_t, c => str_of (decode_unit [0xFEFF, 0xFFFE] c.toNat)
  | .char32_t, c | .wchar_t, c => str_of (decode_unit [0xFEFF, 0xFFFE0000] c.toNat)
  | .integer _ is_signed, n => .ok (.int (if is_signed then n.toInt else n.toNat))
  | .floating, bits => .ok (.float bits)
  | .nullptr_t, _ => .ok .none

mutual

/-- `pybind11::cast`, which may give a null handle. -/
def cast : (T : CppType γ) → T.Value ω → Except PyFault (Option (PyValue γ ω))
  | .fundamental t, v => (cast_fundamental t v).map some
  | .string, data => (str_of (Utf8.decode data)).map some
  | .object, o => .ok o
  -- Every item is cast, and the tuple is null if one of them is.
  | .tuple Ts, vs => (cast_all Ts vs).map (Option.map .tuple)
  | .registered c, o => .ok (some (.instance_of c o))

/-- The items of a tuple, cast one by one. -/
def cast_all :
    (Ts : List (CppType γ)) → CppType.Values ω Ts → Except PyFault (Option (List (PyValue γ ω)))
  | [], _ => .ok (some [])
  | T :: Ts, (v, vs) =>
    match cast T v with
    | .error x => .error x
    | .ok o =>
      match cast_all Ts vs with
      | .error x => .error x
      | .ok os => .ok (o.bind fun o => os.map fun os => o :: os)

end

/-- `py::type::of` of a handle. -/
def type_of_handle : Option (PyValue γ ω) → Except PyFault (PyType γ)
  | some o => .ok o.type
  | none => .error .null_handle

/-- `type_handle` -/
def type_handle : ResultType γ → Except PyFault (PyType γ)
  | .void => type_of_handle (some (.none : PyValue γ Unit))
  | .value (.fundamental t) =>
    match (cast_fundamental t t.zero : Except PyFault (PyValue γ Unit)) with
    | .ok o => type_of_handle (some o)
    | .error x => .error x
  | .value .string => type_of_handle (some (.str [] : PyValue γ Unit))
  | .value .object => type_of_handle (none : Option (PyValue γ Unit))
  | .value (.tuple []) => type_of_handle (some (.none : PyValue γ Unit))
  | .value (.tuple _) => type_of_handle (some (.tuple [] : PyValue γ Unit))
  | .value (.registered c) => .ok (.cls c)

/-- `awaitable_wrapper::value_type` -/
def AwaitableWrapper.value_type (s : AwaitableWrapper (ResultType γ) ε φ) :
    Except PyFault (PyType γ) :=
  match s.ptr with
  | none => .error .awaitable_invalid
  | some p => type_handle p.value_type

/-- What `awaitable_wrapper::impl::await` makes of the result, with either executor. -/
def await_result : (T : ResultType γ) → T.Value ω → Except PyFault (Option (PyValue γ ω))
  | .void, _ => .ok (some .none)
  | .value .object, o => .ok o
  | .value T, v => cast T v

/-- The awaitable reports a class, and every object that awaiting it gives is an instance of it. -/
def ValueTypeTrue (ω : Type) (K : PyClasses γ) (T : ResultType γ) (Executor : ε) (aw : φ) : Prop :=
  ∃ t, (AwaitableWrapper.new T Executor aw).value_type = .ok t ∧
    ∀ (v : T.Value ω) (o : PyValue γ ω), await_result T v = .ok (some o) → K.isinstance o t

/-- The class of what a fundamental type is cast to. -/
def Fundamental.py_type : Fundamental → PyType γ
  | .bool => .bool
  | .char | .char8_t | .char16_t | .char32_t | .wchar_t => .str
  | .integer _ _ => .int
  | .floating => .float
  | .nullptr_t => .NoneType

/-- The class of what a type is cast to. Any object is cast as it is. -/
def CppType.py_type : CppType γ → PyType γ
  | .fundamental t => t.py_type
  | .string => .str
  | .object => .object
  | .tuple _ => .tuple
  | .registered c => .cls c

/-- What is decoded is a `str`. -/
theorem str_of_type {text : Option (List Char)} {o : PyValue γ ω} (h : str_of text = .ok o) :
    o.type = .str := by
  rcases text with - | text
  · cases h
  · obtain rfl := Except.ok.inj h
    rfl

/-- A fundamental type is cast to an object of its class. -/
theorem cast_fundamental_type {t : Fundamental} {v : t.Value} {o : PyValue γ ω}
    (h : cast_fundamental t v = .ok o) : o.type = t.py_type := by
  cases t with
  | char8_t | char16_t | char32_t | wchar_t => exact str_of_type h
  | _ =>
    obtain rfl := Except.ok.inj h
    rfl

/-- `T{}` can be cast. -/
theorem cast_fundamental_zero (t : Fundamental) :
    ∃ o : PyValue γ ω, cast_fundamental t t.zero = .ok o := by
  cases t with
  | char8_t =>
    have hzero : Utf8.decode [0] = some [Char.ofNat 0] := Utf8.decode_eq_some_iff.mpr (by decide)
    exact ⟨.str [Char.ofNat 0], by simp [cast_fundamental, Fundamental.zero, hzero, str_of]⟩
  | _ => exact ⟨_, rfl⟩

/-- An object that is put into a handle comes out of it. -/
theorem eq_ok_of_map_some {x : Except PyFault (PyValue γ ω)} {o : PyValue γ ω}
    (h : x.map some = .ok (some o)) : x = .ok o := by
  rcases x with e | o'
  · cases h
  · obtain rfl : o' = o := Option.some.inj (Except.ok.inj h)
    rfl

/-- Apart from `py::object`, a type is cast to an object of its class, if to any. -/
theorem cast_type {T : CppType γ} (hT : T ≠ .object) {v : T.Value ω} {o : PyValue γ ω}
    (h : cast T v = .ok (some o)) : o.type = T.py_type := by
  cases T with
  | fundamental t =>
    rw [cast] at h
    have hcast := eq_ok_of_map_some h
    exact cast_fundamental_type hcast
  | string =>
    rw [cast] at h
    have hdecoded := eq_ok_of_map_some h
    exact str_of_type hdecoded
  | object => exact absurd rfl hT
  | tuple Ts =>
    rcases hv : cast_all Ts v with x | - | os
    · simp [cast, hv, Except.map] at h
    · simp [cast, hv, Except.map] at h
    · obtain rfl : .tuple os = o := by simpa [cast, hv, Except.map] using h
      rfl
  | registered c =>
    obtain rfl : .instance_of c v = o := by simpa [cast] using h
    rfl

/-- Apart from `py::object` and the empty tuple, `type_handle` gives the class. -/
theorem type_handle_eq {T : CppType γ} (hobject : T ≠ .object) (htuple : T ≠ .tuple []) :
    type_handle (.value T) = .ok T.py_type := by
  cases T with
  | fundamental t =>
    obtain ⟨o, ho⟩ : ∃ o : PyValue γ Unit, cast_fundamental t t.zero = .ok o :=
      cast_fundamental_zero t
    simp only [type_handle, ho, type_of_handle, cast_fundamental_type ho, CppType.py_type]
  | string => rfl
  | object => exact absurd rfl hobject
  | tuple Ts =>
    rcases Ts with - | ⟨T, Ts⟩
    · exact absurd rfl htuple
    · rfl
  | registered c => rfl

/-- Apart from `py::object`, what is awaited is cast. -/
theorem await_result_eq {T : CppType γ} (hobject : T ≠ .object) (v : T.Value ω) :
    await_result (.value T) v = cast T v := by
  cases T with
  | object => exact absurd rfl hobject
  | _ => rfl

/-- **When `value_type` tells the truth.** For every result type: the awaitable reports a class, and
every object that awaiting it gives, whatever the value, is an instance of it, exactly if the type
is neither `py::object` nor the empty tuple. -/
theorem value_type_true_iff (ω : Type) (K : PyClasses γ) (T : ResultType γ) (Executor : ε)
    (aw : φ) :
    ValueTypeTrue ω K T Executor aw ↔ T ≠ .value .object ∧ T ≠ .value (.tuple []) := by
  constructor
  · rintro ⟨t, ht, htrue⟩
    constructor
    · rintro rfl
      cases ht
    · rintro rfl
      -- The empty tuple is said to be `None`, and is cast to a tuple.
      obtain rfl : .NoneType = t := Except.ok.inj ht
      have htuple := htrue () (.tuple []) (by simp [await_result, cast, cast_all, Except.map])
      simp [PyClasses.isinstance, PyClasses.issubclass, PyValue.type] at htuple
  · rintro ⟨hobject, htuple⟩
    cases T with
    | void =>
      refine ⟨.NoneType, rfl, ?_⟩
      intro v o h
      obtain rfl : .none = o := by simpa [await_result] using h
      exact Or.inl rfl
    | value T =>
      have hT : T ≠ .object := fun h => hobject (by rw [h])
      refine ⟨T.py_type, type_handle_eq hT fun h => htuple (by rw [h]), ?_⟩
      intro v o h
      have hcast : cast T v = .ok (some o) := (await_result_eq hT v).symm.trans h
      exact Or.inl (cast_type hT hcast)

/-- An awaitable of `py::object` reports no class; one of the empty tuple reports `NoneType`, and
awaiting it gives a tuple. -/
theorem value_type_of_object :
    (AwaitableWrapper.new (.value .object : ResultType ℕ) () ()).value_type =
        .error .null_handle ∧
      (AwaitableWrapper.new (.value (.tuple []) : ResultType ℕ) () ()).value_type =
        .ok .NoneType ∧
      await_result (.value (.tuple []) : ResultType ℕ) () =
        .ok (some (.tuple [] : PyValue ℕ ℕ)) ∧
      ¬ ValueTypeTrue ℕ ⟨fun _ => []⟩ (.value .object : ResultType ℕ) () () ∧
      ¬ ValueTypeTrue ℕ ⟨fun _ => []⟩ (.value (.tuple []) : ResultType ℕ) () () := by
  have hempty : await_result (.value (.tuple []) : ResultType ℕ) () =
      .ok (some (.tuple [] : PyValue ℕ ℕ)) := by
    simp [await_result, cast, cast_all, Except.map]
  refine ⟨rfl, rfl, hempty, ?_, ?_⟩
  · rintro ⟨t, ht, -⟩
    cases ht
  · rintro ⟨t, ht, htrue⟩
    obtain rfl : .NoneType = t := Except.ok.inj ht
    have htuple := htrue () (.tuple []) hempty
    simp [PyClasses.isinstance, PyClasses.issubclass, PyValue.type] at htuple

end AsioPy
