import AsioPy.Lib.Resumable

/-!
# The driver of Python coroutines

`adopt_async_func` runs a Python coroutine inside an asio coroutine: it takes the iterator of the
object's `__await__`, resumes it, awaits the asio operation that it yields, and resumes it with the
result. A Python coroutine is a `Resumable` process; what the awaited operations complete with is
given as a function of their number and kind.

Whatever C++ asks Python for may raise: the text of a class or of an exception, an attribute, a test
for a class. `PyErrors` is what comes of it where an exception is looked at, and `Yielded` where the
yielded object is.

`py_await` is what Python itself does with an awaited iterator, as `yield from` is defined: resume
it with the result of what it yielded, raise in it what the operation raised, and take the value of
its `StopIteration` as the result. `adopt_loop` is the loop as it stands in the source, with the
variable `in` that it carries; `adopt_loop_eq_run` says which `Driver` it is.
-/

namespace AsioPy

/-- A Python object, as far as the driver looks at it: `None`, or some other object. -/
inductive PyRef (ω : Type) where
  | none
  | object (o : ω)
  deriving DecidableEq, Repr

/-- `is_none()` -/
def PyRef.is_none {ω : Type} : PyRef ω → Bool
  | .none => true
  | .object _ => false

/-- A class of Python exceptions. -/
structure PyClass where
  /-- What `py::cast<std::string>(py::str(cls))` gives, unless it throws: a metaclass has its own
  `__str__`, and a text may have no UTF-8. -/
  text : Option String
  /-- Whether it is `StopIteration` or derived from it. -/
  is_stop_iteration : Bool
  deriving DecidableEq, Repr

/-- A Python exception. -/
structure PyException (ω : Type) where
  cls : PyClass
  /-- The message that it is raised with. -/
  what : String
  /-- The value that a `StopIteration` carries. -/
  value : Option (PyRef ω)
  has_value : cls.is_stop_iteration → value.isSome

/-- A C++ exception. -/
inductive Thrown (ω : Type) where
  /-- `pybind11::error_already_set`, which holds a Python exception. -/
  | error_already_set (e : PyException ω)
  /-- `pybind11::stop_iteration` -/
  | stop_iteration (what : String)
  /-- Any other exception. -/
  | exception (what : String)

/-- What C++ throws where it asks Python for something in vain. -/
inductive PyFailure (ω : Type) where
  | error_already_set (e : PyException ω)
  /-- `pybind11::cast_error`, as for a text that has no UTF-8, or another type derived from
  `std::exception`. -/
  | std_exception (type what : String)

/-- The failure as it is thrown. -/
def PyFailure.thrown {ω : Type} : PyFailure ω → Thrown ω
  | .error_already_set e => .error_already_set e
  | .std_exception _ what => .exception what

/-- What C++ gets to see of Python exceptions. Each of them is taken to answer alike every time. -/
structure PyErrors (ω : Type) where
  /-- What `py::cast<std::string>(py::str(e.type()))` throws where the class has no text. -/
  class_error : PyException ω → PyFailure ω
  /-- `pybind11::detail::error_string`, with which `error_already_set` is constructed, as the C
  string that `what()` gives: the class, the text of the exception and its traceback. -/
  error_string : PyException ω → Except (PyFailure ω) String
  /-- `e.value().attr("value")` -/
  value : PyException ω → Except (PyFailure ω) (PyRef ω)
  /-- An `error_already_set` that is thrown has been constructed. -/
  constructed : ∀ e e', class_error e = .error_already_set e' ∨
    error_string e = .error (.error_already_set e') ∨ value e = .error (.error_already_set e') →
    ∃ text, error_string e' = .ok text

/-- The kinds of objects that the driver's chain tests for, in its order. -/
inductive AwaitKind where
  | awaitable_wrapper
  | executor_t
  | cancellation_state_t
  | reset_cancellation_state_0_t
  | reset_cancellation_state_2_t
  | throw_if_cancelled_0_t
  | throw_if_cancelled_1_t
  deriving DecidableEq, Repr

/-- What `co_await` on an object of the kind gives in C++: a value, as the Python object that it is
cast to, or `void`. -/
@[reducible] def AwaitKind.Result (ω : Type) : AwaitKind → Type
  | .awaitable_wrapper | .executor_t | .cancellation_state_t | .throw_if_cancelled_0_t => PyRef ω
  | .reset_cancellation_state_0_t | .reset_cancellation_state_2_t | .throw_if_cancelled_1_t => Unit

/-- The result as Python sees it, `None` for `void`. -/
def AwaitKind.to_python {ω : Type} : (k : AwaitKind) → k.Result ω → PyRef ω
  | .awaitable_wrapper, v | .executor_t, v | .cancellation_state_t, v
  | .throw_if_cancelled_0_t, v => v
  | .reset_cancellation_state_0_t, _ | .reset_cancellation_state_2_t, _
  | .throw_if_cancelled_1_t, _ => .none

/-- What the awaited operations complete with, by their number and the kind awaited. -/
abbrev Completions (ω : Type) := (n : ℕ) → (k : AwaitKind) → Except (Thrown ω) (k.Result ω)

/-- An object that a coroutine yields. -/
structure Yielded (ω : Type) where
  /-- `py::isinstance`, which asks the object for its `__class__`. -/
  isinstance : AwaitKind → Except (PyFailure ω) Bool
  /-- `py::cast<std::string>(py::str(y.get_type()))` -/
  type_text : Except (PyFailure ω) String

/-- What an iterator is resumed with. -/
inductive Resumption (ω : Type) where
  /-- `__next__()` -/
  | next
  /-- `send(v)` -/
  | send (v : PyRef ω)
  /-- `throw(e)` -/
  | throw (e : Thrown ω)

/-- A Python iterator as its steps show it, each the lookup of the method and its call. It ends with
an exception; to return a value is to raise `StopIteration` with it. -/
abbrev PyIterator (σ ω : Type) := Resumable σ (Resumption ω) (Yielded ω) (PyException ω)

/-- How the adopted coroutine ends. -/
inductive Adopted (ω : Type) where
  | completed (v : PyRef ω)
  | failed (x : Thrown ω)

variable {σ ω : Type}

/-- What `py::cast<std::string>(py::str(e.type()))` comes to. -/
def PyErrors.class_text (py : PyErrors ω) (e : PyException ω) : Except (PyFailure ω) String :=
  match e.cls.text with
  | some text => .ok text
  | none => .error (py.class_error e)

/-- `pybind11::error_already_set` can be constructed for the exception. -/
def PyErrors.Constructs (py : PyErrors ω) (e : PyException ω) : Prop :=
  ∃ text, py.error_string e = .ok text

/-- What C++ throws for an exception that Python raised: `error_already_set` with it, or what its
construction throws. -/
def PyErrors.raised (py : PyErrors ω) (e : PyException ω) : PyFailure ω :=
  match py.error_string e with
  | .ok _ => .error_already_set e
  | .error f => f

/-- The same, as `adopt_async_func` sees it. -/
def PyErrors.thrown (py : PyErrors ω) (e : PyException ω) : Thrown ω := (py.raised e).thrown

/-- The `catch` clauses of `adopt_async_func`. -/
def on_exception (py : PyErrors ω) : Thrown ω → Adopted ω
  | .stop_iteration _ => .completed .none
  | .error_already_set e =>
    match py.class_text e with
    -- What is thrown here leaves `adopt_async_func`, in the place of `e`.
    | .error f => .failed f.thrown
    | .ok text =>
      if text ≠ "<class 'StopIteration'>" then .failed (.error_already_set e)
      else
        match py.value e with
        | .ok v => .completed v
        | .error f => .failed f.thrown
  | .exception what => .failed (.exception what)

/-- What the last branch of the chain throws: the text of the class is asked for first. -/
def Yielded.unsupported (y : Yielded ω) : Thrown ω :=
  match y.type_text with
  | .ok text => .exception ("Unsupported object awaited in co_spawn " ++ text)
  | .error f => f.thrown

/-- The chain of `adopt_async_func`: the `n`-th operation is awaited as the first kind that the
object is an instance of. What `in` is afterwards, or the exception that leaves the chain. -/
def await_yielded (ops : Completions ω) (n : ℕ) (y : Yielded ω) :
    Except (Thrown ω) (PyRef ω) := do
  -- `in = py::none()`, which the branches without a result leave as it is.
  let in_ := PyRef.none
  let isinstance := fun k => (y.isinstance k).mapError PyFailure.thrown
  if ← isinstance .awaitable_wrapper then
    ops n .awaitable_wrapper
  else if ← isinstance .executor_t then
    ops n .executor_t
  else if ← isinstance .cancellation_state_t then
    ops n .cancellation_state_t
  else if ← isinstance .reset_cancellation_state_0_t then
    (ops n .reset_cancellation_state_0_t).map fun _ => in_
  else if ← isinstance .reset_cancellation_state_2_t then
    (ops n .reset_cancellation_state_2_t).map fun _ => in_
  else if ← isinstance .throw_if_cancelled_0_t then
    ops n .throw_if_cancelled_0_t
  else if ← isinstance .throw_if_cancelled_1_t then
    (ops n .throw_if_cancelled_1_t).map fun _ => in_
  else
    .error y.unsupported

/-- The loop of `adopt_async_func`, for at most `fuel` resumptions: after `n` operations, with the
variable `in` of the source. The resumptions that it makes, and how it ends. -/
def adopt_loop (py : PyErrors ω) (M : PyIterator σ ω) (ops : Completions ω) :
    ℕ → ℕ → σ → PyRef ω → List (Resumption ω) × Option (Adopted ω)
  | 0, _, _, _ => ([], none)
  | fuel + 1, n, cr, in_ =>
    let r := if in_.is_none then .next else .send in_
    match M.resume cr r with
    | .ends e => ([r], some (on_exception py (py.thrown e)))
    | .yields y cr =>
      match await_yielded ops n y with
      | .error x => ([r], some (on_exception py x))
      | .ok in_ =>
        let rest := adopt_loop py M ops fuel (n + 1) cr in_
        (r :: rest.1, rest.2)

/-- An iterator that `__await__` returned. -/
structure AwaitIterator (σ ω : Type) where
  state : σ
  /-- What the first lookup of `__next__` raises. -/
  next_error : Option (PyException ω)

/-- An object that `co_spawn` is called with. -/
structure Spawned (σ ω : Type) where
  /-- `hasattr(obj, "__await__")` -/
  has_await : Bool
  /-- `hasattr(obj, "__call__")` -/
  has_call : Bool
  /-- `obj.__await__()` -/
  await : Except (PyException ω) (AwaitIterator σ ω)
  /-- `obj().__await__()`, both calls in this order. -/
  call_await : Except (PyException ω) (AwaitIterator σ ω)

/-- The iterator that `adopt_async_func` takes of the object, outside its `try` block. -/
def Spawned.iterator (obj : Spawned σ ω) : Except (PyException ω) (AwaitIterator σ ω) :=
  if !obj.has_await && obj.has_call then obj.call_await else obj.await

/-- `adopt_async_func`, for at most `fuel` resumptions of the coroutine. -/
def adopt_async_func (py : PyErrors ω) (M : PyIterator σ ω) (ops : Completions ω)
    (obj : Spawned σ ω) (fuel : ℕ) : List (Resumption ω) × Option (Adopted ω) :=
  match obj.iterator with
  | .error e => ([], some (.failed (py.thrown e)))
  | .ok cr =>
    -- `nx` is not used: what looks `__next__` up is the first resumption, in the `try` block.
    match cr.next_error with
    | some e => ([], some (on_exception py (py.thrown e)))
    | none => adopt_loop py M ops fuel 0 cr.state .none

/-- The kind that the object is awaited as: the first of the chain that it is an instance of, if no
test in front of it fails. -/
def Yielded.kind (y : Yielded ω) : Except (PyFailure ω) (Option AwaitKind) :=
  [.awaitable_wrapper, .executor_t, .cancellation_state_t, .reset_cancellation_state_0_t,
    .reset_cancellation_state_2_t, .throw_if_cancelled_0_t, .throw_if_cancelled_1_t].findM?
    y.isinstance

/-- How Python resumes an iterator with a result. -/
def Resumption.of (v : PyRef ω) : Resumption ω :=
  if v.is_none then .next else .send v

/-- How an awaited iterator ends in Python. -/
inductive AwaitEnd (ω : Type) where
  /-- With the exception that the iterator raised. -/
  | ended (e : PyException ω)
  /-- It yielded something that asio cannot await. -/
  | unsupported

/-- The value that an iterator returned, where its exception is a `StopIteration`. -/
def PyException.returned (e : PyException ω) : Option (PyRef ω) :=
  if e.cls.is_stop_iteration then e.value else none

/-- What Python resumes an awaited iterator with, where awaiting a yielded object means to await
the asio operation: the operation's result, or what it failed with. -/
def py_await (ops : Completions ω) :
    Driver (Resumption ω) (Yielded ω) (PyException ω) (AwaitEnd ω) where
  on_yield n y :=
    match y.kind with
    | .ok (some k) =>
      match ops n k with
      | .ok v => .inl (.of (k.to_python v))
      -- `yield from` hands an exception on to the iterator it is suspended in.
      | .error x => .inl (.throw x)
    | _ => .inr .unsupported
  on_end e := .ended e

/-- What `adopt_async_func` resumes a coroutine with: an operation's result. What an operation
failed with goes to the `catch` clauses. -/
def adopt_driver (py : PyErrors ω) (ops : Completions ω) :
    Driver (Resumption ω) (Yielded ω) (PyException ω) (Adopted ω) where
  on_yield n y :=
    match y.kind with
    | .error f => .inr (on_exception py f.thrown)
    | .ok none => .inr (on_exception py y.unsupported)
    | .ok (some k) =>
      match ops n k with
      | .ok v => .inl (.of (k.to_python v))
      | .error x => .inr (on_exception py x)
  on_end e := on_exception py (py.thrown e)

/-! ## What is seen of an exception -/

@[simp] theorem PyErrors.class_text_of_some {py : PyErrors ω} {e : PyException ω} {text : String}
    (h : e.cls.text = some text) : py.class_text e = .ok text := by
  simp only [class_text, h]

@[simp] theorem PyErrors.class_text_of_none {py : PyErrors ω} {e : PyException ω}
    (h : e.cls.text = none) : py.class_text e = .error (py.class_error e) := by
  simp only [class_text, h]

/-- What the construction throws is thrown instead of the exception. -/
theorem PyErrors.raised_of_error {py : PyErrors ω} {e : PyException ω} {f : PyFailure ω}
    (h : py.error_string e = .error f) : py.raised e = f := by
  simp only [raised, h]

/-- An exception that is thrown for one that Python raised has been constructed. -/
theorem PyErrors.constructs_of_raised {py : PyErrors ω} {e e' : PyException ω}
    (h : py.raised e = .error_already_set e') : py.Constructs e' := by
  rcases hstring : py.error_string e with f | text
  · rw [py.raised_of_error hstring] at h
    exact py.constructed e e' (Or.inr (Or.inl (by rw [hstring, h])))
  · obtain rfl : e = e' := by simpa [raised, hstring] using h
    exact ⟨text, hstring⟩

/-- The exception itself is thrown exactly if it can be constructed. -/
theorem PyErrors.raised_eq_self_iff {py : PyErrors ω} {e : PyException ω} :
    py.raised e = .error_already_set e ↔ py.Constructs e := by
  constructor
  · exact py.constructs_of_raised
  · rintro ⟨text, htext⟩
    simp only [raised, htext]

/-- A failure that is seen as a Python exception is one. -/
theorem PyFailure.thrown_eq_error_already_set {f : PyFailure ω} {e : PyException ω}
    (h : f.thrown = .error_already_set e) : f = .error_already_set e := by
  cases f with
  | error_already_set e' =>
    obtain rfl := Thrown.error_already_set.inj h
    rfl
  | std_exception type what => cases h

theorem PyErrors.thrown_of_error {py : PyErrors ω} {e : PyException ω} {f : PyFailure ω}
    (h : py.error_string e = .error f) : py.thrown e = f.thrown := by
  rw [thrown, py.raised_of_error h]

theorem PyErrors.thrown_of_constructs {py : PyErrors ω} {e : PyException ω}
    (h : py.Constructs e) : py.thrown e = .error_already_set e := by
  rw [thrown, raised_eq_self_iff.mpr h]
  rfl

theorem PyErrors.constructs_of_thrown {py : PyErrors ω} {e e' : PyException ω}
    (h : py.thrown e = .error_already_set e') : py.Constructs e' :=
  py.constructs_of_raised (PyFailure.thrown_eq_error_already_set h)

/-- The exception of `getattr` for a missing attribute. -/
def attribute_error (name : String) : PyException ω where
  cls := ⟨some "<class 'AttributeError'>", false⟩
  what := name
  value := none
  has_value h := by cases h

/-- Exceptions whose messages have a text, which their classes print in front of it, that carry no
traceback, and whose `value` is the one of `StopIteration`. -/
def plain_errors : PyErrors ω where
  class_error _ := .std_exception "pybind11::cast_error" "Unable to cast Python instance"
  error_string e := .ok
    ((if e.cls.text = some "<class 'TypeError'>" then "TypeError" else e.cls.text.getD "") ++
      ": " ++ e.what)
  value e :=
    match e.value with
    | some v => .ok v
    | none => .error (.error_already_set (attribute_error "value"))
  constructed _ _ _ := ⟨_, rfl⟩

/-! ## The catch clauses -/

/-- The clauses complete the adopted coroutine with a value: the exception is
`pybind11::stop_iteration`, or it prints as `StopIteration` and has the value. -/
def Thrown.CompletesWith (py : PyErrors ω) : Thrown ω → PyRef ω → Prop
  | .stop_iteration _, v => v = .none
  | .error_already_set e, v =>
    e.cls.text = some "<class 'StopIteration'>" ∧ py.value e = .ok v
  | .exception _, _ => False

/-- The clauses pass the exception on: it prints as something else than `StopIteration`, or what is
raised in looking at it is the exception again. -/
def Thrown.Passes (py : PyErrors ω) : Thrown ω → Prop
  | .stop_iteration _ => False
  | .error_already_set e =>
    match e.cls.text with
    | none => py.class_error e = .error_already_set e
    | some text =>
      text = "<class 'StopIteration'>" → py.value e = .error (.error_already_set e)
  | .exception _ => True

/-- What the clauses complete with. -/
theorem on_exception_completed_iff {py : PyErrors ω} {x : Thrown ω} {v : PyRef ω} :
    on_exception py x = .completed v ↔ x.CompletesWith py v := by
  cases x with
  | stop_iteration what => simp [on_exception, Thrown.CompletesWith, eq_comm]
  | exception what => simp [on_exception, Thrown.CompletesWith]
  | error_already_set e =>
    rcases htext : e.cls.text with - | text
    · simp [on_exception, Thrown.CompletesWith, htext]
    · by_cases hstop : text = "<class 'StopIteration'>"
      · rcases hv : py.value e with f | u <;>
          simp [on_exception, Thrown.CompletesWith, htext, hstop, hv]
      · simp [on_exception, Thrown.CompletesWith, htext, hstop]

/-- What the clauses fail with unchanged. -/
theorem on_exception_failed_iff {py : PyErrors ω} {x : Thrown ω} :
    on_exception py x = .failed x ↔ x.Passes py := by
  cases x with
  | stop_iteration what => simp [on_exception, Thrown.Passes]
  | exception what => simp [on_exception, Thrown.Passes]
  | error_already_set e =>
    have hself : ∀ f : PyFailure ω, Adopted.failed f.thrown = .failed (.error_already_set e) ↔
        f = .error_already_set e := by
      intro f
      rw [Adopted.failed.injEq]
      constructor
      · exact PyFailure.thrown_eq_error_already_set
      · rintro rfl
        rfl
    rcases htext : e.cls.text with - | text
    · simp [on_exception, Thrown.Passes, htext, hself]
    · by_cases hstop : text = "<class 'StopIteration'>"
      · rcases hv : py.value e with f | u
        · simp [on_exception, Thrown.Passes, htext, hstop, hv, hself]
        · simp [on_exception, Thrown.Passes, htext, hstop, hv]
      · simp [on_exception, Thrown.Passes, htext, hstop]

/-- The clauses complete or fail. -/
theorem on_exception_cases (py : PyErrors ω) (x : Thrown ω) :
    (∃ v, on_exception py x = .completed v) ∨ ∃ x', on_exception py x = .failed x' := by
  rcases on_exception py x with v | x'
  · exact Or.inl ⟨v, rfl⟩
  · exact Or.inr ⟨x', rfl⟩

/-- What the clauses fail with is the exception, or what was thrown in looking at it. -/
theorem on_exception_failed_cases {py : PyErrors ω} {x x' : Thrown ω}
    (h : on_exception py x = .failed x') :
    x' = x ∨ ∃ e f, x = .error_already_set e ∧ x' = f.thrown ∧
      (py.class_error e = f ∨ py.value e = .error f) := by
  cases x with
  | stop_iteration what => cases h
  | exception what => exact Or.inl (Adopted.failed.inj h).symm
  | error_already_set e =>
    rcases htext : e.cls.text with - | text
    · simp only [on_exception, py.class_text_of_none htext, Adopted.failed.injEq] at h
      exact Or.inr ⟨e, _, rfl, h.symm, Or.inl rfl⟩
    · by_cases hstop : text = "<class 'StopIteration'>"
      · rcases hv : py.value e with f | u
        · simp only [on_exception, py.class_text_of_some htext, hstop, ne_eq, not_true, if_false,
            hv, Adopted.failed.injEq] at h
          exact Or.inr ⟨e, f, rfl, h.symm, Or.inr hv⟩
        · simp [on_exception, htext, hstop, hv] at h
      · simp only [on_exception, py.class_text_of_some htext, ne_eq, hstop, not_false_eq_true,
          if_true, Adopted.failed.injEq] at h
        exact Or.inl h.symm

/-! ## The chain and the loop -/

/-- What comes of a search through the chain: the failure of a test is thrown, and where none
passes, `x`. -/
def awaited_as (x : Thrown ω) (await : AwaitKind → Except (Thrown ω) (PyRef ω)) :
    Except (PyFailure ω) (Option AwaitKind) → Except (Thrown ω) (PyRef ω)
  | .error f => .error f.thrown
  | .ok none => .error x
  | .ok (some k) => await k

/-- A search through the chain as a chain of tests. -/
theorem awaited_as_cons (x : Thrown ω) (await : AwaitKind → Except (Thrown ω) (PyRef ω))
    (p : AwaitKind → Except (PyFailure ω) Bool) (k : AwaitKind) (ks : List AwaitKind) :
    awaited_as x await ((k :: ks).findM? p) = (do
      if ← (p k).mapError PyFailure.thrown then await k
      else awaited_as x await (ks.findM? p)) := by
  rw [List.findM?]
  rcases p k with f | - | -
  · rfl
  · rfl
  · rfl

/-- What the chain does, by the kind of the object. -/
theorem await_yielded_eq (ops : Completions ω) (n : ℕ) (y : Yielded ω) :
    await_yielded ops n y =
      match y.kind with
      | .error f => .error f.thrown
      | .ok none => .error y.unsupported
      | .ok (some k) => (ops n k).map k.to_python := by
  have hmap : ∀ x : Except (Thrown ω) (PyRef ω), x.map (fun v => v) = x := by
    rintro (x | v) <;> rfl
  -- A branch with a result gives it as it is, one without gives `None`.
  have hwrapper : (ops n .awaitable_wrapper).map (AwaitKind.to_python .awaitable_wrapper) =
      ops n .awaitable_wrapper := hmap _
  have hexecutor : (ops n .executor_t).map (AwaitKind.to_python .executor_t) =
      ops n .executor_t := hmap _
  have hstate : (ops n .cancellation_state_t).map (AwaitKind.to_python .cancellation_state_t) =
      ops n .cancellation_state_t := hmap _
  have hthrow : (ops n .throw_if_cancelled_0_t).map (AwaitKind.to_python .throw_if_cancelled_0_t) =
      ops n .throw_if_cancelled_0_t := hmap _
  have hchain : await_yielded ops n y =
      awaited_as y.unsupported (fun k => (ops n k).map k.to_python) y.kind := by
    unfold await_yielded Yielded.kind
    simp only [awaited_as_cons, hwrapper, hexecutor, hstate, hthrow]
    rfl
  rw [hchain]
  rcases y.kind with f | - | k <;> rfl

/-- How the driver answers is what the chain gives. -/
theorem on_yield_eq (py : PyErrors ω) (ops : Completions ω) (n : ℕ) (y : Yielded ω) :
    (adopt_driver py ops).on_yield n y =
      match await_yielded ops n y with
      | .error x => .inr (on_exception py x)
      | .ok v => .inl (.of v) := by
  rw [await_yielded_eq]
  rcases hk : y.kind with f | - | k
  · simp only [adopt_driver, hk]
  · simp only [adopt_driver, hk]
  · rcases hop : ops n k with x | v
    · simp only [adopt_driver, hk, hop, Except.map]
    · simp only [adopt_driver, hk, hop, Except.map]

/-- **The loop is a driver.** What the loop carries in `in` is what it resumes the coroutine with
next, and nothing else is carried over. -/
theorem adopt_loop_eq_run (py : PyErrors ω) (M : PyIterator σ ω) (ops : Completions ω)
    (fuel n : ℕ) (cr : σ) (in_ : PyRef ω) :
    adopt_loop py M ops fuel n cr in_ = M.run (adopt_driver py ops) fuel n cr (.of in_) := by
  induction fuel generalizing n cr in_ with
  | zero => rfl
  | succ fuel ih =>
    rw [adopt_loop]
    show (match M.resume cr (.of in_) with | .ends e => _ | .yields y cr => _) = _
    rcases hres : M.resume cr (.of in_) with ⟨y, cr'⟩ | e
    · have hD := on_yield_eq py ops n y
      rcases hawait : await_yielded ops n y with x | v
      · -- The chain throws out of the loop.
        simp only [hawait] at hD ⊢
        rw [Resumable.run_gives_up hres hD]
        rfl
      · -- What it gives is the next `in`.
        simp only [hawait] at hD ⊢
        rw [Resumable.run_yields hres hD, ← ih]
        rfl
    · rw [Resumable.run_ends hres]
      rfl

end AsioPy
