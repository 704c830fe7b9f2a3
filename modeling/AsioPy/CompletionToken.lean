import AsioPy.Exceptions
import Mathlib.Data.List.Infix

/-!
# The callback adapter

`wrap_cb` of `completion_token.hpp` hands the exception and the result of an operation to a Python
callable. Where there is no result it also serves callables of one parameter: it calls with both,
and where that raises a `TypeError` about the number of arguments, it calls again with the
exception alone. It knows that error by its text, which any error from inside the body may have
too; and what it cannot get a text of, it replaces. `body_once_iff` says which bodies run once and
keep their errors.
-/

namespace AsioPy

variable {σ ω : Type}

/-- What the adapter uses of the interpreter and of pybind11. -/
structure PyInterpreter (ω : Type) extends PyErrors ω where
  /-- `pybind11::print` while an error is set. -/
  print : PrintWithError ω
  /-- The registered exception translators. -/
  translators : List (Translator ω)

/-- An argument of a callback: an object, or a tuple, whose items may be null pointers. -/
inductive PyArg (ω : Type) where
  | item (i : PyItem ω)
  | tuple (items : List (Option (PyItem ω)))

/-- A Python callable, with the state that its body may change. -/
structure PyCallable (σ ω : Type) where
  /-- What a call with so many positional arguments raises before the body runs, if anything. -/
  refuses : ℕ → Option (PyException ω)
  body : σ → List (PyArg ω) → Except (PyException ω) Unit × σ

/-- What has become of a callable: every call, and those that started the body. -/
structure CallLog (σ ω : Type) where
  state : σ
  calls : List (List (PyArg ω))
  started : List (List (PyArg ω))

/-- No calls yet. -/
def CallLog.new (s : σ) : CallLog σ ω := ⟨s, [], []⟩

/-- `type_caster<std::exception_ptr>::cast` -/
def cast_exception_ptr (py : PyInterpreter ω) (ex : Option (CppException ω)) :
    Except (CppException ω) (PyItem ω) :=
  match ex with
  | none => .ok (.ref .none)
  | some ex => translate_exception py.toPyErrors py.print py.translators (some ex)

/-- A call of a Python function from C++, `func(args...)`. -/
def PyCallable.call (py : PyInterpreter ω) (func : PyCallable σ ω) (args : List (PyArg ω))
    (t : CallLog σ ω) : Except (CppException ω) Unit × CallLog σ ω :=
  match func.refuses args.length with
  | some x => (.error (py.cpp x), { t with calls := t.calls ++ [args] })
  | none =>
    let r := func.body t.state args
    (r.1.mapError py.cpp, ⟨r.2, t.calls ++ [args], t.started ++ [args]⟩)

/-- `func(e, args...)`: the exception pointer is cast before the call. -/
def PyCallable.call_with (py : PyInterpreter ω) (func : PyCallable σ ω)
    (e : Option (CppException ω)) (args : List (PyArg ω)) (t : CallLog σ ω) :
    Except (CppException ω) Unit × CallLog σ ω :=
  match cast_exception_ptr py e with
  | .error x => (.error x, t)
  | .ok pe => func.call py (.item pe :: args) t

/-- `s.find(text) != npos` -/
def find (s text : String) : Bool := decide (text.toList <:+: s.toList)

/-- The text by which the adapter knows a callable of one parameter. -/
def takes_one : String := "takes 1 positional argument but 2 were given"

/-- `error_already_set::what()`: the text with which it was constructed. -/
def PyErrors.what (py : PyErrors ω) (e : PyException ω) : String :=
  match py.error_string e with
  | .ok text => text
  -- There is no `error_already_set` of this exception.
  | .error _ => ""

/-- `wrap_cb::operator()(std::exception_ptr e, pybind11::object obj)` -/
def wrap_cb (py : PyInterpreter ω) (func : PyCallable σ ω) (e : Option (CppException ω))
    (obj : Option (PyRef ω)) (t : CallLog σ ω) : Except (CppException ω) Unit × CallLog σ ω :=
  -- `if (!obj) obj = py::none();`
  let obj := obj.getD .none
  if obj.is_none then
    match func.call_with py e [.item (.ref obj)] t with
    | (.error (.type_error what), t) =>
      if find what takes_one then func.call_with py e [] t else (.error (.type_error what), t)
    | (.error (.error_already_set es), t) =>
      match py.class_text es with
      -- What is thrown here leaves the adapter, in the place of `es`.
      | .error f => (.error f.cpp, t)
      | .ok text =>
        if text ≠ "<class 'TypeError'>" then (.error (.error_already_set es), t)
        else if find (py.what es) takes_one then func.call_with py e [] t
        else (.error (.error_already_set es), t)
    | r => r
  else func.call_with py e [.item (.ref obj)] t

/-- `wrap_cb::operator()(Args&&... args)`, for the one argument of `as_tuple`. -/
def wrap_cb_args (py : PyInterpreter ω) (func : PyCallable σ ω)
    (arg : Except (CppException ω) (PyArg ω)) (t : CallLog σ ω) :
    Except (CppException ω) Unit × CallLog σ ω :=
  match arg with
  | .error x => (.error x, t)
  | .ok arg => func.call py [arg] t

/-- The exception is taken for one about the number of arguments. -/
def PyErrors.takes_for_arity (py : PyErrors ω) (x : PyException ω) : Bool :=
  x.cls.text == some "<class 'TypeError'>" && find (py.what x) takes_one

/-- The adapter passes the exception on: its class has a text, unless what is raised in asking for
it is the exception again, and it is not taken for one about the number of arguments. -/
def PyErrors.PassesOn (py : PyErrors ω) (x : PyException ω) : Prop :=
  (x.cls.text = none → py.class_error x = .error_already_set x) ∧ py.takes_for_arity x = false

/-- What every turn of the loop of `translate_exception` throws is derived from `std::exception`. -/
def ThrowsStd (print : PrintWithError ω) : List (Translator ω) → CppException ω → Prop
  | [], _ => True
  | translator :: rest, ex =>
    ∀ x, try_translator print translator ex = .error x → x.is_std = true ∧ ThrowsStd print rest x

/-- The exception pointers that can be cast: where the error that a translator sets stays set,
`error_already_set` can be constructed for it. -/
def PyInterpreter.Castable (py : PyInterpreter ω) : Option (CppException ω) → Prop
  | none => True
  | some (.error_already_set _) => True
  | some ex => ThrowsStd py.print py.translators ex ∧
      (py.print = .keeps → ∀ e, Accepted py.translators ex e → py.Constructs e)

/-- A completion whose callback runs its body once at most, and where it takes two arguments, is
called with them, once, and has its exception propagated. -/
structure BodyOnce (py : PyInterpreter ω) (func : PyCallable σ ω) (e : Option (CppException ω))
    (obj : Option (PyRef ω)) (s : σ) : Prop where
  at_most_once : (wrap_cb py func e obj (.new s)).2.started.length ≤ 1
  accepts : func.refuses 2 = none → ∃ pe, cast_exception_ptr py e = .ok pe ∧
    (wrap_cb py func e obj (.new s)).2.calls = [[.item pe, .item (.ref (obj.getD .none))]] ∧
    (wrap_cb py func e obj (.new s)).1 =
      (func.body s [.item pe, .item (.ref (obj.getD .none))]).1.mapError .error_already_set

/-- C++ throws every error of the body as it is, and the adapter passes it on. -/
def ErrorsPass (py : PyInterpreter ω) (func : PyCallable σ ω) (e : Option (CppException ω))
    (obj : Option (PyRef ω)) (s : σ) : Prop :=
  func.refuses 2 = none → py.Castable e ∧ ∀ pe x, cast_exception_ptr py e = .ok pe →
    (func.body s [.item pe, .item (.ref (obj.getD .none))]).1 = .error x →
    py.Constructs x ∧ (obj.getD .none = .none → py.PassesOn x)

/-- The loop returns exactly if all that is thrown in it is derived from `std::exception`. -/
theorem throwsStd_iff (print : PrintWithError ω) (translators : List (Translator ω))
    (ex : CppException ω) :
    ThrowsStd print translators ex ↔ ∃ r, translate_loop print translators ex = .ok r := by
  induction translators generalizing ex with
  | nil => simp [ThrowsStd, translate_loop]
  | cons translator rest ih =>
    unfold ThrowsStd translate_loop
    rcases try_translator print translator ex with x | e
    · by_cases hstd : x.is_std
      · simp [hstd, ih]
      · simp [hstd]
    · simp

/-- What leaves the loop is not derived from `std::exception`. -/
theorem translate_loop_error {print : PrintWithError ω} {translators : List (Translator ω)}
    {ex x : CppException ω} (h : translate_loop print translators ex = .error x) :
    x.is_std = false := by
  induction translators generalizing ex with
  | nil => cases h
  | cons translator rest ih =>
    unfold translate_loop at h
    rcases ht : try_translator print translator ex with y | e
    · by_cases hstd : y.is_std
      · simp only [ht, hstd, if_true] at h
        exact ih h
      · simp only [ht, hstd, Bool.false_eq_true, if_false, Except.error.injEq] at h
        simpa [← h] using hstd
    · simp [ht] at h

/-- Where the error stays set, what a turn throws is what the translator rethrows. -/
theorem throwsStd_keeps {translators : List (Translator ω)} {ex : CppException ω} :
    ThrowsStd .keeps translators ex ↔ RethrowsStd translators ex := by
  induction translators generalizing ex with
  | nil => exact Iff.rfl
  | cons translator rest ih =>
    unfold ThrowsStd RethrowsStd
    simp only [try_translator_keeps]
    rcases translator ex with e | x
    · simp
    · simp [ih]

/-- The loop is left with the error that is accepted exactly if the error stays set, where all that
is thrown is derived from `std::exception`. -/
theorem translate_loop_set_iff {print : PrintWithError ω} {translators : List (Translator ω)}
    {ex : CppException ω} (hthrows : ThrowsStd print translators ex) {e : PyException ω} :
    translate_loop print translators ex = .ok (.set (some e)) ↔
      print = .keeps ∧ Accepted translators ex e := by
  constructor
  · intro h
    obtain rfl := keeps_of_translated h
    exact ⟨rfl, (translate_loop_keeps_iff.mp h).2⟩
  · rintro ⟨rfl, haccepted⟩
    exact translate_loop_keeps_iff.mpr ⟨throwsStd_keeps.mp hthrows, haccepted⟩

/-- The value of the error that is set can be taken exactly if it can be constructed. -/
theorem error_value_ok_iff {py : PyErrors ω} {error : Option (PyException ω)} :
    (∃ r, py.error_value error = .ok r) ↔ ∀ e, error = some e → py.Constructs e := by
  rcases error with - | e
  · simp [PyErrors.error_value]
  · rcases hstring : py.error_string e with f | text
    · simp [PyErrors.error_value, PyErrors.Constructs, hstring]
    · simp [PyErrors.error_value, PyErrors.Constructs, hstring]

/-- A pointer can be cast exactly if it is `Castable`. -/
theorem castable_iff (py : PyInterpreter ω) (e : Option (CppException ω)) :
    py.Castable e ↔ ∃ pe, cast_exception_ptr py e = .ok pe := by
  rcases e with - | x
  · exact iff_of_true trivial ⟨_, rfl⟩
  obtain ⟨e, rfl⟩ | hx := x.python_or
  · exact iff_of_true trivial ⟨_, rfl⟩
  · have hcast : py.Castable (some x) ↔ ThrowsStd py.print py.translators x ∧
        (py.print = .keeps → ∀ e, Accepted py.translators x e → py.Constructs e) := by
      cases x with
      | error_already_set e => exact absurd rfl (hx e)
      | _ => exact Iff.rfl
    simp only [hcast, cast_exception_ptr, translate_exception_some hx]
    by_cases hthrows : ThrowsStd py.print py.translators x
    · have hset := fun e => translate_loop_set_iff hthrows (e := e)
      obtain ⟨r, hloop⟩ := (throwsStd_iff py.print py.translators x).mp hthrows
      rw [hloop] at hset ⊢
      rcases r with - | error
      · -- No translator accepts.
        refine iff_of_true ⟨hthrows, fun hkeeps e he => ?_⟩ ⟨_, rfl⟩
        cases (hset e).mpr ⟨hkeeps, he⟩
      · simp only [Except.ok.injEq, TranslateEnd.set.injEq] at hset
        simp only [error_value_ok_iff, hset, and_imp, hthrows, true_and]
        exact forall_comm
    · have hleft : ¬ ∃ r, translate_loop py.print py.translators x = .ok r :=
        fun h => hthrows ((throwsStd_iff _ _ _).mpr h)
      rcases hloop : translate_loop py.print py.translators x with y | r
      · simp [hthrows]
      · exact absurd ⟨r, hloop⟩ hleft

/-- A cast does not throw `pybind11::type_error`. -/
theorem cast_exception_ptr_ne_type_error {py : PyInterpreter ω} {e : Option (CppException ω)}
    (what : String) : cast_exception_ptr py e ≠ .error (.type_error what) := by
  rcases e with - | x
  · exact fun h => by cases h
  obtain ⟨e, rfl⟩ | hx := x.python_or
  · exact fun h => by cases h
  · simp only [cast_exception_ptr, translate_exception_some hx]
    rcases hloop : translate_loop py.print py.translators x with y | - | error
    · rintro h
      obtain rfl := Except.error.inj h
      cases translate_loop_error hloop
    · exact fun h => by cases h
    · rcases error with - | e
      · exact fun h => by cases h
      · rcases hstring : py.error_string e with f | text
        · simp only [PyErrors.error_value, hstring]
          exact fun h => f.cpp_ne_type_error what (Except.error.inj h)
        · simp [PyErrors.error_value, hstring]

section

variable {py : PyInterpreter ω} {func : PyCallable σ ω} {e : Option (CppException ω)}

/-- A call that is refused. -/
theorem PyCallable.call_refused {args : List (PyArg ω)} {x : PyException ω}
    (h : func.refuses args.length = some x) (t : CallLog σ ω) :
    func.call py args t = (.error (py.cpp x), { t with calls := t.calls ++ [args] }) := by
  rw [PyCallable.call, h]

/-- A call that is accepted. -/
theorem PyCallable.call_accepted {args : List (PyArg ω)} (h : func.refuses args.length = none)
    (t : CallLog σ ω) :
    func.call py args t = ((func.body t.state args).1.mapError py.cpp,
      ⟨(func.body t.state args).2, t.calls ++ [args], t.started ++ [args]⟩) := by
  rw [PyCallable.call, h]

/-- Every call is in the log. -/
theorem PyCallable.calls_call (py : PyInterpreter ω) (func : PyCallable σ ω)
    (args : List (PyArg ω)) (t : CallLog σ ω) :
    (func.call py args t).2.calls = t.calls ++ [args] := by
  rcases h : func.refuses args.length with - | x
  · rw [PyCallable.call_accepted h]
  · rw [PyCallable.call_refused h]

/-- A call starts the body at most once. -/
theorem PyCallable.started_call (py : PyInterpreter ω) (func : PyCallable σ ω)
    (args : List (PyArg ω)) (t : CallLog σ ω) :
    (func.call py args t).2.started.length ≤ t.started.length + 1 := by
  rcases h : func.refuses args.length with - | x
  · rw [PyCallable.call_accepted h]
    simp
  · rw [PyCallable.call_refused h]
    exact Nat.le_succ _

/-- A call throws what C++ makes of a Python exception, if anything. -/
theorem PyCallable.call_error {args : List (PyArg ω)} {t : CallLog σ ω} {x : CppException ω}
    (h : (func.call py args t).1 = .error x) : ∃ e, x = py.cpp e := by
  rcases href : func.refuses args.length with - | e
  · rw [PyCallable.call_accepted href] at h
    rcases hbody : (func.body t.state args).1 with e | u
    · rw [hbody] at h
      exact ⟨e, (Except.error.inj h).symm⟩
    · rw [hbody] at h
      cases h
  · rw [PyCallable.call_refused href] at h
    exact ⟨e, (Except.error.inj h).symm⟩

/-- The exception is cast, and the callable called. -/
theorem PyCallable.call_with_ok {pe : PyItem ω} (h : cast_exception_ptr py e = .ok pe)
    (args : List (PyArg ω)) (t : CallLog σ ω) :
    func.call_with py e args t = func.call py (.item pe :: args) t := by
  rw [PyCallable.call_with, h]

/-- Where the exception cannot be cast, nothing is called. -/
theorem PyCallable.call_with_error {x : CppException ω} (h : cast_exception_ptr py e = .error x)
    (args : List (PyArg ω)) (t : CallLog σ ω) :
    func.call_with py e args t = (.error x, t) := by
  rw [PyCallable.call_with, h]

/-- Neither the cast nor the call throws `pybind11::type_error`. -/
theorem PyCallable.call_with_ne_type_error (args : List (PyArg ω)) (t : CallLog σ ω)
    (what : String) : (func.call_with py e args t).1 ≠ .error (.type_error what) := by
  rcases hpe : cast_exception_ptr py e with x | pe
  · rw [PyCallable.call_with_error hpe]
    rintro h
    obtain rfl := Except.error.inj h
    exact cast_exception_ptr_ne_type_error what hpe
  · rw [PyCallable.call_with_ok hpe]
    intro h
    obtain ⟨x, hx⟩ := PyCallable.call_error h
    exact (py.raised x).cpp_ne_type_error what hx.symm

/-- With a result, the adapter calls once. -/
theorem wrap_cb_object (py : PyInterpreter ω) (func : PyCallable σ ω)
    (e : Option (CppException ω)) {obj : Option (PyRef ω)} (hobj : obj.getD .none ≠ .none)
    (t : CallLog σ ω) :
    wrap_cb py func e obj t = func.call_with py e [.item (.ref (obj.getD .none))] t := by
  have hnone : (obj.getD .none).is_none = false := by
    rcases hr : obj.getD .none with - | o
    · exact absurd hr hobj
    · rfl
  simp [wrap_cb, hnone]

variable {obj : Option (PyRef ω)} {t : CallLog σ ω}

/-- Without a result, an error of the first call that the adapter passes on reaches the caller, and
so does success. -/
theorem wrap_cb_passes (hobj : obj.getD .none = .none)
    (h : ∀ x, (func.call_with py e [.item (.ref .none)] t).1 = .error (.error_already_set x) →
      py.PassesOn x) :
    wrap_cb py func e obj t = func.call_with py e [.item (.ref .none)] t := by
  have htype : ∀ what, (func.call_with py e [.item (.ref .none)] t).1 ≠
      .error (.type_error what) := PyCallable.call_with_ne_type_error _ t
  unfold wrap_cb
  simp only [hobj, PyRef.is_none, if_true]
  rcases hcall : func.call_with py e [.item (.ref .none)] t with ⟨x | u, t'⟩
  · cases x with
    | error_already_set x =>
      obtain ⟨hclass, htakes⟩ := h x (by rw [hcall])
      rcases htext : x.cls.text with - | text
      · -- What is raised in asking for the class is the exception again.
        simp [htext, hclass htext, PyFailure.cpp]
      · by_cases htype : text = "<class 'TypeError'>"
        · have hfind : find (py.what x) takes_one = false := by
            simpa [PyErrors.takes_for_arity, htext, htype] using htakes
          simp [htext, htype, hfind]
        · simp [htext, htype]
    | type_error what =>
      rw [hcall] at htype
      exact absurd rfl (htype what)
    | _ => rfl
  · rfl

/-- Without a result, an error of the first call whose class has no text is replaced. -/
theorem wrap_cb_replaces {x : PyException ω} (hobj : obj.getD .none = .none)
    (hfirst : (func.call_with py e [.item (.ref .none)] t).1 = .error (.error_already_set x))
    (hx : x.cls.text = none) :
    wrap_cb py func e obj t =
      (.error (py.class_error x).cpp, (func.call_with py e [.item (.ref .none)] t).2) := by
  unfold wrap_cb
  simp only [hobj, PyRef.is_none, if_true]
  rcases hcall : func.call_with py e [.item (.ref .none)] t with ⟨r, t'⟩
  rw [hcall] at hfirst
  obtain rfl : r = .error (.error_already_set x) := hfirst
  simp [hx]

/-- Without a result, an error of the first call that is taken for one about the arguments makes the
adapter call again. -/
theorem wrap_cb_retries {x : PyException ω} (hobj : obj.getD .none = .none)
    (hfirst : (func.call_with py e [.item (.ref .none)] t).1 = .error (.error_already_set x))
    (hx : py.takes_for_arity x) :
    wrap_cb py func e obj t =
      func.call_with py e [] (func.call_with py e [.item (.ref .none)] t).2 := by
  obtain ⟨hcls, hfind⟩ : x.cls.text = some "<class 'TypeError'>" ∧
      find (py.what x) takes_one = true := by
    simpa [PyErrors.takes_for_arity] using hx
  unfold wrap_cb
  simp only [hobj, PyRef.is_none, if_true]
  rcases hcall : func.call_with py e [.item (.ref .none)] t with ⟨r, t'⟩
  rw [hcall] at hfirst
  obtain rfl : r = .error (.error_already_set x) := hfirst
  simp [hcls, hfind]

/-- Without a result, the adapter calls what the first call calls, or calls again. -/
theorem wrap_cb_none_cases (py : PyInterpreter ω) (func : PyCallable σ ω)
    (e : Option (CppException ω)) (hobj : obj.getD .none = .none) (t : CallLog σ ω) :
    (wrap_cb py func e obj t).2 = (func.call_with py e [.item (.ref .none)] t).2 ∨
      wrap_cb py func e obj t =
        func.call_with py e [] (func.call_with py e [.item (.ref .none)] t).2 := by
  by_cases hthrows : ∃ x, (func.call_with py e [.item (.ref .none)] t).1 =
      .error (.error_already_set x) ∧ ¬ py.PassesOn x
  · obtain ⟨x, hx, hnot⟩ := hthrows
    rcases htext : x.cls.text with - | text
    · rw [wrap_cb_replaces hobj hx htext]
      exact Or.inl rfl
    · have htakes : py.takes_for_arity x := by
        by_contra htakes
        exact hnot ⟨by simp [htext], by simpa using htakes⟩
      exact Or.inr (wrap_cb_retries hobj hx htakes)
  · rw [wrap_cb_passes hobj fun x hx => not_not.mp fun hnot => hthrows ⟨x, hx, hnot⟩]
    exact Or.inl rfl

end

/-- The first call of a callback that accepts two arguments runs its body. -/
theorem call_with_accepted {py : PyInterpreter ω} {func : PyCallable σ ω}
    {e : Option (CppException ω)} {pe : PyItem ω} (hpe : cast_exception_ptr py e = .ok pe)
    (haccepts : func.refuses 2 = none) (r : PyRef ω) (s : σ) :
    func.call_with py e [.item (.ref r)] (.new s) =
      ((func.body s [.item pe, .item (.ref r)]).1.mapError py.cpp,
        ⟨(func.body s [.item pe, .item (.ref r)]).2, [[.item pe, .item (.ref r)]],
          [[.item pe, .item (.ref r)]]⟩) := by
  rw [PyCallable.call_with_ok hpe, PyCallable.call_accepted haccepts]
  rfl

/-- What C++ throws for an exception that it can construct is that exception. -/
theorem mapError_cpp_of_constructs {py : PyErrors ω} {r : Except (PyException ω) Unit}
    (h : ∀ x, r = .error x → py.Constructs x) :
    r.mapError py.cpp = r.mapError .error_already_set := by
  rcases r with x | u
  · have hraised := PyErrors.raised_eq_self_iff.mpr (h x rfl)
    simp [Except.mapError, PyErrors.cpp, hraised, PyFailure.cpp]
  · rfl

/-- A callback that accepts two arguments is called once, and what its body raises is propagated,
where its errors pass. -/
theorem wrap_cb_accepted {py : PyInterpreter ω} {func : PyCallable σ ω}
    {e : Option (CppException ω)} {obj : Option (PyRef ω)} {s : σ}
    (h : ErrorsPass py func e obj s) (haccepts : func.refuses 2 = none) :
    ∃ pe, cast_exception_ptr py e = .ok pe ∧
      wrap_cb py func e obj (.new s) =
        ((func.body s [.item pe, .item (.ref (obj.getD .none))]).1.mapError .error_already_set,
          ⟨(func.body s [.item pe, .item (.ref (obj.getD .none))]).2,
            [[.item pe, .item (.ref (obj.getD .none))]],
            [[.item pe, .item (.ref (obj.getD .none))]]⟩) := by
  obtain ⟨hcastable, hbody⟩ := h haccepts
  obtain ⟨pe, hpe⟩ := (castable_iff py e).mp hcastable
  refine ⟨pe, hpe, ?_⟩
  have hcall := call_with_accepted hpe haccepts (obj.getD .none) s
  rw [mapError_cpp_of_constructs fun x hx => (hbody pe x hpe hx).1] at hcall
  by_cases hobj : obj.getD .none = .none
  · rw [← hcall, hobj]
    rw [hobj] at hcall
    refine wrap_cb_passes hobj fun x hx => ?_
    rw [hcall] at hx
    rcases hresult : (func.body s [.item pe, .item (.ref .none)]).1 with y | u
    · obtain rfl : y = x := by simpa [hresult, Except.mapError] using hx
      exact (hbody pe y hpe (by rw [hobj, hresult])).2 hobj
    · simp [hresult, Except.mapError] at hx
  · rw [wrap_cb_object py func e hobj, hcall]

/-- The body of a callback that refuses two arguments starts only in the second call. -/
theorem started_of_refused (py : PyInterpreter ω) {func : PyCallable σ ω}
    (e : Option (CppException ω)) (obj : Option (PyRef ω)) (s : σ) {x : PyException ω}
    (hrefuses : func.refuses 2 = some x) :
    (wrap_cb py func e obj (.new s)).2.started.length ≤ 1 := by
  have hfirst : ∀ o, (func.call_with py e [.item (.ref o)] (.new s)).2.started = [] := by
    intro o
    rcases hpe : cast_exception_ptr py e with y | pe
    · rw [PyCallable.call_with_error hpe]
      rfl
    · rw [PyCallable.call_with_ok hpe, PyCallable.call_refused hrefuses]
      rfl
  by_cases hobj : obj.getD .none = .none
  · obtain hone | htwo := wrap_cb_none_cases py func e hobj (.new s)
    · rw [hone, hfirst]
      exact Nat.zero_le 1
    · rw [htwo]
      rcases hpe : cast_exception_ptr py e with y | pe
      · simp [PyCallable.call_with_error hpe, CallLog.new]
      · have hsecond := func.started_call py [.item pe]
          (func.call_with py e [.item (.ref .none)] (.new s)).2
        rw [hfirst] at hsecond
        rwa [PyCallable.call_with_ok hpe]
  · rw [wrap_cb_object py func e hobj, hfirst]
    exact Nat.zero_le 1

/-- Without a result, a callback is called once and an error reaches the caller only if the adapter
does not call again, and the error is the one that was thrown, passed on, or was raised in asking
for its class. -/
theorem passesOn_of_once {py : PyInterpreter ω} {func : PyCallable σ ω}
    {e : Option (CppException ω)} {obj : Option (PyRef ω)} {t t' : CallLog σ ω}
    {c : CppException ω} {x : PyException ω} (hobj : obj.getD .none = .none)
    (hfirst : func.call_with py e [.item (.ref .none)] t = (.error c, t'))
    (hcalls : (wrap_cb py func e obj t).2.calls = t'.calls)
    (hresult : (wrap_cb py func e obj t).1 = .error (.error_already_set x))
    (hsecond : (func.call_with py e [] t').2.calls ≠ t'.calls) :
    ∃ y, c = .error_already_set y ∧ (y = x ∧ py.PassesOn x ∨
      y.cls.text = none ∧ py.class_error y = .error_already_set x) := by
  by_cases hpasses : ∀ y, c = .error_already_set y → py.PassesOn y
  · rw [wrap_cb_passes hobj fun y hy => hpasses y (by simpa [hfirst] using hy), hfirst] at hresult
    obtain rfl := Except.error.inj hresult
    exact ⟨x, rfl, Or.inl ⟨rfl, hpasses x rfl⟩⟩
  · obtain ⟨y, rfl, hnot⟩ : ∃ y, c = .error_already_set y ∧ ¬ py.PassesOn y := by
      simpa using hpasses
    have hthrows : (func.call_with py e [.item (.ref .none)] t).1 =
        .error (.error_already_set y) := by rw [hfirst]
    rcases htext : y.cls.text with - | text
    · rw [wrap_cb_replaces hobj hthrows htext] at hresult
      exact ⟨y, rfl, Or.inr ⟨htext, PyFailure.cpp_eq_error_already_set.mp
        (Except.error.inj hresult)⟩⟩
    · -- The adapter would have called again.
      have htakes : py.takes_for_arity y := by
        by_contra htakes
        exact hnot ⟨by simp [htext], by simpa using htakes⟩
      rw [wrap_cb_retries hobj hthrows htakes, hfirst] at hcalls
      exact absurd hcalls hsecond

/-- Where a callback that accepts two arguments is called once and has its exception propagated, its
errors pass. -/
theorem BodyOnce.errorsPass {py : PyInterpreter ω} {func : PyCallable σ ω}
    {e : Option (CppException ω)} {obj : Option (PyRef ω)} {s : σ}
    (h : BodyOnce py func e obj s) : ErrorsPass py func e obj s := by
  intro haccepts
  obtain ⟨pe, hpe, hcalls, hresult⟩ := h.accepts haccepts
  refine ⟨(castable_iff py e).mpr ⟨pe, hpe⟩, ?_⟩
  intro pe' x hpe' hbody
  obtain rfl : pe = pe' := Except.ok.inj (hpe.symm.trans hpe')
  have hfirst := call_with_accepted hpe haccepts (obj.getD .none) s
  simp only [hbody, Except.mapError] at hfirst hresult
  by_cases hobj : obj.getD .none = .none
  · rw [hobj] at hfirst hcalls
    have hsecond : (func.call_with py e [] ⟨(func.body s [.item pe, .item (.ref .none)]).2,
        [[.item pe, .item (.ref .none)]], [[.item pe, .item (.ref .none)]]⟩).2.calls ≠
          [[.item pe, .item (.ref .none)]] := by
      rw [PyCallable.call_with_ok hpe, PyCallable.calls_call]
      simp
    obtain ⟨y, hy, hcases⟩ := passesOn_of_once hobj hfirst hcalls hresult hsecond
    have hraised := PyFailure.cpp_eq_error_already_set.mp hy
    have hconstructs : py.Constructs x := by
      obtain ⟨rfl, -⟩ | ⟨-, hclass⟩ := hcases
      · exact py.constructs_of_raised hraised
      · exact py.constructed y x (Or.inl hclass)
    refine ⟨hconstructs, fun _ => ?_⟩
    obtain rfl : x = y := by
      simpa [PyErrors.raised_eq_self_iff.mpr hconstructs] using hraised
    obtain ⟨-, hpasses⟩ | ⟨htext, hclass⟩ := hcases
    · exact hpasses
    · exact ⟨fun _ => hclass, by simp [PyErrors.takes_for_arity, htext]⟩
  · rw [wrap_cb_object py func e hobj, hfirst] at hresult
    have hcpp : py.cpp x = .error_already_set x := Except.error.inj hresult
    have hraised := PyFailure.cpp_eq_error_already_set.mp hcpp
    exact ⟨py.constructs_of_raised hraised, fun h => absurd h hobj⟩

/-- **When a callback runs once.** For every callable, exception pointer, result and state: the
adapter starts the body at most once, and calls a callable that accepts two arguments once with
them and propagates what it raises, exactly if C++ throws every error of the body as it is and the
adapter passes it on. -/
theorem body_once_iff (py : PyInterpreter ω) (func : PyCallable σ ω)
    (e : Option (CppException ω)) (obj : Option (PyRef ω)) (s : σ) :
    BodyOnce py func e obj s ↔ ErrorsPass py func e obj s := by
  constructor
  · exact BodyOnce.errorsPass
  · intro h
    rcases hrefuses : func.refuses 2 with - | x
    · obtain ⟨pe, hpe, hcall⟩ := wrap_cb_accepted h hrefuses
      constructor
      · simp [hcall]
      · intro _
        exact ⟨pe, hpe, by rw [hcall], by rw [hcall]⟩
    · constructor
      · exact started_of_refused py e obj s hrefuses
      · intro haccepts
        rw [hrefuses] at haccepts
        cases haccepts

/-- An interpreter with plain exceptions, which clears an error in printing, as CPython does, and
with pybind11's own translator. -/
def no_traceback : PyInterpreter ω where
  toPyErrors := plain_errors
  print := .clears
  translators := [default_translator]

/-- `def callback(e, result=None)`, which counts its runs and calls `log` of one parameter with two
arguments. -/
def calls_log_wrongly : PyCallable ℕ ω where
  refuses n :=
    if n = 1 ∨ n = 2 then none
    else some (type_error "callback() takes from 1 to 2 positional arguments")
  body runs _ :=
    (.error (type_error "log() takes 1 positional argument but 2 were given"), runs + 1)

/-- The body of a callback that calls another function with too many arguments runs twice. -/
theorem wrap_cb_runs_body_twice :
    (wrap_cb no_traceback calls_log_wrongly none (some (.none : PyRef ℕ)) (.new 0)).2.state = 2 ∧
      ¬ BodyOnce no_traceback calls_log_wrongly none (some (.none : PyRef ℕ)) 0 := by
  have htakes : (no_traceback : PyInterpreter ℕ).takes_for_arity
      (type_error "log() takes 1 positional argument but 2 were given") = true := by
    decide +kernel
  have hruns : wrap_cb no_traceback calls_log_wrongly none (some (.none : PyRef ℕ)) (.new 0) = _ :=
    wrap_cb_retries rfl rfl htakes
  constructor
  · rw [hruns]
    rfl
  · intro h
    have honce := h.at_most_once
    rw [hruns] at honce
    exact absurd honce (by decide)

end AsioPy
