import AsioPy.CoSpawn

/-!
# How C++ exceptions become Python exceptions

`translate_exception` of `detail/exceptions.hpp` turns the exception that an operation failed with
into the Python exception that a callback is handed. It goes through pybind11's list of registered
translators, as pybind11 does itself where a bound function throws; a translator sets the Python
error, or rethrows. The exception that it rethrows is what the next translator is tried on, but the
loop catches only what is derived from `std::exception`. And it prints while the Python error is
set, before it takes the error: with CPython the error is no longer set by then, and what is
returned is not the exception but a text.

`translates_iff` says for which exceptions the outcome is the right one.
-/

namespace AsioPy

variable {ω : Type}

/-- A Python object that is handed on: an exception, a text, or what `PyRef` tells apart. -/
inductive PyItem (ω : Type) where
  | ref (r : PyRef ω)
  | exception (e : PyException ω)
  | str (text : String)

/-- The value that a C++ exception pointer holds. -/
inductive CppException (ω : Type) where
  /-- `pybind11::error_already_set`, with its Python exception. -/
  | error_already_set (e : PyException ω)
  /-- `pybind11::type_error` -/
  | type_error (what : String)
  /-- Another type derived from `std::exception`. -/
  | std_exception (type what : String)
  /-- A type that is not. -/
  | foreign (type : String)

/-- The type is derived from `std::exception`. -/
def CppException.is_std : CppException ω → Bool
  | .error_already_set _ | .type_error _ | .std_exception _ _ => true
  | .foreign _ => false

/-- The failure as an exception pointer holds it. -/
def PyFailure.cpp : PyFailure ω → CppException ω
  | .error_already_set e => .error_already_set e
  | .std_exception type what => .std_exception type what

/-- What C++ throws for an exception that Python raised. -/
def PyErrors.cpp (py : PyErrors ω) (e : PyException ω) : CppException ω := (py.raised e).cpp

/-- A failure that is held as a Python exception is one. -/
theorem PyFailure.cpp_eq_error_already_set {f : PyFailure ω} {e : PyException ω} :
    f.cpp = .error_already_set e ↔ f = .error_already_set e := by
  cases f with
  | error_already_set e' => simp [cpp]
  | std_exception type what => simp [cpp]

/-- A failure is no `pybind11::type_error`. -/
theorem PyFailure.cpp_ne_type_error (f : PyFailure ω) (what : String) :
    f.cpp ≠ .type_error what := by
  cases f with
  | _ => exact fun h => by cases h

/-- What a translator does with an exception: it sets the Python error and returns, or it throws. -/
inductive Translation (ω : Type) where
  | set (e : PyException ω)
  | throws (x : CppException ω)

/-- A registered exception translator. -/
abbrev Translator (ω : Type) := CppException ω → Translation ω

/-- `pybind11::print` while a Python error is set. With no error set it prints. -/
inductive PrintWithError (ω : Type) where
  /-- The error stays set. -/
  | keeps
  /-- It returns, and the error is no longer set: CPython answers the import of `sys` inside of it
  with another error, in the place of the first, and `print` catches that one. -/
  | clears
  /-- It throws, and the error is no longer set. -/
  | throws (error : PyException ω → PyFailure ω)

/-- One turn of the loop of `translate_exception`, with its second `print`: the Python error that is
set behind it, if it still is, or what it throws. -/
def try_translator (print : PrintWithError ω) (translator : Translator ω) (ex : CppException ω) :
    Except (CppException ω) (Option (PyException ω)) :=
  match translator ex with
  | .throws x => .error x
  | .set e =>
    match print with
    | .keeps => .ok (some e)
    | .clears => .ok none
    | .throws error => .error (error e).cpp

/-- How the loop of `translate_exception` is left: its variable `set`, and where it is true, the
Python error that is set, if it still is. -/
inductive TranslateEnd (ω : Type) where
  | not_set
  | set (error : Option (PyException ω))

/-- The loop of `translate_exception`, or the C++ exception that leaves it. -/
def translate_loop (print : PrintWithError ω) :
    List (Translator ω) → CppException ω → Except (CppException ω) (TranslateEnd ω)
  | [], _ => .ok .not_set
  | translator :: rest, ex =>
    match try_translator print translator ex with
    | .ok error => .ok (.set error)
    | .error x =>
      -- `catch (std::exception &e)`
      if x.is_std then translate_loop print rest x else .error x

/-- `py::error_already_set().value()`. With no error set, pybind11 sets one of its own, whose value
is no exception but its text. -/
def PyErrors.error_value (py : PyErrors ω) : Option (PyException ω) →
    Except (CppException ω) (PyItem ω)
  | none => .ok (.str "Unknown internal error occurred")
  | some e =>
    match py.error_string e with
    | .ok _ => .ok (.exception e)
    | .error f => .error f.cpp

/-- `translate_exception` of an exception pointer, with the registered translators. -/
def translate_exception (py : PyErrors ω) (print : PrintWithError ω)
    (translators : List (Translator ω)) :
    Option (CppException ω) → Except (CppException ω) (PyItem ω)
  | none => .ok (.ref .none)
  | some (.error_already_set e) => .ok (.exception e)
  | some ex =>
    match translate_loop print translators ex with
    | .error x => .error x
    | .ok .not_set => .ok (.ref .none)
    | .ok (.set error) => py.error_value error

/-- The Python exception that an exception comes to along the translators: the first that accepts it
sets it, and each before has handed on what it rethrew. -/
inductive Accepted : List (Translator ω) → CppException ω → PyException ω → Prop
  | set {translator : Translator ω} {rest : List (Translator ω)} {ex : CppException ω}
      {e : PyException ω} : translator ex = .set e → Accepted (translator :: rest) ex e
  | rethrown {translator : Translator ω} {rest : List (Translator ω)} {ex x : CppException ω}
      {e : PyException ω} : translator ex = .throws x → Accepted rest x e →
      Accepted (translator :: rest) ex e

/-- The last translator accepts everything. -/
def HandlesAll (translators : List (Translator ω)) : Prop :=
  ∃ front last, translators = front ++ [last] ∧ ∀ ex, ∃ e, last ex = .set e

/-- No error is lost in the translation of a pointer. -/
structure Translates (py : PyErrors ω) (print : PrintWithError ω)
    (translators : List (Translator ω)) (ex : Option (CppException ω)) : Prop where
  returns : ∃ r, translate_exception py print translators ex = .ok r
  none_iff : translate_exception py print translators ex = .ok (.ref .none) ↔ ex = none
  python : ∀ e, ex = some (.error_already_set e) →
    translate_exception py print translators ex = .ok (.exception e)
  first : ∀ x, ex = some x → (∀ e, x ≠ .error_already_set e) →
    ∃ e, Accepted translators x e ∧
      translate_exception py print translators ex = .ok (.exception e)

/-- Up to the first translator that accepts, what is rethrown is derived from `std::exception`. -/
def RethrowsStd : List (Translator ω) → CppException ω → Prop
  | [], _ => True
  | translator :: rest, ex =>
    ∀ x, translator ex = .throws x → x.is_std = true ∧ RethrowsStd rest x

/-- The pointers that are translated right: null, a Python exception, and others where the error
stays set while it is printed, nothing but a `std::exception` is rethrown, and `error_already_set`
can be constructed for the exception that is set. -/
def Translatable (py : PyErrors ω) (print : PrintWithError ω) (translators : List (Translator ω)) :
    Option (CppException ω) → Prop
  | none => True
  | some (.error_already_set _) => True
  | some ex => print = .keeps ∧ RethrowsStd translators ex ∧
      ∀ e, Accepted translators ex e → py.Constructs e

/-- One exception is accepted at most. -/
theorem Accepted.unique {translators : List (Translator ω)} {ex : CppException ω}
    {e e' : PyException ω} (h : Accepted translators ex e) (h' : Accepted translators ex e') :
    e = e' := by
  induction h with
  | set hset =>
    cases h' with
    | set hset' => simpa [hset] using hset'
    | rethrown hthrows' => simp [hset] at hthrows'
  | rethrown hthrows _ ih =>
    cases h' with
    | set hset' => simp [hthrows] at hset'
    | rethrown hthrows' hrest =>
      obtain rfl : _ = _ := by simpa [hthrows] using hthrows'
      exact ih hrest

/-- Where printing does not leave the error set, no turn does. -/
theorem try_translator_ne {print : PrintWithError ω} (hprint : print ≠ .keeps)
    (translator : Translator ω) (ex : CppException ω) (e : PyException ω) :
    try_translator print translator ex ≠ .ok (some e) := by
  unfold try_translator
  rcases translator ex with e' | x
  · cases print with
    | keeps => exact absurd rfl hprint
    | _ => exact fun h => by cases h
  · exact fun h => by cases h

/-- Where a translator's error is seen, printing left it set. -/
theorem keeps_of_translated {print : PrintWithError ω} {translators : List (Translator ω)}
    {ex : CppException ω} {e : PyException ω}
    (h : translate_loop print translators ex = .ok (.set (some e))) : print = .keeps := by
  by_contra hprint
  induction translators generalizing ex with
  | nil => cases h
  | cons translator rest ih =>
    have hturn := try_translator_ne hprint translator ex
    rw [translate_loop] at h
    rcases hres : try_translator print translator ex with x | - | e'
    · by_cases hstd : x.is_std
      · simp only [hres, hstd, if_true] at h
        exact ih h
      · simp [hres, hstd] at h
    · simp [hres] at h
    · exact hturn e' hres

/-- Where printing leaves the error set, a turn is what the translator does. -/
theorem try_translator_keeps (translator : Translator ω) (ex : CppException ω) :
    try_translator .keeps translator ex =
      match translator ex with
      | .set e => .ok (some e)
      | .throws x => .error x := by
  unfold try_translator
  rcases translator ex with e | x <;> rfl

/-- The loop is left with an error exactly along `std::exception`s, and with the one that is
accepted. -/
theorem translate_loop_keeps_iff {translators : List (Translator ω)} {ex : CppException ω}
    {e : PyException ω} :
    translate_loop .keeps translators ex = .ok (.set (some e)) ↔
      RethrowsStd translators ex ∧ Accepted translators ex e := by
  induction translators generalizing ex with
  | nil =>
    refine iff_of_false (fun h => by cases h) ?_
    rintro ⟨-, h⟩
    cases h
  | cons translator rest ih =>
    rw [translate_loop, try_translator_keeps]
    rcases ht : translator ex with e' | x
    · -- The translator accepts.
      have haccepted : Accepted (translator :: rest) ex e ↔ e' = e := by
        constructor
        · intro h
          exact (Accepted.set ht).unique h
        · rintro rfl
          exact .set ht
      simp [RethrowsStd, ht, haccepted]
    · have haccepted : Accepted (translator :: rest) ex e ↔ Accepted rest x e := by
        constructor
        · intro h
          cases h with
          | set hset => simp [ht] at hset
          | rethrown hthrows hrest =>
            obtain rfl : x = _ := by simpa [ht] using hthrows
            exact hrest
        · exact .rethrown ht
      by_cases hstd : x.is_std
      · simp [RethrowsStd, ht, haccepted, hstd, ih]
      · simp [RethrowsStd, ht, hstd]

/-- One of the translators accepts, if the last accepts everything. -/
theorem exists_accepted {translators : List (Translator ω)} (hlast : HandlesAll translators)
    (ex : CppException ω) : ∃ e, Accepted translators ex e := by
  obtain ⟨front, last, rfl, haccepts⟩ := hlast
  induction front generalizing ex with
  | nil =>
    obtain ⟨e, he⟩ := haccepts ex
    exact ⟨e, .set he⟩
  | cons translator front ih =>
    rcases ht : translator ex with e | x
    · exact ⟨e, .set ht⟩
    · obtain ⟨e, he⟩ := ih x
      exact ⟨e, .rethrown ht he⟩

/-- An exception is a Python exception or none. -/
theorem CppException.python_or (x : CppException ω) :
    (∃ e, x = .error_already_set e) ∨ ∀ e, x ≠ .error_already_set e := by
  cases x with
  | error_already_set e => exact Or.inl ⟨e, rfl⟩
  | _ => exact Or.inr fun e h => by cases h

/-- What is translated is no Python exception here. -/
theorem translate_exception_some {py : PyErrors ω} {print : PrintWithError ω}
    {translators : List (Translator ω)} {x : CppException ω} (hx : ∀ e, x ≠ .error_already_set e) :
    translate_exception py print translators (some x) =
      match translate_loop print translators x with
      | .error x => .error x
      | .ok .not_set => .ok (.ref .none)
      | .ok (.set error) => py.error_value error := by
  cases x with
  | error_already_set e => exact absurd rfl (hx e)
  | _ => rfl

/-- The exception of an error that is set is returned exactly if it can be constructed. -/
theorem error_value_eq_iff {py : PyErrors ω} {error : Option (PyException ω)}
    {e : PyException ω} :
    py.error_value error = .ok (.exception e) ↔ error = some e ∧ py.Constructs e := by
  rcases error with - | e'
  · simp [PyErrors.error_value]
  · rcases hstring : py.error_string e' with f | text
    · simp only [PyErrors.error_value, hstring, reduceCtorEq, Option.some.injEq, false_iff]
      rintro ⟨rfl, text, htext⟩
      rw [hstring] at htext
      cases htext
    · simp only [PyErrors.error_value, hstring, Except.ok.injEq, PyItem.exception.injEq,
        Option.some.injEq, iff_self_and]
      rintro rfl
      exact ⟨text, hstring⟩

/-- A translated pointer that held no Python exception. -/
theorem translate_exception_eq_iff {py : PyErrors ω} {print : PrintWithError ω}
    {translators : List (Translator ω)} {x : CppException ω} (hx : ∀ e, x ≠ .error_already_set e)
    {e : PyException ω} :
    translate_exception py print translators (some x) = .ok (.exception e) ↔
      translate_loop print translators x = .ok (.set (some e)) ∧ py.Constructs e := by
  rw [translate_exception_some hx]
  rcases translate_loop print translators x with y | - | error
  · simp
  · simp
  · simp only [error_value_eq_iff, Except.ok.injEq, TranslateEnd.set.injEq]

/-- **When no error is lost in translation.** For every list of translators whose last accepts
everything and every exception pointer: `translate_exception` returns normally, with `None` only for
the null pointer, and with the right Python exception otherwise, exactly if the pointer is
`Translatable`. -/
theorem translates_iff {translators : List (Translator ω)} (hlast : HandlesAll translators)
    (py : PyErrors ω) (print : PrintWithError ω) (ex : Option (CppException ω)) :
    Translates py print translators ex ↔ Translatable py print translators ex := by
  rcases ex with - | x
  · -- The null pointer.
    refine iff_of_true ⟨⟨.ref .none, rfl⟩, iff_of_true rfl rfl, ?_, ?_⟩ trivial
    · rintro e ⟨⟩
    · rintro x ⟨⟩
  · obtain ⟨e, rfl⟩ | hx := x.python_or
    · refine iff_of_true ⟨⟨.exception e, rfl⟩, ?_, ?_, ?_⟩ trivial
      · simp [translate_exception]
      · rintro e' ⟨⟩
        rfl
      · rintro x ⟨⟩ hx
        exact absurd rfl (hx e)
    · have hgoal : Translatable py print translators (some x) ↔
          print = .keeps ∧ RethrowsStd translators x ∧
            ∀ e, Accepted translators x e → py.Constructs e := by
        cases x with
        | error_already_set e => exact absurd rfl (hx e)
        | _ => exact Iff.rfl
      rw [hgoal]
      constructor
      · intro h
        obtain ⟨e, haccepted, he⟩ := h.first x rfl hx
        obtain ⟨hloop, hconstructs⟩ := (translate_exception_eq_iff hx).mp he
        obtain rfl := keeps_of_translated hloop
        refine ⟨rfl, (translate_loop_keeps_iff.mp hloop).1, fun e' he' => ?_⟩
        rwa [he'.unique haccepted]
      · rintro ⟨rfl, hstd, hconstructs⟩
        obtain ⟨e, haccepted⟩ := exists_accepted hlast x
        have hloop := translate_loop_keeps_iff.mpr ⟨hstd, haccepted⟩
        have he := (translate_exception_eq_iff hx).mpr ⟨hloop, hconstructs e haccepted⟩
        constructor
        · exact ⟨.exception e, he⟩
        · simp [he]
        · exact fun e' h => absurd (Option.some.inj h) (hx e')
        · rintro x' ⟨⟩ -
          exact ⟨e, haccepted, he⟩

/-- The translator that `py::register_exception` makes for one type: other types are rethrown. -/
def register_exception (type : String) (cls : PyClass) (h : cls.is_stop_iteration = false) :
    Translator ω
  | .std_exception type' what =>
    if type' = type then .set ⟨cls, what, none, by simp [h]⟩
    else .throws (.std_exception type' what)
  | ex => .throws ex

/-- A `RuntimeError`. -/
def runtime_error (what : String) : PyException ω where
  cls := ⟨some "<class 'RuntimeError'>", false⟩
  what := what
  value := none
  has_value h := by cases h

/-- A `TypeError`. -/
def type_error (what : String) : PyException ω where
  cls := ⟨some "<class 'TypeError'>", false⟩
  what := what
  value := none
  has_value h := by cases h

/-- pybind11's own translator, the last of the list, but for the standard types that it has other
classes for. -/
def default_translator : Translator ω
  | .error_already_set e => .set e
  | .type_error what => .set (type_error what)
  | .std_exception _ what => .set (runtime_error what)
  | .foreign _ => .set (runtime_error "Caught an unknown exception!")

/-- The translators of a module that has registered one exception. -/
def one_registered : List (Translator ω) :=
  [register_exception "asio::service_already_exists"
    ⟨some "<class 'asio.service_already_exists'>", false⟩ rfl, default_translator]

/-- pybind11's own translator accepts everything. -/
theorem handlesAll_one_registered : HandlesAll (one_registered : List (Translator ω)) := by
  refine ⟨[_], default_translator, rfl, ?_⟩
  intro ex
  cases ex with
  | _ => exact ⟨_, rfl⟩

/-- A `std::logic_error`, printed as with CPython. -/
theorem translates_iff_logic_error :
    Translates plain_errors .clears (one_registered : List (Translator ℕ))
        (some (.std_exception "std::logic_error" "Unsupported object")) ↔
      Translatable plain_errors .clears (one_registered : List (Translator ℕ))
        (some (.std_exception "std::logic_error" "Unsupported object")) :=
  translates_iff handlesAll_one_registered plain_errors .clears _

/-- An `int` that was thrown leaves `translate_exception`, past the translator that accepts it; and
a `std::logic_error` comes out as a text, its Python error lost in the second `print`. -/
theorem translate_exception_loses_error :
    translate_exception plain_errors .clears (one_registered : List (Translator ℕ))
        (some (.foreign "int")) = .error (.foreign "int") ∧
      ¬ Translates plain_errors .clears (one_registered : List (Translator ℕ))
        (some (.foreign "int")) ∧
      translate_exception plain_errors .clears (one_registered : List (Translator ℕ))
        (some (.std_exception "std::logic_error" "Unsupported object")) =
          .ok (.str "Unknown internal error occurred") ∧
      ¬ Translates plain_errors .clears (one_registered : List (Translator ℕ))
        (some (.std_exception "std::logic_error" "Unsupported object")) := by
  have hlost : translate_exception plain_errors .clears (one_registered : List (Translator ℕ))
      (some (.std_exception "std::logic_error" "Unsupported object")) =
        .ok (.str "Unknown internal error occurred") := by rfl
  refine ⟨rfl, fun h => ?_, hlost, fun h => ?_⟩
  · obtain ⟨r, hr⟩ := h.returns
    cases hr
  · obtain ⟨e, -, he⟩ := h.first _ rfl (fun e h => by cases h)
    rw [hlost] at he
    cases he

end AsioPy
