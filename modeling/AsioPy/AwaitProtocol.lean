import AsioPy.CoSpawn

/-!
# The driver and Python's own await

How far `adopt_async_func` does with a Python coroutine what Python's `await` does with it. Where
every operation succeeds the two resume it alike (`adopt_run_of_success`, from the rule for drivers
that answer alike), and what is left to compare is the exception that the coroutine ends with:
`adopt_async_func` reads the text of its class where Python looks whether it is a `StopIteration`,
and it sees the exception only as far as pybind11 can make an `error_already_set` of it.
`adopt_refines_await_iff` says when this makes no difference. Where an operation fails the two part:
`adopt_fails_with_operation` is what `adopt_async_func` does then.
-/

namespace AsioPy

open Resumable

variable {σ ω : Type}

/-- Operations that all succeed, with the given results. -/
def succeeding (results : (n : ℕ) → (k : AwaitKind) → k.Result ω) : Completions ω :=
  fun n k => .ok (results n k)

/-- The driver does with a coroutine what Python's `await` does, in every run of the two of the same
length: it makes the same resumptions, completes with a value if and only if the coroutine returns
it, and fails with the exception that the coroutine raises otherwise. -/
structure RefinesAwait (adopted : ℕ → List (Resumption ω) × Option (Adopted ω))
    (awaited : ℕ → List (Resumption ω) × Option (AwaitEnd ω)) : Prop where
  resumptions : ∀ fuel, (adopted fuel).1 = (awaited fuel).1
  completes : ∀ fuel v, (adopted fuel).2 = some (.completed v) ↔
    ∃ e, (awaited fuel).2 = some (.ended e) ∧ e.returned = some v
  fails : ∀ fuel e, (awaited fuel).2 = some (.ended e) → e.cls.is_stop_iteration = false →
    (adopted fuel).2 = some (.failed (.error_already_set e))

/-- C++ sees the exception as what it is. -/
structure PyException.SeenTrue (py : PyErrors ω) (e : PyException ω) : Prop where
  /-- What is thrown for a value that was returned prints as `StopIteration` and has the value. -/
  returned : ∀ v, e.returned = some v → (py.thrown e).CompletesWith py v
  /-- An exception that is no `StopIteration` can be constructed, and the clauses pass it on. -/
  raised : e.cls.is_stop_iteration = false →
    py.Constructs e ∧ (Thrown.error_already_set e).Passes py

/-- What `adopt_async_func` makes of the exception that ends a coroutine: it completes with the
value that the coroutine returned, or fails with the coroutine's exception. -/
def EndsAlike (py : PyErrors ω) (e : PyException ω) : Prop :=
  (∀ v, on_exception py (py.thrown e) = .completed v ↔ e.returned = some v) ∧
    (e.cls.is_stop_iteration = false →
      on_exception py (py.thrown e) = .failed (.error_already_set e))

/-- A coroutine returns exactly if it ends with a `StopIteration`. -/
theorem PyException.returned_eq_none_iff (e : PyException ω) :
    e.returned = none ↔ e.cls.is_stop_iteration = false := by
  rcases hstop : e.cls.is_stop_iteration with - | -
  · simp [returned, hstop]
  · obtain ⟨v, hv⟩ := Option.isSome_iff_exists.mp (e.has_value hstop)
    simp [returned, hstop, hv]

/-- Where its coroutine ends, an exception that the adopted one fails with was constructed. -/
theorem constructs_of_failed {py : PyErrors ω} {e e' : PyException ω}
    (h : on_exception py (py.thrown e) = .failed (.error_already_set e')) : py.Constructs e' := by
  obtain hsame | ⟨e₁, f, -, hf, hlook⟩ := on_exception_failed_cases h
  · exact py.constructs_of_thrown hsame.symm
  · have hfailure := PyFailure.thrown_eq_error_already_set hf.symm
    obtain hclass | hvalue := hlook
    · exact py.constructed e₁ e' (Or.inl (hclass.trans hfailure))
    · exact py.constructed e₁ e' (Or.inr (Or.inr (by rw [hvalue, hfailure])))

/-- **One end.** `adopt_async_func` ends a coroutine as Python does exactly if the exception that
the coroutine ends with is seen as what it is. -/
theorem endsAlike_iff_seenTrue (py : PyErrors ω) (e : PyException ω) :
    EndsAlike py e ↔ e.SeenTrue py := by
  constructor
  · rintro ⟨hcompletes, hfails⟩
    constructor
    · intro v hv
      exact on_exception_completed_iff.mp ((hcompletes v).mpr hv)
    · intro hstop
      have hfail := hfails hstop
      have hconstructs := constructs_of_failed hfail
      rw [py.thrown_of_constructs hconstructs] at hfail
      exact ⟨hconstructs, on_exception_failed_iff.mp hfail⟩
  · intro h
    constructor
    · intro v
      rcases hreturned : e.returned with - | u
      · -- The exception itself is what it fails with.
        obtain ⟨hconstructs, hpasses⟩ := h.raised (e.returned_eq_none_iff.mp hreturned)
        rw [py.thrown_of_constructs hconstructs, on_exception_failed_iff.mpr hpasses]
        simp
      · rw [on_exception_completed_iff.mpr (h.returned u hreturned)]
        simp
    · intro hstop
      obtain ⟨hconstructs, hpasses⟩ := h.raised hstop
      rw [py.thrown_of_constructs hconstructs]
      exact on_exception_failed_iff.mpr hpasses

/-- What is adopted of an object whose iterator is found: the loop over it. -/
theorem adopt_async_func_eq_run {py : PyErrors ω} {M : PyIterator σ ω} {ops : Completions ω}
    {obj : Spawned σ ω} {cr : σ} (hobj : obj.iterator = .ok ⟨cr, none⟩) (fuel : ℕ) :
    adopt_async_func py M ops obj fuel = M.run (adopt_driver py ops) fuel 0 cr .next := by
  unfold adopt_async_func
  rw [hobj]
  exact adopt_loop_eq_run py M ops fuel 0 cr .none

/-- **Runs where every operation succeeds.** `adopt_async_func` makes the resumptions that Python
makes, and ends when Python does, with what it makes of the same exception. -/
theorem adopt_run_of_success (py : PyErrors ω) {M : PyIterator σ ω}
    {results : (n : ℕ) → (k : AwaitKind) → k.Result ω} {fuel : ℕ} {cr : σ}
    (hkinds : (M.run (py_await (succeeding results)) fuel 0 cr .next).2 ≠ some .unsupported) :
    (M.run (adopt_driver py (succeeding results)) fuel 0 cr .next).1 =
        (M.run (py_await (succeeding results)) fuel 0 cr .next).1 ∧
      ((M.run (py_await (succeeding results)) fuel 0 cr .next).2 = none ∧
          (M.run (adopt_driver py (succeeding results)) fuel 0 cr .next).2 = none ∨
        ∃ e, (M.run (py_await (succeeding results)) fuel 0 cr .next).2 = some (.ended e) ∧
          (M.run (adopt_driver py (succeeding results)) fuel 0 cr .next).2 =
            some (on_exception py (py.thrown e))) := by
  apply run_eq_of_agree
  · intro n y r h
    rcases hk : y.kind with f | - | k
    · simp [py_await, hk] at h
    · simp [py_await, hk] at h
    · simpa [py_await, adopt_driver, succeeding, hk] using h
  · -- Python gives up on unsupported objects only.
    intro w hw m y hgive
    rcases hk : y.kind with f | - | k
    · obtain rfl : AwaitEnd.unsupported = w := by simpa [py_await, hk] using hgive
      exact hkinds hw
    · obtain rfl : AwaitEnd.unsupported = w := by simpa [py_await, hk] using hgive
      exact hkinds hw
    · simp [py_await, succeeding, hk] at hgive

/-- Where every operation succeeds, `adopt_async_func` has an outcome when Python's `await` has:
what it makes of the exception that the coroutine ends with. -/
theorem adopt_ends_iff (py : PyErrors ω) {M : PyIterator σ ω}
    {results : (n : ℕ) → (k : AwaitKind) → k.Result ω} {fuel : ℕ} {cr : σ} {w : Adopted ω}
    (hkinds : (M.run (py_await (succeeding results)) fuel 0 cr .next).2 ≠ some .unsupported) :
    (M.run (adopt_driver py (succeeding results)) fuel 0 cr .next).2 = some w ↔
      ∃ e, (M.run (py_await (succeeding results)) fuel 0 cr .next).2 = some (.ended e) ∧
        on_exception py (py.thrown e) = w := by
  obtain ⟨-, ⟨hnone, hadopt⟩ | ⟨e, he, hadopt⟩⟩ := adopt_run_of_success py hkinds
  · simp [hnone, hadopt]
  · rw [hadopt, he, Option.some.injEq]
    constructor
    · exact fun hw => ⟨e, rfl, hw⟩
    · rintro ⟨e', he', hw⟩
      obtain rfl : e = e' := by simpa using he'
      exact hw

/-- **The driver refines Python's `await`, exactly if the last exception is seen as what it is.**
For every coroutine, every assignment of results to the operations it awaits, and runs in which it
yields objects of the chain's kinds only: the driver does what Python's `await` does if and only if
C++ sees the exception that the coroutine ends with, if it ends, as what it is. -/
theorem adopt_refines_await_iff {py : PyErrors ω} {M : PyIterator σ ω}
    {results : (n : ℕ) → (k : AwaitKind) → k.Result ω} {obj : Spawned σ ω} {cr : σ}
    (hobj : obj.iterator = .ok ⟨cr, none⟩)
    (hkinds : ∀ fuel,
      (M.run (py_await (succeeding results)) fuel 0 cr .next).2 ≠ some .unsupported) :
    RefinesAwait (adopt_async_func py M (succeeding results) obj)
        (fun fuel => M.run (py_await (succeeding results)) fuel 0 cr .next) ↔
      ∀ fuel e, (M.run (py_await (succeeding results)) fuel 0 cr .next).2 = some (.ended e) →
        e.SeenTrue py := by
  -- What either makes of the coroutine is decided by the same exception.
  have hends := fun fuel w => adopt_ends_iff py (w := w) (hkinds fuel)
  simp only [← adopt_async_func_eq_run hobj] at hends
  constructor
  · intro h fuel e he
    rw [← endsAlike_iff_seenTrue]
    have hadopt := (hends fuel _).mpr ⟨e, he, rfl⟩
    constructor
    · intro v
      have hcomplete := h.completes fuel v
      rw [hadopt] at hcomplete
      simpa [he] using hcomplete
    · intro hstop
      have hfail := h.fails fuel e he hstop
      rwa [hadopt, Option.some.injEq] at hfail
  · intro h
    have halike := fun fuel e he => (endsAlike_iff_seenTrue py e).mpr (h fuel e he)
    constructor
    · intro fuel
      rw [adopt_async_func_eq_run hobj]
      exact (adopt_run_of_success py (hkinds fuel)).1
    · intro fuel v
      rw [hends]
      exact exists_congr fun e => and_congr_right fun he => (halike fuel e he).1 v
    · intro fuel e he hstop
      rw [hends]
      exact ⟨e, he, (halike fuel e he).2 hstop⟩

/-- The object of a coroutine in the state `cr`: it has an `__await__` and cannot be called. -/
def Spawned.coroutine (cr : σ) : Spawned σ ω where
  has_await := true
  has_call := false
  await := .ok ⟨cr, none⟩
  call_await := .error (attribute_error "__call__")

/-- `StopIteration(v)` -/
def stop_iteration (v : PyRef ω) : PyException ω where
  cls := ⟨some "<class 'StopIteration'>", true⟩
  what := ""
  value := some v
  has_value _ := rfl

/-- An object of one kind. -/
def Yielded.of (k : AwaitKind) : Yielded ω where
  isinstance k' := .ok (k' = k)
  type_text := .ok ""

/-- An iterator that awaits one object, and returns what it is resumed with, or `v` where the
operation's exception is raised in it. -/
def await_one (k : AwaitKind) (v : PyRef ω) : PyIterator Bool ω where
  resume
    | false, _ => .yields (.of k) true
    | true, .next => .ends (stop_iteration .none)
    | true, .send u => .ends (stop_iteration u)
    | true, .throw _ => .ends (stop_iteration v)

/-- An iterator that ends at once. -/
def end_at_once (e : PyException ω) : PyIterator Unit ω where
  resume _ _ := .ends e

/-- Operations that all give `v`, where they give anything. -/
def same_results (v : PyRef ω) : (n : ℕ) → (k : AwaitKind) → k.Result ω
  | _, .awaitable_wrapper | _, .executor_t | _, .cancellation_state_t
  | _, .throw_if_cancelled_0_t => v
  | _, .reset_cancellation_state_0_t | _, .reset_cancellation_state_2_t
  | _, .throw_if_cancelled_1_t => ()

/-- A coroutine that awaits its executor and returns it. -/
theorem adopt_refines_await_iff_executor :
    RefinesAwait
        (adopt_async_func plain_errors (await_one .executor_t (.none : PyRef ℕ))
          (succeeding (same_results (.object 7))) (.coroutine false))
        (fun fuel => (await_one .executor_t (.none : PyRef ℕ)).run
          (py_await (succeeding (same_results (.object 7)))) fuel 0 false .next) ↔
      ∀ fuel e, ((await_one .executor_t (.none : PyRef ℕ)).run
          (py_await (succeeding (same_results (.object 7)))) fuel 0 false .next).2 =
            some (.ended e) → e.SeenTrue plain_errors :=
  adopt_refines_await_iff rfl fun fuel h => by
    rcases fuel with - | - | fuel <;> cases h

/-- An exception of a class derived from `StopIteration`. -/
def derived_stop_iteration (v : PyRef ω) : PyException ω where
  cls := ⟨some "<class '__main__.Done'>", true⟩
  what := ""
  value := some v
  has_value _ := rfl

/-- An exception that is no `StopIteration`, of a class that prints like it. -/
def printed_stop_iteration : PyException ω where
  cls := ⟨some "<class 'StopIteration'>", false⟩
  what := ""
  value := none
  has_value h := by cases h

/-- An iterator that returns `42` with an exception derived from `StopIteration`, and one that
raises an exception that only prints like it: the driver does not complete with the value of the
first, and does not fail with the exception of the second. -/
theorem adopt_reads_class_text :
    ¬ RefinesAwait
        (adopt_async_func plain_errors (end_at_once (derived_stop_iteration (.object 42)))
          (succeeding (same_results .none)) (.coroutine ()))
        (fun fuel => (end_at_once (derived_stop_iteration (.object 42))).run
          (py_await (succeeding (same_results .none))) fuel 0 () .next) ∧
      ¬ RefinesAwait
        (adopt_async_func plain_errors (end_at_once (printed_stop_iteration : PyException ℕ))
          (succeeding (same_results .none)) (.coroutine ()))
        (fun fuel => (end_at_once (printed_stop_iteration : PyException ℕ)).run
          (py_await (succeeding (same_results .none))) fuel 0 () .next) := by
  constructor
  · intro h
    have hcompletes := (h.completes 1 (.object 42)).mpr ⟨_, rfl, rfl⟩
    cases hcompletes
  · intro h
    have hfails := h.fails 1 _ rfl rfl
    have htext := congrArg (fun w => w.map fun a : Adopted ℕ => match a with
      | .failed (.error_already_set e) => e.cls.text
      | _ => none) hfails
    exact absurd htext (by decide)

/-! ## Operations that fail -/

/-- Failures reach the coroutine: whatever a coroutine returns, where what an operation failed with
is raised at its await, the driver completes with too. -/
def FailuresReach (adopted : ℕ → List (Resumption ω) × Option (Adopted ω))
    (awaited : ℕ → List (Resumption ω) × Option (AwaitEnd ω)) : Prop :=
  ∀ fuel e v, (awaited fuel).2 = some (.ended e) → e.returned = some v →
    ∃ fuel', (adopted fuel').2 = some (.completed v)

/-- **A failed operation ends the adopted coroutine.** At every point of every run at which an
awaited operation completes with an exception that the clauses pass on, the coroutine is not resumed
again, and the adopted coroutine fails with that exception. -/
theorem adopt_fails_with_operation {py : PyErrors ω} {M : PyIterator σ ω} {ops : Completions ω}
    {obj : Spawned σ ω} {cr s s' : σ} {rs : List (Resumption ω)} {r : Resumption ω} {n : ℕ}
    {y : Yielded ω} {k : AwaitKind} {x : Thrown ω} (hobj : obj.iterator = .ok ⟨cr, none⟩)
    (hreach : Reaches M (adopt_driver py ops) 0 cr .next rs n s r)
    (hyield : M.resume s r = .yields y s') (hkind : y.kind = .ok (some k))
    (hfail : ops n k = .error x) (hx : x.Passes py) (fuel : ℕ) :
    adopt_async_func py M ops obj (rs.length + (fuel + 1)) = (rs ++ [r], some (.failed x)) := by
  have hgive : (adopt_driver py ops).on_yield n y = .inr (.failed x) := by
    simp only [adopt_driver, hkind, hfail, on_exception_failed_iff.mpr hx]
  rw [adopt_async_func_eq_run hobj, run_of_reaches hreach, run_gives_up hyield hgive]

/-- A coroutine whose first operation is cancelled. -/
theorem adopt_fails_with_operation_cancelled :
    adopt_async_func plain_errors (await_one .awaitable_wrapper (.object 42 : PyRef ℕ))
        (fun _ _ => .error (.exception "Operation canceled")) (.coroutine false) 1 =
      ([Resumption.next], some (.failed (.exception "Operation canceled"))) :=
  have hreach : Reaches (await_one .awaitable_wrapper (.object 42 : PyRef ℕ))
      (adopt_driver plain_errors fun _ _ => .error (.exception "Operation canceled")) 0 false .next
      [] 0 false .next := Reaches.refl 0 false Resumption.next
  have hkind : (Yielded.of .awaitable_wrapper : Yielded ℕ).kind = .ok (some .awaitable_wrapper) :=
    rfl
  adopt_fails_with_operation rfl hreach rfl hkind rfl trivial 0

/-- A coroutine that catches what its operation failed with and returns `42`: the driver fails. -/
theorem adopt_does_not_throw :
    ¬ FailuresReach
        (adopt_async_func plain_errors (await_one .awaitable_wrapper (.object 42 : PyRef ℕ))
          (fun _ _ => .error (.exception "Operation canceled")) (.coroutine false))
        (fun fuel => (await_one .awaitable_wrapper (.object 42 : PyRef ℕ)).run
          (py_await fun _ _ => .error (.exception "Operation canceled")) fuel 0 false .next) := by
  intro h
  obtain ⟨fuel, hfuel⟩ := h 2 _ (.object 42) rfl rfl
  rcases fuel with - | fuel <;> cases hfuel

end AsioPy
