import AsioPy.AwaitProtocol

/-!
# Where a completion of an adopted coroutine comes from

One `try` block of `adopt_async_func` holds the resumptions of the coroutine, the tests of what it
yields, the awaits and the conversions around them, and the `catch` clauses behind it do not know
which of them has thrown. So an adopted coroutine completes not only when the coroutine returns, but
also when an operation fails with something that the clauses take for a return, as a nested
`co_spawn` of a callable that raises `StopIteration` does, or when the `__class__` of what it yields
raises one. `adopt_completes_by_return_iff` says when it does not happen: nothing else in the block
throws so, and the coroutine's own exception is what it prints as.

The outcome of a run comes from the one point where it stops (`reaches_of_outcome`), so the proof is
a case analysis of that point.
-/

namespace AsioPy

open Resumable

variable {σ ω : Type}

/-- The `catch` clauses complete the adopted coroutine with this exception. -/
def Thrown.Completes (py : PyErrors ω) (x : Thrown ω) : Prop := ∃ v, x.CompletesWith py v

/-- They fail with every other. -/
theorem on_exception_of_not_completes {py : PyErrors ω} {x : Thrown ω} (h : ¬ x.Completes py) :
    ∃ x', on_exception py x = .failed x' := by
  obtain ⟨v, hv⟩ | hfailed := on_exception_cases py x
  · exact absurd ⟨v, on_exception_completed_iff.mp hv⟩ h
  · exact hfailed

/-- A point of the adopted run: after the resumptions `rs` and `n` operations, the coroutine in the
state `s` is resumed with `r`. -/
def Point (py : PyErrors ω) (M : PyIterator σ ω) (ops : Completions ω) (obj : Spawned σ ω)
    (rs : List (Resumption ω)) (n : ℕ) (s : σ) (r : Resumption ω) : Prop :=
  ∃ cr, obj.iterator = .ok ⟨cr, none⟩ ∧ Reaches M (adopt_driver py ops) 0 cr .next rs n s r

/-- The coroutine itself ends with the exception `e`: a `__next__` or `send` step raises it. -/
def EndsWith (py : PyErrors ω) (M : PyIterator σ ω) (ops : Completions ω) (obj : Spawned σ ω)
    (e : PyException ω) : Prop :=
  ∃ rs n s r, Point py M ops obj rs n s r ∧ M.resume s r = .ends e

/-- The exception `x` is thrown in the `try` block, and not by a step of the coroutine. -/
inductive Elsewhere (py : PyErrors ω) (M : PyIterator σ ω) (ops : Completions ω)
    (obj : Spawned σ ω) : Thrown ω → Prop
  /-- It is thrown for what the first lookup of `__next__` raises. -/
  | next_lookup {cr : σ} {e : PyException ω} :
      obj.iterator = .ok ⟨cr, some e⟩ → Elsewhere py M ops obj (py.thrown e)
  /-- The construction of `error_already_set` throws it, for what a step has raised. -/
  | construction {rs : List (Resumption ω)} {n : ℕ} {s : σ} {r : Resumption ω}
      {e : PyException ω} {f : PyFailure ω} :
      Point py M ops obj rs n s r → M.resume s r = .ends e → py.error_string e = .error f →
      Elsewhere py M ops obj f.thrown
  /-- A test of the chain throws it, before one has passed. -/
  | isinstance {rs : List (Resumption ω)} {n : ℕ} {s s' : σ} {r : Resumption ω} {y : Yielded ω}
      {f : PyFailure ω} :
      Point py M ops obj rs n s r → M.resume s r = .yields y s' → y.kind = .error f →
      Elsewhere py M ops obj f.thrown
  /-- The operation that the coroutine awaits fails with it, or a conversion around it. -/
  | operation {rs : List (Resumption ω)} {n : ℕ} {s s' : σ} {r : Resumption ω} {y : Yielded ω}
      {k : AwaitKind} {x : Thrown ω} :
      Point py M ops obj rs n s r → M.resume s r = .yields y s' → y.kind = .ok (some k) →
      ops n k = .error x → Elsewhere py M ops obj x
  /-- The coroutine yields what the chain does not know: the last branch throws, or the text that it
  asks for first. -/
  | unsupported {rs : List (Resumption ω)} {n : ℕ} {s s' : σ} {r : Resumption ω} {y : Yielded ω} :
      Point py M ops obj rs n s r → M.resume s r = .yields y s' → y.kind = .ok none →
      Elsewhere py M ops obj y.unsupported

/-- Only the coroutine's own return is taken for a completion. -/
structure CompletesByReturn (py : PyErrors ω) (M : PyIterator σ ω) (ops : Completions ω)
    (obj : Spawned σ ω) : Prop where
  /-- The adopted coroutine completes with `v` only if the coroutine returns it. -/
  completes : ∀ fuel v, (adopt_async_func py M ops obj fuel).2 = some (.completed v) →
    ∃ e, EndsWith py M ops obj e ∧ e.returned = some v
  /-- An exception from elsewhere makes the adopted coroutine fail. -/
  fails : ∀ x, Elsewhere py M ops obj x →
    ∃ fuel x', (adopt_async_func py M ops obj fuel).2 = some (.failed x')

/-- No exception of the run is taken for what it is not: one from elsewhere for a return, or an
exception of the coroutine for the return of something that it has not returned. -/
structure NoFalseReturn (py : PyErrors ω) (M : PyIterator σ ω) (ops : Completions ω)
    (obj : Spawned σ ω) : Prop where
  elsewhere : ∀ x, Elsewhere py M ops obj x → ¬ x.Completes py
  own : ∀ e v, EndsWith py M ops obj e → py.Constructs e →
    (Thrown.error_already_set e).CompletesWith py v → e.returned = some v

section

variable {py : PyErrors ω} {M : PyIterator σ ω} {ops : Completions ω} {obj : Spawned σ ω}

/-- The object of a coroutine whose run passes a point. -/
theorem Point.adopt_eq {rs : List (Resumption ω)} {n : ℕ} {s : σ} {r : Resumption ω}
    (h : Point py M ops obj rs n s r) {w : Adopted ω}
    (hstop : StopsWith M (adopt_driver py ops) n s r w) :
    adopt_async_func py M ops obj (rs.length + 1) = (rs ++ [r], some w) := by
  obtain ⟨cr, hobj, hreach⟩ := h
  rw [adopt_async_func_eq_run hobj, run_of_reaches hreach, run_of_stopsWith hstop 0]

/-- Where the driver gives up, the adopted coroutine ends. -/
theorem Point.outcome_of_gives_up {rs : List (Resumption ω)} {n : ℕ} {s s' : σ}
    {r : Resumption ω} {y : Yielded ω} {w : Adopted ω} (h : Point py M ops obj rs n s r)
    (hyield : M.resume s r = .yields y s') (hgive : (adopt_driver py ops).on_yield n y = .inr w) :
    ∃ fuel, (adopt_async_func py M ops obj fuel).2 = some w :=
  ⟨_, congrArg Prod.snd (h.adopt_eq (Or.inr ⟨y, s', hyield, hgive⟩))⟩

/-- What C++ throws for the coroutine's own exception is what the adopted coroutine ends with. -/
theorem EndsWith.adopt_eq {e : PyException ω} (h : EndsWith py M ops obj e) :
    ∃ fuel, (adopt_async_func py M ops obj fuel).2 = some (on_exception py (py.thrown e)) := by
  obtain ⟨rs, n, s, r, hpoint, hend⟩ := h
  exact ⟨_, congrArg Prod.snd (hpoint.adopt_eq (Or.inl ⟨e, hend, rfl⟩))⟩

/-- An exception from elsewhere is what the adopted coroutine ends with. -/
theorem Elsewhere.adopt_eq {x : Thrown ω} (h : Elsewhere py M ops obj x) :
    ∃ fuel, (adopt_async_func py M ops obj fuel).2 = some (on_exception py x) := by
  cases h with
  | next_lookup hobj => exact ⟨0, by simp [adopt_async_func, hobj]⟩
  | construction hpoint hend hstring =>
    rw [← py.thrown_of_error hstring]
    exact EndsWith.adopt_eq ⟨_, _, _, _, hpoint, hend⟩
  | isinstance hpoint hyield hkind =>
    exact hpoint.outcome_of_gives_up hyield (by simp [adopt_driver, hkind])
  | operation hpoint hyield hkind hfail =>
    exact hpoint.outcome_of_gives_up hyield (by simp [adopt_driver, hkind, hfail])
  | unsupported hpoint hyield hkind =>
    exact hpoint.outcome_of_gives_up hyield (by simp [adopt_driver, hkind])

/-- An exception that the coroutine ends with is thrown, or another one from elsewhere. -/
theorem EndsWith.thrown_cases {e : PyException ω} (h : EndsWith py M ops obj e) :
    py.Constructs e ∧ py.thrown e = .error_already_set e ∨
      Elsewhere py M ops obj (py.thrown e) := by
  rcases hstring : py.error_string e with f | text
  · obtain ⟨rs, n, s, r, hpoint, hend⟩ := h
    rw [py.thrown_of_error hstring]
    exact Or.inr (.construction hpoint hend hstring)
  · exact Or.inl ⟨⟨text, hstring⟩, py.thrown_of_constructs ⟨text, hstring⟩⟩

/-- A point where the driver gives up is one where an exception is thrown elsewhere. -/
theorem Point.elsewhere_of_gives_up {rs : List (Resumption ω)} {n : ℕ} {s s' : σ}
    {r : Resumption ω} {y : Yielded ω} {w : Adopted ω} (h : Point py M ops obj rs n s r)
    (hyield : M.resume s r = .yields y s') (hgive : (adopt_driver py ops).on_yield n y = .inr w) :
    ∃ x, Elsewhere py M ops obj x ∧ on_exception py x = w := by
  rcases hkind : y.kind with f | - | k
  · simp only [adopt_driver, hkind, Sum.inr.injEq] at hgive
    exact ⟨_, .isinstance h hyield hkind, hgive⟩
  · simp only [adopt_driver, hkind, Sum.inr.injEq] at hgive
    exact ⟨_, .unsupported h hyield hkind, hgive⟩
  · rcases hop : ops n k with x | u
    · simp only [adopt_driver, hkind, hop, Sum.inr.injEq] at hgive
      exact ⟨x, .operation h hyield hkind hop, hgive⟩
    · simp [adopt_driver, hkind, hop] at hgive

/-- An adopted coroutine that completes does so with an exception of the coroutine's own, or with
one from elsewhere. -/
theorem completed_cases {fuel : ℕ} {v : PyRef ω}
    (h : (adopt_async_func py M ops obj fuel).2 = some (.completed v)) :
    (∃ e, EndsWith py M ops obj e ∧ py.Constructs e ∧
        on_exception py (.error_already_set e) = .completed v) ∨
      ∃ x, Elsewhere py M ops obj x ∧ on_exception py x = .completed v := by
  rcases hobj : obj.iterator with e | ⟨cr, - | e⟩
  · simp [adopt_async_func, hobj] at h
  · rw [adopt_async_func_eq_run hobj] at h
    obtain ⟨rs, n, s, r, hreach, ⟨e, hend, hw⟩ | ⟨y, s', hyield, hgive⟩⟩ := reaches_of_outcome h
    · have hown : EndsWith py M ops obj e := ⟨rs, n, s, r, ⟨cr, hobj, hreach⟩, hend⟩
      obtain ⟨hconstructs, hthrown⟩ | helsewhere := hown.thrown_cases
      · exact Or.inl ⟨e, hown, hconstructs, hthrown ▸ hw⟩
      · exact Or.inr ⟨_, helsewhere, hw⟩
    · have hpoint : Point py M ops obj rs n s r := ⟨cr, hobj, hreach⟩
      exact Or.inr (hpoint.elsewhere_of_gives_up hyield hgive)
  · refine Or.inr ⟨_, .next_lookup hobj, ?_⟩
    simpa [adopt_async_func, hobj] using h

/-- An adopted coroutine has one outcome. -/
theorem adopt_outcome_unique {fuel fuel' : ℕ} {w w' : Adopted ω}
    (h : (adopt_async_func py M ops obj fuel).2 = some w)
    (h' : (adopt_async_func py M ops obj fuel').2 = some w') : w = w' := by
  rcases hobj : obj.iterator with e | ⟨cr, - | e⟩
  · simp only [adopt_async_func, hobj, Option.some.injEq] at h h'
    rw [← h, h']
  · rw [adopt_async_func_eq_run hobj] at h h'
    exact outcome_unique h h'
  · simp only [adopt_async_func, hobj, Option.some.injEq] at h h'
    rw [← h, h']

/-- The coroutine ends in one way. -/
theorem EndsWith.unique {e e' : PyException ω} (h : EndsWith py M ops obj e)
    (h' : EndsWith py M ops obj e') : e = e' := by
  obtain ⟨rs, n, s, r, ⟨cr, hobj, hreach⟩, hend⟩ := h
  obtain ⟨rs', n', s', r', ⟨cr', hobj', hreach'⟩, hend'⟩ := h'
  obtain rfl : cr = cr' := by simpa [hobj] using hobj'
  obtain ⟨rfl, rfl, rfl⟩ := hreach.stop_unique (Or.inl ⟨e, hend, rfl⟩) hreach'
    (Or.inl ⟨e', hend', rfl⟩)
  simpa [hend] using hend'

end

/-- **When only the coroutine's own return is taken for a completion.** For every coroutine, every
assignment of completions to the operations that it awaits, those of nested adopted coroutines
included, and every object: the adopted coroutine completes with a value only if the coroutine
returns it, and fails with every exception from elsewhere in its `try` block, exactly if no
exception of the run is taken for what it is not. -/
theorem adopt_completes_by_return_iff (py : PyErrors ω) (M : PyIterator σ ω) (ops : Completions ω)
    (obj : Spawned σ ω) : CompletesByReturn py M ops obj ↔ NoFalseReturn py M ops obj := by
  constructor
  · intro h
    constructor
    · rintro x hx ⟨v, hv⟩
      obtain ⟨fuel, hadopt⟩ := hx.adopt_eq
      obtain ⟨fuel', x', hfails⟩ := h.fails x hx
      rw [on_exception_completed_iff.mpr hv] at hadopt
      cases adopt_outcome_unique hadopt hfails
    · intro e v hends hconstructs hv
      obtain ⟨fuel, hadopt⟩ := hends.adopt_eq
      rw [py.thrown_of_constructs hconstructs, on_exception_completed_iff.mpr hv] at hadopt
      obtain ⟨e', hends', hreturned⟩ := h.completes fuel v hadopt
      -- What the coroutine returns is what it ends with.
      obtain rfl := hends.unique hends'
      exact hreturned
  · intro h
    constructor
    · intro fuel v hadopt
      obtain ⟨e, hends, hconstructs, hv⟩ | ⟨x, hx, hv⟩ := completed_cases hadopt
      · exact ⟨e, hends, h.own e v hends hconstructs (on_exception_completed_iff.mp hv)⟩
      · exact absurd ⟨v, on_exception_completed_iff.mp hv⟩ (h.elsewhere x hx)
    · intro x hx
      obtain ⟨fuel, hadopt⟩ := hx.adopt_eq
      obtain ⟨x', hx'⟩ := on_exception_of_not_completes (h.elsewhere x hx)
      exact ⟨fuel, x', hx' ▸ hadopt⟩

/-- What an adopted coroutine completes with, as the operation that another coroutine awaits. -/
def Adopted.result : Adopted ω → Except (Thrown ω) (PyRef ω)
  | .completed v => .ok v
  | .failed x => .error x

/-- A callable that raises an exception where `adopt_async_func` calls it. -/
def Spawned.raising (e : PyException ω) : Spawned σ ω where
  has_await := false
  has_call := true
  await := .error (attribute_error "__await__")
  call_await := .error e

/-- Operations of which every awaitable completes as another adopted coroutine did. -/
def awaiting (w : Adopted ω) : Completions ω
  | _, .awaitable_wrapper => w.result
  | _, .executor_t | _, .cancellation_state_t | _, .throw_if_cancelled_0_t => .ok .none
  | _, .reset_cancellation_state_0_t | _, .reset_cancellation_state_2_t
  | _, .throw_if_cancelled_1_t => .ok ()

/-- An object whose `__class__` raises `StopIteration(v)`. -/
def Yielded.without_class (v : PyRef ω) : Yielded ω where
  isinstance _ := .error (.error_already_set (stop_iteration v))
  type_text := .ok ""

/-- An iterator that yields one object and returns. -/
def yield_one (y : Yielded ω) : PyIterator Bool ω where
  resume
    | false, _ => .yields y true
    | true, _ => .ends (stop_iteration .none)

/-- A coroutine awaits the `co_spawn` of a callable that raises `StopIteration(5)`: the inner
adopted coroutine fails, and the outer one completes with `5`, although its coroutine has not
returned. So does one that yields an object whose `__class__` raises `StopIteration(5)`. -/
theorem adopt_takes_inner_stop_iteration :
    (adopt_async_func plain_errors (end_at_once (stop_iteration (.object 0)))
        (succeeding (same_results .none)) (.raising (stop_iteration (.object 5))) 1).2 =
      some (.failed (.error_already_set (stop_iteration (.object 5)))) ∧
    (adopt_async_func plain_errors (await_one .awaitable_wrapper (.none : PyRef ℕ))
        (awaiting (.failed (.error_already_set (stop_iteration (.object 5))))) (.coroutine false)
        1).2 = some (.completed (.object 5)) ∧
    ¬ CompletesByReturn plain_errors (await_one .awaitable_wrapper (.none : PyRef ℕ))
        (awaiting (.failed (.error_already_set (stop_iteration (.object 5)))))
        (.coroutine false) ∧
    (adopt_async_func plain_errors (yield_one (.without_class (.object 5 : PyRef ℕ)))
        (succeeding (same_results .none)) (.coroutine false) 1).2 =
      some (.completed (.object 5)) ∧
    ¬ CompletesByReturn plain_errors (yield_one (.without_class (.object 5 : PyRef ℕ)))
        (succeeding (same_results .none)) (.coroutine false) := by
  have hawaited : (adopt_async_func plain_errors (await_one .awaitable_wrapper (.none : PyRef ℕ))
      (awaiting (.failed (.error_already_set (stop_iteration (.object 5))))) (.coroutine false)
      1).2 = some (.completed (.object 5)) := rfl
  have hyielded : (adopt_async_func plain_errors
      (yield_one (.without_class (.object 5 : PyRef ℕ))) (succeeding (same_results .none))
      (.coroutine false) 1).2 = some (.completed (.object 5)) := rfl
  refine ⟨rfl, hawaited, fun h => ?_, hyielded, fun h => ?_⟩
  · have hpoint : Point plain_errors (await_one .awaitable_wrapper (.none : PyRef ℕ))
        (awaiting (.failed (.error_already_set (stop_iteration (.object 5))))) (.coroutine false)
        [] 0 false Resumption.next := ⟨false, rfl, Reaches.refl 0 false Resumption.next⟩
    obtain ⟨fuel, x', hfails⟩ := h.fails _ (.operation hpoint rfl rfl rfl)
    cases adopt_outcome_unique hawaited hfails
  · have hpoint : Point plain_errors (yield_one (.without_class (.object 5 : PyRef ℕ)))
        (succeeding (same_results .none)) (.coroutine false) [] 0 false Resumption.next :=
      ⟨false, rfl, Reaches.refl 0 false Resumption.next⟩
    obtain ⟨fuel, x', hfails⟩ := h.fails _ (.isinstance hpoint rfl rfl)
    cases adopt_outcome_unique hyielded hfails

end AsioPy
