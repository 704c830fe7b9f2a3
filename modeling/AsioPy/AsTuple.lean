import AsioPy.CompletionToken

/-!
# Plain completions and completions as tuples

`register_async_op` defines every operation with a callback and with an awaitable, and each with
the option `as_tuple`. It binds the options to the token in a chain of eight branches. A plain
completion goes through `wrap_cb`, which has a null result object replaced by `None`; as a tuple it
goes through a type caster of its own, for callbacks and awaitables alike.

`same_completion_iff` says for which completions of `co_spawn` the forms deliver the same pair.
-/

namespace AsioPy

variable {σ ω κ ε α : Type}

/-- A completion token as `register_async_op` builds it, around a callback or `use_awaitable`. -/
inductive BoundToken (κ ε α : Type) where
  | handler (h : α)
  | as_tuple (t : BoundToken κ ε α)
  | bind_executor (exec : ε) (t : BoundToken κ ε α)
  | bind_cancellation_slot (cl : κ) (t : BoundToken κ ε α)

/-- The branches of `register_async_op`, which are the same in its three overloads. -/
def bind_token (cl : Option κ) (exec : Option ε) (as_tuple : Bool) (cb : α) : BoundToken κ ε α :=
  match cl, exec, as_tuple with
  | some cl, some exec, true =>
    .bind_cancellation_slot cl (.bind_executor exec (.as_tuple (.handler cb)))
  | _, some exec, true => .bind_executor exec (.as_tuple (.handler cb))
  | some cl, _, true => .bind_cancellation_slot cl (.as_tuple (.handler cb))
  | some cl, some exec, _ => .bind_cancellation_slot cl (.bind_executor exec (.handler cb))
  | some cl, _, _ => .bind_cancellation_slot cl (.handler cb)
  | _, some exec, _ => .bind_executor exec (.handler cb)
  | _, _, true => .as_tuple (.handler cb)
  | _, _, _ => .handler cb

/-- What the token is built around. -/
def BoundToken.inner : BoundToken κ ε α → α
  | .handler h => h
  | .as_tuple t | .bind_executor _ t | .bind_cancellation_slot _ t => t.inner

/-- The arguments of a completion arrive in one `std::tuple`: `as_tuple` packs them, and the other
adaptors hand on what they get. -/
def BoundToken.packs : BoundToken κ ε α → Bool
  | .handler _ => false
  | .as_tuple _ => true
  | .bind_executor _ t | .bind_cancellation_slot _ t => t.packs

/-- The executors and slots that are bound, from the outermost in. -/
def BoundToken.bound : BoundToken κ ε α → List (κ ⊕ ε)
  | .handler _ => []
  | .as_tuple t => t.bound
  | .bind_executor exec t => .inr exec :: t.bound
  | .bind_cancellation_slot cl t => .inl cl :: t.bound

/-- How a `co_spawn` completes: `handler(ex, obj)`, where the object is a null handle if the
coroutine failed. -/
structure SpawnCompletion (ω : Type) where
  ex : Option (CppException ω)
  obj : Option (PyRef ω)
  null_of_failed : ex.isSome → obj = none

/-- `type_caster<std::tuple<std::exception_ptr, object>>::cast` -/
def cast_tuple (py : PyInterpreter ω) (ex : Option (CppException ω)) (obj : Option (PyRef ω)) :
    Except (CppException ω) (PyArg ω) :=
  match cast_exception_ptr py ex with
  | .error x => .error x
  -- The second item is the pointer of the object, be it null.
  | .ok pe => .ok (.tuple [some pe, obj.map .ref])

/-- A completion of a token around a callback. -/
def complete_callback (py : PyInterpreter ω) (token : BoundToken κ ε (PyCallable σ ω))
    (c : SpawnCompletion ω) (t : CallLog σ ω) : Except (CppException ω) Unit × CallLog σ ω :=
  if token.packs then wrap_cb_args py token.inner (cast_tuple py c.ex c.obj) t
  else wrap_cb py token.inner c.ex c.obj t

/-- A completion of a token around `use_awaitable`: the object that `awaitable_wrapper::impl::await`
returns, maybe a null handle. -/
def complete_await (py : PyInterpreter ω) (token : BoundToken κ ε Unit) (c : SpawnCompletion ω) :
    Except (CppException ω) (Option (PyArg ω)) :=
  if token.packs then (cast_tuple py c.ex c.obj).map some
  else
    match c.ex with
    | some x => .error x
    | none => .ok (c.obj.map fun r => .item (.ref r))

/-- The pair that every form of the operation delivers, whatever else is bound to the token. -/
structure DeliversPair (κ ε σ : Type) (py : PyInterpreter ω) (c : SpawnCompletion ω)
    (first : PyItem ω) (second : PyRef ω) : Prop where
  callback : ∀ (cl : Option κ) (exec : Option ε) (func : PyCallable σ ω) (s : σ),
    (complete_callback py (bind_token cl exec false func) c (.new s)).2.calls.head? =
      some [.item first, .item (.ref second)]
  tuple_callback : ∀ (cl : Option κ) (exec : Option ε) (func : PyCallable σ ω) (s : σ),
    (complete_callback py (bind_token cl exec true func) c (.new s)).2.calls =
      [[.tuple [some first, some (.ref second)]]]
  tuple_await : ∀ (cl : Option κ) (exec : Option ε),
    complete_await py (bind_token cl exec true ()) c =
      .ok (some (.tuple [some first, some (.ref second)]))

/-- All forms deliver the translated exception or `None`, and the result or `None`. -/
def SameCompletion (κ ε σ : Type) (py : PyInterpreter ω) (c : SpawnCompletion ω) : Prop :=
  ∃ first, cast_exception_ptr py c.ex = .ok first ∧
    DeliversPair κ ε σ py c first (c.obj.getD .none)

/-- The chain leaves the callback as it is. -/
@[simp] theorem inner_bind_token (cl : Option κ) (exec : Option ε) (as_tuple : Bool) (cb : α) :
    (bind_token cl exec as_tuple cb).inner = cb := by
  rcases cl with - | cl <;> rcases exec with - | exec <;> cases as_tuple <;> rfl

/-- The chain packs the arguments exactly if it is asked to. -/
@[simp] theorem packs_bind_token (cl : Option κ) (exec : Option ε) (as_tuple : Bool) (cb : α) :
    (bind_token cl exec as_tuple cb).packs = as_tuple := by
  rcases cl with - | cl <;> rcases exec with - | exec <;> cases as_tuple <;> rfl

/-- The chain binds the options that are given, the slot outside. -/
theorem bound_bind_token (cl : Option κ) (exec : Option ε) (as_tuple : Bool) (cb : α) :
    (bind_token cl exec as_tuple cb).bound =
      (cl.map Sum.inl).toList ++ (exec.map Sum.inr).toList := by
  rcases cl with - | cl <;> rcases exec with - | exec <;> cases as_tuple <;> rfl

/-- The first call of the adapter is with the exception and the result or `None`. -/
theorem head_calls_wrap_cb {py : PyInterpreter ω} {e : Option (CppException ω)} {pe : PyItem ω}
    (hpe : cast_exception_ptr py e = .ok pe) (func : PyCallable σ ω) (obj : Option (PyRef ω))
    (s : σ) :
    (wrap_cb py func e obj (.new s)).2.calls.head? =
      some [.item pe, .item (.ref (obj.getD .none))] := by
  have hfirst : ∀ r, (func.call_with py e [.item (.ref r)] (.new s)).2.calls =
      [[.item pe, .item (.ref r)]] := by
    intro r
    rw [PyCallable.call_with_ok hpe, PyCallable.calls_call]
    rfl
  by_cases hobj : obj.getD .none = .none
  · obtain hone | htwo := wrap_cb_none_cases py func e hobj (.new s)
    · rw [hone, hfirst, hobj]
      rfl
    · rw [htwo, PyCallable.call_with_ok hpe, PyCallable.calls_call, hfirst, hobj]
      rfl
  · rw [wrap_cb_object py func e hobj, hfirst]
    rfl

/-- **When the forms deliver the same completion.** For every completion of a `co_spawn`, and
whatever executor and slot are bound: the plain callback, the callback with a tuple and the awaited
tuple receive the same pair, with no null item, exactly if there is a result object. -/
theorem same_completion_iff (py : PyInterpreter ω) (c : SpawnCompletion ω) :
    SameCompletion κ ε σ py c ↔ c.obj.isSome := by
  constructor
  · rintro ⟨first, hfirst, hdelivers⟩
    have hawait := hdelivers.tuple_await none none
    rcases hobj : c.obj with - | r
    · -- The tuple's second item is null.
      simp [complete_await, cast_tuple, hfirst, hobj, Except.map] at hawait
    · rfl
  · intro hobj
    obtain ⟨r, hr⟩ := Option.isSome_iff_exists.mp hobj
    have hex : c.ex = none := by
      by_contra hex
      have hnull := c.null_of_failed (Option.isSome_iff_ne_none.mpr hex)
      rw [hr] at hnull
      cases hnull
    have hcast : cast_exception_ptr py c.ex = .ok (.ref .none) := by rw [hex]; rfl
    have htuple : cast_tuple py c.ex c.obj = .ok (.tuple [some (.ref .none), some (.ref r)]) := by
      rw [cast_tuple, hcast, hr]
      rfl
    refine ⟨.ref .none, hcast, ?_, ?_, ?_⟩
    · intro cl exec func s
      simp only [complete_callback, packs_bind_token, inner_bind_token, Bool.false_eq_true,
        if_false]
      exact head_calls_wrap_cb hcast func c.obj s
    · intro cl exec func s
      simp only [complete_callback, packs_bind_token, inner_bind_token, if_true, htuple]
      rw [wrap_cb_args, PyCallable.calls_call, hr]
      rfl
    · intro cl exec
      simp only [complete_await, packs_bind_token, if_true, htuple]
      rw [hr]
      rfl

/-- The token of a callback with the option `as_tuple`. -/
def tuple_token : BoundToken ℕ ℕ (PyCallable ℕ ℕ) := bind_token none none true calls_log_wrongly

/-- A coroutine that failed: the tuple that a callback gets has a null item. -/
theorem failed_tuple_has_null :
    ∃ c : SpawnCompletion ℕ, c.ex = some (.error_already_set (type_error "failed")) ∧
      (complete_callback no_traceback tuple_token c (.new 0)).2.calls =
        [[.tuple [some (.exception (type_error "failed")), none]]] ∧
      ¬ SameCompletion ℕ ℕ ℕ no_traceback c := by
  refine ⟨⟨some (.error_already_set (type_error "failed")), none, fun _ => rfl⟩, rfl, rfl, ?_⟩
  rintro ⟨first, hfirst, hdelivers⟩
  have hawait := hdelivers.tuple_await none none
  obtain rfl : PyItem.exception (type_error "failed") = first := Except.ok.inj hfirst
  cases hawait

end AsioPy
