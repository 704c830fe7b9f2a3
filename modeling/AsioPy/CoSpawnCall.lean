import AsioPy.AsyncOp

/-!
# Calls of `co_spawn`

`register_co_spawn` registers two operations under the name `co_spawn`, both with the parameters
`executor` and `awaitable`: the first awaits an `awaitable_wrapper`, the second adopts any other
object, by the loop of `adopt_async_func`. An object of the wrapper's class loads for both, so it is
the order of the overloads, over both passes, that keeps a wrapper from being adopted: what an
overload of the second group serves, the overload of the same kind in the first one serves as well
if the awaitable is a wrapper (`attempt_wrapper`).

The parameter `executor` is in front of the option `executor`, so the keyword is used up by it and
the option can be given by position only (`executor_keyword_unbound`).
-/

namespace AsioPy

open Binding

variable {β κ ε ω : Type}

/-- A call that gives the keyword `executor` to an operation with a parameter of that name binds no
executor to the token. -/
theorem executor_keyword_unbound {py : Casters β κ ε} {convert : Bool} {c : Call String β}
    {o : AsyncOverload β ω} {s : Started β κ ε ω} (hfree : OwnNamesFree o.own)
    (hown : "executor" ∈ own_names o.own) (hkw : "executor" ∈ c.kwargs)
    (hs : o.attempt py convert c = some s) : ∀ b ∈ s.token.bound, ∃ cl, b = .inl cl := by
  obtain ⟨vs, hbound, -⟩ := attempt_eq_some_iff.mp hs
  have hplace : c.args[o.own.length + o.kind.names.length + 1]? = none := by
    -- The option would have a positional argument and the keyword.
    rw [List.getElem?_eq_none_iff]
    by_contra hlt
    have hp : (o.params py)[o.own.length + o.kind.names.length + 1]? =
        some ⟨"executor", some py.none_⟩ := by
      rw [AsyncOverload.params, ← List.append_assoc, List.getElem?_append_right (by simp)]
      simp [Casters.options]
    refine hbound.once ⟨"executor", some py.none_⟩
      (List.mem_of_getElem? (i := o.own.length + o.kind.names.length + 1) ?_) hkw
    rw [List.getElem?_take_of_lt (not_le.mp hlt), hp]
  refine not_bound_of_option hfree hs ?_
  rw [option_value, hplace, if_pos hown, Option.none_or, Option.getD_none, Casters.optional,
    if_pos py.is_none_none]

/-- The operations of the name `co_spawn`. -/
inductive CoSpawnOp where
  /-- `asio::co_spawn(exec, std::move(aw).await(), tk)` -/
  | await_wrapper
  /-- `asio::co_spawn(exec, adopt_async_func(obj), token)` -/
  | adopt_async_func
  deriving DecidableEq

/-- The parameter `awaitable` of `co_spawn`: an `awaitable_wrapper&`, or any object. -/
def co_spawn_awaitable (load : β → Bool) : TypedParam β := class_param "awaitable" load

/-- `register_co_spawn`, where `is_wrapper` tells the objects of `awaitable_wrapper`. -/
def register_co_spawn (py : Casters β κ ε) (is_wrapper : β → Bool) :
    List (AsyncOverload β CoSpawnOp) :=
  register_async_op .await_wrapper [py.executor_param "executor", co_spawn_awaitable is_wrapper] ++
    register_async_op .adopt_async_func
      [py.executor_param "executor", co_spawn_awaitable fun _ => true]

/-- An overload of the first group serves what the one of the second does, if the awaitable is a
wrapper. -/
theorem attempt_wrapper {py : Casters β κ ε} {is_wrapper : β → Bool} {convert : Bool}
    {c : Call String β} {kind : TokenOverload} {s : Started β κ ε CoSpawnOp}
    (hs : AsyncOverload.attempt py convert c ⟨.adopt_async_func,
      [py.executor_param "executor", co_spawn_awaitable fun _ => true], kind⟩ = some s)
    {v : β} (hv : s.values[1]? = some v) (hwrapper : is_wrapper v = true) :
    (AsyncOverload.attempt py convert c (⟨.await_wrapper,
      [py.executor_param "executor", co_spawn_awaitable is_wrapper], kind⟩ :
        AsyncOverload β CoSpawnOp)).isSome := by
  obtain ⟨vs, hbound, hown, htoken, -, hvalues⟩ := attempt_eq_some_iff.mp hs
  rw [Option.isSome_iff_exists]
  refine ⟨⟨.await_wrapper, vs.take 2, s.token⟩, attempt_eq_some_iff.mpr
    ⟨vs, hbound, ?_, htoken, rfl, rfl⟩⟩
  -- The two overloads differ in the caster of the awaitable only.
  rw [hvalues] at hv
  show loads_all convert _ (vs.take 2) = true
  have hown' : loads_all convert [py.executor_param "executor", co_spawn_awaitable fun _ => true]
      (vs.take 2) = true := hown
  have hv' : (vs.take 2)[1]? = some v := hv
  rcases hvs : vs.take 2 with - | ⟨e, - | ⟨w, rest⟩⟩
  · rfl
  · rw [hvs] at hown'
    simpa [loads_all, Casters.executor_param] using hown'
  · rw [hvs] at hown' hv'
    obtain rfl : w = v := by simpa using hv'
    simpa [loads_all, Casters.executor_param, co_spawn_awaitable, class_param, hwrapper] using hown'

/-- **`co_spawn` of a wrapper and of any other object.** A call of `co_spawn` that is served awaits
its second argument as an `awaitable_wrapper` exactly if it is one, and adopts it else, in whichever
pass it is served; and if it gives the keyword `executor`, which is the first argument's name, no
executor is bound to the token. -/
theorem co_spawn_awaits_wrapper_iff {py : Casters β κ ε} {is_wrapper : β → Bool}
    {c : Call String β} {s : Started β κ ε CoSpawnOp}
    (hs : call_overloads py (register_co_spawn py is_wrapper) c = some s) :
    (s.op = .await_wrapper ↔ ∃ v, s.values[1]? = some v ∧ is_wrapper v = true) ∧
      ("executor" ∈ c.kwargs → ∀ b ∈ s.token.bound, ∃ cl, b = .inl cl) := by
  -- The call is served by the first group, or by the second where the first refuses it.
  obtain ⟨convert, ⟨o, ho, hs⟩ | ⟨hnone, o, ho, hs⟩⟩ := Overloads.resolve_append hs
  · obtain ⟨kind, rfl⟩ := mem_register_async_op.mp ho
    obtain ⟨vs, hbound, hown, -, hop, hvalues⟩ := attempt_eq_some_iff.mp hs
    refine ⟨iff_of_true hop ?_, fun hkw => executor_keyword_unbound ?_ ?_ hkw hs⟩
    · -- The two values are bound, and the second loads as a wrapper.
      have hlen := hbound.length_eq
      rw [hvalues]
      rcases vs with - | ⟨e, - | ⟨v, rest⟩⟩
      · cases hlen
      · simp [AsyncOverload.params, Casters.options] at hlen
      · have hload : loads_all convert [py.executor_param "executor", co_spawn_awaitable is_wrapper]
            [e, v] = true := hown
        simp only [loads_all, List.zip_cons_cons, List.all_cons, Bool.and_eq_true] at hload
        exact ⟨v, rfl, hload.2.1⟩
    · simp [OwnNamesFree, own_names, Casters.executor_param, co_spawn_awaitable, class_param]
    · simp [own_names, Casters.executor_param]
  · obtain ⟨kind, rfl⟩ := mem_register_async_op.mp ho
    obtain ⟨vs, -, -, -, hop, -⟩ := attempt_eq_some_iff.mp hs
    refine ⟨iff_of_false (by rw [hop]; simp) ?_, fun hkw => executor_keyword_unbound ?_ ?_ hkw hs⟩
    · -- The overload of the first group would have served the call.
      rintro ⟨v, hv, hwrapper⟩
      have hsome := attempt_wrapper hs hv hwrapper
      rw [hnone _ (mem_register_async_op.mpr ⟨kind, rfl⟩)] at hsome
      cases hsome
    · simp [OwnNamesFree, own_names, Casters.executor_param, co_spawn_awaitable, class_param]
    · simp [own_names, Casters.executor_param]

/-- A wrapper is awaited, also where the executor has to be converted. -/
theorem co_spawn_awaits_wrapper_iff_strand :
    CoSpawnOp.await_wrapper = .await_wrapper ↔
      ∃ v, [SampleObject.strand, .wrapper][1]? = some v ∧ decide (v = .wrapper) = true := by
  have hs : call_overloads sample_casters (register_co_spawn sample_casters
      fun v => decide (v = .wrapper)) ⟨[.strand, .wrapper], as_tuple_keyword⟩ =
        some ⟨.await_wrapper, [.strand, .wrapper], bind_token none none true .use_awaitable⟩ := rfl
  exact (co_spawn_awaits_wrapper_iff hs).1

end AsioPy
