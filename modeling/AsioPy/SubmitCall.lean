import AsioPy.AsyncOp

/-!
# Calls of `post`, `dispatch` and `defer`

Each of the three functions is registered twice under its name: with a parameter `executor` in front
of the handler, and without it, where the handler's own executor is used. Both have the option
`executor` behind the handler, so a call like `post(callback=f, executor=e)` can be read in two
ways.

`submit_on_executor_iff` says how it is read. If a call of the second group gave an executor by
keyword and nothing by position, the overload of the same kind in the first group would serve it in
the same pass, with the option left at its default (`attempt_on_executor`), and the first group
comes first.
-/

namespace AsioPy

open Binding

variable {β κ ε : Type}

/-- The functions of asio that run a handler on an executor. -/
inductive Submission where
  | post
  | dispatch
  | defer
  deriving DecidableEq

/-- What the overloads call. -/
inductive SubmitOp where
  /-- `asio::post(exec, tk)` -/
  | on_executor (f : Submission)
  /-- `asio::post(tk)` -/
  | on_associated (f : Submission)
  deriving DecidableEq

/-- The registration of one of the functions. -/
def register_submission (py : Casters β κ ε) (f : Submission) : List (AsyncOverload β SubmitOp) :=
  register_async_op (.on_executor f) [py.executor_param "executor"] ++
    register_async_op (.on_associated f) []

/-- `register_post` -/
def register_post (py : Casters β κ ε) : List (AsyncOverload β SubmitOp) :=
  register_submission py .post

/-- `register_dispatch` -/
def register_dispatch (py : Casters β κ ε) : List (AsyncOverload β SubmitOp) :=
  register_submission py .dispatch

/-- `register_defer` -/
def register_defer (py : Casters β κ ε) : List (AsyncOverload β SubmitOp) :=
  register_submission py .defer

/-- An object that loads as an executor does not load as a handler, nor as a slot, and is not
`None`. -/
def Casters.ExecutorOnly (py : Casters β κ ε) (v : β) : Prop :=
  (py.executor true v).isSome →
    py.function v = false ∧ py.detached v = false ∧ py.is_none v = false ∧ py.slot v = none

/-- What an overload of the second group serves, without positional arguments and with an executor
by keyword, the one of the same kind in the first group serves. -/
theorem attempt_on_executor {py : Casters β κ ε} {convert : Bool} {f : Submission}
    {c : Call String β} {kind : TokenOverload} {s : Started β κ ε SubmitOp}
    (hs : AsyncOverload.attempt py convert c ⟨.on_associated f, [], kind⟩ = some s)
    (hargs : c.args = []) {v : β} (hv : c.kwargs.lookup "executor" = some v)
    (hnone : py.is_none v = false) :
    (AsyncOverload.attempt py convert c (⟨.on_executor f, [py.executor_param "executor"], kind⟩ :
      AsyncOverload β SubmitOp)).isSome := by
  obtain ⟨args, kw⟩ := c
  obtain rfl : args = [] := hargs
  obtain ⟨vs, hbound, -, htoken, -⟩ := attempt_eq_some_iff.mp hs
  obtain ⟨h, front, options, rfl, hvs, hoptions, hfront⟩ := Casters.load_token_eq_some htoken
  obtain ⟨x, y, z, cl, exec, as_tuple, rfl, hx, hy, hz, -⟩ :=
    Casters.bind_options_eq_some hoptions
  -- The keyword has gone to the option.
  obtain ⟨-, hoption, -⟩ := options_eq hbound hvs hfront.length_eq
  obtain rfl : y = v := by
    rw [hoption, option_value]
    simp [own_names, hv]
  have hload : loads_all convert [py.executor_param "executor"] [y] = true := by
    rw [Casters.optional, hnone] at hy
    obtain ⟨e, he, -⟩ := Option.map_eq_some_iff.mp hy
    simp [loads_all, Casters.executor_param, he]
  -- With another parameter of the name in front, the option is left with its default.
  obtain rfl : vs = front ++ [x, y, z] := hvs
  have hset : (front ++ [x, y, z]).set (h.kind.names.length + 1) py.none_ =
      front ++ [x, py.none_, z] := by
    rw [← hfront.length_eq]
    simp
  have hnodup : ((AsyncOverload.params py (⟨SubmitOp.on_associated f, [], h.kind⟩ :
      AsyncOverload β SubmitOp)).map Binding.Param.name).Nodup := by
    rw [names_params]
    cases h <;> simp [own_names, Handler.kind, TokenOverload.names]
  have hoption' : (AsyncOverload.params py (⟨SubmitOp.on_associated f, [], h.kind⟩ :
      AsyncOverload β SubmitOp))[h.kind.names.length + 1]? =
        some ⟨"executor", some py.none_⟩ := by
    cases h <;> rfl
  have hbound' := hbound.cons_keyword (p := ⟨"executor", none⟩) hnodup hv hoption'
  rw [hset] at hbound'
  have hdefault : py.optional (py.executor convert) py.none_ = some none :=
    if_pos py.is_none_none
  exact Option.isSome_iff_exists.mpr
    ⟨_, attempt_of_passes rfl hload hfront hx hdefault hz hbound'⟩

/-- **Where `post`, `dispatch` and `defer` run the handler.** A call that is served runs the handler
on the executor that the call gives first or by the keyword `executor`, if that is an executor, and
on the handler's own executor else. A call without positional arguments binds no executor to the
handler. -/
theorem submit_on_executor_iff {py : Casters β κ ε} {f : Submission} {c : Call String β}
    {s : Started β κ ε SubmitOp}
    (honly : ∀ v, first_value c "executor" = some v → py.ExecutorOnly v)
    (hs : call_overloads py (register_submission py f) c = some s) :
    (s.op = .on_executor f ↔ ∃ v, first_value c "executor" = some v ∧ (py.executor true v).isSome) ∧
      (c.args = [] → ∀ b ∈ s.token.bound, ∃ cl, b = .inl cl) := by
  obtain ⟨convert, ⟨o, ho, hs⟩ | ⟨hfirst, o, ho, hs⟩⟩ := Overloads.resolve_append hs
  · -- The first parameter has loaded, and takes the keyword from the option.
    obtain ⟨kind, rfl⟩ := mem_register_async_op.mp ho
    have hfree : OwnNamesFree [py.executor_param "executor"] := by
      simp [OwnNamesFree, own_names, Casters.executor_param]
    obtain ⟨v, hv, hload⟩ := attempt_first rfl rfl hs
    have hop := (attempt_asks hfree hs).1
    refine ⟨iff_of_true hop ⟨v, hv, (py.executor_param "executor").loads_true hload⟩,
      fun hargs => not_bound_of_option hfree hs ?_⟩
    rw [option_value, hargs]
    simp [own_names, Casters.executor_param, Casters.optional, py.is_none_none]
  · obtain ⟨kind, rfl⟩ := mem_register_async_op.mp ho
    have hfree : OwnNamesFree ([] : List (TypedParam β)) := by simp [OwnNamesFree, own_names]
    obtain ⟨hop, h, -, -, -, hkind, hasks, -⟩ := attempt_asks hfree hs
    -- An executor by keyword alone would be served by the first group.
    have hkeyword : ∀ v, c.args = [] → c.kwargs.lookup "executor" = some v →
        py.is_none v = true := by
      intro v hargs hv
      by_contra hnone
      have hsome := attempt_on_executor hs hargs hv (Bool.not_eq_true _ ▸ hnone)
      rw [hfirst _ (mem_register_async_op.mpr ⟨kind, rfl⟩)] at hsome
      cases hsome
    refine ⟨iff_of_false (by rw [hop]; simp) ?_, fun hargs => not_bound_of_option hfree hs ?_⟩
    · rintro ⟨v, hv, hexec⟩
      obtain ⟨hfunc, hdet, hnone, hslot⟩ := honly v hv hexec
      rcases Option.or_eq_some_iff.mp hv with harg | ⟨hargs, hkw⟩
      · -- What is given first is the handler or the slot.
        cases h with
        | callback func =>
          have hv' := hasks.1
          rw [handler_value, List.length_nil, harg] at hv'
          obtain rfl : v = func := Option.some.inj hv'
          rw [hasks.2.1] at hfunc
          cases hfunc
        | detached =>
          obtain ⟨⟨w, hv', hdet'⟩, -⟩ := hasks
          rw [handler_value, List.length_nil, harg] at hv'
          obtain rfl : v = w := Option.some.inj hv'
          rw [hdet'] at hdet
          cases hdet
        | use_awaitable =>
          rcases hasks.2.2 v harg with h | h
          · rw [hnone] at h
            cases h
          · rw [hslot] at h
            cases h
      · -- By keyword it can only be `None`.
        have hnone' := hkeyword v (by simpa using hargs) hkw
        rw [hnone] at hnone'
        cases hnone'
    · rw [option_value, hargs]
      rcases hkw : c.kwargs.lookup "executor" with - | v
      · simp [own_names, Casters.optional, py.is_none_none]
      · simp [own_names, Casters.optional, hkeyword v hargs hkw]

/-- An executor that has to be converted and a function, both by keyword. -/
def submit_keywords : Call String SampleObject :=
  ⟨[], keywords ["executor", "callback"] [.strand, .func]⟩

/-- The strand is where the function runs, and it is not bound to it. -/
theorem submit_on_executor_iff_keywords :
    (SubmitOp.on_executor .post = .on_executor .post ↔
      ∃ v, first_value submit_keywords "executor" = some v ∧
        (sample_casters.executor true v).isSome) ∧
    (submit_keywords.args = [] → ∀ b ∈ (bind_token none none false
      (Handler.callback SampleObject.func) : BoundToken Unit SampleObject _).bound,
        ∃ cl, b = .inl cl) := by
  have hs : call_overloads sample_casters (register_post sample_casters) submit_keywords =
      some ⟨.on_executor .post, [.strand], bind_token none none false (.callback .func)⟩ := rfl
  have honly : ∀ v, first_value submit_keywords "executor" = some v →
      sample_casters.ExecutorOnly v := by
    intro v hv
    obtain rfl : SampleObject.strand = v := Option.some.inj hv
    exact fun _ => ⟨rfl, rfl, rfl, rfl⟩
  exact submit_on_executor_iff honly hs

end AsioPy
