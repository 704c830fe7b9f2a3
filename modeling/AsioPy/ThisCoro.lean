import AsioPy.CoSpawn
import Mathlib.Logic.Relation

/-!
# What an adopted coroutine can await

`register_this_coro` and `register_awaitable` give classes an `__await__`, a generator that yields
the object or its wrapper; `adopt_async_func` takes what is yielded through its chain of classes.
`PyStep` is Python in between: coroutines that await such objects and one another, as a stack of
frames. `AdoptStep` adds the driver, and `adopt_loop_reaches` says that its loop goes through the
same states.

`unsupported_iff` says which objects fall through the chain. It rests on two facts: what is on the
stack was awaited by a coroutine (`awaited_of_mem_frames`), and what is yielded is on the stack, or
a wrapper (`PyStep.yielded_cases`).
-/

namespace AsioPy

open Relation

/-- The classes of `register_this_coro`. -/
inductive ThisCoroClass where
  | executor_t
  | cancellation_state_t
  | reset_cancellation_state_0_t
  | reset_cancellation_state_1_t
  | reset_cancellation_state_2_t
  | throw_if_cancelled_0_t
  | throw_if_cancelled_1_t
  deriving DecidableEq, Repr

/-- The classes that have an `__await__`. -/
inductive AwaitableClass (κ ε : Type) where
  | this_coro (c : ThisCoroClass)
  /-- `awaitable`, the class of `awaitable_wrapper`. -/
  | awaitable
  /-- The class of `asio::awaitable<T, Executor>`. -/
  | awaitable_of (T : κ) (Executor : ε)
  deriving DecidableEq

/-- The overloads of `reset_cancellation_state`. -/
inductive ResetOverload where
  | none | filter | in_out_filter
  deriving DecidableEq, Repr

/-- How an object of one of these classes comes about. -/
inductive Construction (κ ε : Type) where
  /-- The constructor that is bound. -/
  | init (c : ThisCoroClass)
  /-- `this_coro.executor` -/
  | executor
  /-- `this_coro.cancellation_state` -/
  | cancellation_state
  /-- `this_coro.reset_cancellation_state` -/
  | reset_cancellation_state (overload : ResetOverload)
  /-- `this_coro.throw_if_cancelled`, with the value or without. -/
  | throw_if_cancelled (value : Option Bool)
  /-- A bound function returns an `asio::awaitable<T, Executor>`, and the caster wraps it. -/
  | cast (T : κ) (Executor : ε)
  /-- `__new__`, which is all there is for a class without a constructor. -/
  | new (c : AwaitableClass κ ε)
  deriving DecidableEq

variable {κ ε σ ω : Type}

/-- The class of the object. -/
def Construction.cls : Construction κ ε → AwaitableClass κ ε
  | .init c => .this_coro c
  | .executor => .this_coro .executor_t
  | .cancellation_state => .this_coro .cancellation_state_t
  | .reset_cancellation_state .none => .this_coro .reset_cancellation_state_0_t
  -- The filter is passed on twice.
  | .reset_cancellation_state .filter => .this_coro .reset_cancellation_state_2_t
  | .reset_cancellation_state .in_out_filter => .this_coro .reset_cancellation_state_2_t
  | .throw_if_cancelled none => .this_coro .throw_if_cancelled_0_t
  | .throw_if_cancelled (some _) => .this_coro .throw_if_cancelled_1_t
  | .cast _ _ => .awaitable
  | .new c => c

/-- An object of one of the classes, or of a Python class that is derived from it and leaves
`__class__` alone. -/
structure AwaitedObject (κ ε ω : Type) where
  made_by : Construction κ ε
  /-- `py::cast<std::string>(py::str(y.get_type()))` -/
  type_text : Except (PyFailure ω) String

/-- The class that the driver's chain tests for. -/
def AwaitKind.cls : AwaitKind → AwaitableClass κ ε
  | .awaitable_wrapper => .awaitable
  | .executor_t => .this_coro .executor_t
  | .cancellation_state_t => .this_coro .cancellation_state_t
  | .reset_cancellation_state_0_t => .this_coro .reset_cancellation_state_0_t
  | .reset_cancellation_state_2_t => .this_coro .reset_cancellation_state_2_t
  | .throw_if_cancelled_0_t => .this_coro .throw_if_cancelled_0_t
  | .throw_if_cancelled_1_t => .this_coro .throw_if_cancelled_1_t

/-- The object as the driver sees it. -/
def AwaitedObject.yielded [DecidableEq κ] [DecidableEq ε] (o : AwaitedObject κ ε ω) :
    Yielded ω where
  isinstance k := .ok (o.made_by.cls = k.cls)
  type_text := o.type_text

/-- The caster of `asio::awaitable<T, Executor>` may load the object: it is an
`awaitable_wrapper`. -/
def AwaitedObject.loads (o : AwaitedObject κ ε ω) : Prop := o.made_by.cls = .awaitable

/-- What a coroutine does next: it awaits an object or another coroutine, or it ends. To return a
value is to end with a `StopIteration`. -/
inductive CoroutineAction (κ ε σ ω : Type) where
  | await_object (o : AwaitedObject κ ε ω) (s : σ)
  | await_coroutine (child s : σ)
  | ends (e : PyException ω)

/-- Python coroutines by what they can do from a state when they are resumed. -/
structure PyCoroutines (κ ε σ ω : Type) where
  runs : σ → Resumption ω → CoroutineAction κ ε σ ω → Prop

/-- A frame on the stack. -/
inductive PyFrame (κ ε σ ω : Type) where
  | coroutine (s : σ)
  /-- The generator of the object's `__await__`, not started. -/
  | await_impl (o : AwaitedObject κ ε ω)
  /-- The generator at its `yield`. -/
  | await_impl_yielded (o : AwaitedObject κ ε ω)

/-- Where Python is, the innermost frame first. -/
inductive PyControl (κ ε σ ω : Type) where
  /-- The innermost frame is resumed. -/
  | resumed (frames : List (PyFrame κ ε σ ω)) (r : Resumption ω)
  /-- The frame within these ended with an exception. -/
  | ended (frames : List (PyFrame κ ε σ ω)) (e : PyException ω)
  /-- The object was yielded through all frames. -/
  | yielded (frames : List (PyFrame κ ε σ ω)) (o : AwaitedObject κ ε ω)

/-- How `await` resumes a frame whose inner one ended: with the value, or with the exception. -/
def PyException.handed_on (e : PyException ω) : Resumption ω :=
  match e.returned with
  | some v => .of v
  | none => .throw (.error_already_set e)

/-- One step of Python. -/
inductive PyStep (P : PyCoroutines κ ε σ ω) : PyControl κ ε σ ω → PyControl κ ε σ ω → Prop
  | await_object {s s' fs r o} (h : P.runs s r (.await_object o s')) :
      PyStep P (.resumed (.coroutine s :: fs) r)
        (.resumed (.await_impl o :: .coroutine s' :: fs) .next)
  | await_coroutine {s s' fs r child} (h : P.runs s r (.await_coroutine child s')) :
      PyStep P (.resumed (.coroutine s :: fs) r)
        (.resumed (.coroutine child :: .coroutine s' :: fs) .next)
  | ends {s fs r e} (h : P.runs s r (.ends e)) :
      PyStep P (.resumed (.coroutine s :: fs) r) (.ended fs e)
  /-- `res = yield self` -/
  | yield_self {fs o} (h : ∀ T Executor, o.made_by.cls ≠ .awaitable_of T Executor) :
      PyStep P (.resumed (.await_impl o :: fs) .next) (.yielded (.await_impl_yielded o :: fs) o)
  /-- `res = yield self.__to_awaitable_wrapper()`, whose result is cast. -/
  | yield_wrapper {fs o w T Executor T' Executor'}
      (h : o.made_by.cls = .awaitable_of T Executor) (hload : o.loads)
      (hw : w.made_by = .cast T' Executor') :
      PyStep P (.resumed (.await_impl o :: fs) .next) (.yielded (.await_impl_yielded o :: fs) w)
  /-- The caster does not load `self`, and pybind11 raises. -/
  | to_awaitable_wrapper_raises {fs o e T Executor} (h : o.made_by.cls = .awaitable_of T Executor)
      (hload : ¬ o.loads) (he : e.cls = ⟨some "<class 'TypeError'>", false⟩) :
      PyStep P (.resumed (.await_impl o :: fs) .next) (.ended fs e)
  /-- `return res` -/
  | await_impl_returns {fs o r e v} (hr : r = .of v) (he : e.returned = some v) :
      PyStep P (.resumed (.await_impl_yielded o :: fs) r) (.ended fs e)
  /-- The `yield` raises what is thrown into the generator. -/
  | await_impl_raises {fs o e} :
      PyStep P (.resumed (.await_impl_yielded o :: fs) (.throw (.error_already_set e)))
        (.ended fs e)
  | hand_on {f fs e} : PyStep P (.ended (f :: fs) e) (.resumed (f :: fs) e.handed_on)

/-- Where `adopt_async_func` is, after a number of operations. -/
inductive AdoptState (κ ε σ ω : Type) where
  | running (n : ℕ) (c : PyControl κ ε σ ω)
  | finished (a : Adopted ω)

variable [DecidableEq κ] [DecidableEq ε]

/-- One step of `adopt_async_func`: one of Python, or what the loop does with what it yielded and
with its end. -/
inductive AdoptStep (py : PyErrors ω) (P : PyCoroutines κ ε σ ω) (ops : Completions ω) :
    AdoptState κ ε σ ω → AdoptState κ ε σ ω → Prop
  | python {n c c'} (h : PyStep P c c') : AdoptStep py P ops (.running n c) (.running n c')
  | awaited {n fs o in_} (h : await_yielded ops n o.yielded = .ok in_) :
      AdoptStep py P ops (.running n (.yielded fs o)) (.running (n + 1) (.resumed fs (.of in_)))
  | throws {n fs o x} (h : await_yielded ops n o.yielded = .error x) :
      AdoptStep py P ops (.running n (.yielded fs o)) (.finished (on_exception py x))
  | ended {n e} : AdoptStep py P ops (.running n (.ended [] e))
      (.finished (on_exception py (py.thrown e)))

/-- The state in which the coroutine is first resumed. -/
def AdoptState.start (s : σ) : AdoptState κ ε σ ω := .running 0 (.resumed [.coroutine s] .next)

/-- The states of a run over the coroutine. -/
def Reaches (py : PyErrors ω) (P : PyCoroutines κ ε σ ω) (ops : Completions ω) (s : σ)
    (st : AdoptState κ ε σ ω) : Prop :=
  ReflTransGen (AdoptStep py P ops) (.start s) st

/-- The chain comes to its last branch: "Unsupported object awaited in co_spawn". -/
def AdoptState.Unsupported (st : AdoptState κ ε σ ω) : Prop :=
  ∃ n fs o, st = .running n (.yielded fs o) ∧ o.yielded.kind = .ok none

/-- A coroutine awaits the object in this state. -/
def AdoptState.Awaits (P : PyCoroutines κ ε σ ω) (st : AdoptState κ ε σ ω)
    (o : AwaitedObject κ ε ω) : Prop :=
  ∃ n s fs r s', st = .running n (.resumed (.coroutine s :: fs) r) ∧
    P.runs s r (.await_object o s')

/-- The object whose `__await__` the frame is. -/
def PyFrame.object : PyFrame κ ε σ ω → Option (AwaitedObject κ ε ω)
  | .coroutine _ => none
  | .await_impl o | .await_impl_yielded o => some o

/-- The frames of the stack. -/
def PyControl.frames : PyControl κ ε σ ω → List (PyFrame κ ε σ ω)
  | .resumed fs _ | .ended fs _ | .yielded fs _ => fs

/-- The tests of the chain all answer, so the search is one that does not fail. -/
theorem AwaitedObject.kind_eq (o : AwaitedObject κ ε ω) :
    o.yielded.kind = .ok ([.awaitable_wrapper, .executor_t, .cancellation_state_t,
      .reset_cancellation_state_0_t, .reset_cancellation_state_2_t, .throw_if_cancelled_0_t,
      .throw_if_cancelled_1_t].find? fun k : AwaitKind => o.made_by.cls = k.cls) :=
  List.findM?_pure (fun k : AwaitKind => decide (o.made_by.cls = k.cls)) _

/-- The chain has no branch for one class of `this_coro`, and none for those of `register_awaitable`
that are not the wrapper's. -/
theorem AwaitedObject.kind_eq_none_iff (o : AwaitedObject κ ε ω) :
    o.yielded.kind = .ok none ↔ o.made_by.cls = .this_coro .reset_cancellation_state_1_t ∨
      ∃ T Executor, o.made_by.cls = .awaitable_of T Executor := by
  have hnone : o.yielded.kind = .ok none ↔ ∀ k : AwaitKind, o.made_by.cls ≠ k.cls := by
    rw [o.kind_eq, Except.ok.injEq, List.find?_eq_none]
    constructor
    · intro h k
      have hk := h k (by cases k <;> simp)
      simpa using hk
    · intro h k _
      simpa using h k
  rw [hnone]
  constructor
  · intro h
    rcases hcls : o.made_by.cls with c | - | ⟨T, Executor⟩
    · cases c with
      | reset_cancellation_state_1_t => exact Or.inl rfl
      | executor_t => exact absurd hcls (h .executor_t)
      | cancellation_state_t => exact absurd hcls (h .cancellation_state_t)
      | reset_cancellation_state_0_t => exact absurd hcls (h .reset_cancellation_state_0_t)
      | reset_cancellation_state_2_t => exact absurd hcls (h .reset_cancellation_state_2_t)
      | throw_if_cancelled_0_t => exact absurd hcls (h .throw_if_cancelled_0_t)
      | throw_if_cancelled_1_t => exact absurd hcls (h .throw_if_cancelled_1_t)
    · exact absurd hcls (h .awaitable_wrapper)
    · exact Or.inr ⟨T, Executor, rfl⟩
  · rintro (hcls | ⟨T, Executor, hcls⟩) k <;> rw [hcls] <;> cases k <;> simp [AwaitKind.cls]

omit [DecidableEq κ] [DecidableEq ε] in
/-- Python puts an object on the stack when a coroutine awaits it. -/
theorem PyStep.object_cases {P : PyCoroutines κ ε σ ω} {c c' : PyControl κ ε σ ω}
    (h : PyStep P c c') {f : PyFrame κ ε σ ω} (hf : f ∈ c'.frames) {o : AwaitedObject κ ε ω}
    (ho : f.object = some o) :
    (∃ f' ∈ c.frames, f'.object = some o) ∨
      ∃ s fs r s', c = .resumed (.coroutine s :: fs) r ∧ P.runs s r (.await_object o s') := by
  cases h with
  | @await_object s s' fs r o' hruns =>
    rcases List.mem_cons.mp hf with rfl | hf
    · obtain rfl := Option.some.inj ho
      exact Or.inr ⟨s, fs, r, s', rfl, hruns⟩
    · rcases List.mem_cons.mp hf with rfl | hf
      · cases ho
      · exact Or.inl ⟨f, List.mem_cons_of_mem _ hf, ho⟩
  | await_coroutine hruns =>
    rcases List.mem_cons.mp hf with rfl | hf
    · cases ho
    · rcases List.mem_cons.mp hf with rfl | hf
      · cases ho
      · exact Or.inl ⟨f, List.mem_cons_of_mem _ hf, ho⟩
  | yield_self | yield_wrapper =>
    -- The generator is still that of the same object.
    rcases List.mem_cons.mp hf with rfl | hf
    · exact Or.inl ⟨_, List.mem_cons_self, ho⟩
    · exact Or.inl ⟨f, List.mem_cons_of_mem _ hf, ho⟩
  | ends | to_awaitable_wrapper_raises | await_impl_returns | await_impl_raises =>
    exact Or.inl ⟨f, List.mem_cons_of_mem _ hf, ho⟩
  | hand_on => exact Or.inl ⟨f, hf, ho⟩

omit [DecidableEq κ] [DecidableEq ε] in
/-- What is yielded is the object whose `__await__` it is, or a wrapper. -/
theorem PyStep.yielded_cases {P : PyCoroutines κ ε σ ω} {c : PyControl κ ε σ ω}
    {fs : List (PyFrame κ ε σ ω)} {o : AwaitedObject κ ε ω} (h : PyStep P c (.yielded fs o)) :
    (∀ T Executor, o.made_by.cls ≠ .awaitable_of T Executor) ∧
      (o.made_by.cls = .awaitable ∨ ∃ f ∈ fs, f.object = some o) := by
  cases h with
  | yield_self hself => exact ⟨hself, Or.inr ⟨_, List.mem_cons_self, rfl⟩⟩
  | yield_wrapper _ _ hw =>
    have hcls : o.made_by.cls = .awaitable := by rw [hw, Construction.cls]
    exact ⟨fun T Executor heq => by simp [hcls] at heq, Or.inl hcls⟩

/-- What is on the stack was awaited by a coroutine in this run. -/
theorem awaited_of_mem_frames {py : PyErrors ω} {P : PyCoroutines κ ε σ ω} {ops : Completions ω}
    {s : σ} {n : ℕ} {c : PyControl κ ε σ ω} (h : Reaches py P ops s (.running n c))
    {f : PyFrame κ ε σ ω} (hf : f ∈ c.frames) {o : AwaitedObject κ ε ω} (ho : f.object = some o) :
    ∃ st, Reaches py P ops s st ∧ st.Awaits P o := by
  unfold Reaches at h
  generalize hst : AdoptState.running n c = st at h
  induction h generalizing n c f with
  | refl =>
    obtain ⟨-, rfl⟩ := AdoptState.running.inj hst
    obtain rfl := List.mem_singleton.mp hf
    cases ho
  | @tail st1 st2 hreach hstep ih =>
    subst hst
    cases hstep with
    | @python _ c1 _ hpy =>
      rcases hpy.object_cases hf ho with ⟨f', hf', ho'⟩ | ⟨s1, fs, r, s', rfl, hruns⟩
      · exact ih hf' ho' rfl
      · exact ⟨_, hreach, _, s1, fs, r, s', rfl, hruns⟩
    | @awaited _ fs o' => exact ih (c := .yielded fs o') hf ho rfl

/-- What the chain has no branch for was awaited, and its class is that of
`reset_cancellation_state_1_t`. -/
theorem awaits_of_unsupported {py : PyErrors ω} {P : PyCoroutines κ ε σ ω} {ops : Completions ω}
    {s : σ} {st : AdoptState κ ε σ ω} (hreach : Reaches py P ops s st) (h : st.Unsupported) :
    ∃ st' o, Reaches py P ops s st' ∧ st'.Awaits P o ∧
      o.made_by.cls = .this_coro .reset_cancellation_state_1_t := by
  obtain ⟨n, fs, o, rfl, hkind⟩ := h
  rcases hreach.cases_tail with heq | ⟨st, -, hstep⟩
  · cases heq
  · cases hstep with
    | python hpy =>
      obtain ⟨hcls, hobject⟩ := hpy.yielded_cases
      have hreset : o.made_by.cls = .this_coro .reset_cancellation_state_1_t := by
        rcases o.kind_eq_none_iff.mp hkind with h | ⟨T, Executor, h⟩
        · exact h
        · exact absurd h (hcls T Executor)
      rcases hobject with hwrapper | ⟨f, hf, ho⟩
      · rw [hwrapper] at hreset
        cases hreset
      · obtain ⟨st, hst, hawaits⟩ := awaited_of_mem_frames hreach hf ho
        exact ⟨st, o, hst, hawaits, hreset⟩

/-- A coroutine that awaits an object of the class brings the chain to its last branch. -/
theorem unsupported_of_awaits {py : PyErrors ω} {P : PyCoroutines κ ε σ ω} {ops : Completions ω}
    {s : σ} {st : AdoptState κ ε σ ω} {o : AwaitedObject κ ε ω} (hreach : Reaches py P ops s st)
    (h : st.Awaits P o) (hreset : o.made_by.cls = .this_coro .reset_cancellation_state_1_t) :
    ∃ st', Reaches py P ops s st' ∧ st'.Unsupported := by
  obtain ⟨n, s, fs, r, s', rfl, hruns⟩ := h
  have hself : ∀ T Executor, o.made_by.cls ≠ .awaitable_of T Executor := by
    intro T Executor heq
    rw [hreset] at heq
    cases heq
  have hstart := hreach.tail (.python (.await_object hruns))
  have hyield := hstart.tail (.python (.yield_self hself))
  exact ⟨_, hyield, n, _, o, rfl, o.kind_eq_none_iff.mpr (Or.inl hreset)⟩

/-- **What falls through the chain.** For every Python coroutine that awaits objects of the classes
with an `__await__`, in any order and nesting, and whatever the operations complete with:
`adopt_async_func` comes to its last branch exactly if, somewhere in the run, a coroutine awaits an
object of the class `reset_cancellation_state_1_t`. -/
theorem unsupported_iff (py : PyErrors ω) (P : PyCoroutines κ ε σ ω) (ops : Completions ω) (s : σ) :
    (∃ st, Reaches py P ops s st ∧ st.Unsupported) ↔
      ∃ st o, Reaches py P ops s st ∧ st.Awaits P o ∧
        o.made_by.cls = .this_coro .reset_cancellation_state_1_t := by
  constructor
  · rintro ⟨st, hreach, hunsupported⟩
    exact awaits_of_unsupported hreach hunsupported
  · rintro ⟨st, o, hreach, hawaits, hreset⟩
    exact unsupported_of_awaits hreach hawaits hreset

/-- `async def f(): await this_coro.reset_cancellation_state_1_t(filter)` -/
def await_reset_1 : PyCoroutines Unit Unit Bool Unit where
  runs
    | false, _, action => action = .await_object ⟨.init .reset_cancellation_state_1_t,
        .ok "<class 'asio.this_coro.reset_cancellation_state_1_t'>"⟩ true
    | true, _, action => ∃ e, action = .ends e

/-- A coroutine that awaits an object of a class of `register_this_coro` comes to the last
branch. -/
theorem await_reset_1_unsupported :
    ¬ ∀ st, Reaches plain_errors await_reset_1 (fun _ _ => .error (.exception "")) false st →
      ¬ st.Unsupported := by
  intro h
  have hstart : Reaches plain_errors await_reset_1 (fun _ _ => .error (.exception "")) false
      (.start false) := ReflTransGen.refl
  have hawaits : (AdoptState.start false).Awaits await_reset_1
      ⟨.init .reset_cancellation_state_1_t,
        .ok "<class 'asio.this_coro.reset_cancellation_state_1_t'>"⟩ :=
    ⟨0, false, [], .next, true, rfl, rfl⟩
  obtain ⟨st, hreach, hunsupported⟩ := unsupported_of_awaits hstart hawaits rfl
  exact h st hreach hunsupported

omit [DecidableEq κ] [DecidableEq ε] in
/-- The functions of `this_coro` make no object of the class; its constructor does. -/
theorem Construction.cls_eq_reset_1_iff (c : Construction κ ε) :
    c.cls = .this_coro .reset_cancellation_state_1_t ↔
      c = .init .reset_cancellation_state_1_t ∨
        c = .new (.this_coro .reset_cancellation_state_1_t) := by
  cases c with
  | init | new => simp [cls]
  | reset_cancellation_state overload => cases overload <;> simp [cls]
  | throw_if_cancelled value => cases value <;> simp [cls]
  | executor | cancellation_state | cast => simp [cls]

/-- The text of the last branch. -/
def unsupported_text (text : String) : String :=
  "Unsupported object awaited in co_spawn " ++ text

/-- In the last branch the adopted coroutine fails with its text, if the class has one. -/
theorem unsupported_fails (py : PyErrors ω) (P : PyCoroutines κ ε σ ω) (ops : Completions ω)
    {st : AdoptState κ ε σ ω} (h : st.Unsupported) :
    ∃ n fs o, st = .running n (.yielded fs o) ∧ ∀ text, o.type_text = .ok text →
      AdoptStep py P ops st (.finished (.failed (.exception (unsupported_text text)))) := by
  obtain ⟨n, fs, o, rfl, hkind⟩ := h
  refine ⟨n, fs, o, rfl, fun text htext => ?_⟩
  have htype : o.yielded.type_text = .ok text := htext
  have hthrown : o.yielded.unsupported = .exception (unsupported_text text) := by
    simp only [Yielded.unsupported, htype]
    rfl
  have hthrows : await_yielded ops n o.yielded = .error (.exception (unsupported_text text)) := by
    rw [await_yielded_eq, hkind, hthrown]
  have hfails : on_exception py (.exception (unsupported_text text)) =
      .failed (.exception (unsupported_text text)) := by rw [on_exception]
  rw [← hfails]
  exact .throws hthrows

/-- An iterator that does what Python does with the coroutines: `frames` are those of its states. -/
structure Implements {τ : Type} (M : PyIterator τ ω) (P : PyCoroutines κ ε σ ω)
    (frames : τ → List (PyFrame κ ε σ ω)) : Prop where
  yields : ∀ t r y t', M.resume t r = .yields y t' → ∃ o, y = o.yielded ∧
    ReflTransGen (PyStep P) (.resumed (frames t) r) (.yielded (frames t') o)
  ends : ∀ t r e, M.resume t r = .ends e →
    ReflTransGen (PyStep P) (.resumed (frames t) r) (.ended [] e)

/-- Steps of Python are steps of the adopted coroutine. -/
theorem reaches_of_python (py : PyErrors ω) {P : PyCoroutines κ ε σ ω} (ops : Completions ω)
    (n : ℕ) {c c' : PyControl κ ε σ ω} (h : ReflTransGen (PyStep P) c c') :
    ReflTransGen (AdoptStep py P ops) (.running n c) (.running n c') :=
  h.lift _ fun _ _ => .python

/-- **The loop goes through these states.** What the loop of `adopt_async_func` ends with is what a
run of steps ends with. -/
theorem adopt_loop_reaches {τ : Type} {py : PyErrors ω} {M : PyIterator τ ω}
    {P : PyCoroutines κ ε σ ω}
    {frames : τ → List (PyFrame κ ε σ ω)} (hM : Implements M P frames) {ops : Completions ω}
    {fuel n : ℕ} {t : τ} {in_ : PyRef ω} {a : Adopted ω}
    (h : (adopt_loop py M ops fuel n t in_).2 = some a) :
    ReflTransGen (AdoptStep py P ops) (.running n (.resumed (frames t) (.of in_)))
      (.finished a) := by
  induction fuel generalizing n t in_ with
  | zero => cases h
  | succ fuel ih =>
    have hresumption : (if in_.is_none then .next else .send in_) = Resumption.of in_ := rfl
    rw [adopt_loop, hresumption] at h
    rcases hresume : M.resume t (.of in_) with ⟨y, t'⟩ | e
    · obtain ⟨o, rfl, hsteps⟩ := hM.yields _ _ _ _ hresume
      have hyielded := reaches_of_python py ops n hsteps
      rcases hop : await_yielded ops n o.yielded with x | in_'
      · simp only [hresume, hop] at h
        obtain rfl := Option.some.inj h
        exact hyielded.tail (.throws hop)
      · simp only [hresume, hop] at h
        exact (hyielded.tail (.awaited hop)).trans (ih h)
    · have hended := reaches_of_python py ops n (hM.ends _ _ _ hresume)
      simp only [hresume] at h
      obtain rfl := Option.some.inj h
      exact hended.tail .ended

/-- Nothing that is thrown in looking at an exception has the text of the last branch. -/
structure PyErrors.LooksOtherwise (py : PyErrors ω) : Prop where
  class_error : ∀ e text, (py.class_error e).thrown ≠ .exception (unsupported_text text)
  error_string : ∀ e f text, py.error_string e = .error f →
    f.thrown ≠ .exception (unsupported_text text)
  value : ∀ e f text, py.value e = .error f → f.thrown ≠ .exception (unsupported_text text)

omit [DecidableEq κ] [DecidableEq ε] in
/-- Where the clauses fail with the text of the last branch, it was thrown. -/
theorem PyErrors.LooksOtherwise.thrown_of_failed {py : PyErrors ω} (hpy : py.LooksOtherwise)
    {x : Thrown ω} {text : String}
    (h : on_exception py x = .failed (.exception (unsupported_text text))) :
    x = .exception (unsupported_text text) := by
  obtain hsame | ⟨e, f, -, hf, hclass | hvalue⟩ := on_exception_failed_cases h
  · exact hsame.symm
  · rw [← hclass] at hf
    exact absurd hf.symm (hpy.class_error e text)
  · exact absurd hf.symm (hpy.value e f text hvalue)

omit [DecidableEq κ] [DecidableEq ε] in
/-- An exception that Python raised has not the text of the last branch. -/
theorem PyErrors.LooksOtherwise.thrown_ne {py : PyErrors ω} (hpy : py.LooksOtherwise)
    (e : PyException ω) (text : String) : py.thrown e ≠ .exception (unsupported_text text) := by
  rcases hstring : py.error_string e with f | s
  · rw [py.thrown_of_error hstring]
    exact hpy.error_string e f text hstring
  · rw [py.thrown_of_constructs ⟨s, hstring⟩]
    exact fun h => by cases h

/-- **Without objects of that class, `adopt_async_func` does not fail for want of a branch**, where
nothing else fails with such a text. -/
theorem adopt_async_func_supported {τ : Type} {py : PyErrors ω} {M : PyIterator τ ω}
    {P : PyCoroutines κ ε σ ω} {frames : τ → List (PyFrame κ ε σ ω)} (hM : Implements M P frames)
    (hpy : py.LooksOtherwise) {ops : Completions ω}
    (hops : ∀ n k text, ops n k ≠ .error (.exception (unsupported_text text)))
    {obj : Spawned τ ω} {cr : AwaitIterator τ ω} (hiterator : obj.iterator = .ok cr)
    (hnext : cr.next_error = none) {s : σ} (hframes : frames cr.state = [.coroutine s])
    (hawaits : ∀ st o, Reaches py P ops s st → st.Awaits P o →
      o.made_by.cls ≠ .this_coro .reset_cancellation_state_1_t) (fuel : ℕ) (text : String) :
    (adopt_async_func py M ops obj fuel).2 ≠
      some (.failed (.exception (unsupported_text text))) := by
  intro h
  simp only [adopt_async_func, hiterator, hnext] at h
  have hreach := adopt_loop_reaches hM h
  rw [hframes] at hreach
  rcases hreach.cases_tail with heq | ⟨st, hst, hstep⟩
  · cases heq
  · generalize hfailed : Adopted.failed (.exception _) = a at hstep
    cases hstep with
    | @throws n fs o x hop =>
      rw [hpy.thrown_of_failed hfailed.symm, await_yielded_eq] at hop
      rcases hkind : o.yielded.kind with f | - | k
      · -- A test of these objects does not fail.
        rw [o.kind_eq] at hkind
        cases hkind
      · obtain ⟨st, o, hst', ho, hreset⟩ := awaits_of_unsupported hst ⟨n, fs, o, rfl, hkind⟩
        exact hawaits st o hst' ho hreset
      · -- The operation itself failed with the text.
        simp only [hkind] at hop
        rcases hoperation : ops n k with x' | v
        · rw [hoperation] at hop
          obtain rfl := Except.error.inj hop
          exact hops n k text hoperation
        · rw [hoperation] at hop
          cases hop
    | @ended n e =>
      exact absurd (hpy.thrown_of_failed hfailed.symm) (hpy.thrown_ne e text)

end AsioPy
