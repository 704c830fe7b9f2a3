import AsioPy.AsyncOp

/-!
# Timers: the constructors and `async_wait`

`register_basic_waitable_timer` registers a timer class with twelve constructors: four for the
executor or context, and each of these without an expiry, with a time point and with a duration. The
two kinds of expiry have the same name, and the overloads with a time point come first, so they
shadow the ones with a duration for every object that pybind11 loads as both. For a clock other than
`system_clock`, pybind11 loads a time point from the objects from which it loads a duration, and
`timer_expiry_iff` says that such a timer is never constructed with an expiry relative to now.

The function registers `async_wait` in the module, once for each timer class, and not as a method.
`async_wait_own_timer` says that the classes do not get into each other's way.
-/

namespace AsioPy

open Binding

variable {β κ ε τ : Type}

/-- pybind11's casters for the arguments of a timer, where `time_point` and `duration` are those of
the timer's clock. -/
structure TimerCasters (β κ ε : Type) extends Casters β κ ε where
  io_context : β → Bool
  system_context : β → Bool
  thread_pool : β → Bool
  time_point : β → Bool
  duration : β → Bool

/-- What a timer is constructed on. -/
inductive TimerOwner where
  | any_io_executor
  | io_context
  | system_context
  | thread_pool
  deriving DecidableEq

/-- The expiry that a timer is constructed with. -/
inductive TimerExpiry where
  | default
  | time_point
  | duration
  deriving DecidableEq

/-- The first parameter of a constructor. -/
def TimerOwner.param (py : TimerCasters β κ ε) : TimerOwner → TypedParam β
  | .any_io_executor => py.executor_param "executor"
  | .io_context => class_param "context" py.io_context
  | .system_context => class_param "context" py.system_context
  | .thread_pool => class_param "context" py.thread_pool

/-- The parameter `expiry_time`, where there is one. -/
def TimerExpiry.params (py : TimerCasters β κ ε) : TimerExpiry → List (TypedParam β)
  | .default => []
  | .time_point => [class_param "expiry_time" py.time_point]
  | .duration => [class_param "expiry_time" py.duration]

/-- A constructor. -/
structure TimerInit where
  owner : TimerOwner
  expiry : TimerExpiry
  deriving DecidableEq

/-- The parameters of a constructor. -/
def TimerInit.params (py : TimerCasters β κ ε) (i : TimerInit) : List (TypedParam β) :=
  i.owner.param py :: i.expiry.params py

/-- The constructors with one kind of expiry. -/
def timer_inits_of (expiry : TimerExpiry) : List TimerInit :=
  [⟨.any_io_executor, expiry⟩, ⟨.io_context, expiry⟩, ⟨.system_context, expiry⟩,
    ⟨.thread_pool, expiry⟩]

/-- The constructors of `register_basic_waitable_timer`, in their order. -/
def timer_inits : List TimerInit :=
  timer_inits_of .default ++ timer_inits_of .time_point ++ timer_inits_of .duration

/-- A constructor is tried. -/
def TimerInit.attempt (py : TimerCasters β κ ε) (convert : Bool) (c : Call String β)
    (i : TimerInit) : Option (TimerInit × List β) :=
  (load_call convert (i.params py) c).map fun vs => (i, vs)

/-- A timer is constructed. -/
def construct_timer (py : TimerCasters β κ ε) (c : Call String β) : Option (TimerInit × List β) :=
  Overloads.resolve (fun convert => TimerInit.attempt py convert c) timer_inits

/-- A constructor that a call is bound to and loads. -/
theorem TimerInit.attempt_eq_some_iff {py : TimerCasters β κ ε} {convert : Bool}
    {c : Call String β} {i : TimerInit} {r : TimerInit × List β} :
    i.attempt py convert c = some r ↔ r.1 = i ∧ Bound ((i.params py).map TypedParam.param) c r.2 ∧
      loads_all convert (i.params py) r.2 = true := by
  rw [TimerInit.attempt, map_mk_eq_some_iff, load_call_eq_some_iff]

/-- The expiry of a constructor that a call is bound to and loads. -/
theorem TimerInit.attempt_expiry {py : TimerCasters β κ ε} {convert : Bool} {c : Call String β}
    {i : TimerInit} {r : TimerInit × List β} (h : i.attempt py convert c = some r) :
    match i.expiry with
    | .default => r.2[1]? = none
    | .time_point => ∃ v, r.2[1]? = some v ∧ py.time_point v = true
    | .duration => ∃ v, r.2[1]? = some v ∧ py.duration v = true := by
  obtain ⟨i', vs⟩ := r
  obtain ⟨rfl, hbound, hload⟩ := TimerInit.attempt_eq_some_iff.mp h
  have hlen := hbound.length_eq
  obtain ⟨owner, expiry⟩ := i'
  cases expiry with
  | default => exact List.getElem?_eq_none (Nat.le_of_eq hlen)
  | time_point =>
    obtain ⟨x, v, rfl⟩ : ∃ x v, vs = [x, v] := List.length_eq_two.mp hlen
    have hboth : ((owner.param py).load convert x && (py.time_point v && true)) = true := hload
    simp only [Bool.and_true, Bool.and_eq_true] at hboth
    exact ⟨v, rfl, hboth.2⟩
  | duration =>
    obtain ⟨x, v, rfl⟩ : ∃ x v, vs = [x, v] := List.length_eq_two.mp hlen
    have hboth : ((owner.param py).load convert x && (py.duration v && true)) = true := hload
    simp only [Bool.and_true, Bool.and_eq_true] at hboth
    exact ⟨v, rfl, hboth.2⟩

/-- What a constructor with a duration serves, the one with a time point serves if the expiry loads
as a time point. -/
theorem TimerInit.attempt_time_point {py : TimerCasters β κ ε} {convert : Bool} {c : Call String β}
    {owner : TimerOwner} {r : TimerInit × List β}
    (h : TimerInit.attempt py convert c ⟨owner, .duration⟩ = some r) {v : β}
    (hv : r.2[1]? = some v) (htime : py.time_point v = true) :
    (TimerInit.attempt py convert c ⟨owner, .time_point⟩).isSome := by
  obtain ⟨i, vs⟩ := r
  obtain ⟨-, hbound, hload⟩ := TimerInit.attempt_eq_some_iff.mp h
  obtain ⟨x, w, rfl⟩ : ∃ x w, vs = [x, w] := List.length_eq_two.mp hbound.length_eq
  obtain rfl : w = v := Option.some.inj hv
  have hboth : ((owner.param py).load convert x && (py.duration w && true)) = true := hload
  simp only [Bool.and_true, Bool.and_eq_true] at hboth
  -- The two constructors have the same parameters, but for the caster of the last.
  refine Option.isSome_iff_exists.mpr ⟨(⟨owner, .time_point⟩, [x, w]),
    TimerInit.attempt_eq_some_iff.mpr ⟨rfl, hbound, ?_⟩⟩
  show ((owner.param py).load convert x && (py.time_point w && true)) = true
  rw [hboth.1, htime]
  rfl

/-- **Which constructor a timer gets.** A call with an expiry that loads as a time point constructs
the timer with that time point, whatever else it loads as, and a duration is taken from an object
that does not load as a time point only. So a timer whose clock loads its time points from all the
objects from which its durations are loaded is never constructed with a duration. -/
theorem timer_expiry_iff {py : TimerCasters β κ ε} {c : Call String β} {i : TimerInit}
    {vs : List β} (hs : construct_timer py c = some (i, vs)) :
    (i.expiry = .time_point ↔ ∃ v, vs[1]? = some v ∧ py.time_point v = true) ∧
      (i.expiry = .duration ↔ ∃ v, vs[1]? = some v ∧ py.time_point v = false) ∧
      ((∀ v, py.duration v = true → py.time_point v = true) → i.expiry ≠ .duration) := by
  -- The constructors with a duration come last.
  have hgroups : Overloads.resolve (fun convert => TimerInit.attempt py convert c)
      ((timer_inits_of .default ++ timer_inits_of .time_point) ++ timer_inits_of .duration) =
        some (i, vs) := hs
  obtain ⟨convert, hserved⟩ := Overloads.resolve_append hgroups
  have hi : i.attempt py convert c = some (i, vs) := by
    rcases hserved with ⟨o, -, ho⟩ | ⟨-, o, -, ho⟩ <;>
    · obtain rfl : i = o := (TimerInit.attempt_eq_some_iff.mp ho).1
      exact ho
  have hduration : i.expiry = .duration → ∀ v, vs[1]? = some v → py.time_point v = false := by
    intro hexpiry v hv
    obtain ⟨owner, expiry⟩ := i
    obtain rfl : expiry = .duration := hexpiry
    rcases hserved with ⟨o, hmem, ho⟩ | ⟨hrefused, -⟩
    · -- The first two groups have no constructor with a duration.
      obtain rfl : _ = o := (TimerInit.attempt_eq_some_iff.mp ho).1
      simp [timer_inits_of] at hmem
    · -- The constructor with a time point would have served the call.
      by_contra htime
      have hsome := TimerInit.attempt_time_point hi hv (Bool.not_eq_false _ ▸ htime)
      rw [hrefused ⟨owner, .time_point⟩ (by cases owner <;> simp [timer_inits_of])] at hsome
      cases hsome
  have hloads := TimerInit.attempt_expiry hi
  rcases hexpiry : i.expiry with - | - | - <;> rw [hexpiry] at hloads
  · simp [show vs[1]? = none from hloads]
  · obtain ⟨v, hv, htime⟩ := hloads
    simp [hv, htime]
  · obtain ⟨v, hv, hdur⟩ := hloads
    have htime := hduration hexpiry v hv
    have hshadowed : ¬∀ v, py.duration v = true → py.time_point v = true := by
      intro hall
      rw [hall v hdur] at htime
      cases htime
    simpa [hv, htime] using hshadowed

/-- The casters of a `steady_timer`: a `timedelta` is a time point, and a duration. -/
def sample_timer_casters : TimerCasters SampleObject Unit SampleObject where
  toCasters := sample_casters
  io_context v := v = .io_context
  system_context _ := false
  thread_pool _ := false
  time_point v := v = .timedelta
  duration v := v = .timedelta

/-- A `steady_timer` on a context, with a `timedelta` that is meant to be relative. -/
theorem timer_expiry_iff_timedelta :
    (TimerExpiry.time_point = .time_point ↔ ∃ v, [SampleObject.io_context, .timedelta][1]? =
        some v ∧ sample_timer_casters.time_point v = true) ∧
      (TimerExpiry.time_point = .duration ↔ ∃ v, [SampleObject.io_context, .timedelta][1]? =
        some v ∧ sample_timer_casters.time_point v = false) ∧
      ((∀ v, sample_timer_casters.duration v = true → sample_timer_casters.time_point v = true) →
        TimerExpiry.time_point ≠ .duration) := by
  have hs : construct_timer sample_timer_casters ⟨[.io_context, .timedelta], ∅⟩ =
      some (⟨.io_context, .time_point⟩, [.io_context, .timedelta]) := rfl
  exact timer_expiry_iff hs

/-- The registration of `async_wait` for the timer classes, in their order. -/
def register_async_wait (timers : List τ) (is_timer : τ → β → Bool) : List (AsyncOverload β τ) :=
  timers.flatMap fun t => register_async_op t [class_param "self" (is_timer t)]

/-- **`async_wait` waits for the timer that it is given.** However many timer classes are registered
and in whatever order, a call of `async_wait` with a timer is the call of the overloads of its own
class, and a call with anything else is refused. -/
theorem async_wait_own_timer {py : Casters β κ ε} {timers : List τ} {is_timer : τ → β → Bool}
    {c : Call String β} (hclasses : ∀ v, ∀ t ∈ timers, ∀ t' ∈ timers,
      is_timer t v = true → is_timer t' v = true → t' = t) :
    (∀ t ∈ timers, (∃ v, first_value c "self" = some v ∧ is_timer t v = true) →
        call_overloads py (register_async_wait timers is_timer) c =
          call_overloads py (register_async_op t [class_param "self" (is_timer t)]) c) ∧
      ((∀ t ∈ timers, ∀ v, first_value c "self" = some v → is_timer t v = false) →
        call_overloads py (register_async_wait timers is_timer) c = none) := by
  -- An overload that serves the call is one of the class of the first argument.
  have hown : ∀ convert t, ∀ o ∈ register_async_op t [class_param "self" (is_timer t)],
      (∀ v, first_value c "self" = some v → is_timer t v = false) →
        o.attempt py convert c = none := by
    intro convert t o ho hself
    obtain ⟨kind, rfl⟩ := mem_register_async_op.mp ho
    by_contra hsome
    obtain ⟨s, hs⟩ := Option.ne_none_iff_exists'.mp hsome
    obtain ⟨v, hv, hload⟩ := attempt_first rfl rfl hs
    have htimer : is_timer t v = true := hload
    rw [hself v hv] at htimer
    cases htimer
  constructor
  · rintro t ht ⟨v, hv, htimer⟩
    -- The timer is of one class, so the groups of the other classes refuse the call.
    refine Overloads.resolve_flatMap ht fun t' ht' hne convert o ho => hown convert t' o ho ?_
    intro w hw
    obtain rfl : v = w := Option.some.inj (hv.symm.trans hw)
    exact Bool.eq_false_iff.mpr fun htimer' => hne (hclasses v t ht t' ht' htimer htimer')
  · intro hself
    have hnone : ∀ convert, (register_async_wait timers is_timer).findSome?
        (AsyncOverload.attempt py convert c) = none := by
      intro convert
      rw [List.findSome?_eq_none_iff]
      intro o ho
      obtain ⟨t, ht, ho⟩ := List.mem_flatMap.mp ho
      exact hown convert t o ho (hself t ht)
    rw [call_overloads, Overloads.resolve, hnone, hnone]
    rfl

/-- The timer classes by their clock. -/
def is_sample_timer (steady : Bool) (v : SampleObject) : Bool := v = .timer steady

/-- Two timer classes, and a call with a `system_timer`. -/
theorem async_wait_own_timer_system :
    (∀ t ∈ [true, false],
      (∃ v, first_value (⟨[.timer false], ∅⟩ : Call String SampleObject) "self" = some v ∧
          is_sample_timer t v = true) →
        call_overloads sample_casters (register_async_wait [true, false] is_sample_timer)
            ⟨[.timer false], ∅⟩ =
          call_overloads sample_casters
            (register_async_op t [class_param "self" (is_sample_timer t)])
            ⟨[.timer false], ∅⟩) ∧
      ((∀ t ∈ [true, false],
          ∀ v, first_value (⟨[.timer false], ∅⟩ : Call String SampleObject) "self" = some v →
            is_sample_timer t v = false) →
        call_overloads sample_casters (register_async_wait [true, false] is_sample_timer)
            ⟨[.timer false], ∅⟩ = none) := by
  refine async_wait_own_timer ?_
  intro v t _ t' _ h h'
  have hv : v = .timer t := of_decide_eq_true h
  have hv' : v = .timer t' := of_decide_eq_true h'
  rw [hv] at hv'
  exact (SampleObject.timer.inj hv').symm

end AsioPy
