import AsioPy.Lib.Mealy

/-!
# The awaitable that Python holds

`awaitable_wrapper` owns an `impl<T, Executor>`, which holds an `asio::awaitable` until somebody
takes it. `co_spawn` and the driver of `adopt_async_func` call `await()`, which checks that the
awaitable is there and creates a coroutine; the coroutine takes the awaitable when it first runs,
through a reference to the `impl`. A caster takes it at once, by `cast_and_steal`. The wrapper and
its `impl` go when Python drops the object.

A wrapper is a `Mealy` machine over these steps. `awaitable_consumed_once` says of every run what
keeps the awaitable from being taken twice, or after it is gone: nobody asks for it, and Python does
not drop it, while a coroutine that was promised it has not started. The invariant is `Promised`:
there is at most one such coroutine, and the awaitable is there for it.
-/

namespace AsioPy

/-- `awaitable_wrapper::impl<T, Executor>`. -/
structure AwaitableImpl (κ ε φ : Type*) where
  /-- The type `T` of the result. -/
  value_type : κ
  /-- The type `Executor`. -/
  executor_type : ε
  /-- The awaitable's coroutine; nothing once it is moved from. -/
  aw : Option φ

/-- Who called `await()`: the bound function `co_spawn`, or the driver. -/
inductive Awaiter where
  | co_spawn | adopt_async_func
  deriving DecidableEq, Repr

/-- An `awaitable_wrapper` with the coroutines of its `await()` that have not started. -/
structure AwaitableWrapper (κ ε φ : Type*) where
  /-- The `impl`, which lives as long as the wrapper. -/
  ptr : Option (AwaitableImpl κ ε φ)
  /-- The coroutines that refer to the `impl` and have not started, by who created them. -/
  queued : List Awaiter

/-- The steps. -/
inductive AwaitableStep (κ ε : Type*) where
  /-- `await()` is called. -/
  | await (by_ : Awaiter)
  /-- The queued coroutine at this place first runs. -/
  | start (i : ℕ)
  /-- `cast_and_steal<T, Executor>()` -/
  | cast_and_steal (T : κ) (Executor : ε)
  /-- Python drops the wrapper object. -/
  | release
  deriving DecidableEq, Repr

/-- What a step answers. -/
inductive AwaitableAnswer (φ : Type*) where
  /-- A coroutine was created. -/
  | accepted
  /-- `std::runtime_error("awaitable expired")` -/
  | expired
  /-- The coroutine took the awaitable. -/
  | started (aw : φ)
  /-- The coroutine found no `impl`, or no awaitable in it. -/
  | fault
  /-- The awaitable is the result. -/
  | stolen (aw : φ)
  /-- The result is an invalid awaitable. -/
  | invalid
  /-- The wrapper and its `impl` are gone. -/
  | released
  deriving DecidableEq, Repr

variable {κ ε φ : Type*}

/-- The constructor `awaitable_wrapper(asio::awaitable<T, Executor> aw)`. -/
def AwaitableWrapper.new (T : κ) (Executor : ε) (aw : φ) : AwaitableWrapper κ ε φ :=
  ⟨some ⟨T, Executor, some aw⟩, []⟩

/-- `awaitable_wrapper::valid` -/
def AwaitableWrapper.valid (s : AwaitableWrapper κ ε φ) : Bool :=
  s.ptr.any fun p => p.aw.isSome

/-- The wrapper after its awaitable is moved from. -/
def AwaitableWrapper.moved (s : AwaitableWrapper κ ε φ) : AwaitableWrapper κ ε φ :=
  { s with ptr := s.ptr.map fun p => { p with aw := none } }

/-- Nothing is there once the awaitable is moved from. -/
@[simp] theorem AwaitableWrapper.valid_moved (s : AwaitableWrapper κ ε φ) :
    s.moved.valid = false := by
  unfold AwaitableWrapper.moved AwaitableWrapper.valid
  cases s.ptr <;> rfl

/-- Moving from the awaitable leaves the coroutines as they are. -/
@[simp] theorem AwaitableWrapper.queued_moved (s : AwaitableWrapper κ ε φ) :
    s.moved.queued = s.queued := rfl

/-- The awaitable is there exactly if the body of a coroutine finds it. -/
theorem AwaitableWrapper.valid_eq_isSome (s : AwaitableWrapper κ ε φ) :
    s.valid = (s.ptr.bind AwaitableImpl.aw).isSome := by
  unfold AwaitableWrapper.valid
  cases s.ptr <;> rfl

/-- At most one coroutine was promised the awaitable and has not started, and it will find it. -/
def Promised (s : AwaitableWrapper κ ε φ) : Prop :=
  s.queued = [] ∨ (s.queued.length = 1 ∧ s.valid = true)

/-- A coroutine that was promised the awaitable finds it. -/
theorem Promised.valid {s : AwaitableWrapper κ ε φ} (hs : Promised s) {i : ℕ}
    (hi : i < s.queued.length) : s.valid := by
  rcases hs with hq | ⟨-, hv⟩
  · simp [hq] at hi
  · exact hv

variable [DecidableEq κ] [DecidableEq ε]

/-- One step. The functions of the wrapper are not enabled once Python has dropped it. -/
def awaitable_wrapper : Mealy (AwaitableWrapper κ ε φ) (AwaitableStep κ ε) (AwaitableAnswer φ) where
  step s
    | .await by_ =>
      match s.ptr with
      | none => none
      | some _ =>
        if s.valid then some (.accepted, { s with queued := s.queued ++ [by_] })
        else some (.expired, s)
    | .start i =>
      if i < s.queued.length then
        -- The body runs `std::move(aw)` on the `impl` that it refers to and does not own.
        match s.ptr.bind AwaitableImpl.aw with
        | some aw => some (.started aw, { s.moved with queued := s.queued.eraseIdx i })
        | none => some (.fault, { s with queued := s.queued.eraseIdx i })
      else none
    | .cast_and_steal T Executor =>
      match s.ptr with
      | none => none
      | some p =>
        if p.value_type = T ∧ p.executor_type = Executor then
          match p.aw with
          | some aw => some (.stolen aw, s.moved)
          | none => some (.invalid, s)
        else some (.invalid, s)
    | .release =>
      match s.ptr with
      | none => none
      | some _ => some (.released, { s with ptr := none })

/-- The answer gives the awaitable away, or promises it. -/
def AwaitableAnswer.grants : AwaitableAnswer φ → Bool
  | .accepted | .stolen _ => true
  | _ => false

/-- The answer comes with the awaitable. -/
def AwaitableAnswer.consumes : AwaitableAnswer φ → Bool
  | .started _ | .stolen _ => true
  | _ => false

/-- The step found no awaitable where its body needs one. -/
def AwaitableAnswer.faults : AwaitableAnswer φ → Bool
  | .fault => true
  | _ => false

/-- In a run with these answers, no coroutine starts without its awaitable, the awaitable is taken
at most once, and all who ask after the first are refused when they ask. -/
structure ConsumedOnce (os : List (AwaitableAnswer φ)) : Prop where
  no_fault : os.countP AwaitableAnswer.faults = 0
  consumed : os.countP AwaitableAnswer.consumes ≤ 1
  granted : os.countP AwaitableAnswer.grants ≤ 1

/-- `cast_and_steal` finds the awaitable: it is there, and the types are its own. -/
def AwaitableWrapper.gives (s : AwaitableWrapper κ ε φ) (T : κ) (Executor : ε) : Bool :=
  s.ptr.any fun p => p.value_type = T ∧ p.executor_type = Executor ∧ p.aw.isSome

/-- A step that leaves the coroutines alone which were promised the awaitable and have not started:
there are none, or the step neither takes nor promises the awaitable nor drops it. -/
def Alone (s : AwaitableWrapper κ ε φ) : AwaitableStep κ ε → Prop
  | .await _ => s.queued = [] ∨ s.valid = false
  | .start _ => True
  | .cast_and_steal T Executor => s.queued = [] ∨ s.gives T Executor = false
  | .release => s.queued = []

/-- How often the awaitable may still be granted. -/
def AwaitableWrapper.grantable (s : AwaitableWrapper κ ε φ) : ℕ :=
  if s.queued = [] ∧ s.valid then 1 else 0

/-- How often it may still be taken: once a coroutine that was promised it, and once granted. -/
def AwaitableWrapper.consumable (s : AwaitableWrapper κ ε φ) : ℕ := s.queued.length + s.grantable

/-- The awaitable is there if `cast_and_steal` gives it. -/
theorem AwaitableWrapper.valid_of_gives {s : AwaitableWrapper κ ε φ} {T : κ} {Executor : ε}
    (h : s.gives T Executor) : s.valid := by
  unfold AwaitableWrapper.gives at h
  unfold AwaitableWrapper.valid
  rcases hp : s.ptr with - | p
  · simp [hp] at h
  · simp only [hp, Option.any_some, decide_eq_true_eq] at h
    exact h.2.2

/-- What a step can do: its answer and the wrapper after it. -/
inductive AwaitableEffect (s : AwaitableWrapper κ ε φ) :
    AwaitableStep κ ε → AwaitableAnswer φ → AwaitableWrapper κ ε φ → Prop
  | accepted (by_ : Awaiter) (hvalid : s.valid) :
      AwaitableEffect s (.await by_) .accepted { s with queued := s.queued ++ [by_] }
  | expired (by_ : Awaiter) (hvalid : s.valid = false) :
      AwaitableEffect s (.await by_) .expired s
  | started (i : ℕ) (aw : φ) (hi : i < s.queued.length) (hvalid : s.valid) :
      AwaitableEffect s (.start i) (.started aw) { s.moved with queued := s.queued.eraseIdx i }
  | fault (i : ℕ) (hi : i < s.queued.length) (hvalid : s.valid = false) :
      AwaitableEffect s (.start i) .fault { s with queued := s.queued.eraseIdx i }
  | stolen (T : κ) (Executor : ε) (aw : φ) (hgives : s.gives T Executor) :
      AwaitableEffect s (.cast_and_steal T Executor) (.stolen aw) s.moved
  | invalid (T : κ) (Executor : ε) (hgives : s.gives T Executor = false) :
      AwaitableEffect s (.cast_and_steal T Executor) .invalid s
  | released (hptr : s.ptr.isSome) :
      AwaitableEffect s .release .released { s with ptr := none }

/-- **One step.** Every enabled step has one of the effects. -/
theorem awaitable_step_effect {s t : AwaitableWrapper κ ε φ} {a : AwaitableStep κ ε}
    {o : AwaitableAnswer φ} (h : awaitable_wrapper.step s a = some (o, t)) :
    AwaitableEffect s a o t := by
  cases a with
  | await by_ =>
    rcases hp : s.ptr with - | p
    · simp [awaitable_wrapper, hp] at h
    · by_cases hv : s.valid
      · obtain ⟨rfl, rfl⟩ : .accepted = o ∧ { s with queued := s.queued ++ [by_] } = t := by
          simpa [awaitable_wrapper, hp, hv] using h
        exact .accepted by_ hv
      · obtain ⟨rfl, rfl⟩ : .expired = o ∧ s = t := by
          simpa [awaitable_wrapper, hp, hv] using h
        exact .expired by_ (Bool.eq_false_iff.mpr hv)
  | start i =>
    by_cases hi : i < s.queued.length
    · have hvalid := s.valid_eq_isSome
      rcases haw : s.ptr.bind AwaitableImpl.aw with - | aw
      · obtain ⟨rfl, rfl⟩ : .fault = o ∧ { s with queued := s.queued.eraseIdx i } = t := by
          simpa [awaitable_wrapper, hi, haw] using h
        exact .fault i hi (by rw [hvalid, haw]; rfl)
      · obtain ⟨rfl, rfl⟩ : .started aw = o ∧
            { s.moved with queued := s.queued.eraseIdx i } = t := by
          simpa [awaitable_wrapper, hi, haw] using h
        exact .started i aw hi (by rw [hvalid, haw]; rfl)
    · simp [awaitable_wrapper, hi] at h
  | cast_and_steal T Executor =>
    rcases hp : s.ptr with - | p
    · simp [awaitable_wrapper, hp] at h
    · by_cases htypes : p.value_type = T ∧ p.executor_type = Executor
      · rcases haw : p.aw with - | aw
        · obtain ⟨rfl, rfl⟩ : .invalid = o ∧ s = t := by
            simpa [awaitable_wrapper, hp, htypes, haw] using h
          exact .invalid T Executor (by simp [AwaitableWrapper.gives, hp, haw])
        · obtain ⟨rfl, rfl⟩ : .stolen aw = o ∧ s.moved = t := by
            simpa [awaitable_wrapper, hp, htypes, haw] using h
          exact .stolen T Executor aw (by simp [AwaitableWrapper.gives, hp, htypes, haw])
      · obtain ⟨rfl, rfl⟩ : .invalid = o ∧ s = t := by
          simpa [awaitable_wrapper, hp, htypes] using h
        refine .invalid T Executor ?_
        simp only [AwaitableWrapper.gives, hp, Option.any_some]
        exact decide_eq_false fun hgives => htypes ⟨hgives.1, hgives.2.1⟩
  | release =>
    rcases hp : s.ptr with - | p
    · simp [awaitable_wrapper, hp] at h
    · obtain ⟨rfl, rfl⟩ : .released = o ∧ { s with ptr := none } = t := by
        simpa [awaitable_wrapper, hp] using h
      exact .released (by rw [hp]; rfl)

/-- A step that leaves the promised coroutines alone grants the awaitable only if there are none. -/
theorem queued_eq_nil_of_grants {s t : AwaitableWrapper κ ε φ} {a : AwaitableStep κ ε}
    {o : AwaitableAnswer φ} (halone : Alone s a) (h : AwaitableEffect s a o t) (hgrant : o.grants) :
    s.queued = [] := by
  cases h with
  | accepted by_ hvalid =>
    obtain hq | hq : s.queued = [] ∨ s.valid = false := halone
    · exact hq
    · simp [hvalid] at hq
  | stolen T Executor aw hgives =>
    obtain hq | hq : s.queued = [] ∨ s.gives T Executor = false := halone
    · exact hq
    · simp [hgives] at hq
  | _ => cases hgrant

/-- The invariant is kept by the steps that leave the promised coroutine alone. -/
theorem promised_step (s : AwaitableWrapper κ ε φ) (a : AwaitableStep κ ε) (o : AwaitableAnswer φ)
    (t : AwaitableWrapper κ ε φ) (hs : Promised s) (halone : Alone s a)
    (h : awaitable_wrapper.step s a = some (o, t)) : Promised t := by
  cases awaitable_step_effect h with
  | accepted by_ hvalid =>
    have hq := queued_eq_nil_of_grants halone (awaitable_step_effect h) rfl
    exact Or.inr ⟨by simp [hq], hvalid⟩
  | expired => exact hs
  | started i aw hi hvalid =>
    -- The only coroutine that waited has started.
    have hlen : s.queued.length = 1 := by
      rcases hs with hq | ⟨hlen, -⟩
      · simp [hq] at hi
      · exact hlen
    refine Or.inl (List.eq_nil_of_length_eq_zero ?_)
    rw [List.length_eraseIdx_of_lt hi, hlen]
  | fault i hi hvalid => simp [hs.valid hi] at hvalid
  | stolen T Executor aw hgives =>
    have hq := queued_eq_nil_of_grants halone (awaitable_step_effect h) rfl
    exact Or.inl hq
  | invalid => exact hs
  | released => exact Or.inl halone

/-- Every grant uses up the right to one. -/
theorem grantable_step (s : AwaitableWrapper κ ε φ) (a : AwaitableStep κ ε) (o : AwaitableAnswer φ)
    (t : AwaitableWrapper κ ε φ) (hs : Promised s) (halone : Alone s a)
    (h : awaitable_wrapper.step s a = some (o, t)) :
    (if o.grants then 1 else 0) + t.grantable ≤ s.grantable := by
  unfold AwaitableWrapper.grantable
  cases awaitable_step_effect h with
  | accepted by_ hvalid =>
    have hq := queued_eq_nil_of_grants halone (awaitable_step_effect h) rfl
    simp [AwaitableAnswer.grants, hq, hvalid]
  | expired => simp [AwaitableAnswer.grants]
  | started i aw hi hvalid =>
    show (if false then 1 else 0) + (if _ ∧ s.moved.valid then 1 else 0) ≤ _
    simp
  | fault i hi hvalid => simp [hs.valid hi] at hvalid
  | stolen T Executor aw hgives =>
    have hq := queued_eq_nil_of_grants halone (awaitable_step_effect h) rfl
    simp [AwaitableAnswer.grants, hq, AwaitableWrapper.valid_of_gives hgives]
  | invalid => simp [AwaitableAnswer.grants]
  | released => simp [AwaitableAnswer.grants, AwaitableWrapper.valid]

/-- Every taking of the awaitable uses up a promise of it, or the right to one. -/
theorem consumable_step (s : AwaitableWrapper κ ε φ) (a : AwaitableStep κ ε)
    (o : AwaitableAnswer φ) (t : AwaitableWrapper κ ε φ) (hs : Promised s) (halone : Alone s a)
    (h : awaitable_wrapper.step s a = some (o, t)) :
    (if o.consumes then 1 else 0) + t.consumable ≤ s.consumable := by
  have hgrant := grantable_step s a o t hs halone h
  unfold AwaitableWrapper.consumable
  cases awaitable_step_effect h with
  | accepted by_ hvalid =>
    simp only [AwaitableAnswer.grants, AwaitableAnswer.consumes, Bool.false_eq_true, if_true,
      if_false, List.length_append, List.length_singleton] at hgrant ⊢
    omega
  | expired => simp [AwaitableAnswer.consumes]
  | started i aw hi hvalid =>
    have hlen := List.length_eraseIdx_of_lt hi
    simp only [AwaitableAnswer.grants, AwaitableAnswer.consumes, if_true] at hgrant ⊢
    omega
  | fault i hi hvalid => simp [hs.valid hi] at hvalid
  | stolen T Executor aw hgives =>
    simp only [AwaitableAnswer.grants, AwaitableAnswer.consumes, if_true,
      AwaitableWrapper.queued_moved] at hgrant ⊢
    omega
  | invalid => simp [AwaitableAnswer.consumes]
  | released =>
    simp only [AwaitableAnswer.grants, AwaitableAnswer.consumes, Bool.false_eq_true,
      if_false] at hgrant ⊢
    omega

/-- No step faults: a run has no budget for it. -/
theorem faults_step (s : AwaitableWrapper κ ε φ) (a : AwaitableStep κ ε) (o : AwaitableAnswer φ)
    (t : AwaitableWrapper κ ε φ) (hs : Promised s) (_ : Alone s a)
    (h : awaitable_wrapper.step s a = some (o, t)) : (if o.faults then 1 else 0) + 0 ≤ 0 := by
  cases awaitable_step_effect h with
  | fault i hi hvalid => simp [hs.valid hi] at hvalid
  | _ => exact Nat.le_refl 0

/-- Once the wrapper is gone, every coroutine that is still to start faults. -/
theorem fault_of_released {s t : AwaitableWrapper κ ε φ} {as : List (AwaitableStep κ ε)}
    {os : List (AwaitableAnswer φ)} (h : awaitable_wrapper.Run s as os t) (hptr : s.ptr = none)
    (hs : s.queued ≠ []) (ht : t.queued = []) : os.countP AwaitableAnswer.faults ≠ 0 := by
  cases h with
  | nil => exact absurd ht hs
  | @cons _ u _ a o as os hst hrun =>
    have hvalid : s.valid = false := by simp [AwaitableWrapper.valid, hptr]
    cases a with
    | start i =>
      cases awaitable_step_effect hst with
      | started i aw hi hv => simp [hvalid] at hv
      | fault i hi hv => simp [AwaitableAnswer.faults]
    | await by_ => simp [awaitable_wrapper, hptr] at hst
    | cast_and_steal T Executor => simp [awaitable_wrapper, hptr] at hst
    | release => simp [awaitable_wrapper, hptr] at hst

/-- Where the awaitable is granted at most once in all, counting the coroutines that were promised
it, and no coroutine faults until all have started, every step leaves the promised ones alone. -/
theorem meets_alone_of_consumedOnce {s t : AwaitableWrapper κ ε φ}
    {as : List (AwaitableStep κ ε)} {os : List (AwaitableAnswer φ)}
    (h : awaitable_wrapper.Run s as os t) (ht : t.queued = [])
    (hfault : os.countP AwaitableAnswer.faults = 0)
    (hgrant : s.queued.length + os.countP AwaitableAnswer.grants ≤ 1) :
    awaitable_wrapper.Meets Alone s as := by
  induction h with
  | nil => exact trivial
  | @cons s u t a o as os hst hrun ih =>
    rw [Mealy.meets_cons hst]
    rw [List.countP_cons] at hgrant hfault
    have hempty : ∀ {n : ℕ}, s.queued.length + (n + 1) ≤ 1 → s.queued = [] := fun hn =>
      List.eq_nil_of_length_eq_zero (by omega)
    cases awaitable_step_effect hst with
    | accepted by_ hvalid =>
      refine ⟨Or.inl (hempty hgrant), ih ht (by omega) ?_⟩
      simp only [AwaitableAnswer.grants, if_true, List.length_append,
        List.length_singleton] at hgrant ⊢
      omega
    | expired by_ hvalid => exact ⟨Or.inr hvalid, ih ht (by omega) hgrant⟩
    | started i aw hi hvalid =>
      have hlen := List.length_eraseIdx_of_lt hi
      refine ⟨trivial, ih ht (by omega) ?_⟩
      simp only [AwaitableAnswer.grants] at hgrant ⊢
      omega
    | fault i hi hvalid => simp [AwaitableAnswer.faults] at hfault
    | stolen T Executor aw hgives =>
      refine ⟨Or.inl (hempty hgrant), ih ht (by omega) ?_⟩
      simp only [AwaitableAnswer.grants, if_true, AwaitableWrapper.queued_moved] at hgrant ⊢
      omega
    | invalid T Executor hgives => exact ⟨Or.inr hgives, ih ht (by omega) hgrant⟩
    | released hptr =>
      -- A coroutine that waits at this point faults when it starts.
      have hq : s.queued = [] := by
        by_contra hq
        exact fault_of_released hrun rfl hq ht (by omega)
      exact ⟨hq, ih ht (by omega) hgrant⟩

/-- **An awaitable is consumed at most once, while nobody else is served.** In every run of the
steps on a new wrapper: if no step asks for the awaitable, takes it or drops it while a coroutine
that was promised it waits, then no coroutine starts without it, it is taken at most once, and all
who ask after the first are refused. And once every coroutine has started, only then. -/
theorem awaitable_consumed_once {T : κ} {Executor : ε} {aw : φ} {as : List (AwaitableStep κ ε)}
    {os : List (AwaitableAnswer φ)} {t : AwaitableWrapper κ ε φ}
    (h : awaitable_wrapper.Run (.new T Executor aw) as os t) :
    (awaitable_wrapper.Meets Alone (AwaitableWrapper.new T Executor aw) as → ConsumedOnce os) ∧
      (t.queued = [] → ConsumedOnce os →
        awaitable_wrapper.Meets Alone (AwaitableWrapper.new T Executor aw) as) := by
  have hnew : Promised (AwaitableWrapper.new T Executor aw) := Or.inl rfl
  constructor
  · intro halone
    exact {
      no_fault := Nat.le_zero.mp (h.countP_le promised_step faults_step hnew halone)
      consumed := h.countP_le promised_step consumable_step hnew halone
      granted := h.countP_le promised_step grantable_step hnew halone }
  · intro ht honce
    apply meets_alone_of_consumedOnce h ht honce.no_fault
    show 0 + _ ≤ 1
    rw [Nat.zero_add]
    exact honce.granted

/-- An awaitable that is spawned, then asked for by the driver once it has started. -/
theorem awaitable_consumed_once_spawned :
    (awaitable_wrapper.Meets Alone (AwaitableWrapper.new () () 7)
        [.await .co_spawn, .start 0, .await .adopt_async_func, .release] →
      ConsumedOnce [.accepted, .started 7, .expired, .released]) ∧
    (([] : List Awaiter) = [] → ConsumedOnce [.accepted, .started 7, .expired, .released] →
      awaitable_wrapper.Meets Alone (AwaitableWrapper.new () () 7)
        [.await .co_spawn, .start 0, .await .adopt_async_func, .release]) :=
  have h : awaitable_wrapper.Run (AwaitableWrapper.new () () 7)
      [.await .co_spawn, .start 0, .await .adopt_async_func, .release]
      [.accepted, .started 7, .expired, .released] ⟨none, []⟩ :=
    .cons rfl (.cons rfl (.cons rfl (.cons rfl (.nil _))))
  awaitable_consumed_once h

/-- Two calls of `co_spawn` with one awaitable before the context runs: both are accepted, and the
second coroutine starts without an awaitable. -/
theorem awaitable_spawned_twice :
    awaitable_wrapper.Run (AwaitableWrapper.new () () 7)
        [.await .co_spawn, .await .co_spawn, .start 0, .start 0]
        [.accepted, .accepted, .started 7, .fault] ⟨some ⟨(), (), none⟩, []⟩ ∧
      ¬ ConsumedOnce [.accepted, .accepted, .started 7, (.fault : AwaitableAnswer ℕ)] :=
  ⟨.cons rfl (.cons rfl (.cons rfl (.cons rfl (.nil _)))),
    fun h => absurd h.no_fault (by decide)⟩

end AsioPy
