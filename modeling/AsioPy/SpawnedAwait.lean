import AsioPy.AwaitReturn
import AsioPy.Lib.Inline

/-!
# Awaiting a coroutine and awaiting its `co_spawn`

A Python coroutine can await another one in place, `await f()`, or through the bindings,
`await co_spawn(ex, f())`. In place the yields of `f()` are those of the outer coroutine, and what
`f()` raises is raised at the `await`. Through `co_spawn` a second loop of `adopt_async_func` drives
`f()`, and the outer coroutine yields one awaitable, which completes as that loop does.

`spawned_await_iff` says that the two come out the same unless `f()` raises an exception and the
outer coroutine would do something about it: a spawned coroutine's exception ends the outer one's
loop, and is not raised in it.
-/

namespace AsioPy

open Resumable

variable {σ τ ω : Type}

/-- What a coroutine is resumed with where the one that it awaits in place has ended: the value that
it returned, else its exception is raised. -/
def await_answer (e : PyException ω) : Resumption ω :=
  match e.returned with
  | some v => .of v
  | none => .throw (.error_already_set e)

/-- The coroutine `M` with its first await of a coroutine of `N` done in place. -/
def await_in_place (M : PyIterator σ ω) (N : PyIterator τ ω) (callee : σ → Option τ) :
    PyIterator (CallState σ τ) ω :=
  M.inlined N callee .next await_answer

/-- The operations from the `m`-th on. -/
def Completions.behind (ops : Completions ω) (m : ℕ) : Completions ω := fun n k => ops (m + n) k

/-- The operations of a coroutine whose `m`-th is a `co_spawn`, which awaits `k` operations itself
and completes as `a`. -/
def Completions.spawning (ops : Completions ω) (m k : ℕ) (a : Adopted ω) : Completions ω :=
  fun n kind =>
    if n < m then ops n kind
    else if n = m then
      match kind with
      | .awaitable_wrapper => a.result
      | kind => ops n kind
    -- The operations of the spawned coroutine are not among those of the outer one.
    else ops (m + k + (n - (m + 1))) kind

/-- The coroutine in `cr` comes to an await of the one in `t` as its `m`-th operation, and is
suspended in `s` there. -/
def ComesToAwait (py : PyErrors ω) (M : PyIterator σ ω) (ops : Completions ω)
    (callee : σ → Option τ) (cr : σ) (m : ℕ) (s : σ) (t : τ) : Prop :=
  ∃ rs s₁ r₁ y, Approaches M (adopt_driver py ops) callee 0 cr .next rs m s₁ r₁ ∧
    M.resume s₁ r₁ = .yields y s ∧ callee s = some t ∧ y.kind = .ok (some .awaitable_wrapper)

/-- How the driver answers depends on the operation alone. -/
theorem on_yield_congr {py : PyErrors ω} {ops ops' : Completions ω} {i j : ℕ} (h : ops' i = ops j) :
    (adopt_driver py ops').on_yield i = (adopt_driver py ops).on_yield j := by
  funext y
  simp only [adopt_driver, h]

/-- In front of the `co_spawn` the operations are the same. -/
theorem Completions.spawning_before (ops : Completions ω) {m k n : ℕ} (a : Adopted ω) (h : n < m) :
    ops.spawning m k a n = ops n := by
  funext kind
  simp only [Completions.spawning, h, if_true]

/-- Behind it, they are those behind the operations of the spawned coroutine. -/
theorem Completions.spawning_after (ops : Completions ω) (m k n : ℕ) (a : Adopted ω) :
    ops.spawning m k a (m + 1 + n) = ops (m + k + n) := by
  funext kind
  simp only [Completions.spawning, show ¬ m + 1 + n < m by omega, show m + 1 + n ≠ m by omega,
    if_false, Nat.add_sub_cancel_left]

/-- The `co_spawn` completes as the spawned coroutine does. -/
theorem Completions.spawning_self (ops : Completions ω) (m k : ℕ) (a : Adopted ω) :
    ops.spawning m k a m .awaitable_wrapper = a.result := by
  simp only [Completions.spawning, Nat.lt_irrefl, if_false, if_true]

section

variable {py : PyErrors ω} {M : PyIterator σ ω} {N : PyIterator τ ω} {ops : Completions ω}
  {callee : σ → Option τ} {cr s : σ} {t : τ} {m k : ℕ} {w : Adopted ω}

/-- The coroutine that awaits the `co_spawn` has the outcomes of its run from there, with what the
`co_spawn` completes with. -/
theorem outcome_spawning {outer : Spawned σ ω} (houter : outer.iterator = .ok ⟨cr, none⟩)
    (hawait : ComesToAwait py M ops callee cr m s t) (a : Adopted ω) :
    (∃ f, (adopt_async_func py M (ops.spawning m k a) outer f).2 = some w) ↔
      match a with
      | .completed v => ∃ f, (M.run (adopt_driver py ops) f (m + k) s (.of v)).2 = some w
      | .failed x => w = on_exception py x := by
  obtain ⟨rs, s₁, r₁, y, happ, hyield, -, hkind⟩ := hawait
  have hreach : Reaches M (adopt_driver py (ops.spawning m k a)) 0 cr .next rs m s₁ r₁ :=
    happ.reaches.congr fun i hi => on_yield_congr (ops.spawning_before a hi)
  simp only [adopt_async_func_eq_run houter]
  rw [outcome_past hreach]
  cases a with
  | completed v =>
    -- The outer coroutine is resumed with the value, behind the one operation.
    have hD : (adopt_driver py (ops.spawning m k (.completed v))).on_yield m y = .inl (.of v) := by
      simp only [adopt_driver, hkind, ops.spawning_self, Adopted.result]
      rfl
    have hstep := Reaches.step hyield hD (.refl (m + 1) s (Resumption.of v))
    rw [outcome_past hstep]
    simp only [run_shift (fun i => on_yield_congr (ops.spawning_after m k i (.completed v)))
      (show (adopt_driver py (ops.spawning m k (.completed v))).on_end =
        (adopt_driver py ops).on_end from rfl)]
  | failed x =>
    -- Its loop is given up, and it is not resumed with the exception.
    have hD : (adopt_driver py (ops.spawning m k (.failed x))).on_yield m y =
        .inr (on_exception py x) := by
      simp only [adopt_driver, hkind, ops.spawning_self, Adopted.result]
    refine exists_outcome_iff ⟨1, ?_⟩
    rw [run_gives_up hyield hD]

/-- How the spawned coroutine comes to its end, counted among the operations of the other one: it
ends itself, or is given up where an operation fails. -/
theorem spawned_cases {inner : Spawned τ ω} (hinner : inner.iterator = .ok ⟨t, none⟩) {fuel : ℕ}
    {rs : List (Resumption ω)} {a : Adopted ω}
    (hrun : adopt_async_func py N (ops.behind m) inner fuel = (rs, some a)) :
    ∃ rs' t' u, Reaches N (adopt_driver py ops) m t .next rs' (m + (rs.length - 1)) t' u ∧
      ((∃ e, N.resume t' u = .ends e ∧ EndsWith py N (ops.behind m) inner e ∧
          a = on_exception py (py.thrown e)) ∨
        ((∃ y t'', N.resume t' u = .yields y t'' ∧
            (adopt_driver py ops).on_yield (m + (rs.length - 1)) y = .inr a) ∧
          (∃ x, Elsewhere py N (ops.behind m) inner x ∧ a = on_exception py x) ∧
          ∀ e, ¬ EndsWith py N (ops.behind m) inner e)) := by
  rw [adopt_async_func_eq_run hinner] at hrun
  obtain ⟨rs', t', u, rfl, hreach, hstop⟩ := reaches_of_run hrun
  have hlen : (rs' ++ [u]).length - 1 = rs'.length := by simp
  have hpoint : Point py N (ops.behind m) inner rs' (0 + rs'.length) t' u := ⟨t, hinner, hreach⟩
  have hsame : ∀ i, (adopt_driver py ops).on_yield (m + i) =
      (adopt_driver py (ops.behind m)).on_yield (0 + i) := fun i => by
    rw [Nat.zero_add]
    exact on_yield_congr rfl
  rw [hlen]
  refine ⟨rs', t', u, hreach.shift hsame, ?_⟩
  rcases hstop with ⟨e, hend, rfl⟩ | ⟨y, t'', hyield, hgive⟩
  · exact Or.inl ⟨e, hend, ⟨rs', _, t', u, hpoint, hend⟩, rfl⟩
  · -- What is given up is an object that is not awaitable, or an operation that failed.
    obtain ⟨x, hx, ha⟩ := hpoint.elsewhere_of_gives_up hyield hgive
    refine Or.inr ⟨⟨y, t'', hyield, by rw [hsame, hgive]⟩, ⟨x, hx, ha.symm⟩, ?_⟩
    -- A run stops at one point only.
    rintro e ⟨rs₂, n, t₂, u₂, ⟨cr', hobj, hreach'⟩, hend⟩
    obtain rfl : t = cr' := by simpa [hinner] using hobj
    obtain ⟨-, rfl, rfl⟩ := hreach.stop_unique (Or.inr ⟨y, t'', hyield, hgive⟩) hreach'
      (Or.inl ⟨e, hend, rfl⟩)
    rw [hyield] at hend
    cases hend

/-- **Awaiting a coroutine against awaiting its `co_spawn`.** Let a coroutine come to await another
one, which ends when it is spawned, and let C++ see every exception on its way as what it is.
Then the outer coroutine has the same outcomes with the inner one awaited in place and spawned,
exactly if an exception that the inner one raises would, raised at the await, end the outer one. -/
theorem spawned_await_iff {outer : Spawned σ ω} {inner : Spawned τ ω}
    (houter : outer.iterator = .ok ⟨cr, none⟩) (hinner : inner.iterator = .ok ⟨t, none⟩)
    (hawait : ComesToAwait py M ops callee cr m s t) {fuel : ℕ} {rs : List (Resumption ω)}
    {a : Adopted ω} (hrun : adopt_async_func py N (ops.behind m) inner fuel = (rs, some a))
    (hpasses : ∀ x, Elsewhere py N (ops.behind m) inner x → x.Passes py)
    (hseen : ∀ e, EndsWith py N (ops.behind m) inner e → e.SeenTrue py) :
    (∀ w, (∃ f, (adopt_async_func py (await_in_place M N callee) ops
            (.coroutine (.before cr)) f).2 = some w) ↔
        ∃ f, (adopt_async_func py M (ops.spawning m (rs.length - 1) a) outer f).2 = some w) ↔
      ∀ e, EndsWith py N (ops.behind m) inner e → e.returned = none →
        ∃ f, (M.run (adopt_driver py ops) f (m + (rs.length - 1)) s
          (.throw (.error_already_set e))).2 = some (.failed (.error_already_set e)) := by
  have hplace : ∀ f,
      adopt_async_func py (await_in_place M N callee) ops (.coroutine (.before cr)) f =
        (M.inlined N callee .next await_answer).run (adopt_driver py ops) f 0 (.before cr) .next :=
    adopt_async_func_eq_run rfl
  simp only [outcome_spawning houter hawait, hplace]
  obtain ⟨rs', t', u, hreach,
    ⟨e, hend, hown, rfl⟩ | ⟨⟨y, t'', hyield, hgive⟩, ⟨x, hx, rfl⟩, hno⟩⟩ :=
      spawned_cases hinner hrun
  · obtain ⟨rs₁, s₁, r₁, y₁, happ, hcall, hcallee, -⟩ := hawait
    simp only [outcome_inlined_iff happ hcall hcallee hreach (fun _ _ _ h => h) hend]
    obtain ⟨hcompletes, hfails⟩ := (endsAlike_iff_seenTrue py e).mpr (hseen e hown)
    rcases hreturned : e.returned with - | v
    · -- The inner coroutine raises: the outer one is resumed with it, or fails with it.
      have hstop := e.returned_eq_none_iff.mp hreturned
      have hfail := hfails hstop
      have hagain : on_exception py (.error_already_set e) = .failed (.error_already_set e) :=
        on_exception_failed_iff.mpr ((hseen e hown).raised hstop).2
      simp only [await_answer, hreturned, hfail, hagain]
      constructor
      · intro h e' hown' _
        obtain rfl := hown.unique hown'
        exact (h _).mpr rfl
      · intro h w
        exact exists_outcome_iff (h e hown hreturned)
    · -- It returns: both resume the outer one with the value.
      refine iff_of_true (fun w => ?_) fun e' hown' hnone => ?_
      · simp only [await_answer, hreturned, (hcompletes v).mpr hreturned]
      · obtain rfl := hown.unique hown'
        rw [hreturned] at hnone
        cases hnone
  · -- The inner coroutine is given up at an operation: so is the outer one, in both ways.
    obtain ⟨rs₁, s₁, r₁, y₁, happ, hcall, hcallee, -⟩ := hawait
    have hfailed : on_exception py x = .failed x := on_exception_failed_iff.mpr (hpasses x hx)
    have hboth : ∃ f, ((M.inlined N callee .next await_answer).run (adopt_driver py ops) f 0
        (.before cr) .next).2 = some (on_exception py x) :=
      outcome_inlined_of_gives_up happ hcall hcallee hreach (fun _ _ _ h => h) hyield hgive
    refine iff_of_true (fun w => ?_) fun e hown => absurd hown (hno e)
    simp only [exists_outcome_iff hboth, hfailed]

end

/-- A coroutine that catches what is raised at its await. -/
def catching : PyIterator Bool ℕ := await_one .awaitable_wrapper (.object 42)

/-- It awaits the callee where it is suspended. -/
def callee_of_catching : Bool → Option Unit
  | false => none
  | true => some ()

/-- A coroutine that raises an exception. -/
def raising : PyIterator Unit ℕ := end_at_once (attribute_error "x")

/-- Operations that all succeed. -/
def succeeding_ops : Completions ℕ := succeeding (same_results .none)

/-- The inner coroutine raises an exception that the outer one would catch. -/
theorem spawned_await_iff_catching :
    (∀ w, (∃ f, (adopt_async_func plain_errors
            (await_in_place catching raising callee_of_catching) succeeding_ops
            (.coroutine (.before false)) f).2 = some w) ↔
        ∃ f, (adopt_async_func plain_errors catching (succeeding_ops.spawning 0 0
          (.failed (.error_already_set (attribute_error "x")))) (.coroutine false) f).2 = some w) ↔
      ∀ e, EndsWith plain_errors raising (succeeding_ops.behind 0) (.coroutine ()) e →
        e.returned = none → ∃ f, (catching.run (adopt_driver plain_errors succeeding_ops) f 0 true
          (.throw (.error_already_set e))).2 = some (.failed (.error_already_set e)) := by
  have hrun : adopt_async_func plain_errors raising (succeeding_ops.behind 0) (.coroutine ()) 1 =
      ([Resumption.next], some (.failed (.error_already_set (attribute_error "x")))) := rfl
  have hawait :
      ComesToAwait plain_errors catching succeeding_ops callee_of_catching false 0 true () :=
    ⟨[], false, .next, .of .awaitable_wrapper, .refl 0 false Resumption.next, rfl, rfl, rfl⟩
  refine spawned_await_iff rfl rfl hawait hrun ?_ ?_
  · rintro x (hlookup | ⟨-, -, hstring⟩ | ⟨-, hyield, -⟩ | ⟨-, hyield, -⟩ | ⟨-, hyield, -⟩)
    · cases hlookup
    · cases hstring
    · cases hyield
    · cases hyield
    · cases hyield
  · rintro e ⟨rs, n, s, r, -, hend⟩
    obtain rfl : attribute_error "x" = e := by simpa [raising, end_at_once] using hend
    refine ⟨fun v hv => ?_, fun _ => ⟨⟨_, rfl⟩, ?_⟩⟩
    · cases hv
    · intro htext
      exact absurd htext (by decide)

end AsioPy
