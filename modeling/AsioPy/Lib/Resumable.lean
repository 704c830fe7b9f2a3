import Mathlib.Data.List.Basic

/-!
# Processes that are resumed, and who drives them

A `Resumable` process is resumed with an input and then yields something or ends: a generator, a
coroutine. A `Driver` decides what to resume it with after each yield, or gives up. `run` is the
driver's run over the process, with every resumption it makes.

Two rules compare runs. `run_eq_of_agree` is for two drivers that answer alike: they make the same
resumptions, and their outcomes differ only in what they make of the end. `run_of_reaches` cuts a
run at a point that it passes. An outcome of a run comes from the one point where it stops
(`reaches_of_outcome`, `Reaches.stop_unique`).
-/

/-- What a process does when it is resumed: it yields, and can be resumed again, or it ends. -/
inductive Resumed (σ υ η : Type*) where
  | yields (y : υ) (s : σ)
  | ends (e : η)

/-- A process with states `σ` that is resumed with `ρ`, yields `υ` and ends with `η`. -/
structure Resumable (σ ρ υ η : Type*) where
  /-- One resumption. -/
  resume : σ → ρ → Resumed σ υ η

/-- Who resumes a process: what it does with the `n`-th yield, which is to resume the process or to
give up with an outcome, and what it makes of the end. -/
structure Driver (ρ υ η ω : Type*) where
  on_yield : ℕ → υ → ρ ⊕ ω
  on_end : η → ω

namespace Resumable

variable {σ ρ υ η ω ω' : Type*}

/-- The run of a driver over a process: at most `fuel` resumptions, from the one with `r` after
`n` yields. The resumptions it makes, and the outcome if there is one by then. -/
def run (M : Resumable σ ρ υ η) (D : Driver ρ υ η ω) : ℕ → ℕ → σ → ρ → List ρ × Option ω
  | 0, _, _, _ => ([], none)
  | fuel + 1, n, s, r =>
    match M.resume s r with
    | .ends e => ([r], some (D.on_end e))
    | .yields y s' =>
      match D.on_yield n y with
      | .inr w => ([r], some w)
      | .inl r' =>
        let rest := M.run D fuel (n + 1) s' r'
        (r :: rest.1, rest.2)

variable {M : Resumable σ ρ υ η} {D : Driver ρ υ η ω} {D' : Driver ρ υ η ω'}

/-- A resumption that ends the process. -/
theorem run_ends {fuel n : ℕ} {s : σ} {r : ρ} {e : η} (h : M.resume s r = .ends e) :
    M.run D (fuel + 1) n s r = ([r], some (D.on_end e)) := by
  rw [run, h]

/-- A resumption after which the driver gives up. -/
theorem run_gives_up {fuel n : ℕ} {s s' : σ} {r : ρ} {y : υ} {w : ω}
    (h : M.resume s r = .yields y s') (hD : D.on_yield n y = .inr w) :
    M.run D (fuel + 1) n s r = ([r], some w) := by
  simp only [run, h, hD]

/-- A resumption after which the driver resumes the process again. -/
theorem run_yields {fuel n : ℕ} {s s' : σ} {r r' : ρ} {y : υ} (h : M.resume s r = .yields y s')
    (hD : D.on_yield n y = .inl r') :
    M.run D (fuel + 1) n s r =
      (r :: (M.run D fuel (n + 1) s' r').1, (M.run D fuel (n + 1) s' r').2) := by
  simp only [run, h, hD]

/-- **Drivers that answer alike.** Let `D'` resume wherever `D` does, with the same, and let `D`
never give up in its run. Then the two make the same resumptions, and `D'` has an outcome exactly
when `D` has: what either makes of the same end. -/
theorem run_eq_of_agree (hagree : ∀ n y r, D.on_yield n y = .inl r → D'.on_yield n y = .inl r)
    {fuel n : ℕ} {s : σ} {r : ρ}
    (hends : ∀ w, (M.run D fuel n s r).2 = some w → ∀ m y, D.on_yield m y ≠ .inr w) :
    (M.run D' fuel n s r).1 = (M.run D fuel n s r).1 ∧
      ((M.run D fuel n s r).2 = none ∧ (M.run D' fuel n s r).2 = none ∨
        ∃ e, (M.run D fuel n s r).2 = some (D.on_end e) ∧
          (M.run D' fuel n s r).2 = some (D'.on_end e)) := by
  induction fuel generalizing n s r with
  | zero => exact ⟨rfl, Or.inl ⟨rfl, rfl⟩⟩
  | succ fuel ih =>
    rcases h : M.resume s r with ⟨y, s'⟩ | e
    · rcases hD : D.on_yield n y with r' | w
      · have hD' := hagree n y r' hD
        rw [run_yields h hD] at hends ⊢
        rw [run_yields h hD']
        obtain ⟨htrace, hend⟩ := ih hends
        exact ⟨congrArg _ htrace, hend⟩
      · -- The driver would give up here.
        rw [run_gives_up h hD] at hends
        exact absurd hD (hends w rfl n y)
    · rw [run_ends h, run_ends h]
      exact ⟨rfl, Or.inr ⟨e, rfl, rfl⟩⟩

/-- From one resumption to a later one, through the resumptions `rs`: `n` yields, the state and the
input, before and after. -/
inductive Reaches (M : Resumable σ ρ υ η) (D : Driver ρ υ η ω) :
    ℕ → σ → ρ → List ρ → ℕ → σ → ρ → Prop
  /-- No resumption. -/
  | refl (n : ℕ) (s : σ) (r : ρ) : Reaches M D n s r [] n s r
  /-- A resumption after which the driver resumes again, then more. -/
  | step {n m : ℕ} {s s' t : σ} {r r' u : ρ} {y : υ} {rs : List ρ} :
      M.resume s r = .yields y s' → D.on_yield n y = .inl r' →
      Reaches M D (n + 1) s' r' rs m t u → Reaches M D n s r (r :: rs) m t u

/-- **A run past a point.** A run that passes a point makes the resumptions before it, then those
of the run from there. -/
theorem run_of_reaches {n m : ℕ} {s t : σ} {r u : ρ} {rs : List ρ}
    (h : Reaches M D n s r rs m t u) (fuel : ℕ) :
    M.run D (rs.length + fuel) n s r =
      (rs ++ (M.run D fuel m t u).1, (M.run D fuel m t u).2) := by
  induction h with
  | refl => rw [List.length_nil, Nat.zero_add, List.nil_append]
  | @step n m s s' t r r' u y rs hres hD _ ih =>
    have hlen : (r :: rs).length + fuel = rs.length + fuel + 1 := by
      rw [List.length_cons]
      omega
    calc M.run D ((r :: rs).length + fuel) n s r
        = M.run D (rs.length + fuel + 1) n s r := by rw [hlen]
      _ = (r :: (M.run D (rs.length + fuel) (n + 1) s' r').1,
            (M.run D (rs.length + fuel) (n + 1) s' r').2) := run_yields hres hD
      _ = (r :: rs ++ (M.run D fuel m t u).1, (M.run D fuel m t u).2) := by
          rw [ih, List.cons_append]

/-- The run stops at this point: the process ends, or the driver gives up, with the outcome `w`. -/
def StopsWith (M : Resumable σ ρ υ η) (D : Driver ρ υ η ω) (n : ℕ) (s : σ) (r : ρ) (w : ω) : Prop :=
  (∃ e, M.resume s r = .ends e ∧ D.on_end e = w) ∨
    ∃ y s', M.resume s r = .yields y s' ∧ D.on_yield n y = .inr w

/-- A run that stops at its first resumption. -/
theorem run_of_stopsWith {n : ℕ} {s : σ} {r : ρ} {w : ω} (h : StopsWith M D n s r w) (fuel : ℕ) :
    M.run D (fuel + 1) n s r = ([r], some w) := by
  obtain ⟨e, hend, rfl⟩ | ⟨y, s', hyield, hgive⟩ := h
  · exact run_ends hend
  · exact run_gives_up hyield hgive

/-- **Where an outcome comes from.** A run with an outcome passes a point where it stops with it. -/
theorem reaches_of_outcome {fuel n : ℕ} {s : σ} {r : ρ} {w : ω}
    (h : (M.run D fuel n s r).2 = some w) :
    ∃ rs m t u, Reaches M D n s r rs m t u ∧ StopsWith M D m t u w := by
  induction fuel generalizing n s r with
  | zero => cases h
  | succ fuel ih =>
    rcases hres : M.resume s r with ⟨y, s'⟩ | e
    · rcases hD : D.on_yield n y with r' | w'
      · rw [run_yields hres hD] at h
        obtain ⟨rs, m, t, u, hreach, hstop⟩ := ih h
        exact ⟨r :: rs, m, t, u, .step hres hD hreach, hstop⟩
      · rw [run_gives_up hres hD] at h
        obtain rfl : w' = w := Option.some.inj h
        exact ⟨[], n, s, r, .refl n s r, Or.inr ⟨y, s', hres, hD⟩⟩
    · rw [run_ends hres] at h
      obtain rfl : D.on_end e = w := Option.some.inj h
      exact ⟨[], n, s, r, .refl n s r, Or.inl ⟨e, hres, rfl⟩⟩

/-- Two stops at one point have the same outcome. -/
theorem StopsWith.unique {n : ℕ} {s : σ} {r : ρ} {w w' : ω} (h : StopsWith M D n s r w)
    (h' : StopsWith M D n s r w') : w = w' := by
  have hrun := run_of_stopsWith h 0
  rw [run_of_stopsWith h' 0] at hrun
  simpa [eq_comm] using hrun

/-- A run does not go on from a point where it stops. -/
theorem not_step_of_stopsWith {n : ℕ} {s s' : σ} {r r' : ρ} {y : υ} {w : ω}
    (h : StopsWith M D n s r w) (hres : M.resume s r = .yields y s') :
    D.on_yield n y ≠ .inl r' := by
  intro hD
  obtain ⟨e, hend, -⟩ | ⟨y', s'', hyield, hgive⟩ := h
  · rw [hend] at hres
    cases hres
  · rw [hyield] at hres
    cases hres
    rw [hgive] at hD
    cases hD

/-- A run stops at one point only. -/
theorem Reaches.stop_unique {n m m' : ℕ} {s t t' : σ} {r u u' : ρ} {rs rs' : List ρ} {w w' : ω}
    (h : Reaches M D n s r rs m t u) (hstop : StopsWith M D m t u w)
    (h' : Reaches M D n s r rs' m' t' u') (hstop' : StopsWith M D m' t' u' w') :
    m = m' ∧ t = t' ∧ u = u' := by
  induction h generalizing rs' with
  | refl n s r =>
    cases h' with
    | refl => exact ⟨rfl, rfl, rfl⟩
    | step hres hD _ => exact absurd hD (not_step_of_stopsWith hstop hres)
  | @step n m s s' t r r' u y rs hres hD _ ih =>
    cases h' with
    | refl => exact absurd hD (not_step_of_stopsWith hstop' hres)
    | step hres' hD' hreach =>
      obtain ⟨rfl, rfl⟩ : y = _ ∧ s' = _ := by simpa [hres] using hres'
      obtain rfl : r' = _ := by simpa [hD] using hD'
      exact ih hstop hreach

/-- A run has one outcome, however much fuel it takes to see it. -/
theorem outcome_unique {fuel fuel' n : ℕ} {s : σ} {r : ρ} {w w' : ω}
    (h : (M.run D fuel n s r).2 = some w) (h' : (M.run D fuel' n s r).2 = some w') : w = w' := by
  obtain ⟨rs, m, t, u, hreach, hstop⟩ := reaches_of_outcome h
  obtain ⟨rs', m', t', u', hreach', hstop'⟩ := reaches_of_outcome h'
  obtain ⟨rfl, rfl, rfl⟩ := hreach.stop_unique hstop hreach' hstop'
  exact hstop.unique hstop'

end Resumable
