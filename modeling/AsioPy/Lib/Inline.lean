import AsioPy.Lib.Resumable

/-!
# A process that calls another one

A caller yields to have a callee run, and is resumed with an answer. `inlined` is the caller with
one such call done in place: at the first state that has a callee, the callee's own yields are
yielded instead, and where it ends, the caller is resumed at once with what `answer` makes of its
end.

How a run of `inlined` comes out is known from the runs of its two parts: the caller's approach to
the call, the callee's run from there, and the caller's run behind it
(`outcome_inlined_iff`, `outcome_inlined_of_gives_up`).
-/

variable {σ τ ρ υ η η' ω : Type*}

/-- A state of a process with a call in it. -/
inductive CallState (σ τ : Type*) where
  | before (s : σ)
  /-- The caller waits in `s` for the callee in `t`. -/
  | inside (s : σ) (t : τ)
  | after (s : σ)

/-- The caller goes on behind the call. -/
def Resumed.leave : Resumed σ υ η → Resumed (CallState σ τ) υ η
  | .yields y s => .yields y (.after s)
  | .ends e => .ends e

namespace Resumable

/-- The callee has been resumed. Where it ends, so is the caller, with the answer. -/
def enter (M : Resumable σ ρ υ η) (answer : η' → ρ) (s : σ) :
    Resumed τ υ η' → Resumed (CallState σ τ) υ η
  | .yields y t => .yields y (.inside s t)
  | .ends e => (M.resume s (answer e)).leave

/-- The caller `M` with its first call done in place: `callee` says in which states it waits for
one, and `start` is what the callee is first resumed with. -/
def inlined (M : Resumable σ ρ υ η) (N : Resumable τ ρ υ η') (callee : σ → Option τ) (start : ρ)
    (answer : η' → ρ) : Resumable (CallState σ τ) ρ υ η where
  resume
    -- One resumption leads into the callee where the caller makes the call.
    | .before s, r =>
      match M.resume s r with
      | .ends e => .ends e
      | .yields y s' =>
        match callee s' with
        | none => .yields y (.before s')
        | some t => M.enter answer s' (N.resume t start)
    | .inside s t, r => M.enter answer s (N.resume t r)
    | .after s, r => (M.resume s r).leave

/-- From one resumption to a later one, without a call on the way. -/
inductive Approaches (M : Resumable σ ρ υ η) (D : Driver ρ υ η ω) (callee : σ → Option τ) :
    ℕ → σ → ρ → List ρ → ℕ → σ → ρ → Prop
  /-- No resumption. -/
  | refl (n : ℕ) (s : σ) (r : ρ) : Approaches M D callee n s r [] n s r
  /-- A resumption after which the caller waits for no callee, then more. -/
  | step {n m : ℕ} {s s' t : σ} {r r' u : ρ} {y : υ} {rs : List ρ} :
      M.resume s r = .yields y s' → callee s' = none → D.on_yield n y = .inl r' →
      Approaches M D callee (n + 1) s' r' rs m t u → Approaches M D callee n s r (r :: rs) m t u

section

variable {M : Resumable σ ρ υ η} {D D' : Driver ρ υ η ω}

/-- Every resumption on the way is after a yield. -/
theorem Reaches.number_eq {n m : ℕ} {s t : σ} {r u : ρ} {rs : List ρ}
    (h : Reaches M D n s r rs m t u) : n + rs.length = m := by
  induction h with
  | refl => rfl
  | step _ _ _ ih => rw [← ih, List.length_cons, Nat.add_assoc, Nat.add_comm 1]

/-- A driver with the same answers on the way gets there too. -/
theorem Reaches.congr {n m : ℕ} {s t : σ} {r u : ρ} {rs : List ρ}
    (h : Reaches M D n s r rs m t u) (hD : ∀ i < m, D'.on_yield i = D.on_yield i) :
    Reaches M D' n s r rs m t u := by
  induction h with
  | refl n s r => exact .refl n s r
  | step hres hyield hreach ih =>
    refine .step hres ?_ (ih hD)
    rw [hD _ (by have := hreach.number_eq; omega), hyield]

/-- A driver that answers alike from another number on gets there from that one. -/
theorem Reaches.shift {n m : ℕ} {s t : σ} {r u : ρ} {rs : List ρ} (h : Reaches M D n s r rs m t u)
    {b : ℕ} (hD : ∀ i, D'.on_yield (b + i) = D.on_yield (n + i)) :
    Reaches M D' b s r rs (b + rs.length) t u := by
  induction h generalizing b with
  | refl n s r => exact .refl b s r
  | @step n m s s' t r r' u y rs hres hyield _ ih =>
    rw [show b + (r :: rs).length = b + 1 + rs.length by rw [List.length_cons]; omega]
    refine .step hres ?_ (ih fun i => ?_)
    · rw [← Nat.add_zero b, hD 0, Nat.add_zero, hyield]
    · rw [Nat.add_assoc, hD, Nat.add_assoc]

/-- Drivers that answer alike from some numbers on make the same run from there. -/
theorem run_shift {a b : ℕ} (hyield : ∀ i, D'.on_yield (a + i) = D.on_yield (b + i))
    (hend : D'.on_end = D.on_end) (fuel : ℕ) (s : σ) (r : ρ) :
    M.run D' fuel a s r = M.run D fuel b s r := by
  induction fuel generalizing a b s r with
  | zero => rfl
  | succ fuel ih =>
    have hnext : ∀ i, D'.on_yield (a + 1 + i) = D.on_yield (b + 1 + i) := fun i => by
      rw [Nat.add_assoc, hyield, Nat.add_assoc]
    have hfirst := hyield 0
    rw [Nat.add_zero, Nat.add_zero] at hfirst
    rw [run, run, hfirst, hend]
    simp only [ih hnext]

/-- A run with an outcome stays what it is with more fuel. -/
theorem run_mono {fuel fuel' n : ℕ} {s : σ} {r : ρ} (h : (M.run D fuel n s r).2.isSome)
    (hle : fuel ≤ fuel') : M.run D fuel' n s r = M.run D fuel n s r := by
  induction fuel generalizing fuel' n s r with
  | zero => cases h
  | succ fuel ih =>
    obtain ⟨fuel', rfl⟩ : ∃ k, fuel' = k + 1 := ⟨fuel' - 1, by omega⟩
    rcases hres : M.resume s r with ⟨y, s'⟩ | e
    · rcases hD : D.on_yield n y with r' | w
      · -- The rest of the run has the outcome with less fuel.
        rw [run_yields hres hD] at h ⊢
        rw [run_yields hres hD, ih h (Nat.le_of_succ_le_succ hle)]
      · rw [run_gives_up hres hD, run_gives_up hres hD]
    · rw [run_ends hres, run_ends hres]

/-- A run has one outcome at most. -/
theorem exists_outcome_iff {n : ℕ} {s : σ} {r : ρ} {w w' : ω}
    (h : ∃ fuel, (M.run D fuel n s r).2 = some w) :
    (∃ fuel, (M.run D fuel n s r).2 = some w') ↔ w' = w := by
  obtain ⟨fuel, hw⟩ := h
  constructor
  · rintro ⟨fuel', hw'⟩
    exact outcome_unique hw' hw
  · rintro rfl
    exact ⟨fuel, hw⟩

/-- Where a run with an outcome stops, and the resumptions that it makes. -/
theorem reaches_of_run {fuel n : ℕ} {s : σ} {r : ρ} {rs : List ρ} {w : ω}
    (h : M.run D fuel n s r = (rs, some w)) :
    ∃ rs' t u, rs = rs' ++ [u] ∧ Reaches M D n s r rs' (n + rs'.length) t u ∧
      StopsWith M D (n + rs'.length) t u w := by
  obtain ⟨rs', m, t, u, hreach, hstop⟩ := reaches_of_outcome (congrArg Prod.snd h)
  obtain rfl := hreach.number_eq
  refine ⟨rs', t, u, ?_, hreach, hstop⟩
  have hrun : M.run D (rs'.length + 1) n s r = (rs' ++ [u], some w) := by
    rw [run_of_reaches hreach, run_of_stopsWith hstop 0]
  -- With enough fuel the two runs are one.
  have hmore := run_mono (by rw [h]; rfl) (Nat.le_max_left fuel (rs'.length + 1))
  have hmore' := run_mono (by rw [hrun]; rfl) (Nat.le_max_right fuel (rs'.length + 1))
  rw [hmore, h, hrun] at hmore'
  exact congrArg Prod.fst hmore'

/-- A run past a point has the outcomes of the run from there. -/
theorem outcome_past {n m : ℕ} {s t : σ} {r u : ρ} {rs : List ρ} (h : Reaches M D n s r rs m t u)
    {w : ω} :
    (∃ fuel, (M.run D fuel n s r).2 = some w) ↔ ∃ fuel, (M.run D fuel m t u).2 = some w := by
  constructor
  · rintro ⟨fuel, hw⟩
    have hmore := run_mono (by rw [hw]; rfl) (Nat.le_add_left fuel rs.length)
    rw [run_of_reaches h] at hmore
    exact ⟨fuel, (congrArg Prod.snd hmore).trans hw⟩
  · rintro ⟨fuel, hw⟩
    exact ⟨rs.length + fuel, by rw [run_of_reaches h, hw]⟩

end

section

variable {M : Resumable σ ρ υ η} {N : Resumable τ ρ υ η'} {callee : σ → Option τ} {start : ρ}
  {answer : η' → ρ} {D : Driver ρ υ η ω} {D' : Driver ρ υ η' ω}

/-- The caller gets there by itself. -/
theorem Approaches.reaches {n m : ℕ} {s t : σ} {r u : ρ} {rs : List ρ}
    (h : Approaches M D callee n s r rs m t u) : Reaches M D n s r rs m t u := by
  induction h with
  | refl n s r => exact .refl n s r
  | step hres _ hyield _ ih => exact .step hres hyield ih

/-- And so does the process with the call in it. -/
theorem Approaches.inlined {n m : ℕ} {s t : σ} {r u : ρ} {rs : List ρ}
    (h : Approaches M D callee n s r rs m t u) :
    Reaches (M.inlined N callee start answer) D n (.before s) r rs m (.before t) u := by
  induction h with
  | refl n s r => exact .refl n _ r
  | step hres hcallee hyield _ ih =>
    refine .step ?_ hyield ih
    simp only [Resumable.inlined, hres, hcallee]

/-- While the callee runs, its yields are those of the process. -/
theorem reaches_inside {n m : ℕ} {t t' : τ} {r u : ρ} {rs : List ρ}
    (h : Reaches N D' n t r rs m t' u) (hD : ∀ i y r, D'.on_yield i y = .inl r →
      D.on_yield i y = .inl r) (s : σ) :
    Reaches (M.inlined N callee start answer) D n (.inside s t) r rs m (.inside s t') u := by
  induction h with
  | refl n t r => exact .refl n _ r
  | step hres hyield _ ih =>
    refine .step ?_ (hD _ _ _ hyield) ih
    simp only [inlined, hres, enter]

/-- Behind the call the process is the caller. -/
theorem run_after (fuel n : ℕ) (s : σ) (r : ρ) :
    (M.inlined N callee start answer).run D fuel n (.after s) r = M.run D fuel n s r := by
  induction fuel generalizing n s r with
  | zero => rfl
  | succ fuel ih =>
    have hresume : (M.inlined N callee start answer).resume (.after s) r =
        (M.resume s r).leave := rfl
    rw [run, run, hresume]
    rcases M.resume s r with ⟨y, s'⟩ | e
    · simp only [Resumed.leave, ih]
    · rfl

/-- A resumption that leaves the call comes out as the caller's does. -/
theorem outcome_of_leave {S : CallState σ τ} {r a : ρ} {s : σ}
    (h : (M.inlined N callee start answer).resume S r = (M.resume s a).leave) (fuel n : ℕ) :
    ((M.inlined N callee start answer).run D fuel n S r).2 = (M.run D fuel n s a).2 := by
  cases fuel with
  | zero => rfl
  | succ fuel =>
    rw [run, run, h]
    rcases M.resume s a with ⟨y, s'⟩ | e
    · simp only [Resumed.leave]
      rcases D.on_yield n y with r' | w
      · simp only [run_after]
      · rfl
    · rfl

/-- A resumption that makes a call comes out as the callee's first one does. -/
theorem outcome_of_call {s s' : σ} {r : ρ} {y : υ} {t : τ} (hcall : M.resume s r = .yields y s')
    (hcallee : callee s' = some t) (fuel n : ℕ) :
    ((M.inlined N callee start answer).run D fuel n (.before s) r).2 =
      ((M.inlined N callee start answer).run D fuel n (.inside s' t) start).2 := by
  have hsame : (M.inlined N callee start answer).resume (.before s) r =
      (M.inlined N callee start answer).resume (.inside s' t) start := by
    simp only [inlined, hcall, hcallee]
  cases fuel with
  | zero => rfl
  | succ fuel =>
    rw [run, run, hsame]
    rcases (M.inlined N callee start answer).resume (.inside s' t) start with ⟨y', S⟩ | e
    · rcases hD : D.on_yield n y' with r' | w <;> simp only [hD]
    · rfl

variable {n m m' : ℕ} {s s₁ s₂ : σ} {r r₁ u : ρ} {rs rs' : List ρ} {y : υ} {t t' : τ}

/-- A process that has come to its call has the outcomes of the callee's run in it. -/
theorem outcome_inlined_inside (happ : Approaches M D callee n s r rs m s₁ r₁)
    (hcall : M.resume s₁ r₁ = .yields y s₂) (hcallee : callee s₂ = some t)
    (hreach : Reaches N D' m t start rs' m' t' u)
    (hD : ∀ i y r, D'.on_yield i y = .inl r → D.on_yield i y = .inl r) {w : ω} :
    (∃ fuel, ((M.inlined N callee start answer).run D fuel n (.before s) r).2 = some w) ↔
      ∃ fuel, ((M.inlined N callee start answer).run D fuel m' (.inside s₂ t') u).2 = some w := by
  rw [outcome_past happ.inlined, ← outcome_past (reaches_inside hreach hD s₂)]
  simp only [outcome_of_call hcall hcallee]

/-- **A callee that ends.** The process has the outcomes of the caller, resumed with the answer. -/
theorem outcome_inlined_iff (happ : Approaches M D callee n s r rs m s₁ r₁)
    (hcall : M.resume s₁ r₁ = .yields y s₂) (hcallee : callee s₂ = some t)
    (hreach : Reaches N D' m t start rs' m' t' u)
    (hD : ∀ i y r, D'.on_yield i y = .inl r → D.on_yield i y = .inl r) {e : η'}
    (hend : N.resume t' u = .ends e) {w : ω} :
    (∃ fuel, ((M.inlined N callee start answer).run D fuel n (.before s) r).2 = some w) ↔
      ∃ fuel, (M.run D fuel m' s₂ (answer e)).2 = some w := by
  -- The resumption that ends the callee resumes the caller.
  have hleave : (M.inlined N callee start answer).resume (.inside s₂ t') u =
      (M.resume s₂ (answer e)).leave := by
    simp only [inlined, hend, enter]
  rw [outcome_inlined_inside happ hcall hcallee hreach hD]
  simp only [outcome_of_leave hleave]

/-- **A callee that is given up.** The process is given up with it. -/
theorem outcome_inlined_of_gives_up (happ : Approaches M D callee n s r rs m s₁ r₁)
    (hcall : M.resume s₁ r₁ = .yields y s₂) (hcallee : callee s₂ = some t)
    (hreach : Reaches N D' m t start rs' m' t' u)
    (hD : ∀ i y r, D'.on_yield i y = .inl r → D.on_yield i y = .inl r) {y' : υ} {t'' : τ}
    (hyield : N.resume t' u = .yields y' t'') {w : ω} (hgive : D.on_yield m' y' = .inr w) :
    ∃ fuel, ((M.inlined N callee start answer).run D fuel n (.before s) r).2 = some w := by
  refine (outcome_inlined_inside happ hcall hcallee hreach hD).mpr ⟨1, ?_⟩
  have hres : (M.inlined N callee start answer).resume (.inside s₂ t') u =
      .yields y' (.inside s₂ t'') := by
    simp only [inlined, hyield, enter]
  rw [run_gives_up hres hgive]

end

end Resumable
