import Mathlib.Data.List.Sublists
import Mathlib.Logic.Relation

/-!
# Updates that may be exchanged

Updates such that one done after another either replaces it or may be done before it: assignments to
independent slots are the example. What is reachable by doing such updates in any order, any number
of times, is then reachable by doing some of them once, in a given order. `Chosen` is the latter,
and `chosen_iff_reachable` says so.
-/

namespace Exchange

variable {ε π : Type*}

/-- Updates that may be exchanged. -/
structure Exchanges (act : ε → π → ε) : Prop where
  /-- Doing an update twice is doing it once. -/
  idem : ∀ e p, act (act e p) p = act e p
  /-- An update done after another one replaces it, or could as well have been done before it. -/
  swap : ∀ e p q, act (act e q) p = act e p ∨ act (act e q) p = act (act e p) q

/-- `x` results from `e` by doing some of the updates `ps`, in their order. -/
def Chosen (act : ε → π → ε) (ps : List π) (e x : ε) : Prop :=
  ∃ qs, List.Sublist qs ps ∧ qs.foldl act e = x

/-- `y` results from `x` by doing one of the updates `ps`. -/
def OneOf (act : ε → π → ε) (ps : List π) (x y : ε) : Prop :=
  ∃ p ∈ ps, act x p = y

variable {act : ε → π → ε} {ps : List π} {p : π} {e x : ε}

/-- Nothing may be chosen. -/
theorem Chosen.refl (act : ε → π → ε) (ps : List π) (e : ε) : Chosen act ps e e :=
  ⟨[], ps.nil_sublist, rfl⟩

/-- Without updates nothing else results. -/
theorem chosen_nil : Chosen act [] e x ↔ x = e := by
  constructor
  · rintro ⟨qs, hqs, rfl⟩
    rw [List.sublist_nil.mp hqs, List.foldl_nil]
  · rintro rfl
    exact .refl act [] x

/-- The first update is done, or it is not. -/
theorem chosen_cons : Chosen act (p :: ps) e x ↔ Chosen act ps (act e p) x ∨ Chosen act ps e x := by
  constructor
  · rintro ⟨qs, hqs, hx⟩
    rcases List.sublist_cons_iff.mp hqs with h | ⟨rs, rfl, h⟩
    · exact Or.inr ⟨qs, h, hx⟩
    · exact Or.inl ⟨rs, h, hx⟩
  · rintro (⟨qs, hqs, hx⟩ | ⟨qs, hqs, hx⟩)
    · exact ⟨p :: qs, hqs.cons_cons p, hx⟩
    · exact ⟨qs, hqs.cons p, hx⟩

/-- An update done at the end could as well have been done at the start. -/
theorem Chosen.act_first (hact : Exchanges act) (q : π) :
    ∀ {ps : List π} {e x : ε}, Chosen act ps e x → Chosen act ps (act e q) (act x q) := by
  intro ps
  induction ps with
  | nil =>
    intro e x h
    rw [chosen_nil] at h ⊢
    rw [h]
  | cons p ps ih =>
    intro e x h
    rw [chosen_cons] at h ⊢
    rcases h with h | h
    · -- The two updates at the start are exchanged, or `q` replaces `p`.
      have hq := ih h
      rcases hact.swap e q p with hr | hr
      · exact Or.inr (hr ▸ hq)
      · exact Or.inl (hr ▸ hq)
    · exact Or.inr (ih h)

/-- What results is closed under the updates: one more of them, in whatever order, leads to
something that results from choosing. -/
theorem Chosen.act_mem (hact : Exchanges act) {q : π} :
    ∀ {ps : List π} {e x : ε}, Chosen act ps e x → q ∈ ps → Chosen act ps e (act x q) := by
  intro ps
  induction ps with
  | nil => exact fun _ hq => absurd hq List.not_mem_nil
  | cons p ps ih =>
    intro e x h hq
    rw [chosen_cons] at h ⊢
    by_cases hqp : q = p
    · -- `q` is the first update: it is done at the start, whether or not it had been.
      subst hqp
      rcases h with h | h
      · exact Or.inl (hact.idem e q ▸ h.act_first hact q)
      · exact Or.inl (h.act_first hact q)
    · have hq' : q ∈ ps := List.mem_of_ne_of_mem hqp hq
      exact h.imp (fun h => ih h hq') (fun h => ih h hq')

/-- What results from choosing is reachable. -/
theorem Chosen.reachable (h : Chosen act ps e x) : Relation.ReflTransGen (OneOf act ps) e x := by
  obtain ⟨qs, hqs, rfl⟩ := h
  have hall : ∀ q ∈ qs, q ∈ ps := fun q hq => hqs.subset hq
  clear hqs
  induction qs generalizing e with
  | nil => exact .refl
  | cons q qs ih =>
    have hstep : OneOf act ps e (act e q) := ⟨q, hall q List.mem_cons_self, rfl⟩
    exact .head hstep (ih fun r hr => hall r (List.mem_cons_of_mem q hr))

/-- **Choosing in order is enough.** For updates that may be exchanged, what is reachable by doing
them in any order and number is what results from doing some of them once, in the given order. -/
theorem chosen_iff_reachable (hact : Exchanges act) :
    Chosen act ps e x ↔ Relation.ReflTransGen (OneOf act ps) e x := by
  constructor
  · exact Chosen.reachable
  · intro h
    induction h with
    | refl => exact .refl act ps e
    | tail _ hstep ih =>
      obtain ⟨q, hq, rfl⟩ := hstep
      exact ih.act_mem hact hq

end Exchange
