import Mathlib.Data.List.Forall2
import Mathlib.Data.List.Infix

/-!
# Segments of a text, in order

`InOrder s vs` says that the texts `vs` are disjoint segments of `s`, in the order in which they
stand in it. A text that is taken off piece by piece, where of each piece a front is handed on,
hands on such segments (`segments_of_fronts`); nothing is lost exactly if every front is the whole
piece (`flatten_fronts_eq_iff`).
-/

namespace Segments

variable {α : Type*}

/-- The texts are disjoint segments of the text, in its order. -/
def InOrder : List α → List (List α) → Prop
  | _, [] => True
  | s, v :: vs => ∃ gap rest, s = gap ++ v ++ rest ∧ InOrder rest vs

/-- `vs` are fronts of the pieces `takes`, one of each. -/
abbrev Fronts (vs takes : List (List α)) : Prop := List.Forall₂ (· <+: ·) vs takes

/-- More text in front of the segments is a gap. -/
theorem InOrder.append_left {s : List α} {vs : List (List α)} (h : InOrder s vs) (t : List α) :
    InOrder (t ++ s) vs := by
  cases vs with
  | nil => trivial
  | cons v vs =>
    obtain ⟨gap, rest, rfl, hrest⟩ := h
    exact ⟨t ++ gap, rest, by simp, hrest⟩

/-- Fronts of successive pieces are segments. -/
theorem segments_of_fronts {vs takes : List (List α)} (h : Fronts vs takes) (rest : List α) :
    InOrder (takes.flatten ++ rest) vs := by
  induction h with
  | nil => trivial
  | @cons v take vs takes hv _ ih =>
    obtain ⟨gap, rfl⟩ := hv
    exact ⟨[], gap ++ (takes.flatten ++ rest), by simp, ih.append_left gap⟩

/-- Fronts are no longer than their pieces. -/
theorem length_fronts_le {vs takes : List (List α)} (h : Fronts vs takes) :
    vs.flatten.length ≤ takes.flatten.length := by
  induction h with
  | nil => rfl
  | cons hv _ ih =>
    have hle := hv.length_le
    rw [List.flatten_cons, List.flatten_cons, List.length_append, List.length_append]
    omega

/-- Fronts make up the pieces exactly if each is its piece. -/
theorem flatten_fronts_eq_iff {vs takes : List (List α)} (h : Fronts vs takes) :
    vs.flatten = takes.flatten ↔ vs = takes := by
  refine ⟨fun hflat => ?_, congrArg List.flatten⟩
  induction h with
  | nil => rfl
  | @cons v take vs takes hv hvs ih =>
    -- What one front lacks, the others cannot make up for.
    have hlen := congrArg List.length hflat
    have hrest := length_fronts_le hvs
    have hle := hv.length_le
    simp only [List.flatten_cons, List.length_append] at hlen
    obtain rfl : v = take := hv.eq_of_length (by omega)
    rw [List.flatten_cons, List.flatten_cons, List.append_cancel_left_eq] at hflat
    rw [ih hflat]

end Segments
