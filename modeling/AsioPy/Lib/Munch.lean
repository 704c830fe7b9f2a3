import Mathlib.Computability.Language

/-!
# The longest prefix that is made of words

A scanner reads one word of a language after the other, and stops where none begins. Where no word
begins another, what it has read is the longest prefix of the text that is made of words
(`longest_of_stuck`): there is only one way to read it. `LastAt` says where a text occurs last in
another, and the lemmas on it follow the scanner.
-/

namespace Munch

open scoped Computability

variable {α : Type*}

/-- No word is empty, and none begins another. -/
structure PrefixFree (W : Language α) : Prop where
  ne_nil : ∀ w ∈ W, w ≠ []
  eq_of_prefix : ∀ u ∈ W, ∀ v ∈ W, u <+: v → u = v

/-- `p` is the longest prefix of `s` that is made of words. -/
def Longest (W : Language α) (s p : List α) : Prop :=
  p <+: s ∧ p ∈ W∗ ∧ ∀ q, q <+: s → q ∈ W∗ → q.length ≤ p.length

/-- The longest prefix is unique. -/
theorem Longest.unique {W : Language α} {s p q : List α} (hp : Longest W s p)
    (hq : Longest W s q) : p = q := by
  have hle : p.length ≤ q.length := hq.2.2 p hp.1 hp.2.1
  have hge : q.length ≤ p.length := hp.2.2 q hq.1 hq.2.1
  exact (List.prefix_of_prefix_length_le hp.1 hq.1 hle).eq_of_length (by omega)

/-- One more word. -/
theorem append_mem_kstar {W : Language α} {p w : List α} (hp : p ∈ W∗) (hw : w ∈ W) :
    p ++ w ∈ W∗ := by
  obtain ⟨L, rfl, hL⟩ := Language.mem_kstar.mp hp
  refine Language.mem_kstar.mpr ⟨L ++ [w], by simp, ?_⟩
  intro y hy
  rcases List.mem_append.mp hy with hy | hy
  · exact hL y hy
  · rwa [List.mem_singleton.mp hy]

/-- **A scanner reads the longest prefix.** What has been read word by word, up to a point where no
word begins, is the longest prefix made of words. -/
theorem longest_of_stuck {W : Language α} (hW : PrefixFree W) {p rest : List α} (hp : p ∈ W∗)
    (hstuck : ∀ w ∈ W, ¬ w <+: rest) : Longest W (p ++ rest) p := by
  refine ⟨List.prefix_append p rest, hp, ?_⟩
  obtain ⟨L, rfl, hL⟩ := Language.mem_kstar.mp hp
  intro q hq hqW
  obtain ⟨M, rfl, hM⟩ := Language.mem_kstar.mp hqW
  induction L generalizing M with
  | nil =>
    rcases M with - | ⟨v, M⟩
    · simp
    · have hv : v <+: rest := (List.prefix_append v M.flatten).trans hq
      exact absurd hv (hstuck v (hM v List.mem_cons_self))
  | cons w L ih =>
    rcases M with - | ⟨v, M⟩
    · simp
    · have hwW := hL w List.mem_cons_self
      have hvW := hM v List.mem_cons_self
      have hw : w <+: (w :: L).flatten ++ rest := by simp [List.append_assoc]
      have hv : v <+: (w :: L).flatten ++ rest := (List.prefix_append v M.flatten).trans hq
      -- Both words begin the same text, so one begins the other.
      have hvw : v = w := by
        rcases List.prefix_or_prefix_of_prefix hv hw with h | h
        · exact hW.eq_of_prefix v hvW w hwW h
        · exact (hW.eq_of_prefix w hwW v hvW h).symm
      subst hvw
      have hrest : M.flatten <+: L.flatten ++ rest := by
        simpa [List.append_assoc, List.prefix_append_right_inj] using hq
      have hM' : ∀ y ∈ M, y ∈ W := fun y hy => hM y (List.mem_cons_of_mem v hy)
      have hL' : ∀ y ∈ L, y ∈ W := fun y hy => hL y (List.mem_cons_of_mem v hy)
      have hlen := ih hL' (Language.join_mem_kstar hL') M hM' hrest (Language.join_mem_kstar hM')
      simpa using hlen

/-- `d` occurs in `p` at this place. -/
def OccursAt (d p : List α) (k : ℕ) : Prop := d <+: p.drop k

/-- `d` occurs in `p` at this place, and at none after it. -/
def LastAt (d p : List α) (k : ℕ) : Prop := OccursAt d p k ∧ ∀ j, OccursAt d p j → j ≤ k

/-- A place where a text that is not empty occurs has room for it. -/
theorem OccursAt.le {d p : List α} {k : ℕ} (h : OccursAt d p k) (hd : d ≠ []) :
    k + d.length ≤ p.length := by
  have hle := h.length_le
  have hpos := List.length_pos_iff.mpr hd
  rw [List.length_drop] at hle
  omega

/-- An element that `d` does not have ends no occurrence of it. -/
theorem occursAt_append_singleton {c : α} {d : List α} (hc : c ∉ d) (p : List α) (k : ℕ) :
    OccursAt d (p ++ [c]) k ↔ OccursAt d p k := by
  unfold OccursAt
  rcases Nat.lt_or_ge p.length k with hk | hk
  · have hlong : (p ++ [c]).drop k = [] := List.drop_eq_nil_of_le (by simp; omega)
    rw [hlong, List.drop_eq_nil_of_le hk.le]
  · rw [List.drop_append_of_le_length hk, List.prefix_concat_iff]
    refine ⟨fun h => h.resolve_left fun heq => hc ?_, Or.inr⟩
    rw [heq]
    exact List.mem_append_right _ (List.mem_singleton_self c)

/-- The last occurrence stays the last when an element is read that `d` does not have. -/
theorem lastAt_append_singleton {c : α} {d : List α} (hc : c ∉ d) {p : List α} {k : ℕ} :
    LastAt d (p ++ [c]) k ↔ LastAt d p k := by
  unfold LastAt
  simp only [occursAt_append_singleton hc]

/-- When `d` itself is read, this is its last occurrence. -/
theorem lastAt_append_self {d : List α} (hd : d ≠ []) (p : List α) :
    LastAt d (p ++ d) p.length := by
  refine ⟨by simp [OccursAt], ?_⟩
  intro j hj
  have hle := hj.le hd
  rw [List.length_append] at hle
  omega

end Munch
