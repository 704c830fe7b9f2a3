import Mathlib.Data.List.Basic
import Mathlib.Data.List.Infix

/-!
# The shortest prefix that ends with a delimiter

A text is cut into pieces at the occurrences of delimiters. `Shortest d s p` says that `p` is the
piece that a delimiter `d` cuts off the front of `s`, `firstEnd` computes where it ends, and
`Pieces` is the cutting of a text by a sequence of delimiters.
-/

namespace Delimiter

variable {α : Type*}

/-- `p` is the shortest prefix of `s` that ends with `d`. -/
def Shortest (d s p : List α) : Prop :=
  p <+: s ∧ d <:+ p ∧ ∀ q, q <+: s → d <:+ q → p.length ≤ q.length

/-- The shortest prefix is unique. -/
theorem Shortest.unique {d s p q : List α} (hp : Shortest d s p) (hq : Shortest d s q) : p = q := by
  obtain ⟨hps, hpd, hpmin⟩ := hp
  obtain ⟨hqs, hqd, hqmin⟩ := hq
  have hle : p.length ≤ q.length := hpmin q hqs hqd
  have hge : q.length ≤ p.length := hqmin p hps hpd
  exact (List.prefix_of_prefix_length_le hps hqs hle).eq_of_length (by omega)

/-- More text behind the shortest prefix does not change it. -/
theorem Shortest.append {d s p : List α} (h : Shortest d s p) (t : List α) :
    Shortest d (s ++ t) p := by
  obtain ⟨hps, hpd, hmin⟩ := h
  refine ⟨hps.trans (List.prefix_append s t), hpd, ?_⟩
  intro q hq hqd
  rcases Nat.le_total q.length s.length with hle | hge
  · exact hmin q (List.prefix_of_prefix_length_le hq (List.prefix_append s t) hle) hqd
  · have := hps.length_le
    omega

/-- The shortest prefix is its own shortest prefix. -/
theorem Shortest.self {d s p : List α} (h : Shortest d s p) : Shortest d p p := by
  obtain ⟨hps, hpd, hmin⟩ := h
  exact ⟨List.prefix_refl p, hpd, fun q hq hqd => hmin q (hq.trans hps) hqd⟩

/-- Where `d` already occurs in a part of the text, the shortest prefix lies in that part. -/
theorem Shortest.prefix_of_occurs {d s p q : List α} (h : Shortest d s p) (hq : q <+: s)
    (hocc : d <:+: q) : p <+: q := by
  obtain ⟨u, v, rfl⟩ := hocc
  have hud : u ++ d <+: s := (List.prefix_append (u ++ d) v).trans hq
  have hlen : p.length ≤ (u ++ d).length := h.2.2 (u ++ d) hud (List.suffix_append u d)
  exact (List.prefix_of_prefix_length_le h.1 hud hlen).trans (List.prefix_append (u ++ d) v)

/-- The cutting of a text by a sequence of delimiters: each piece is the shortest prefix of what the
pieces before it have left that ends with its delimiter. -/
def Pieces : List α → List (List α) → List (List α) → Prop
  | _, [], [] => True
  | s, d :: ds, p :: ps => Shortest d s p ∧ Pieces (s.drop p.length) ds ps
  | _, _, _ => False

variable [DecidableEq α]

/-- The offset one past the first occurrence of `d`, if there is one. -/
def firstEnd (d : List α) : List α → Option ℕ
  | [] => if d <+: [] then some d.length else none
  | a :: s => if d <+: a :: s then some d.length else (firstEnd d s).map (· + 1)

/-- What `firstEnd` finds is the end of the shortest prefix. -/
theorem shortest_of_firstEnd {d : List α} :
    ∀ {s : List α} {k : ℕ}, firstEnd d s = some k → k ≤ s.length ∧ Shortest d s (s.take k)
  | [], k, h => by
    by_cases hp : d <+: []
    · obtain rfl : d = [] := List.prefix_nil.mp hp
      obtain rfl : k = 0 := by simpa [firstEnd] using h.symm
      exact ⟨le_rfl, List.prefix_refl _, List.suffix_refl _, fun q _ _ => Nat.zero_le _⟩
    · rw [firstEnd, if_neg hp] at h
      cases h
  | a :: s, k, h => by
    by_cases hp : d <+: a :: s
    · -- The text starts with the delimiter: the shortest prefix is the delimiter itself.
      obtain rfl : k = d.length := by simpa [firstEnd, hp] using h.symm
      have htake : (a :: s).take d.length = d := (List.prefix_iff_eq_take.mp hp).symm
      rw [htake]
      exact ⟨hp.length_le, hp, List.suffix_refl d, fun q _ hq => hq.length_le⟩
    · obtain ⟨j, hj, rfl⟩ : ∃ j, firstEnd d s = some j ∧ j + 1 = k := by
        simpa [firstEnd, hp] using h
      obtain ⟨hlen, hps, hpd, hmin⟩ := shortest_of_firstEnd hj
      refine ⟨by simpa using hlen, ?_, ?_, ?_⟩
      · exact List.take_prefix _ _
      · exact hpd.trans (List.suffix_cons a _)
      · -- A prefix that ends with the delimiter but starts elsewhere ends with it in the tail.
        intro q hq hqd
        rcases List.prefix_cons_iff.mp hq with rfl | ⟨t, rfl, ht⟩
        · exact absurd (List.suffix_nil.mp hqd ▸ List.nil_prefix) hp
        · rcases List.suffix_cons_iff.mp hqd with rfl | hdt
          · exact absurd hq hp
          · have := hmin t ht hdt
            simpa using this

/-- `firstEnd` finds an end wherever the delimiter occurs. -/
theorem not_infix_of_firstEnd {d : List α} : ∀ {s : List α}, firstEnd d s = none → ¬ d <:+: s
  | [], h, hd => by
    obtain rfl : d = [] := List.infix_nil.mp hd
    simp [firstEnd] at h
  | a :: s, h, hd => by
    by_cases hp : d <+: a :: s
    · simp [firstEnd, hp] at h
    · have hs : firstEnd d s = none := by simpa [firstEnd, hp] using h
      rcases List.infix_cons_iff.mp hd with hd | hd
      · exact hp hd
      · exact not_infix_of_firstEnd hs hd

/-- `firstEnd` finds nothing exactly where the delimiter does not occur. -/
theorem firstEnd_eq_none_iff {d s : List α} : firstEnd d s = none ↔ ¬ d <:+: s := by
  constructor
  · exact not_infix_of_firstEnd
  · intro h
    rcases hk : firstEnd d s with - | k
    · rfl
    · obtain ⟨-, hps, hpd, -⟩ := shortest_of_firstEnd hk
      exact absurd (hpd.isInfix.trans hps.isInfix) h

end Delimiter
