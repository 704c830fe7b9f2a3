import AsioPy.LivePipe

/-!
# When a read of a live pipe completes

Between the calls of the two coroutines the pipe works on its own: it takes pieces of the write
under way, and the read under way finds pieces of what is in it. How large the pieces are and in
which order they are taken is up to the machine. `read_completes_iff` says that it makes no
difference: from any state the pipe comes to rest after a bounded number of steps, and at rest the
read has what it asks for exactly if it was on the way at the start. The number of steps is bounded
by a measure that every step pays for; what is on the way does not change meanwhile; and at rest
either the read has enough or nothing is left for it to find (`at_rest`).
-/

namespace AsioPy

open Delimiter

/-- The steps that the pipe takes on its own. -/
def PipeAction.IsInternal : PipeAction → Prop
  | .transfer _ | .find _ => True
  | _ => False

/-- No step of the pipe's own is enabled. -/
def Pipe.AtRest (s : Pipe) : Prop := ∀ a : PipeAction, a.IsInternal → pipe.step s a = none

/-- How many steps the pipe can take on its own at most: a byte is transferred, then found. -/
def Pipe.work (s : Pipe) : ℕ := 2 * s.unsent.length + s.transit.length

/-- The bytes are enough for the call. -/
def PipeRead.Served (c : PipeRead) (bytes : List UInt8) : Prop :=
  match c.type, c.op with
  | .mode m, .read_some sz => (local_buf m sz).length = 0 ∨ bytes ≠ []
  | .mode m, .read sz => (local_buf m sz).length ≤ bytes.length
  | .mode _, .read_until delim => delim <:+: bytes
  | _, _ => True

/-- The read has enough if what is in its buffer serves its call. -/
theorem enough_iff (r : Reading) : r.enough = true ↔ r.call.Served r.got := by
  rcases r with ⟨⟨op, style, m | text | tp_name⟩, chunks⟩
  · cases op with
    | read_some sz => simp [Reading.enough, PipeRead.Served]
    | read sz => simp [Reading.enough, PipeRead.Served]
    | read_until delim =>
      -- A delimiter that occurs has a first end.
      have hend : (firstEnd delim chunks.flatten).isSome = true ↔ delim <:+: chunks.flatten := by
        rw [← not_iff_not, ← firstEnd_eq_none_iff]
        simp
      exact hend
  · simp [Reading.enough, PipeRead.Served]
  · simp [Reading.enough, PipeRead.Served]

/-- More bytes serve a call that fewer do. -/
theorem PipeRead.Served.append {c : PipeRead} {bytes : List UInt8} (h : c.Served bytes)
    (more : List UInt8) : c.Served (bytes ++ more) := by
  rcases c with ⟨op, style, m | text | tp_name⟩
  · cases op with
    | read_some sz => exact h.imp_right fun hne hnil => hne (List.append_eq_nil_iff.mp hnil).1
    | read sz => exact h.trans (by simp)
    | read_until delim => exact h.trans (List.prefix_append bytes more).isInfix
  · trivial
  · trivial

/-- A read that lacks something has room for another byte. -/
theorem has_room_of_not_enough {r : Reading} (h : r.enough = false) : r.has_room 1 = true := by
  rcases r with ⟨⟨op, style, m | text | tp_name⟩, chunks⟩
  · cases op with
    | read_some sz =>
      simp only [Reading.enough, Bool.or_eq_false_iff, beq_eq_false_iff_ne, Bool.not_eq_false',
        List.isEmpty_iff] at h
      simp only [Reading.has_room, h.2, List.length_nil, decide_eq_true_eq]
      omega
    | read sz =>
      simp only [Reading.enough, decide_eq_false_iff_not] at h
      simp only [Reading.has_room, decide_eq_true_eq]
      omega
    | read_until delim => rfl
  · rfl
  · rfl

/-- **At rest** the write under way has handed over all that it has, and the read under way has
enough or has found all that there was. -/
theorem at_rest {s : Pipe} (h : s.AtRest) {r : Reading} (hr : s.reading = some r) :
    s.unsent = [] ∧ (r.enough = false → s.transit = []) := by
  rcases s with ⟨writing, transit, closed, reading⟩
  obtain rfl : reading = some r := hr
  constructor
  · rcases writing with - | - | ⟨b, left⟩
    · rfl
    · rfl
    · -- The pipe would take the next byte.
      have hstep := h (.transfer 1) trivial
      simp [pipe] at hstep
  · -- The read would find the next byte.
    intro henough
    by_contra hne
    have hlen : 1 ≤ transit.length := List.length_pos_iff.mpr hne
    have hstep := h (.find 1) trivial
    simp [pipe, henough, has_room_of_not_enough henough, hlen] at hstep

/-- A step of the pipe's own pays for itself, leaves what is on the way as it is, and leaves the
call under way. -/
theorem internal_step {s t : Pipe} {a : PipeAction} {o : PipeEvent} (h : PipeStep s a o t)
    (ha : a.IsInternal) : t.work + 1 ≤ s.work ∧ t.on_the_way = s.on_the_way ∧
      t.under_way = s.under_way := by
  cases h with
  | @transfer n left hw hpos hle =>
    -- `n` bytes count 2 each before the transfer and 1 each after it.
    refine ⟨?_, by simp [Pipe.on_the_way, Pipe.unsent, Pipe.pending, hw], rfl⟩
    simp only [Pipe.work, Pipe.unsent, hw, Option.getD_some, List.length_append, List.length_take,
      List.length_drop]
    omega
  | @find n r hr henough hroom hpos hle =>
    refine ⟨?_, ?_, by simp [Pipe.under_way, hr, Reading.add]⟩
    · simp only [Pipe.work, Pipe.unsent, List.length_drop]
      omega
    · simp [Pipe.on_the_way, Pipe.unsent, Pipe.pending, hr, Reading.add]
  | async_write | write_done | close | read | read_done | cancel | find_eof => exact ha.elim

/-- A run of the pipe on its own. -/
theorem internal_run {s t : Pipe} {as : List PipeAction} {os : List PipeEvent}
    (h : pipe.Run s as os t) (has : ∀ a ∈ as, a.IsInternal) :
    as.length + t.work ≤ s.work ∧ t.on_the_way = s.on_the_way ∧ t.under_way = s.under_way := by
  induction h with
  | nil => simp
  | cons hst _ ih =>
    obtain ⟨ha, has⟩ := List.forall_mem_cons.mp has
    obtain ⟨hwork, hway, hcall⟩ := internal_step (pipeStep_of_step hst) ha
    obtain ⟨hwork', hway', hcall'⟩ := ih has
    refine ⟨?_, hway'.trans hway, hcall'.trans hcall⟩
    rw [List.length_cons]
    omega

/-- **When a read completes.** Let the pipe work on its own from a state with a read under way, in
any way. It takes at most `work` steps, and when it has come to rest the read is still under way and
has what it asks for exactly if the bytes that were on the way at the start are enough for it. -/
theorem read_completes_iff {s t : Pipe} {as : List PipeAction} {os : List PipeEvent}
    (h : pipe.Run s as os t) (has : ∀ a ∈ as, a.IsInternal) {r : Reading}
    (hr : s.reading = some r) :
    as.length ≤ s.work ∧ (t.AtRest → ∃ r', t.reading = some r' ∧ r'.call = r.call ∧
      (r'.enough = true ↔ r.call.Served s.on_the_way)) := by
  obtain ⟨hwork, hway, hcall⟩ := internal_run h has
  refine ⟨by omega, fun hrest => ?_⟩
  obtain ⟨r', hr', hsame⟩ : ∃ r', t.reading = some r' ∧ r'.call = r.call := by
    simpa [Pipe.under_way, hr, Option.toList_eq_singleton_iff] using hcall
  -- What was on the way is in the buffer of the read or still in the pipe.
  obtain ⟨hunsent, htransit⟩ := at_rest hrest hr'
  refine ⟨r', hr', hsame, ?_⟩
  have hall : s.on_the_way = r'.got ++ t.transit := by
    rw [← hway, Pipe.on_the_way, hunsent, List.append_nil, Pipe.pending, hr']
    rfl
  -- Either nothing is left in the pipe, or the read has enough without it.
  rw [hall, ← hsame, enough_iff]
  constructor
  · exact fun hserved => hserved.append t.transit
  · intro hserved
    by_contra hnot
    have hempty := htransit (by simpa using (enough_iff r').not.mpr hnot)
    rw [hempty, List.append_nil] at hserved
    exact hnot hserved

/-- A `read_until` of a line, of which a byte is still the writer's. -/
theorem read_completes_iff_line :
    [PipeAction.find 1, .transfer 1, .find 1].length ≤
        (Pipe.mk (some [10]) [97] false (some ⟨⟨.read_until [10], .async, .mode .str⟩, []⟩)).work ∧
      (Pipe.AtRest ⟨some [], [], false,
          some ⟨⟨.read_until [10], .async, .mode .str⟩, [[97], [10]]⟩⟩ →
        ∃ r', (Pipe.mk (some []) [] false
            (some ⟨⟨.read_until [10], .async, .mode .str⟩, [[97], [10]]⟩)).reading = some r' ∧
          r'.call = ⟨.read_until [10], .async, .mode .str⟩ ∧
          (r'.enough = true ↔ PipeRead.Served ⟨.read_until [10], .async, .mode .str⟩
            (Pipe.mk (some [10]) [97] false
              (some ⟨⟨.read_until [10], .async, .mode .str⟩, []⟩)).on_the_way)) :=
  have h : pipe.Run
      (Pipe.mk (some [10]) [97] false (some ⟨⟨.read_until [10], .async, .mode .str⟩, []⟩))
      [.find 1, .transfer 1, .find 1] [.found [97], .sent [10], .found [10]]
      ⟨some [], [], false, some ⟨⟨.read_until [10], .async, .mode .str⟩, [[97], [10]]⟩⟩ :=
    .cons rfl (.cons rfl (.cons rfl (.nil _)))
  read_completes_iff h (by simp [PipeAction.IsInternal]) rfl

end AsioPy
