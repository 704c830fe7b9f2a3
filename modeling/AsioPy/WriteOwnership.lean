import AsioPy.Lib.Mealy

/-!
# Who keeps the payload of an asynchronous write

The asynchronous write functions of `write.hpp` take their payload by value, make an asio buffer of
its memory and start the asio operation; the argument, and for `py::buffer` the export that
`request()` gave, are released when the function returns. The event loop reads the memory later,
when Python may have dropped its references.

`write_world` is a `Mealy` machine over the steps of Python and of the event loop, with who holds
each reference and each export. A call leaves nothing behind but the started write
(`async_write_payload_eq`), so between two steps Python is the only holder (`onlyPython_step`), and
the payload is there as long as Python itself keeps it: `intact_iff_kept` compares the two at one
step, and `async_write_ownership` along every run.
-/

namespace AsioPy

/-- Who holds a reference or an export. -/
inductive Holder where
  | python
  /-- The write with this number. -/
  | write (i : ℕ)
  deriving DecidableEq, Repr

/-- A Python object with memory that can be written. -/
structure Payload where
  data : List UInt8
  /-- The holders of its references, one for each; the object is freed when there is none. -/
  refs : List Holder
  /-- The holders of its buffer exports. -/
  exports : List Holder
  deriving DecidableEq, Repr

/-- A new reference. -/
def Payload.inc_ref (h : Holder) (p : Payload) : Payload := { p with refs := h :: p.refs }

/-- A reference less. -/
def Payload.dec_ref (h : Holder) (p : Payload) : Payload := { p with refs := p.refs.erase h }

/-- `buffer.request()`: an export, which has a reference of its own. -/
def Payload.request (h : Holder) (p : Payload) : Payload :=
  { p with refs := h :: p.refs, exports := h :: p.exports }

/-- The destructor of the `buffer_info`. -/
def Payload.release (h : Holder) (p : Payload) : Payload :=
  { p with refs := p.refs.erase h, exports := p.exports.erase h }

/-- The payload parameter of an overload. -/
inductive PayloadType where
  | str | bytes | buffer
  deriving DecidableEq, Repr

/-- An asynchronous write as the event loop sees it. -/
structure AsyncWrite where
  /-- The overload that started it. -/
  payload : PayloadType
  /-- The object whose memory the asio buffer points to. -/
  object : ℕ
  /-- What that memory held at the call. -/
  given : List UInt8
  /-- What the stream has received; nothing for a byte read from memory that was freed. -/
  received : List (Option UInt8)
  /-- The operation has not completed. -/
  pending : Bool
  deriving DecidableEq, Repr

/-- The objects by identity, and the writes by number. -/
structure WriteWorld where
  objects : List Payload
  writes : List AsyncWrite
  deriving DecidableEq, Repr

/-- A change of one object. -/
def WriteWorld.on (s : WriteWorld) (o : ℕ) (f : Payload → Payload) : WriteWorld :=
  { s with objects := s.objects.modify o f }

/-- `asio::async_write` and `async_write_some`: the buffer is recorded, nothing is read yet. -/
def WriteWorld.start (s : WriteWorld) (payload : PayloadType) (o : ℕ) : WriteWorld :=
  let given := (s.objects[o]?.map Payload.data).getD []
  { s with writes := s.writes ++ [⟨payload, o, given, [], true⟩] }

/-- The overloads for `py::str`: the argument is held from the call to the return. -/
def async_write_payload_str (s : WriteWorld) (o : ℕ) : WriteWorld :=
  -- The number that the write gets names it while the call runs.
  let h := Holder.write s.writes.length
  ((s.on o (.inc_ref h)).start .str o).on o (.dec_ref h)

/-- The overloads for `py::bytes`. -/
def async_write_payload_bytes (s : WriteWorld) (o : ℕ) : WriteWorld :=
  let h := Holder.write s.writes.length
  ((s.on o (.inc_ref h)).start .bytes o).on o (.dec_ref h)

/-- The overloads for `py::buffer`: so is the export. -/
def async_write_payload_buffer (s : WriteWorld) (o : ℕ) : WriteWorld :=
  let h := Holder.write s.writes.length
  -- `bi` is destroyed before the argument `b`.
  ((((s.on o (.inc_ref h)).on o (.request h)).start .buffer o).on o (.release h)).on o (.dec_ref h)

/-- The overloads of `async_write` and `async_write_some`. -/
def async_write_payload : PayloadType → WriteWorld → ℕ → WriteWorld
  | .str => async_write_payload_str
  | .bytes => async_write_payload_bytes
  | .buffer => async_write_payload_buffer

/-- Python holds a reference to the object. -/
def WriteWorld.kept (s : WriteWorld) (o : ℕ) : Bool :=
  s.objects[o]?.any fun p => Holder.python ∈ p.refs

/-- Up to `n` bytes of the memory of an object, from the offset `k`, where `len` is the end of the
buffer. -/
def WriteWorld.read_memory (s : WriteWorld) (o k n len : ℕ) : List (Option UInt8) :=
  match s.objects[o]? with
  | some p =>
    if p.refs ≠ [] then ((p.data.drop k).take n).map some
    -- The object is freed: its memory may hold anything by now.
    else List.replicate (min n (len - k)) none
  | none => List.replicate (min n (len - k)) none

/-- The next `n` bytes of a write go to the stream. -/
def WriteWorld.transfer (s : WriteWorld) (n : ℕ) (w : AsyncWrite) : AsyncWrite :=
  { w with received :=
      w.received ++ s.read_memory w.object w.received.length n w.given.length }

/-- The steps of Python and of the event loop. -/
inductive WriteStep where
  /-- Python makes an object. -/
  | create (data : List UInt8)
  /-- Python takes another reference to an object that it refers to. -/
  | take (o : ℕ)
  /-- Python drops a reference. -/
  | drop (o : ℕ)
  /-- Python calls an asynchronous write function with an object that it refers to. -/
  | async_write (payload : PayloadType) (o : ℕ)
  /-- The event loop hands the next bytes of a write to the stream. -/
  | transfer (i n : ℕ)
  /-- The operation completes. -/
  | complete (i : ℕ)
  deriving DecidableEq, Repr

/-- A step of Python or of the event loop. Python changes no payload. -/
def write_world : Mealy WriteWorld WriteStep Unit where
  step s
    | .create data => some ((), { s with objects := s.objects ++ [⟨data, [.python], []⟩] })
    | .take o => if s.kept o then some ((), s.on o (.inc_ref .python)) else none
    | .drop o => if s.kept o then some ((), s.on o (.dec_ref .python)) else none
    | .async_write payload o =>
      if s.kept o then some ((), async_write_payload payload s o) else none
    | .transfer i n =>
      match s.writes[i]? with
      | none => none
      | some w =>
        if w.pending then some ((), { s with writes := s.writes.set i (s.transfer n w) }) else none
    | .complete i =>
      match s.writes[i]? with
      | none => none
      | some w =>
        if w.pending then some ((), { s with writes := s.writes.set i { w with pending := false } })
        else none

/-- The write `i` holds a reference to its payload, and for `py::buffer` an export of it. -/
def WriteWorld.Holds (s : WriteWorld) (i : ℕ) (w : AsyncWrite) : Prop :=
  ∃ p, s.objects[w.object]? = some p ∧ .write i ∈ p.refs ∧
    (w.payload = .buffer → .write i ∈ p.exports)

/-- Every pending write holds its payload. -/
def WriteWorld.Owned (s : WriteWorld) : Prop :=
  ∀ i w, s.writes[i]? = some w → w.pending → s.Holds i w

/-- Every write has handed the stream bytes that its payload had at the call. -/
def WriteWorld.Intact (s : WriteWorld) : Prop :=
  ∀ w ∈ s.writes, w.received <+: w.given.map some

/-- At a transfer that reads memory, Python holds a reference to the payload. -/
def Kept (s : WriteWorld) : WriteStep → Prop
  | .transfer i n => ∀ w, s.writes[i]? = some w →
      s.kept w.object ∨ min n (w.given.length - w.received.length) = 0
  | _ => True

/-- The step starts no write. -/
def WriteStep.NoCall : WriteStep → Prop
  | .async_write _ _ => False
  | _ => True

/-- Between two steps only Python holds references, and every buffer points to the memory that it
was made of. -/
structure OnlyPython (s : WriteWorld) : Prop where
  refs : ∀ p ∈ s.objects, ∀ h ∈ p.refs, h = .python
  exports : ∀ p ∈ s.objects, p.exports = []
  view : ∀ w ∈ s.writes, ∃ p, s.objects[w.object]? = some p ∧ p.data = w.given

/-- A reference that is taken and released. -/
theorem Payload.dec_ref_inc_ref (h : Holder) (p : Payload) : (p.inc_ref h).dec_ref h = p := by
  simp [inc_ref, dec_ref]

/-- An export that is made and released. -/
theorem Payload.release_request (h : Holder) (p : Payload) : (p.request h).release h = p := by
  simp [request, release]

/-- Two changes of one object. -/
theorem WriteWorld.on_on (s : WriteWorld) (o : ℕ) (f g : Payload → Payload) :
    (s.on o f).on o g = s.on o (g ∘ f) := by
  simp [on, List.modify_modify_eq]

/-- A change that changes nothing. -/
theorem WriteWorld.on_id (s : WriteWorld) (o : ℕ) {f : Payload → Payload} (h : ∀ p, f p = p) :
    s.on o f = s := by
  obtain rfl : f = id := funext h
  simp [on]

/-- A change that leaves the memory alone may come after the start of a write. -/
theorem WriteWorld.start_on (s : WriteWorld) (payload : PayloadType) (o : ℕ)
    (f : Payload → Payload) (h : ∀ p, (f p).data = p.data) :
    (s.on o f).start payload o = (s.start payload o).on o f := by
  have hdata : ((s.on o f).objects[o]?.map Payload.data) = s.objects[o]?.map Payload.data := by
    simp [on, Function.comp_def, h]
  unfold start
  rw [hdata]
  rfl

/-- **The call.** What an asynchronous write function leaves behind is the started write: it has
released what it held. -/
theorem async_write_payload_eq (payload : PayloadType) (s : WriteWorld) (o : ℕ) :
    async_write_payload payload s o = s.start payload o := by
  have hargument : ∀ (payload : PayloadType) (h : Holder) (s : WriteWorld),
      ((s.on o (.inc_ref h)).start payload o).on o (.dec_ref h) = s.start payload o := by
    intro payload h s
    calc ((s.on o (.inc_ref h)).start payload o).on o (.dec_ref h)
        = ((s.start payload o).on o (.inc_ref h)).on o (.dec_ref h) := by
          rw [s.start_on payload o (.inc_ref h) fun _ => rfl]
      _ = (s.start payload o).on o (.dec_ref h ∘ .inc_ref h) := WriteWorld.on_on _ o _ _
      _ = s.start payload o := WriteWorld.on_id _ o (Payload.dec_ref_inc_ref h)
  cases payload with
  | str => exact hargument .str _ s
  | bytes => exact hargument .bytes _ s
  | buffer =>
    have hexport : ∀ (h : Holder) (s : WriteWorld),
        ((s.on o (.request h)).start .buffer o).on o (.release h) = s.start .buffer o := by
      intro h s
      calc ((s.on o (.request h)).start .buffer o).on o (.release h)
          = ((s.start .buffer o).on o (.request h)).on o (.release h) := by
            rw [s.start_on .buffer o (.request h) fun _ => rfl]
        _ = (s.start .buffer o).on o (.release h ∘ .request h) := WriteWorld.on_on _ o _ _
        _ = s.start .buffer o := WriteWorld.on_id _ o (Payload.release_request h)
    -- The export is made and released inside the life of the argument.
    show ((((s.on o _).on o _).start .buffer o).on o _).on o _ = _
    rw [hexport]
    exact hargument .buffer _ s

/-- What a step can do. -/
inductive WriteEffect (s : WriteWorld) : WriteStep → WriteWorld → Prop
  | create (data : List UInt8) :
      WriteEffect s (.create data) { s with objects := s.objects ++ [⟨data, [.python], []⟩] }
  | take (o : ℕ) (hkept : s.kept o) : WriteEffect s (.take o) (s.on o (.inc_ref .python))
  | drop (o : ℕ) (hkept : s.kept o) : WriteEffect s (.drop o) (s.on o (.dec_ref .python))
  | async_write (payload : PayloadType) (o : ℕ) (hkept : s.kept o) :
      WriteEffect s (.async_write payload o) (s.start payload o)
  | transfer (i n : ℕ) (w : AsyncWrite) (hw : s.writes[i]? = some w) :
      WriteEffect s (.transfer i n) { s with writes := s.writes.set i (s.transfer n w) }
  | complete (i : ℕ) (w : AsyncWrite) (hw : s.writes[i]? = some w) :
      WriteEffect s (.complete i) { s with writes := s.writes.set i { w with pending := false } }

/-- **One step.** Every enabled step has one of the effects. -/
theorem write_step_effect {s t : WriteWorld} {a : WriteStep} {o : Unit}
    (h : write_world.step s a = some (o, t)) : WriteEffect s a t := by
  -- The steps of Python need a reference of Python's, those of the event loop a pending write.
  have hpython : ∀ {o : ℕ} {t' : WriteWorld},
      (if s.kept o then some ((), t') else none) = some ((), t) → s.kept o ∧ t' = t := by
    intro o t' h
    split at h
    · next hkept => exact ⟨hkept, (Prod.mk.inj (Option.some.inj h)).2⟩
    · cases h
  have hloop : ∀ {i : ℕ} {f : AsyncWrite → WriteWorld},
      (match s.writes[i]? with
        | none => none
        | some w => if w.pending then some ((), f w) else none) = some ((), t) →
      ∃ w, s.writes[i]? = some w ∧ f w = t := by
    intro i f h
    rcases hw : s.writes[i]? with - | w
    · simp [hw] at h
    · simp only [hw] at h
      split at h
      · exact ⟨w, rfl, (Prod.mk.inj (Option.some.inj h)).2⟩
      · cases h
  cases a with
  | create data =>
    obtain rfl := (Prod.mk.inj (Option.some.inj h)).2
    exact .create data
  | take o =>
    obtain ⟨hkept, rfl⟩ := hpython h
    exact .take o hkept
  | drop o =>
    obtain ⟨hkept, rfl⟩ := hpython h
    exact .drop o hkept
  | async_write payload o =>
    obtain ⟨hkept, rfl⟩ := hpython h
    rw [async_write_payload_eq]
    exact .async_write payload o hkept
  | transfer i n =>
    obtain ⟨w, hw, rfl⟩ := hloop h
    exact .transfer i n w hw
  | complete i =>
    obtain ⟨w, hw, rfl⟩ := hloop h
    exact .complete i w hw

/-- What Python keeps is there to be read. -/
theorem WriteWorld.exists_of_kept {s : WriteWorld} {o : ℕ} (h : s.kept o) :
    ∃ p, s.objects[o]? = some p ∧ Holder.python ∈ p.refs := by
  unfold kept at h
  rcases hp : s.objects[o]? with - | p
  · simp [hp] at h
  · exact ⟨p, rfl, by simpa [hp] using h⟩

/-- Python's own references are all there are before and after it takes or drops one. -/
theorem OnlyPython.on {s : WriteWorld} (hs : OnlyPython s) (o : ℕ) {f : Payload → Payload}
    (hdata : ∀ p, (f p).data = p.data) (hexports : ∀ p, (f p).exports = p.exports)
    (hrefs : ∀ p, (∀ h ∈ p.refs, h = .python) → ∀ h ∈ (f p).refs, h = .python) :
    OnlyPython (s.on o f) := by
  -- An object of the new world is one of the old, or the changed one.
  have hmem : ∀ p' ∈ (s.on o f).objects, ∃ p ∈ s.objects, p' = p ∨ p' = f p := by
    intro p' hp'
    obtain ⟨i, hi⟩ := List.mem_iff_getElem?.mp hp'
    rw [WriteWorld.on, List.getElem?_modify] at hi
    obtain ⟨p, hp, rfl⟩ := Option.map_eq_some_iff.mp hi
    refine ⟨p, List.mem_of_getElem? hp, ?_⟩
    split
    · exact Or.inr rfl
    · exact Or.inl rfl
  constructor
  · intro p' hp'
    obtain ⟨p, hp, rfl | rfl⟩ := hmem p' hp'
    · exact hs.refs p' hp
    · exact hrefs p (hs.refs p hp)
  · intro p' hp'
    obtain ⟨p, hp, rfl | rfl⟩ := hmem p' hp'
    · exact hs.exports p' hp
    · rw [hexports]
      exact hs.exports p hp
  · intro w hw
    obtain ⟨p, hp, hgiven⟩ := hs.view w hw
    by_cases ho : o = w.object
    · exact ⟨f p, by simp [WriteWorld.on, ho, hp], by rw [hdata, hgiven]⟩
    · exact ⟨p, by simp [WriteWorld.on, ho, hp], hgiven⟩

/-- A write that is replaced by one with the same buffer. -/
theorem OnlyPython.set {s : WriteWorld} (hs : OnlyPython s) {i : ℕ} {w w' : AsyncWrite}
    (hw : s.writes[i]? = some w) (hobject : w'.object = w.object) (hgiven : w'.given = w.given) :
    OnlyPython { s with writes := s.writes.set i w' } := by
  refine ⟨hs.refs, hs.exports, fun v hv => ?_⟩
  rcases List.mem_or_eq_of_mem_set hv with hv | rfl
  · exact hs.view v hv
  · rw [hobject, hgiven]
    exact hs.view w (List.mem_of_getElem? hw)

/-- Every step leaves Python as the only holder. -/
theorem onlyPython_step {s t : WriteWorld} {a : WriteStep} {o : Unit} (hs : OnlyPython s)
    (h : write_world.step s a = some (o, t)) : OnlyPython t := by
  cases write_step_effect h with
  | create data =>
    refine ⟨?_, ?_, fun w hw => ?_⟩
    · intro p hp
      rcases List.mem_append.mp hp with hp | hp
      · exact hs.refs p hp
      · simp [List.mem_singleton.mp hp]
    · intro p hp
      rcases List.mem_append.mp hp with hp | hp
      · exact hs.exports p hp
      · simp [List.mem_singleton.mp hp]
    · obtain ⟨p, hp, hgiven⟩ := hs.view w hw
      have hlt := (List.getElem?_eq_some_iff.mp hp).1
      exact ⟨p, by rw [List.getElem?_append_left hlt, hp], hgiven⟩
  | take o hkept =>
    refine hs.on o (fun _ => rfl) (fun _ => rfl) fun p hp h hh => ?_
    rcases List.mem_cons.mp hh with rfl | hh
    · rfl
    · exact hp h hh
  | drop o hkept =>
    exact hs.on o (fun _ => rfl) (fun _ => rfl) fun p hp h hh => hp h (List.mem_of_mem_erase hh)
  | async_write payload o hkept =>
    refine ⟨hs.refs, hs.exports, fun w hw => ?_⟩
    rcases List.mem_append.mp hw with hw | hw
    · exact hs.view w hw
    · obtain ⟨p, hp, -⟩ := WriteWorld.exists_of_kept hkept
      obtain rfl := List.mem_singleton.mp hw
      exact ⟨p, hp, by simp [hp]⟩
  | transfer i n w hw => exact hs.set hw rfl rfl
  | complete i w hw => exact hs.set hw rfl rfl

/-- A pending write holds nothing. -/
theorem not_holds {s : WriteWorld} (hs : OnlyPython s) (i : ℕ) (w : AsyncWrite) :
    ¬ s.Holds i w := by
  rintro ⟨p, hp, href, -⟩
  have hpython := hs.refs p (List.mem_of_getElem? hp) _ href
  cases hpython

/-- What a transfer reads while Python keeps the payload: the next bytes of it. -/
theorem read_memory_of_kept {s : WriteWorld} {w : AsyncWrite} (hs : OnlyPython s)
    (hw : w ∈ s.writes) (hkept : s.kept w.object) (k n : ℕ) :
    s.read_memory w.object k n w.given.length = ((w.given.drop k).take n).map some := by
  obtain ⟨p, hp, hgiven⟩ := hs.view w hw
  obtain ⟨p', hp', href⟩ := WriteWorld.exists_of_kept hkept
  obtain rfl : p = p' := Option.some.inj (hp.symm.trans hp')
  have hlive : p.refs ≠ [] := List.ne_nil_of_mem href
  unfold WriteWorld.read_memory
  simp only [hp, if_pos hlive, hgiven]

/-- What a transfer reads once Python has dropped the payload: freed memory. -/
theorem read_memory_of_not_kept {s : WriteWorld} {w : AsyncWrite} (hs : OnlyPython s)
    (hw : w ∈ s.writes) (hkept : s.kept w.object = false) (k n : ℕ) :
    s.read_memory w.object k n w.given.length =
      List.replicate (min n (w.given.length - k)) none := by
  obtain ⟨p, hp, -⟩ := hs.view w hw
  have hfreed : p.refs = [] := by
    refine List.eq_nil_iff_forall_not_mem.mpr fun h hh => ?_
    obtain rfl := hs.refs p (List.mem_of_getElem? hp) h hh
    simp [WriteWorld.kept, hp, hh] at hkept
  unfold WriteWorld.read_memory
  simp [hp, hfreed]

/-- **One transfer.** A write that was intact stays so exactly if Python keeps the payload, or no
byte is read. -/
theorem transfer_intact_iff {s : WriteWorld} {w : AsyncWrite} (hs : OnlyPython s)
    (hw : w ∈ s.writes) (hintact : w.received <+: w.given.map some) (n : ℕ) :
    (s.transfer n w).received <+: w.given.map some ↔
      s.kept w.object ∨ min n (w.given.length - w.received.length) = 0 := by
  obtain ⟨rest, hrest⟩ := hintact
  have hreceived : w.received = (w.given.map some).take w.received.length := by
    rw [← hrest, List.take_left]
  have hdrop : rest = (w.given.map some).drop w.received.length := by
    rw [← hrest, List.drop_left]
  show w.received ++ s.read_memory w.object w.received.length n w.given.length <+:
    w.given.map some ↔ _
  rw [← hrest, List.prefix_append_right_inj]
  by_cases hkept : s.kept w.object
  · rw [read_memory_of_kept hs hw hkept, List.map_take, List.map_drop, ← hdrop]
    exact iff_of_true (List.take_prefix n rest) (Or.inl hkept)
  · rw [Bool.not_eq_true] at hkept
    rw [read_memory_of_not_kept hs hw hkept]
    constructor
    · -- A byte of freed memory is none of the payload's.
      intro hprefix
      right
      by_contra hpos
      obtain ⟨m, hm⟩ := Nat.exists_eq_succ_of_ne_zero hpos
      have hmem : none ∈ rest := by
        apply hprefix.subset
        simp [hm]
      rw [hdrop] at hmem
      simpa using List.mem_of_mem_drop hmem
    · rintro (h | h)
      · rw [hkept] at h
        cases h
      · rw [h]
        exact List.nil_prefix

/-- Replacing a write leaves all writes intact exactly if the new one is. -/
theorem intact_set_iff {s : WriteWorld} {i : ℕ} {w w' : AsyncWrite} (hintact : s.Intact)
    (hw : s.writes[i]? = some w) :
    WriteWorld.Intact { s with writes := s.writes.set i w' } ↔
      w'.received <+: w'.given.map some := by
  have hlt := (List.getElem?_eq_some_iff.mp hw).1
  constructor
  · exact fun h => h w' (List.mem_set hlt w')
  · intro h v hv
    rcases List.mem_or_eq_of_mem_set hv with hv | rfl
    · exact hintact v hv
    · exact h

/-- **One step.** It leaves every write intact exactly if Python keeps what it reads. -/
theorem intact_iff_kept {s t : WriteWorld} {a : WriteStep} {o : Unit} (hs : OnlyPython s)
    (hintact : s.Intact) (h : write_world.step s a = some (o, t)) : t.Intact ↔ Kept s a := by
  cases write_step_effect h with
  | create data => exact iff_of_true hintact trivial
  | take o hkept => exact iff_of_true hintact trivial
  | drop o hkept => exact iff_of_true hintact trivial
  | async_write payload o hkept =>
    refine iff_of_true (fun w hw => ?_) trivial
    rcases List.mem_append.mp hw with hw | hw
    · exact hintact w hw
    · rw [List.mem_singleton.mp hw]
      exact List.nil_prefix
  | transfer i n w hw =>
    have hmem := List.mem_of_getElem? hw
    rw [intact_set_iff hintact hw]
    show (s.transfer n w).received <+: w.given.map some ↔ _
    rw [transfer_intact_iff hs hmem (hintact w hmem)]
    show _ ↔ ∀ v, s.writes[i]? = some v → _
    simp [hw]
  | complete i w hw =>
    rw [intact_set_iff hintact hw]
    exact iff_of_true (hintact w (List.mem_of_getElem? hw)) trivial

/-- Without a call there is no write. -/
theorem writes_step_of_noCall {s t : WriteWorld} {a : WriteStep} {o : Unit}
    (hnone : s.writes = []) (hcall : a.NoCall) (h : write_world.step s a = some (o, t)) :
    t.writes = [] := by
  cases write_step_effect h with
  | create data => exact hnone
  | take o hkept => exact hnone
  | drop o hkept => exact hnone
  | async_write payload o hkept => exact hcall.elim
  | transfer i n w hw => simp [hnone] at hw
  | complete i w hw => simp [hnone] at hw

/-- Where no write has been started, a step leaves every pending write with what it must hold
exactly if it starts none. -/
theorem owned_iff_noCall {s t : WriteWorld} {a : WriteStep} {o : Unit} (hs : OnlyPython s)
    (hnone : s.writes = []) (h : write_world.step s a = some (o, t)) :
    (t.Owned ∧ t.Intact) ↔ a.NoCall := by
  constructor
  · intro howned
    cases write_step_effect h with
    | async_write payload o hkept =>
      -- The started write is pending, and holds nothing.
      have hstarted : (s.start payload o).writes[0]? =
          some ⟨payload, o, (s.objects[o]?.map Payload.data).getD [], [], true⟩ := by
        simp [WriteWorld.start, hnone]
      exact not_holds (onlyPython_step hs h) 0 _ (howned.1 0 _ hstarted rfl)
    | _ => trivial
  · intro hcall
    have hwrites := writes_step_of_noCall hnone hcall h
    constructor
    · intro i w hw
      simp [hwrites] at hw
    · intro w hw
      simp [hwrites] at hw

/-- The world before the first step. -/
def WriteWorld.empty : WriteWorld := ⟨[], []⟩

/-- Nothing is held before the first step. -/
theorem onlyPython_empty : OnlyPython .empty where
  refs _ hp := absurd hp List.not_mem_nil
  exports _ hp := absurd hp List.not_mem_nil
  view _ hw := absurd hw List.not_mem_nil

/-- **No asynchronous write owns its payload.** For every order of the steps of Python and the event
loop: every pending write holds its payload, and the bytes that arrive are the payload's, exactly as
long as no asynchronous write is called; whatever is called, no write ever holds a reference or an
export on its own behalf; and the bytes that arrive are the payload's exactly if Python itself keeps
the payload whenever bytes of it are read. -/
theorem async_write_ownership (steps : List WriteStep) :
    (write_world.Along (fun _ _ _ t => t.Owned ∧ t.Intact) .empty steps ↔
        write_world.Meets (fun _ a => a.NoCall) .empty steps) ∧
      write_world.Along (fun _ _ _ t => ∀ i w, ¬ t.Holds i w) .empty steps ∧
      (write_world.Along (fun _ _ _ t => t.Intact) .empty steps ↔
        write_world.Meets Kept .empty steps) := by
  refine ⟨?_, ?_, ?_⟩
  · -- Before the first call there is no write; the call leaves one that holds nothing.
    apply Mealy.along_iff (I := fun s => OnlyPython s ∧ s.writes = []) _ _ steps .empty
      ⟨onlyPython_empty, rfl⟩
    · intro s a o t hs hcall h
      exact ⟨onlyPython_step hs.1 h, writes_step_of_noCall hs.2 hcall h⟩
    · exact fun s a o t hs h => owned_iff_noCall hs.1 hs.2 h
  · -- Python is the only holder in every state.
    apply Mealy.along_of_invariant (I := OnlyPython) _ steps .empty onlyPython_empty
    intro s a o t hs h
    have ht := onlyPython_step hs h
    exact ⟨not_holds ht, ht⟩
  · -- Writes that were intact stay so exactly if Python keeps what the next transfer reads.
    apply Mealy.along_iff (I := fun s => OnlyPython s ∧ s.Intact) _ _ steps .empty
      ⟨onlyPython_empty, fun w hw => absurd hw List.not_mem_nil⟩
    · intro s a o t hs hkept h
      exact ⟨onlyPython_step hs.1 h, (intact_iff_kept hs.1 hs.2 h).mpr hkept⟩
    · exact fun s a o t hs h => intact_iff_kept hs.1 hs.2 h

/-- A payload that Python drops between the call and the transfer: the stream gets freed memory. -/
theorem async_write_of_dropped_payload :
    ¬ write_world.Along (fun _ _ _ t => t.Owned ∧ t.Intact) .empty
        [.create [104, 105], .async_write .bytes 0, .drop 0, .transfer 0 2] := by
  intro h
  obtain ⟨-, h⟩ := h () _ rfl
  obtain ⟨-, h⟩ := h () _ rfl
  obtain ⟨-, h⟩ := h () _ rfl
  obtain ⟨⟨-, hintact⟩, -⟩ := h () _ rfl
  have hreceived := hintact _ (List.mem_singleton_self _)
  exact absurd hreceived (by decide)

end AsioPy
