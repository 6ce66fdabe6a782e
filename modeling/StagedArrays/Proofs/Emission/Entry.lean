import StagedArrays.Proofs.Emission.Parameters

namespace StagedArrays

namespace Frame

variable {heap : Heap} {frame : Frame}

/-- A call once the buffers that the function declares for itself have been
    given storage. -/
structure Prepared (declarations : List BufferDeclaration) (frame : Frame) (heap : Heap) (running : Running) :
    Prop where
  size_le : heap.buffers.size ≤ running.heap.buffers.size
  get_eq : ∀ ref : HostRef, ref.index < heap.buffers.size → running.heap.get ref = heap.get ref
  kept : ∀ id, (∀ declaration ∈ declarations, declaration.isLocal = true → declaration.id ≠ id) →
    running.frame.buffers[id]? = frame.buffers[id]?
  fresh : ∀ (id : BufferId) (other : HostRef) (base : Nat), running.frame.buffers[id]? = some (other, base) →
    frame.buffers[id]? = some (other, base) ∨ heap.buffers.size ≤ other.index
  locals : ∀ declaration ∈ declarations, declaration.isLocal = true → ∃ other : HostRef,
    running.frame.buffers[declaration.id]? = some (other, 0) ∧ heap.buffers.size ≤ other.index ∧
      other.index < running.heap.buffers.size ∧
        running.heap.get other = .zeros declaration.dtype declaration.length ∧
          ∀ (id : BufferId) (base : Nat), running.frame.buffers[id]? = some (other, base) → id = declaration.id

theorem Prepared.nil (frame : Frame) (heap : Heap) : Prepared [] frame heap ⟨frame, heap⟩ := by
  refine ⟨Nat.le_refl _, fun _ _ => rfl, fun _ _ => rfl, fun _ _ _ h => .inl h, ?_⟩
  simp

/-- The caller hands over the storage of a parameter, so that the call has
    nothing to prepare for it. -/
theorem Prepared.cons_of_isLocal_eq_false {declarations : List BufferDeclaration} {declaration : BufferDeclaration}
    {running : Running} (hlocal : declaration.isLocal = false) (h : Prepared declarations frame heap running) :
    Prepared (declaration :: declarations) frame heap running := by
  refine ⟨h.size_le, h.get_eq, fun id hid => ?_, h.fresh, fun found hmem hown => ?_⟩
  · exact h.kept id fun found hmem => hid found (List.mem_cons_of_mem _ hmem)
  · rcases List.mem_cons.mp hmem with rfl | hmem
    · rw [hlocal] at hown
      cases hown
    · exact h.locals found hmem hown

/-- Storage for one more buffer is taken before that for the rest. All of it is
    new and holds zeros. -/
theorem Prepared.cons {declarations : List BufferDeclaration} {declaration : BufferDeclaration} {running : Running}
    (hlocal : declaration.isLocal = true) (hnotMem : declaration.id ∉ declarations.map BufferDeclaration.id)
    (hframe : ∀ (id : BufferId) (other : HostRef) (base : Nat), frame.buffers[id]? = some (other, base) →
      other.index < heap.buffers.size)
    (h : Prepared declarations (frame.bind declaration.id ⟨heap.buffers.size⟩ 0)
      (heap.add (.zeros declaration.dtype declaration.length)).2 running) :
    Prepared (declaration :: declarations) frame heap running := by
  have hsize := h.size_le
  rw [Heap.size_add] at hsize
  refine ⟨Nat.le_of_succ_le hsize, fun ref hlt => ?_, fun id hid => ?_, fun id other base hget => ?_,
    fun found hmem hown => ?_⟩
  · rw [h.get_eq ref (by rw [Heap.size_add]; exact Nat.lt_succ_of_lt hlt), Heap.get_add_of_lt _ _ hlt]
  · rw [h.kept id fun found hmem => hid found (List.mem_cons_of_mem _ hmem), buffers_bind,
      if_neg (hid declaration List.mem_cons_self hlocal)]
  · rcases h.fresh id other base hget with hbound | hge
    · rw [buffers_bind] at hbound
      split at hbound
      · cases hbound
        exact .inr (Nat.le_refl _)
      · exact .inl hbound
    · rw [Heap.size_add] at hge
      exact .inr (Nat.le_of_succ_le hge)
  · rcases List.mem_cons.mp hmem with rfl | hmem
    · have hkept := h.kept found.id fun other hmem _ heq => hnotMem (heq ▸ List.mem_map_of_mem hmem)
      rw [buffers_bind, if_pos rfl] at hkept
      refine ⟨⟨heap.buffers.size⟩, hkept, Nat.le_refl _, hsize, ?_, fun id base hget => ?_⟩
      · rw [h.get_eq _ (by rw [Heap.size_add]; exact Nat.lt_succ_self _)]
        exact Heap.get_add_self _ _
      · rcases h.fresh id _ base hget with hbound | hge
        · rw [buffers_bind] at hbound
          split at hbound
          · next heq => exact heq.symm
          · exact (Nat.lt_irrefl _ (hframe id _ base hbound)).elim
        · rw [Heap.size_add] at hge
          exact (Nat.not_succ_le_self _ hge).elim
    · obtain ⟨other, hbound, hge, hlt, hzeros, halone⟩ := h.locals found hmem hown
      rw [Heap.size_add] at hge
      exact ⟨other, hbound, Nat.le_of_succ_le hge, hlt, hzeros, halone⟩

/-- Every buffer that a function declares for itself is given zeroed storage of
    its own, if there is room for each. -/
theorem exists_prepared {declarations : List BufferDeclaration}
    (hroom : ∀ declaration ∈ declarations, declaration.isLocal = true →
      declaration.dtype.reserve declaration.length = .ok ())
    (hnodup : (declarations.map BufferDeclaration.id).Nodup)
    (hframe : ∀ (id : BufferId) (other : HostRef) (base : Nat), frame.buffers[id]? = some (other, base) →
      other.index < heap.buffers.size) :
    ∃ running : Running, (bindLocals declarations frame).runFrom heap = (.ok running.frame, running.heap) ∧
      Prepared declarations frame heap running := by
  induction declarations generalizing frame heap with
  | nil => exact ⟨⟨frame, heap⟩, rfl, .nil frame heap⟩
  | cons declaration declarations ih =>
    rw [List.map_cons, List.nodup_cons] at hnodup
    have hrest := fun found hmem => hroom found (List.mem_cons_of_mem _ hmem)
    cases hlocal : declaration.isLocal with
    | false =>
      rw [bindLocals_of_isLocal_eq_false hlocal]
      obtain ⟨running, hrun, hprepared⟩ := ih hrest hnodup.2 hframe
      exact ⟨running, hrun, hprepared.cons_of_isLocal_eq_false hlocal⟩
    | true =>
      rw [runFrom_bindLocals_of_reserve hlocal (hroom declaration List.mem_cons_self hlocal)]
      obtain ⟨running, hrun, hprepared⟩ := @ih
        (heap.add (.zeros declaration.dtype declaration.length)).2 _ hrest hnodup.2 fun id other base hget => by
          rw [Heap.size_add]
          rw [buffers_bind] at hget
          split at hget
          · cases hget
            exact Nat.lt_succ_self _
          · exact Nat.lt_succ_of_lt (hframe id other base hget)
      exact ⟨running, hrun, hprepared.cons hlocal hnodup.1 hframe⟩

/-- One buffer without room is enough for a call not to begin. Those before it
    have been made in vain. -/
theorem runFrom_bindLocals_of_mem {declarations : List BufferDeclaration} {declaration : BufferDeclaration}
    (hmem : declaration ∈ declarations) (hlocal : declaration.isLocal = true)
    (hroom : declaration.dtype.reserve declaration.length ≠ .ok ()) (frame : Frame) (heap : Heap) :
    ((bindLocals declarations frame).runFrom heap).1 = .error (.fault .capacityOverflow) := by
  induction declarations generalizing frame heap with
  | nil => cases hmem
  | cons first declarations ih =>
    cases hfirst : first.isLocal with
    | false =>
      rw [bindLocals_of_isLocal_eq_false hfirst]
      rcases List.mem_cons.mp hmem with rfl | hmem
      · cases hfirst.symm.trans hlocal
      · exact ih hmem _ _
    | true =>
      rcases first.dtype.reserve_cases first.length with hreserve | hreserve
      · rw [runFrom_bindLocals_of_reserve hfirst hreserve]
        rcases List.mem_cons.mp hmem with rfl | hmem
        · exact (hroom hreserve).elim
        · exact ih hmem _ _
      · rw [runFrom_bindLocals_of_full hfirst hreserve]

end Frame

namespace Link

/-- The moment at which the body of a function begins. Nothing has been executed
    on either side. -/
def entry (heap : Heap) (bound : Frame) (running : Running) (registers buffers : Nat) : Link where
  direct := heap
  log := []
  running := running
  backing := fun id => bound.buffers[id]?.map Prod.fst
  agreed := fun _ => True
  registers := registers
  buffers := buffers

end Link

namespace Comparison

variable [ArrayLibrary] {c : Comparison} {heap : Heap} {bound : Frame} {running : Running} {first registers buffers : Nat}

/-- When the body begins, storage stands for itself. Storage of the function's
    own stands for none yet. -/
theorem eq_of_paired_entry (horiginals : c.originals = heap.buffers.size) (hbelow : bound.Below heap first)
    (howned : ∀ declaration ∈ c.declarations, declaration.isLocal = true → first ≤ declaration.id.index)
    (hprepared : Frame.Prepared c.declarations bound heap running) {ref other : HostRef}
    (h : c.Paired (.entry heap bound running registers buffers) ref other) :
    ref = other ∧ ref.index < heap.buffers.size := by
  rcases h with ⟨id, base, hbacking, hbound⟩ | ⟨rfl, hlt⟩
  · obtain ⟨⟨found, offset⟩, hfound, rfl⟩ := Option.map_eq_some_iff.mp hbacking
    obtain ⟨hid, hother⟩ := hbelow id found offset hfound
    have hkept := hprepared.kept id fun declaration hmem hlocal heq =>
      Nat.not_lt_of_le (howned declaration hmem hlocal) (heq ▸ hid)
    change running.frame.buffers[id]? = _ at hbound
    rw [hkept, hfound] at hbound
    cases hbound
    exact ⟨rfl, hother⟩
  · exact ⟨rfl, horiginals ▸ hlt⟩

/-- What holds between two executions holds when the body begins. The simulation
    starts from here. -/
theorem sound_entry (horiginals : c.originals = heap.buffers.size) (hbelow : bound.Below heap first)
    (howned : ∀ declaration ∈ c.declarations, declaration.isLocal = true → first ≤ declaration.id.index)
    (hprepared : Frame.Prepared c.declarations bound heap running)
    (hsigned : ∀ ref : HostRef, ref.index < heap.buffers.size → Word.Signed (heap.get ref).length) :
    c.Sound (.entry heap bound running registers buffers) where
  alike ref other hpaired := by
    obtain ⟨rfl, hlt⟩ := eq_of_paired_entry horiginals hbelow howned hprepared hpaired
    have hget : running.heap.get ref = heap.get ref := hprepared.get_eq ref hlt
    refine ⟨hlt, Nat.lt_of_lt_of_le hlt hprepared.size_le, ?_, ?_, hsigned ref hlt, fun index _ => ?_⟩
    · rw [Link.entry, hget]
    · rw [Link.entry, hget]
    · rw [Link.entry, hget]
  paired ref other ref' other' hpaired hpaired' := by
    obtain ⟨rfl, -⟩ := eq_of_paired_entry horiginals hbelow howned hprepared hpaired
    obtain ⟨rfl, -⟩ := eq_of_paired_entry horiginals hbelow howned hprepared hpaired'
    rfl
  locals declaration hmem hown := by
    obtain ⟨other, hbound, hge, hlt, hzeros, halone⟩ := hprepared.locals declaration hmem (by
      rw [BufferDeclaration.isLocal, hown]
      rfl)
    refine ⟨other, hbound, horiginals ▸ hge, hlt, ?_, ?_, halone⟩
    · rw [Link.entry, hzeros]
      rfl
    · rw [Link.entry, hzeros, HostBuffer.length_zeros]
  opened ref hmem := by cases hmem
  stored cell hmem := by cases hmem
  originals_le := Nat.le_of_eq horiginals
  logged _ _ := trivial
  storedBeforeLoaded before cell after heq := by
    have hlength := congrArg List.length heq
    simp [Link.entry] at hlength

/-- When the body begins, no buffer of the function's own has been used. -/
theorem untouched_entry (hprepared : Frame.Prepared c.declarations bound heap running) :
    c.Untouched (.entry heap bound running registers buffers) := by
  intro declaration hmem hown _ other base hget
  obtain ⟨found, hbound, -, -, hzeros, -⟩ := hprepared.locals declaration hmem (by
    rw [BufferDeclaration.isLocal, hown]
    rfl)
  change running.frame.buffers[declaration.id]? = _ at hget
  rw [hbound] at hget
  cases hget
  exact hzeros

/-- Parameters stand for the inputs, in order. -/
theorem forall₂_matches_entry {inputs values : List Value} {declarations : List BufferDeclaration} {frame : Frame}
    (howned : ∀ declaration ∈ c.declarations, declaration.isLocal = true → declarations.length ≤ declaration.id.index)
    (hentered : Frame.Entered heap inputs values declarations 0 frame bound)
    (hprepared : Frame.Prepared c.declarations bound heap running) :
    List.Forall₂ (Link.entry heap bound running registers declarations.length).Matches values inputs := by
  refine hentered.bound.imp ?_
  rintro _ input ⟨id, ref, offset, rfl, hinput, hid, hget⟩
  rw [Nat.zero_add] at hid
  obtain ⟨hdtype, ⟨size, hsize, -, hle⟩, -⟩ := Value.make_host_eq_ok.mp hinput.make_eq
  refine ⟨rfl, rfl, hinput.formed, ?_⟩
  rw [hinput.data_eq]
  refine ⟨hid, ?_, ref, offset, 0, size, ?_, Link.holds_constant.mpr rfl, rfl, hsize, hle, hdtype⟩
  · exact Option.map_eq_some_iff.mpr ⟨(ref, offset), hget, rfl⟩
  · refine (hprepared.kept id fun declaration hmem hlocal heq => ?_).trans hget
    exact Nat.not_lt_of_le (howned declaration hmem hlocal) (heq ▸ hid)

end Comparison

end StagedArrays
