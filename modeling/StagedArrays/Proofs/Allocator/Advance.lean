import StagedArrays.Proofs.Allocator.Step

namespace StagedArrays

/-- Buffers on the host stay, with their types and lengths. Only what is in them
    may change, and others may come up. -/
def Heap.Advances (heap after : Heap) : Prop :=
  ∀ ref : HostRef, ref.index < heap.buffers.size → ref.index < after.buffers.size ∧
    (after.get ref).dtype = (heap.get ref).dtype ∧ (after.get ref).length = (heap.get ref).length

/-- No function is begun, and the one in progress keeps the buffers it has
    declared. -/
structure Emitter.Keeps (emitter after : Emitter) : Prop where
  scope_eq : after.scope = emitter.scope
  buffers : ∀ builder, after.current = some builder →
    ∃ earlier, emitter.current = some earlier ∧ earlier.buffers.toList <+: builder.buffers.toList

/-- A function in progress keeps the buffers it has declared, and another
    function has another number. -/
def Emitter.Advances (emitter after : Emitter) : Prop :=
  emitter.scope ≤ after.scope ∧ (after.scope = emitter.scope → ∀ builder, after.current = some builder →
    ∃ earlier, emitter.current = some earlier ∧ earlier.buffers.toList <+: builder.buffers.toList)

/-- What may happen to storage in the course of a program, whatever contexts are
    entered or left. -/
structure World.Advances {σ : Type} (world after : World σ) : Prop where
  heap : world.heap.Advances after.heap
  emitter : ∀ id, (world.emitterAt id).Advances (after.emitterAt id)

namespace Heap

variable {heap after final : Heap}

theorem Advances.refl (heap : Heap) : heap.Advances heap := fun _ hlt => ⟨hlt, rfl, rfl⟩

/-- Heaps only grow, so that what grows from what has grown has grown from the
    beginning. -/
theorem Advances.trans (h : heap.Advances after) (h' : after.Advances final) : heap.Advances final := by
  intro ref hlt
  obtain ⟨hafter, hdtype, hlength⟩ := h ref hlt
  obtain ⟨hfinal, hdtype', hlength'⟩ := h' ref hafter
  exact ⟨hfinal, hdtype'.trans hdtype, hlength'.trans hlength⟩

/-- A new buffer takes none of the others away. It comes after them. -/
theorem advances_add (heap : Heap) (buffer : HostBuffer) : heap.Advances (heap.add buffer).2 := by
  intro ref hlt
  rw [size_add, get_add_of_lt heap buffer hlt]
  exact ⟨Nat.lt_succ_of_lt hlt, rfl, rfl⟩

/-- A buffer may give way to one of its type and length. Writing an element is
    of this kind. -/
theorem advances_put {ref : HostRef} {buffer : HostBuffer} (hdtype : buffer.dtype = (heap.get ref).dtype)
    (hlength : buffer.length = (heap.get ref).length) : heap.Advances (heap.put ref buffer) := by
  intro other hlt
  rw [size_put]
  by_cases heq : other = ref
  · subst heq
    rw [get_put_self heap buffer hlt]
    exact ⟨hlt, hdtype, hlength⟩
  · rw [get_put_of_ne heap buffer heq]
    exact ⟨hlt, rfl, rfl⟩

end Heap

namespace Emitter

variable {emitter after final : Emitter}

theorem Advances.refl (emitter : Emitter) : emitter.Advances emitter :=
  ⟨Nat.le_refl _, fun _ builder hcurrent => ⟨builder, hcurrent, List.prefix_refl _⟩⟩

/-- The same for emitters: scopes only go up, and a function in progress only
    gains buffers as long as the scope stays. -/
theorem Advances.trans (h : emitter.Advances after) (h' : after.Advances final) : emitter.Advances final := by
  refine ⟨Nat.le_trans h.1 h'.1, fun hscope builder hcurrent => ?_⟩
  have hfinal : final.scope = after.scope := Nat.le_antisymm (hscope ▸ h.1) h'.1
  obtain ⟨between, hbetween, hgrown'⟩ := h'.2 hfinal builder hcurrent
  obtain ⟨earlier, hearlier, hgrown⟩ := h.2 (hfinal.symm.trans hscope) between hbetween
  exact ⟨earlier, hearlier, hgrown.trans hgrown'⟩

theorem Keeps.refl (emitter : Emitter) : emitter.Keeps emitter :=
  ⟨rfl, fun builder hcurrent => ⟨builder, hcurrent, List.prefix_refl _⟩⟩

/-- An operation within a function keeps its scope, and so does one after
    another. -/
theorem Keeps.trans (h : emitter.Keeps after) (h' : after.Keeps final) : emitter.Keeps final := by
  refine ⟨h'.scope_eq.trans h.scope_eq, fun builder hcurrent => ?_⟩
  obtain ⟨between, hbetween, hgrown'⟩ := h'.buffers builder hcurrent
  obtain ⟨earlier, hearlier, hgrown⟩ := h.buffers between hbetween
  exact ⟨earlier, hearlier, hgrown.trans hgrown'⟩

theorem Keeps.advances (h : emitter.Keeps after) : emitter.Advances after :=
  ⟨Nat.le_of_eq h.scope_eq.symm, fun _ => h.buffers⟩

/-- Recording in the function in progress only adds to the buffers it has
    declared. -/
theorem keeps_current {builder next : FunctionBuilder} (hcurrent : emitter.current = some builder)
    (hgrown : builder.buffers.toList <+: next.buffers.toList) :
    emitter.Keeps { emitter with current := some next } := by
  refine ⟨rfl, fun found hfound => ⟨builder, hcurrent, ?_⟩⟩
  obtain rfl : next = found := Option.some.inj hfound
  exact hgrown

/-- Beginning another function raises the scope, so that buffers of earlier ones
    are told apart. -/
theorem advances_begin (builder : FunctionBuilder) :
    emitter.Advances { emitter with current := some builder, scope := emitter.scope + 1 } :=
  ⟨Nat.le_succ _, fun hscope => (Nat.succ_ne_self _ hscope).elim⟩

end Emitter

namespace World

variable {σ : Type} {world after final : World σ}

theorem Advances.refl (world : World σ) : world.Advances world := ⟨.refl _, fun _ => .refl _⟩

theorem Advances.trans (h : world.Advances after) (h' : after.Advances final) : world.Advances final :=
  ⟨h.heap.trans h'.heap, fun id => (h.emitter id).trans (h'.emitter id)⟩

/-- Contexts and the client have no part in it. Whatever changes them alone
    moves the world forward. -/
theorem advances_of_eq (hheap : after.heap = world.heap) (hemitters : after.emitters = world.emitters) :
    world.Advances after := by
  refine ⟨hheap ▸ .refl _, fun id => ?_⟩
  rw [emitterAt, emitterAt, hemitters]
  exact .refl _

/-- Replacing one emitter leaves every other as it is. -/
theorem emitterAt_set {id other : EmitterId} {emitter : Emitter} :
    ({ world with emitters := world.emitters.setIfInBounds id.index emitter } : World σ).emitterAt other =
      if other = id ∧ id.index < world.emitters.size then emitter else world.emitterAt other := by
  obtain ⟨index⟩ := id
  obtain ⟨index'⟩ := other
  simp only [emitterAt, Array.getElem?_setIfInBounds, EmitterId.mk.injEq]
  split
  · next heq =>
    subst heq
    split
    · next hlt => simp [hlt]
    · next hge => simp [hge]
  · next hne => rw [if_neg fun h => hne h.1.symm]

/-- A world moves forward if one of its emitters does, as all others and the
    host stay. -/
theorem advances_set {id : EmitterId} {emitter : Emitter} (h : (world.emitterAt id).Advances emitter) :
    world.Advances { world with emitters := world.emitters.setIfInBounds id.index emitter } := by
  refine ⟨.refl _, fun other => ?_⟩
  rw [emitterAt_set]
  split
  · next heq => rw [heq.1]; exact h
  · exact .refl _

end World

instance : IsPreorder Heap Heap.Advances where
  refl := .refl
  trans _ _ _ := .trans

instance : IsPreorder Emitter Emitter.Keeps where
  refl := .refl
  trans _ _ _ := .trans

instance : IsPreorder Emitter Emitter.Advances where
  refl := .refl
  trans _ _ _ := .trans

instance {σ : Type} : IsPreorder (World σ) World.Advances where
  refl := .refl
  trans _ _ _ := .trans

theorem Stateful.Moves.advances {α : Type} {action : EmitterM α} (h : Moves Emitter.Keeps action) :
    Moves Emitter.Advances action := fun emitter => (h emitter).advances

end StagedArrays
