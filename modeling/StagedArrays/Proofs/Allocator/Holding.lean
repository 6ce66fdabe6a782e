import StagedArrays.Proofs.Allocator.WorldOperations

namespace StagedArrays

/-- Whose a piece of storage is: the host's, or that of the function which an
    emitter was the given number of functions into. -/
inductive Owner where
  | host
  | function (emitter : EmitterId) (number : Nat)
  deriving DecidableEq

namespace Owner

/-- The context that hands out storage of an owner. Several owners may have it
    in common. -/
def context : Owner → Context
  | host => .compute
  | function id _ => .emitter id

/-- The number by which that context tells the storage apart. All emitters count
    from the same number on. -/
def scope : Owner → Nat
  | host => 0
  | function _ number => number

/-- Within one context the numbers are enough to tell owners apart. Between
    contexts they are not. -/
theorem eq_of_scope_eq {owner other : Owner} (hcontext : owner.context = other.context)
    (hscope : owner.scope = other.scope) : owner = other := by
  cases owner with
  | host => cases other with
    | host => rfl
    | function => cases hcontext
  | function id number => cases other with
    | host => cases hcontext
    | function id' number' =>
      cases hcontext
      cases hscope
      rfl

end Owner

/-- A piece of storage as its owner has it: its type, and how many elements
    there are. -/
structure Holding where
  owner : Owner
  dtype : DType
  length : Nat
  deriving DecidableEq

/-- Two values refer to one buffer of the host, or to one buffer number. Emitted
    buffers of two functions may have a number in common. -/
def ValueData.Shares : ValueData → ValueData → Prop
  | .host ref _, .host other _ => ref = other
  | .buffer id _, .buffer other _ => id = other
  | _, _ => False

theorem ValueData.Shares.symm {data other : ValueData} (h : data.Shares other) : other.Shares data := by
  cases data <;> cases other <;> first | exact h.elim | exact Eq.symm h

namespace World

variable {σ : Type}

/-- Whose storage the active context hands out. An emitter hands out none
    without a function in progress. -/
def owner? (world : World σ) : Option Owner :=
  match world.contexts with
  | [] => none
  | .compute :: _ => some .host
  | .emitter id :: _ =>
    if (world.emitterAt id).current.isSome then some (.function id (world.emitterAt id).scope) else none

/-- The piece of storage behind a value, if it belongs to the active context.
    Other values have none. -/
def holding? (world : World σ) (value : Value) : Option Holding :=
  match world.owner?, value.data with
  | some .host, .host ref _ => some ⟨.host, (world.heap.get ref).dtype, (world.heap.get ref).length⟩
  | some (.function id number), .buffer buffer _ => do
    let builder ← (world.emitterAt id).current
    let declaration ← builder.buffers[buffer.index]?
    return ⟨.function id number, declaration.dtype, declaration.length⟩
  | _, _ => none

/-- The data of a value are a whole piece of storage. The function that declared
    a buffer has it as long as it is in progress. -/
def Backs (world : World σ) (holding : Holding) (data : ValueData) : Prop :=
  match holding.owner with
  | .host => ∃ ref, data = .host ref 0 ∧ ref.index < world.heap.buffers.size ∧
      (world.heap.get ref).dtype = holding.dtype ∧ (world.heap.get ref).length = holding.length
  | .function id number => ∃ buffer, data = .buffer buffer (.constant (.ofIndex 0)) ∧
      number ≤ (world.emitterAt id).scope ∧
      ((world.emitterAt id).scope = number → ∀ builder, (world.emitterAt id).current = some builder →
        builder.buffers[buffer.index]? = some ⟨buffer, holding.dtype, holding.length, .own⟩)

variable {world after : World σ} {holding older : Holding} {data : ValueData}

/-- What backs a value does so for good. Buffers are not taken away, nor do they
    change their type or length. -/
theorem Backs.advances (h : world.Backs holding data) (hadvances : world.Advances after) :
    after.Backs holding data := by
  obtain ⟨owner, dtype, length⟩ := holding
  cases owner with
  | host =>
    obtain ⟨ref, hdata, hlt, hdtype, hlength⟩ := h
    obtain ⟨hlt', hdtype', hlength'⟩ := hadvances.heap ref hlt
    exact ⟨ref, hdata, hlt', hdtype'.trans hdtype, hlength'.trans hlength⟩
  | function id number =>
    obtain ⟨buffer, hdata, hle, hdeclared⟩ := h
    obtain ⟨hle', hkept⟩ := hadvances.emitter id
    refine ⟨buffer, hdata, Nat.le_trans hle hle', fun hnumber builder hcurrent => ?_⟩
    -- an emitter that has not moved on to another function still has the earlier declarations
    have hscope : (world.emitterAt id).scope = number := Nat.le_antisymm (hnumber ▸ hle') hle
    obtain ⟨earlier, hearlier, hgrown⟩ := hkept (hnumber.trans hscope.symm) builder hcurrent
    have hfound := hdeclared hscope earlier hearlier
    rw [← Array.getElem?_toList] at hfound ⊢
    obtain ⟨hlt, hget⟩ := List.getElem?_eq_some_iff.mp hfound
    rw [List.prefix_iff_getElem?.mp hgrown _ hlt, hget]

end World

end StagedArrays
