import Mathlib.Logic.Function.Basic
import Mathlib.Logic.Relation
import StagedArrays.Proofs.Allocator.Allocation

namespace StagedArrays

open Stateful (Moves)

/-- A variable that was handed out, with what was asked for and the scope that
    was active. -/
structure Lease where
  given : Variable
  dtype : DType
  layout : Layout
  scope : Nat

/-- An allocator in use, with a record of what its slots were last filled with,
    and of the variables that have been handed out and not given back. -/
structure Ledger where
  allocator : SlotAllocator := {}
  holdings : Nat → Option Holding := fun _ => none
  leases : List Lease := []

namespace World

variable {σ τ : Type} {world : World σ} {client : τ}

theorem scopeOf_withClient (context : Context) : (world.withClient client).scopeOf context = world.scopeOf context := by
  cases context <;> rfl

end World

namespace Ledger

/-- An allocator that nothing has been asked of. It may have so many slots. -/
def new (maxSlots : Nat) : Ledger := { allocator := { maxSlots } }

/-- A step of the allocator. The world that it sees is all but the ledger. -/
def onStorage {α : Type} (action : StorageM Unit α) : Action Ledger α :=
  .focus (fun world => (⟨world.client.allocator, world.withClient ()⟩, fun storage =>
      storage.world.withClient { world.client with allocator := storage.allocator }))
    (action.mapCause fun cause => .invalidArgument (.host cause.message))

/-- The free slot that the next allocation would hand out again. The ledger
    notes whether it did. -/
def recycled? (world : World Ledger) (dtype : DType) (layout : Layout) : Option (Slot × Nat) := do
  let context ← world.contexts.head?
  let needed ← layout.memorySize.toOption
  world.client.allocator.recyclable? (world.scopeOf context) dtype needed

/-- Records a variable, and what its slot has been filled with if that is
    fresh. -/
def enter (ledger : Ledger) (lease : Lease) (fresh : Option Holding) : Ledger :=
  { ledger with
    leases := lease :: ledger.leases
    holdings :=
      match lease.given.slot, fresh with
      | some slot, some holding => Function.update ledger.holdings slot.index (some holding)
      | _, _ => ledger.holdings }

/-- Allocates from the slots, and records what was handed out. -/
def allocate (dtype : DType) (layout : Layout) : Action Ledger Variable := do
  let before ← get
  let v ← onStorage (StorageM.allocate dtype layout)
  let after ← get
  let scope := before.contexts.head?.elim 0 before.scopeOf
  let fresh := if (recycled? before dtype layout).isSome then none else after.holding? v.value
  set { after with client := after.client.enter ⟨v, dtype, layout, scope⟩ fresh }
  return v

/-- Gives a variable back. It is struck from the records whether or not its slot
    is taken back. -/
def free (v : Variable) : Action Ledger Unit := do
  modify fun world => { world with client.leases := world.client.leases.filter (·.given ≠ v) }
  onStorage (StorageM.free v)

end Ledger

/-- A call of an allocator, with what it is called with. -/
inductive Call where
  | allocate (dtype : DType) (layout : Layout)
  | free (v : Variable)

/-- One step in the history of an allocator. Between its calls, of which some
    may be ruled out, contexts are entered and left, emitters are set up,
    functions are begun and ended, and storage is used. -/
inductive World.Step (allowed : World Ledger → Call → Prop) (world : World Ledger) : World Ledger → Prop where
  | advance {after : World Ledger} (hadvances : world.Advances after) (hclient : after.client = world.client) :
    Step allowed world after
  | allocate (dtype : DType) (layout : Layout) (hallowed : allowed world (.allocate dtype layout)) :
    Step allowed world ((Ledger.allocate dtype layout).runFrom world).2
  | free (v : Variable) (hallowed : allowed world (.free v)) : Step allowed world ((Ledger.free v).runFrom world).2

/-- Any number of steps in the history of an allocator, of calls that are
    allowed and of whatever else happens to the world. -/
abbrev World.History (allowed : World Ledger → Call → Prop) : World Ledger → World Ledger → Prop :=
  Relation.ReflTransGen (World.Step allowed)

/-- All calls, in whatever context. The most general histories allow them. -/
def World.anyCall (_ : World Ledger) (_ : Call) : Prop := True

namespace Ledger

/-- How an allocation can end, as the ledger has it: what is recorded and what
    the slots have become. -/
inductive Allocates (world : World Ledger) (dtype : DType) (layout : Layout) :
    Except (Failure ValueError) Variable → World Ledger → Prop where
  | refused {failure : Failure ValueError} {after : World Ledger} (hadvances : world.Advances after)
      (hclient : after.client = world.client) : Allocates world dtype layout (.error failure) after
  | recycled {context : Context} {needed index : Nat} {slot : Slot} (hcontext : world.contexts.head? = some context)
      (hneeded : layout.memorySize = .ok needed) (hslot : world.client.allocator.slots[index]? = some slot)
      (hfree : slot.live = false) (hscope : slot.scope = world.scopeOf context) (hdtype : slot.storage.dtype = dtype)
      (hroom : needed ≤ slot.capacity) :
    Allocates world dtype layout (.ok ⟨some ⟨index⟩, ⟨dtype, layout, slot.storage.data⟩⟩)
      { world with
        client := { world.client with
          allocator := world.client.allocator.setLive index true
          leases := ⟨⟨some ⟨index⟩, ⟨dtype, layout, slot.storage.data⟩⟩, dtype, layout, world.scopeOf context⟩ ::
            world.client.leases } }
  | fresh {context : Context} {needed : Nat} {owner : Owner} {data : ValueData} {stale : Option Nat} {after : World Ledger}
      (hcontext : world.contexts.head? = some context) (hneeded : layout.memorySize = .ok needed)
      (hstale : ∀ index ∈ stale, ∃ slot, world.client.allocator.slots[index]? = some slot ∧ slot.live = false)
      (hroom : stale = none → world.client.allocator.totalSlots < world.client.allocator.maxSlots)
      (howner : world.owner? = some owner) (hscope : owner.scope = world.scopeOf context)
      (howns : owner.context = context) (hadvances : world.Advances after)
      (hbacks : after.Backs ⟨owner, dtype, needed⟩ data)
      (hapart : ∀ (older : Holding) other, older.owner = owner → world.Backs older other → ¬other.Shares data)
      (hclient : after.client =
        let index := stale.getD world.client.allocator.slots.size
        let value : Value := ⟨dtype, layout, data⟩
        { allocator := (world.client.allocator.place ⟨value, needed, world.scopeOf context, true⟩ stale).2
          holdings := Function.update world.client.holdings index (some ⟨owner, dtype, needed⟩)
          leases := ⟨⟨some ⟨index⟩, value⟩, dtype, layout, world.scopeOf context⟩ :: world.client.leases }) :
    Allocates world dtype layout
      (.ok ⟨some ⟨stale.getD world.client.allocator.slots.size⟩, ⟨dtype, layout, data⟩⟩) after

/-- Entering what was allocated in the ledger does not interfere with the
    allocation. Only one that succeeds is entered. -/
theorem runFrom_allocate (world : World Ledger) (dtype : DType) (layout : Layout) :
    (allocate dtype layout).runFrom world =
      match (StorageM.allocate dtype layout).runFrom ⟨world.client.allocator, world.withClient ()⟩ with
      | (.ok v, storage) =>
        let after := storage.world.withClient { world.client with allocator := storage.allocator }
        (.ok v, after.withClient (after.client.enter ⟨v, dtype, layout, world.contexts.head?.elim 0 world.scopeOf⟩
          (if (recycled? world dtype layout).isSome then none else after.holding? v.value)))
      | (.error failure, storage) =>
        (.error (failure.map fun cause => .invalidArgument (.host cause.message)),
          storage.world.withClient { world.client with allocator := storage.allocator }) := by
  simp only [allocate, onStorage, Stateful.runFrom_bind, Stateful.runFrom_get, Stateful.runFrom_focus,
    Stateful.runFrom_mapCause]
  rcases (StorageM.allocate dtype layout).runFrom ⟨world.client.allocator, world.withClient ()⟩ with ⟨outcome, after⟩
  cases outcome <;> rfl

/-- An allocation that is entered in the ledger ends in one of the ways an
    allocation can end. -/
theorem allocates (world : World Ledger) (dtype : DType) (layout : Layout) :
    Allocates world dtype layout ((allocate dtype layout).runFrom world).1 ((allocate dtype layout).runFrom world).2 := by
  have h := StorageM.allocates ⟨world.client.allocator, world.withClient ()⟩ dtype layout
  rw [runFrom_allocate]
  generalize (StorageM.allocate dtype layout).runFrom ⟨world.client.allocator, world.withClient ()⟩ = result at h ⊢
  obtain ⟨outcome, after⟩ := result
  cases h with
  | refused hadvances hclient => exact .refused ⟨hadvances.heap, hadvances.emitter⟩ rfl
  | @recycled context needed index slot hcontext hneeded hfound =>
    rw [World.scopeOf_withClient] at hfound
    have hcontext : world.contexts.head? = some context := hcontext
    obtain ⟨hslot, hfree, hscope, hdtype, hroom⟩ := SlotAllocator.recyclable?_eq_some hfound
    have hrecycled : (recycled? world dtype layout).isSome := by
      simp [recycled?, hcontext, hneeded, Except.toOption, hfound]
    simp only [hrecycled, if_true, hcontext, Option.elim_some]
    exact .recycled hcontext hneeded hslot hfree hscope hdtype hroom
  | @fresh context needed data world' hcontext hneeded hnone hroom hrun placed hplaced =>
    rw [World.scopeOf_withClient] at hnone hroom hplaced
    have hcontext : world.contexts.head? = some context := hcontext
    obtain ⟨owner, howner, howns, hscope, -, -, hholding, hbacks, hapart⟩ :=
      Context.exists_holding_of_allocate (show (world.withClient ()).contexts.head? = some context from hcontext) hneeded hrun
    have hadvances := context.moves_allocate dtype layout (world.withClient ())
    rw [hrun] at hadvances
    have hrecycled : ¬(recycled? world dtype layout).isSome := by
      simp [recycled?, hcontext, hneeded, Except.toOption, hnone]
    simp only [if_neg hrecycled, hcontext, Option.elim_some]
    have hplace : placed.1 = ⟨(world.client.allocator.stale? (world.scopeOf context)).getD
        world.client.allocator.slots.size⟩ := by rw [hplaced, SlotAllocator.place_fst]
    rw [hplace]
    refine .fresh hcontext hneeded (fun index hindex => ?_) hroom howner (hscope.trans (World.scopeOf_withClient context)) howns
      ⟨hadvances.heap, hadvances.emitter⟩ hbacks (fun older other => hapart older other) ?_
    · obtain ⟨slot, hslot, hfree, -⟩ := SlotAllocator.stale?_eq_some hindex
      exact ⟨slot, hslot, hfree⟩
    · have hfresh : (world'.withClient { world.client with allocator := placed.2 }).holding? ⟨dtype, layout, data⟩ =
          some ⟨owner, dtype, needed⟩ := hholding
      change enter _ _ ((world'.withClient { world.client with allocator := placed.2 }).holding? ⟨dtype, layout, data⟩) = _
      rw [hfresh, hplaced]
      rfl

/-- A variable is no longer recorded once it has been given back. -/
theorem runFrom_free (world : World Ledger) (v : Variable) :
    ((free v).runFrom world).2 = { world with
      client := { world.client with
        allocator := (world.client.allocator.release v).toOption.getD world.client.allocator
        leases := world.client.leases.filter (·.given ≠ v) } } := by
  simp only [free, onStorage, StorageM.free, Stateful.runFrom_bind, Stateful.runFrom_modify, Stateful.runFrom_focus,
    Stateful.runFrom_mapCause, Stateful.runFrom_get, Stateful.runFrom_liftM]
  cases world.client.allocator.release v <;> rfl

end Ledger

instance {allowed : World Ledger → Call → Prop} : IsPreorder (World Ledger) (World.History allowed) where
  refl _ := .refl
  trans _ _ _ := .trans

namespace Action

variable {α : Type} {allowed : World Ledger → Call → Prop}

theorem leads_of_advances {action : Action Ledger α} (h : Moves World.Advances action)
    (hclient : ∀ world, (action.runFrom world).2.client = world.client) : Moves (World.History allowed) action :=
  fun world => .single (.advance (h world) (hclient world))

theorem leads_onEmitter {action : EmitterM α} (h : Moves Emitter.Advances action) (id : EmitterId) :
    Moves (World.History allowed) (onEmitter id action : Action Ledger α) :=
  leads_of_advances (moves_onEmitter h id) fun _ => rfl

theorem leads_newEmitter (moduleName : String) (config : EmitterConfig) :
    Moves (World.History allowed) (newEmitter moduleName config : Action Ledger EmitterId) :=
  leads_of_advances (moves_newEmitter _ _) fun _ => rfl

theorem leads_enter (context : Context) : Moves (World.History allowed) (enter context : Action Ledger Guard) :=
  fun _ => .single (.advance (World.advances_of_eq rfl rfl) rfl)

/-- Leaving a context is a step of a history, even out of order. No slot is
    concerned. -/
theorem leads_leave (guard : Guard) : Moves (World.History allowed) (leave guard : Action Ledger Unit) := by
  intro world
  by_cases hlength : world.contexts.length = guard.depth
  · rw [runFrom_leave_of_length_eq hlength]
    exact .single (.advance (World.advances_of_eq rfl rfl) rfl)
  · have hsame : ((leave guard).runFrom world).2 = world := congrArg Prod.snd (runFrom_leave_of_length_ne hlength)
    exact hsame.symm ▸ .refl

/-- What leads through a history still does with a context entered around it. -/
theorem leads_withContext {body : Action Ledger α} (context : Context) (h : Moves (World.History allowed) body) :
    Moves (World.History allowed) (withContext context body) := by
  refine .bind (leads_enter context) fun guard => .bind (.attempt h) fun result => ?_
  split
  · exact .bind (.map _ (.attempt (leads_leave guard))) fun _ => .throw _
  · exact .bind (leads_leave guard) fun _ => .settle _

/-- Whatever the body of a function does with the allocator, the function has
    been defined in the course of a history. -/
theorem leads_defineFunction {body : List Value → Action Ledger (Option Value)} (id : EmitterId)
    (function : FunctionDeclaration) (h : ∀ parameters, Moves (World.History allowed) (body parameters)) :
    Moves (World.History allowed) (defineFunction id function body) := by
  refine .bind (leads_onEmitter (Emitter.moves_startFunction function) id) fun parameters =>
    .bind (.attempt (leads_withContext _ (.bind (h parameters) fun result =>
      leads_onEmitter (Emitter.moves_resultOperand function result).advances id))) fun outcome => ?_
  split
  · exact .throw _
  · exact leads_onEmitter (Emitter.moves_endFunction outcome).advances id

end Action

end StagedArrays
