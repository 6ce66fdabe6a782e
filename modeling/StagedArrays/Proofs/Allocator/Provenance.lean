import StagedArrays.Proofs.Allocator.Stock

namespace StagedArrays

namespace World

variable {start world after : World Ledger} {maxSlots : Nat} {context : Context} {dtype : DType} {layout : Layout}
  {v : Variable}

/-- What an allocator hands out bears the number of the active scope. It belongs
    to the active context as far as no other context has filled a slot under
    that number. -/
theorem exists_holding_of_history (hstart : start.client = .new maxSlots) (h : History anyCall start world)
    (hcontext : world.contexts.head? = some context)
    (hrun : (Ledger.allocate dtype layout).runFrom world = (.ok v, after)) :
    ∃ id needed holding, v.slot = some id ∧ after.client.holdings id.index = some holding ∧
      v.dtype = dtype ∧ v.layout = layout ∧ layout.memorySize = .ok needed ∧ needed ≤ holding.length ∧
      holding.dtype = dtype ∧ after.Backs holding v.value.data ∧ holding.owner.scope = world.scopeOf context ∧
      ((∀ index found, world.client.holdings index = some found → found.owner.scope = world.scopeOf context →
        found.owner.context = context) → holding.owner.context = context) := by
  have hstocked := stocked_of_history hstart h
  have hafter := stocked_of_history hstart (h.tail (.allocate dtype layout trivial))
  have hallocates := Ledger.allocates world dtype layout
  rw [hrun] at hallocates hafter
  cases hallocates with
  | @recycled found needed index slot hfound hneeded hslot hfree hscope hdtype hroom =>
    cases hcontext.symm.trans hfound
    obtain ⟨holding, hholding, hfilled⟩ := hstocked.filled hslot
    have hnumber := hfilled.scope_eq.symm.trans hscope
    exact ⟨⟨index⟩, needed, holding, rfl, hholding, rfl, rfl, hneeded, hfilled.capacity_eq ▸ hroom,
      hfilled.dtype_eq.symm.trans hdtype, hfilled.backs, hnumber, fun hown => hown index holding hholding hnumber⟩
  | @fresh found needed owner data stale _ hfound hneeded hstale hroom howner hscope howns hadvances hbacks hapart
      hclient =>
    cases hcontext.symm.trans hfound
    refine ⟨_, needed, ⟨owner, dtype, needed⟩, rfl, ?_, rfl, rfl, hneeded, Nat.le_of_eq rfl, rfl, hbacks, hscope,
      fun _ => howns⟩
    rw [hclient]
    exact Function.update_self ..

/-- An emitter has its first function with storage behind it when another starts
    its own. -/
def interleaved : Action Ledger Unit := do
  let first ← Action.newEmitter "first" {}
  let second ← Action.newEmitter "second" {}
  Action.defineFunction first { name := "f" } fun _ => do
    let v ← Ledger.allocate .i32 .scalar
    Ledger.free v
    return none
  discard (Action.onEmitter second (Emitter.startFunction { name := "g" }))
  discard (Action.enter (.emitter second))

/-- Two emitters that take turns with one allocator make a history as any
    other. -/
theorem history_interleaved : Stateful.Moves (History anyCall) interleaved := by
  refine .bind (Action.leads_newEmitter _ _) fun first => .bind (Action.leads_newEmitter _ _) fun second =>
    .bind (Action.leads_defineFunction first _ fun _ => .bind ?_ fun v => .bind ?_ fun _ => .pure _) fun _ =>
    .bind (.map _ (Action.leads_onEmitter (Emitter.moves_startFunction _) second)) fun _ =>
    .map _ (Action.leads_enter _)
  · exact fun world => .single (.allocate .i32 .scalar trivial)
  · exact fun world => .single (.free v trivial)

/-- The storage then handed out to the second is a buffer of the first. -/
theorem runFrom_allocate_interleaved : ∃ after,
    (Ledger.allocate .i32 .scalar).runFrom (interleaved.runFrom { client := .new 4 }).2 =
      (.ok ⟨some ⟨0⟩, .emittedBuffer .i32 .scalar ⟨0⟩⟩, after) ∧
    after.holding? (.emittedBuffer .i32 .scalar ⟨0⟩) = none ∧
    after.client.holdings 0 = some ⟨.function ⟨0⟩ 1, .i32, 1⟩ := by
  have hrun : ((Ledger.allocate .i32 .scalar).runFrom (interleaved.runFrom { client := .new 4 }).2).1.toOption =
      some ⟨some ⟨0⟩, .emittedBuffer .i32 .scalar ⟨0⟩⟩ := by decide +kernel
  refine ⟨((Ledger.allocate .i32 .scalar).runFrom (interleaved.runFrom { client := .new 4 }).2).2, ?_, ?_, ?_⟩
  · refine Prod.ext ?_ rfl
    revert hrun
    cases ((Ledger.allocate .i32 .scalar).runFrom (interleaved.runFrom { client := .new 4 }).2).1 with
    | error failure => exact fun hrun => nomatch hrun
    | ok v => exact fun hrun => congrArg Except.ok (Option.some.inj hrun)
  · decide +kernel
  · decide +kernel

theorem history_of_interleaved : History anyCall { client := .new 4 } (interleaved.runFrom { client := .new 4 }).2 :=
  history_interleaved _

/-- The slot that is handed out in the end is held by the allocator, and its
    storage was made by the other emitter. -/
theorem exists_holding_of_history_interleaved :
    let world := (interleaved.runFrom { client := .new 4 }).2
    ∃ (id : SlotId) (after : World Ledger) (holding : Holding), after.client.holdings id.index = some holding ∧
      holding.owner.scope = world.scopeOf (.emitter ⟨1⟩) ∧ holding.dtype = .i32 := by
  intro world
  obtain ⟨after, hrun, -⟩ := runFrom_allocate_interleaved
  have hcontext : world.contexts.head? = some (.emitter ⟨1⟩) := by decide +kernel
  obtain ⟨id, -, holding, -, hholding, -, -, -, -, hdtype, -, hscope, -⟩ :=
    exists_holding_of_history (show Ledger.new 4 = .new 4 from rfl) history_of_interleaved hcontext hrun
  exact ⟨id, after, holding, hholding, hscope, hdtype⟩

/-- It is not true that what is handed out always belongs to the function in
    progress. Scopes are numbers, which every emitter counts from one, and
    nothing tells those of two emitters apart. -/
theorem allocate_hands_out_foreign_buffer :
    ¬∀ (start world after : World Ledger) (maxSlots : Nat) (context : Context) (dtype : DType) (layout : Layout)
      (v : Variable), start.client = .new maxSlots → History anyCall start world →
      world.contexts.head? = some context → (Ledger.allocate dtype layout).runFrom world = (.ok v, after) →
      (after.holding? v.value).isSome := by
  intro hclaim
  obtain ⟨after, hrun, hforeign, -⟩ := runFrom_allocate_interleaved
  have hcontext : (interleaved.runFrom { client := .new 4 }).2.contexts.head? = some (.emitter ⟨1⟩) := by decide +kernel
  have hsome := hclaim { client := .new 4 } _ after 4 _ _ _ _ rfl history_of_interleaved hcontext hrun
  rw [hforeign] at hsome
  cases hsome

end World

end StagedArrays
