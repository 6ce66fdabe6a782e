import StagedArrays.Proofs.Script.Execution

namespace StagedArrays

mutual

/-- The registers that loops assign before each execution of their body. -/
def Instruction.inductions : Instruction → List RegisterId
  | .loop induction _ body => induction :: blockInductions body
  | .binary .. | .load .. | .store .. | .call .. => []

def blockInductions : List Instruction → List RegisterId
  | [] => []
  | instruction :: rest => instruction.inductions ++ blockInductions rest

end

theorem blockInductions_append (code more : List Instruction) :
    blockInductions (code ++ more) = blockInductions code ++ blockInductions more := by
  induction code with
  | nil => rfl
  | cons instruction code ih => simp [blockInductions, ih]

/-- The counters of a loop nest come before those of the loops in its body. The
    order is that of the registers. -/
theorem Fragment.blockInductions_nest (f : Fragment) (first : Nat) (extents : List Nat) :
    blockInductions (f.nest first extents).code =
      FunctionBuilder.loopRegisters first extents.length ++ blockInductions f.code := by
  induction extents generalizing first with
  | nil => rfl
  | cons extent extents ih =>
    simp only [nest, blockInductions, Instruction.inductions, ih (first + 1), List.append_nil, List.length_cons]
    rfl

mutual

/-- A step has no loops, and so no counters. By recursion on the code. -/
theorem Instruction.inductions_eq_nil_of_mem_steps : {instruction step : Instruction} → step ∈ instruction.steps →
    step.inductions = []
  | .loop _ _ _, _, hmem => inductions_eq_nil_of_mem_blockSteps hmem
  | .binary _ _ _ _, _, hmem => by cases List.mem_singleton.mp hmem; rfl
  | .load _ _ _, _, hmem => by cases List.mem_singleton.mp hmem; rfl
  | .store _ _ _, _, hmem => by cases List.mem_singleton.mp hmem; rfl
  | .call _ _ _, _, hmem => by cases List.mem_singleton.mp hmem; rfl

theorem inductions_eq_nil_of_mem_blockSteps : {code : List Instruction} → {step : Instruction} → step ∈ blockSteps code →
    step.inductions = []
  | _ :: _, _, hmem => (List.mem_append.mp hmem).elim Instruction.inductions_eq_nil_of_mem_steps
      inductions_eq_nil_of_mem_blockSteps

end

/-- Code without loops has no registers of loops. -/
theorem blockInductions_eq_nil {code : List Instruction} (h : blockSteps code = code) : blockInductions code = [] := by
  have hall : ∀ instruction ∈ code, instruction.inductions = [] := fun instruction hmem =>
    inductions_eq_nil_of_mem_blockSteps (h.symm ▸ hmem)
  clear h
  induction code with
  | nil => rfl
  | cons instruction code ih =>
    obtain ⟨hfirst, hrest⟩ := List.forall_mem_cons.mp hall
    rw [blockInductions, hfirst, ih hrest, List.nil_append]

namespace Stateful

variable {ε σ α β : Type} {property : σ → Prop} {state : σ}

/-- What each part of a sequence keeps the sequence keeps, wherever it stops.
    This is also so if the first part fails. -/
theorem property_of_bind {action : Stateful ε σ α} {next : α → Stateful ε σ β} (h : property (action.runFrom state).2)
    (hnext : ∀ value after, action.runFrom state = (.ok value, after) → property ((next value).runFrom after).2) :
    property ((action >>= next).runFrom state).2 := by
  cases hrun : action.runFrom state with
  | mk outcome after =>
    cases outcome with
    | error failure =>
      rw [runFrom_bind_of_error hrun]
      rwa [hrun] at h
    | ok value =>
      rw [runFrom_bind_of_ok hrun]
      exact hnext value after hrun

/-- One more repetition comes after all others. By definition it comes first, so
    that this takes an induction. -/
theorem repeatFrom_succ (body : Nat → Stateful ε σ Unit) (count first : Nat) :
    repeatFrom body (count + 1) first = (do repeatFrom body count first; body (first + count)) := by
  induction count generalizing first with
  | zero => simp [repeatFrom]
  | succ count ih =>
    rw [repeatFrom, ih (first + 1), repeatFrom, bind_assoc]
    simp only [Nat.add_assoc, Nat.add_comm 1 count]

end Stateful

variable {call : String → HostFunction} {property : Running → Prop}

/-- A loop that goes on once more executes its body again. The counter has the
    number of passes so far. -/
theorem Instruction.run_loop_succ (induction : RegisterId) (count : Nat) (body : List Instruction) :
    (Instruction.loop induction (count + 1) body).run call = (do
      (Instruction.loop induction count body).run call
      RunM.assign induction (.ofIndex count)
      runBlock call body) := by
  simp only [Instruction.run, Stateful.repeatFrom_succ, Nat.zero_add]

/-- What a block comes to alone it comes to with more behind it. -/
theorem Visits.of_singleton {instruction step : Instruction} {running found : Running}
    (h : Visits call [instruction] running step found) (rest : List Instruction) :
    Visits call (instruction :: rest) running step found := by
  cases h with
  | head => exact .head
  | tail _ hrest => cases hrest
  | inside hlt hrun hvisits => exact .inside hlt hrun hvisits

mutual

/-- What the steps that an execution comes to keep it keeps, however it ends. By
    recursion on the code. -/
theorem Instruction.property_run : (instruction : Instruction) → (running : Running) →
    (∀ step found, Visits call [instruction] running step found → step.steps = [step] → property found →
      property ((step.run call).runFrom found).2) →
    (∀ id ∈ instruction.inductions, ∀ index found, property found →
      property ⟨found.frame.assign id (.ofIndex index), found.heap⟩) →
    property running → property ((instruction.run call).runFrom running).2
  | .binary .., running, hsteps, _, h => hsteps _ _ .head rfl h
  | .load .., running, hsteps, _, h => hsteps _ _ .head rfl h
  | .store .., running, hsteps, _, h => hsteps _ _ .head rfl h
  | .call .., running, hsteps, _, h => hsteps _ _ .head rfl h
  | .loop register extent body, running, hsteps, hinductions, h => by
    obtain ⟨hregister, hbody⟩ := List.forall_mem_cons.mp hinductions
    -- The invariant of the loop: what holds where it begins holds after any number of executions of its body.
    have hpasses (count : Nat) (hle : count ≤ extent) :
        property (((Instruction.loop register count body).run call).runFrom running).2 := by
      induction count with
      | zero => exact h
      | succ count ih =>
        rw [Instruction.run_loop_succ]
        refine Stateful.property_of_bind (ih (by omega)) fun _ next hrun => ?_
        have hnext := ih (by omega)
        rw [hrun] at hnext
        rw [Stateful.runFrom_bind_of_ok (RunM.runFrom_assign _ _ _)]
        refine property_runBlock body _ (fun step found hvisits => ?_) hbody (hregister count next hnext)
        exact hsteps step found (.inside hle hrun hvisits)
    exact hpasses extent (Nat.le_refl _)

/-- What every step of a call preserves, and every count of a loop, is preserved
    by a whole block, however often its parts are visited. By recursion on the
    code, together with the instructions and their loops. -/
theorem property_runBlock : (code : List Instruction) → (running : Running) →
    (∀ step found, Visits call code running step found → step.steps = [step] → property found →
      property ((step.run call).runFrom found).2) →
    (∀ id ∈ blockInductions code, ∀ index found, property found →
      property ⟨found.frame.assign id (.ofIndex index), found.heap⟩) →
    property running → property ((runBlock call code).runFrom running).2
  | [], _, _, _, h => h
  | instruction :: rest, running, hsteps, hinductions, h => by
    obtain ⟨hfirst, hrest⟩ := List.forall_mem_append.mp hinductions
    have hinstruction := instruction.property_run running (fun step found hvisits => hsteps step found (hvisits.of_singleton rest))
      hfirst h
    refine Stateful.property_of_bind hinstruction fun _ next hrun => ?_
    rw [hrun] at hinstruction
    refine property_runBlock rest next (fun step found hvisits => ?_) hrest hinstruction
    exact hsteps step found (.tail hrun hvisits)

end

/-- A step that an execution comes to is one of the code. -/
theorem Visits.mem_blockSteps {code : List Instruction} {step : Instruction} {running found : Running}
    (h : Visits call code running step found) (hstep : step.steps = [step]) : step ∈ blockSteps code := by
  induction h with
  | head =>
    rw [blockSteps, hstep]
    exact List.mem_append_left _ (List.mem_singleton_self _)
  | tail _ _ ih => exact List.mem_append_right _ (ih hstep)
  | inside _ _ _ ih => exact List.mem_append_left _ (ih hstep)

end StagedArrays
