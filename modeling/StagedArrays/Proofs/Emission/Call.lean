import StagedArrays.Proofs.Emission.Operation

namespace StagedArrays

namespace Link

/-- What a direct call and a recorded one hand over: the same immediate, or the
    same place in storage that stands for the other. -/
def Delivers (l : Link) : (direct running : HostArgument) → Prop
  | .scalar x, .scalar y => x = y
  | .buffer ref offset, .buffer other place => l.Alike ref other ∧ offset = place
  | _, _ => False

end Link

namespace Comparison

variable [ArrayLibrary] {c : Comparison} {builder : FunctionBuilder} {l : Link}

/-- A call argument is recorded without an instruction, and hands over what the
    direct execution does. -/
theorem emits_callArgument (recorded : Value) :
    c.Emits builder (Emit.callArgument recorded) fun arg f => f = .empty ∧
      ∀ l direct, c.Sound l → l.Matches recorded direct → ∃ given taken,
        Direct.hostArgument direct = .ok given ∧ l.running.frame.argument arg = .ok taken ∧
          l.Delivers given taken := by
  unfold Emit.callArgument
  obtain ⟨dtype, layout, data⟩ := recorded
  cases data with
  | host ref offset => exact .fail
  | constant x =>
    refine @Emits.bind _ _ _ _ _ _ _ (fun operand f => operand = .constant x ∧ f = .empty) _
      (.lift_bind fun _ _ => .pure ⟨rfl, rfl⟩) ?_
    rintro _ _ ⟨rfl, rfl⟩
    refine .pure ⟨rfl, fun l direct _ hmatches => ?_⟩
    have hdata := hmatches.data
    cases hdirect : direct.data <;> rw [hdirect] at hdata <;> simp only [Link.DataMatches] at hdata
    obtain ⟨rfl, -⟩ := hdata
    exact ⟨.scalar x, .scalar x, by rw [Direct.hostArgument, hdirect], rfl, rfl⟩
  | register id =>
    refine @Emits.bind _ _ _ _ _ _ _ (fun operand f => operand = .register id ∧ f = .empty) _
      (.lift_bind fun _ _ => .pure ⟨rfl, rfl⟩) ?_
    rintro _ _ ⟨rfl, rfl⟩
    refine .pure ⟨rfl, fun l direct _ hmatches => ?_⟩
    have hdata := hmatches.data
    cases hdirect : direct.data <;> rw [hdirect] at hdata <;> simp only [Link.DataMatches] at hdata
    next x =>
    refine ⟨.scalar x, .scalar x, by rw [Direct.hostArgument, hdirect], ?_, rfl⟩
    simp only [Frame.argument, hdata.1.2]
    rfl
  | buffer id place =>
    refine .pure ⟨rfl, fun l direct hsound hmatches => ?_⟩
    have hdata := hmatches.data
    cases hdirect : direct.data <;> rw [hdirect] at hdata <;> simp only [Link.DataMatches] at hdata
    next ref offset =>
    obtain ⟨-, hbacking, other, base, index, size, hbound, hplace, rfl, -, hle, -⟩ := hdata
    have halike := hsound.alike ref other (.inl ⟨id, base, hbacking, hbound⟩)
    have haddress := Link.address_eq_ok hbound hplace (halike.signed.mono (by omega))
    refine ⟨.buffer ref (base + index), .buffer other (base + index), by rw [Direct.hostArgument, hdirect], ?_,
      halike, rfl⟩
    simp only [Frame.argument, haddress]
    rfl

/-- Call arguments hand over what the direct execution does, one by one. No code
    is needed for storage and immediates. -/
theorem emits_callArguments (recorded : List Value) :
    c.Emits builder (Emit.callArguments recorded) fun args f => f = .empty ∧
      ∀ l directs, c.Sound l → List.Forall₂ l.Matches recorded directs → ∃ given taken,
        Direct.hostArguments directs = .ok given ∧
          (RunM.arguments args).runFrom l.running = (.ok taken, l.running) ∧
            List.Forall₂ l.Delivers given taken := by
  induction recorded generalizing builder with
  | nil =>
    refine .pure ⟨rfl, fun l directs _ h => ?_⟩
    cases h
    exact ⟨[], [], rfl, rfl, .nil⟩
  | cons value values ih =>
    refine .bind (emits_callArgument value) ?_
    rintro arg _ ⟨rfl, harg⟩
    refine .map (ih.mono ?_)
    rintro args f ⟨rfl, hargs⟩
    refine ⟨by rw [Fragment.empty_append], fun l directs hsound h => ?_⟩
    obtain ⟨direct, directs, hmatches, hrest, rfl⟩ := List.forall₂_cons_left_iff.mp h
    obtain ⟨given, taken, hgiven, htaken, hdelivers⟩ := harg l direct hsound hmatches
    obtain ⟨givens, takens, hgivens, htakens, hall⟩ := hargs l directs hsound hrest
    refine ⟨given :: givens, taken :: takens, ?_, ?_, .cons hdelivers hall⟩
    · simp only [Direct.hostArguments] at hgivens ⊢
      rw [List.mapM_cons, hgiven, ok_bind, hgivens]
      rfl
    · have hframe : RunM.frame.runFrom l.running = (.ok l.running.frame, l.running) := rfl
      simp only [RunM.arguments, Stateful.runFrom_bind, hframe, htaken, Stateful.runFrom_liftM, liftM_self, htakens,
        Stateful.runFrom_pure]

/-- A recorded call of a function with a result takes one instruction and one
    register. -/
theorem emits_call {function : FunctionDeclaration} {type : ValueType} (hreturn : function.returnType = some type)
    (hdecoration : function.decoration = .undecorated) (hsymbol : function.name ∈ Kernel.symbols)
    (recorded : List Value) :
    c.Emits builder (Emit.call function recorded) fun result f =>
      result = some (.register type.dtype ⟨builder.nextRegister⟩) ∧ ∃ args,
        f = { code := [.call function.name args (some ⟨builder.nextRegister⟩)], registers := 1 } ∧
          ∀ l directs, c.Sound l → List.Forall₂ l.Matches recorded directs → ∃ given taken,
            Direct.hostArguments directs = .ok given ∧
              (RunM.arguments args).runFrom l.running = (.ok taken, l.running) ∧
                List.Forall₂ l.Delivers given taken := by
  refine .get_bind (.bind (emits_callArguments recorded) ?_)
  rintro args _ ⟨rfl, hargs⟩
  have hname : function.symbol (c.emitterAt builder).moduleName = function.name := by
    rw [FunctionDeclaration.symbol, hdecoration]
  simp only [hreturn, hname, FunctionBuilder.extend_empty]
  refine .map (.emitWithOutput ?_ ⟨rfl, args, by rw [Fragment.empty_append], hargs⟩)
  intro output symbol hmem
  rw [Instruction.symbols, List.mem_singleton] at hmem
  rwa [hmem]

/-- Running a recorded call of a host function that gives a result. The result
    is in its register afterwards. -/
theorem runFrom_call {symbol : String} {args : List CallArgument} {taken : List HostArgument} {output : RegisterId}
    (hargs : (RunM.arguments args).runFrom l.running = (.ok taken, l.running)) :
    (runBlock c.call [.call symbol args (some output)]).runFrom l.running =
      match (c.call symbol taken).runFrom l.running.heap with
      | (.ok (some x), heap) => (.ok (), ⟨l.running.frame.assign output x, heap⟩)
      | (.ok none, heap) =>
        (.error (.error (.invalidArgument (.noValueReturned symbol))), ⟨l.running.frame, heap⟩)
      | (.error failure, heap) => (.error failure, ⟨l.running.frame, heap⟩) := by
  rw [runBlock_singleton, Instruction.run, Stateful.runFrom_bind_of_ok hargs, Stateful.runFrom_bind,
    RunM.runFrom_onHeap]
  cases (c.call symbol taken).runFrom l.running.heap with
  | mk outcome heap =>
    rcases outcome with failure | x | _ <;> rfl

end Comparison

end StagedArrays
