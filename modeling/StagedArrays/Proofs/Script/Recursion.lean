import Mathlib.Data.List.Perm.Subperm
import Mathlib.Logic.Relation
import StagedArrays.Proofs.Code.Failing
import StagedArrays.Proofs.Script.Symbols

namespace StagedArrays

open Relation (ReflTransGen TransGen)
open Stateful (Fails Plain)

namespace EmittedModule

/-- Whether one function of a module calls another. Calls that are in loops
    without passes do not count. -/
def Calls (program : EmittedModule) (caller callee : EmittedFunction) : Prop :=
  ∃ symbol ∈ blockTargets caller.body, program.bySymbol? symbol = some callee

/-- Whether calls lead from a function to one that they lead back to. The
    function itself need not be called again. -/
def Recurs (program : EmittedModule) (function : EmittedFunction) : Prop :=
  ∃ repeated, ReflTransGen program.Calls function repeated ∧ TransGen program.Calls repeated repeated

end EmittedModule

/-- A function depends on the symbols that it calls and on no others. So the
    rest of a module makes no difference to it. -/
theorem EmittedFunction.invoke_congr {call call' : String → HostFunction} (function : EmittedFunction)
    (h : ∀ symbol ∈ blockTargets function.body, call symbol = call' symbol) :
    function.invoke call = function.invoke call' := by
  funext args
  rw [invoke_eq, invoke_eq]
  unfold executeIn execute
  rw [runBlock_congr function.body h]

/-- A function that is found in a module is one of its functions. -/
theorem EmittedModule.mem_of_lookup? {program : EmittedModule} {name : String} {function : EmittedFunction}
    (h : program.lookup? name = some function) : function ∈ program.functions := by
  unfold lookup? at h
  split at h
  · next found hfound =>
    cases h
    exact List.mem_of_find?_eq_some hfound
  · exact List.mem_of_find?_eq_some h

/-- Among functions that call only one another, each something smaller, none is
    called again. -/
theorem EmittedModule.not_recurs_of_falls {program : EmittedModule} {function : EmittedFunction}
    (among : EmittedFunction → Prop) (size : EmittedFunction → Nat)
    (hfalls : ∀ caller callee, among caller → program.Calls caller callee → among callee ∧ size callee < size caller)
    (hamong : among function) : ¬program.Recurs function := by
  have htrans {caller callee} (hcaller : among caller) (h : TransGen program.Calls caller callee) :
      among callee ∧ size callee < size caller := by
    induction h with
    | single hcalls => exact hfalls _ _ hcaller hcalls
    | tail _ hcalls ih =>
      obtain ⟨hcallee, hlt⟩ := hfalls _ _ ih.1 hcalls
      exact ⟨hcallee, by omega⟩
  rintro ⟨repeated, hreaches, hrepeats⟩
  have hrepeated : among repeated := by
    rcases Relation.reflTransGen_iff_eq_or_transGen.mp hreaches with rfl | hreaches
    · exact hamong
    · exact (htrans hamong hreaches).1
  exact lt_irrefl _ (htrans hrepeated hrepeats).2

/-- The functions that are being executed inside one another when execution
    began with a given one, the last one first. -/
inductive EmittedModule.Stack (program : EmittedModule) (origin : EmittedFunction) : List EmittedFunction → Prop where
  | begin : Stack program origin [origin]
  | push {caller callee : EmittedFunction} {callers : List EmittedFunction} (h : Stack program origin (caller :: callers))
      (calls : program.Calls caller callee) : Stack program origin (callee :: caller :: callers)

namespace EmittedModule.Stack

variable {program : EmittedModule} {origin function : EmittedFunction} {callers stack : List EmittedFunction}

/-- Calls lead from the function at the bottom of a stack to the one on top.
    Each function calls the one above it. -/
theorem reaches (h : program.Stack origin stack) (hhead : stack.head? = some function) :
    ReflTransGen program.Calls origin function := by
  induction h generalizing function with
  | begin =>
    cases hhead
    exact .refl
  | push _ hcalls ih =>
    cases hhead
    exact .tail (ih rfl) hcalls

/-- Each function below the last one leads to it. The call goes through those in
    between. -/
theorem leads (h : program.Stack origin stack) (hstack : stack = function :: callers) :
    ∀ caller ∈ callers, TransGen program.Calls caller function := by
  induction h generalizing function callers with
  | begin =>
    cases hstack
    simp
  | push _ hcalls ih =>
    cases hstack
    intro caller hmem
    rcases List.mem_cons.mp hmem with rfl | hmem
    · exact .single hcalls
    · exact .tail (ih rfl caller hmem) hcalls

/-- No function is executed inside itself, unless the first one leads to one
    that is called again. -/
theorem nodup (h : program.Stack origin stack) (hrecurs : ¬program.Recurs origin) : stack.Nodup := by
  induction h with
  | begin => simp
  | push h hcalls ih =>
    refine List.nodup_cons.mpr ⟨fun hmem => hrecurs ⟨_, (h.push hcalls).reaches rfl, ?_⟩, ih⟩
    exact (h.push hcalls).leads rfl _ hmem

/-- All functions on a stack belong to the module if the first one does. -/
theorem subset (h : program.Stack origin stack) (horigin : origin ∈ program.functions) : stack ⊆ program.functions := by
  induction h with
  | begin => simpa using horigin
  | push _ hcalls ih =>
    obtain ⟨symbol, -, hfound⟩ := hcalls
    exact List.cons_subset.mpr ⟨List.mem_of_find?_eq_some hfound, ih⟩

theorem length_le (h : program.Stack origin stack) (horigin : origin ∈ program.functions)
    (hrecurs : ¬program.Recurs origin) : stack.length ≤ program.functions.length :=
  (List.subperm_of_subset (h.nodup hrecurs) (h.subset horigin)).length_le

end EmittedModule.Stack

/-- Whether a function gives a value for some arguments. The heap that it works
    on may be any. -/
def HostFunction.Succeeds (function : HostFunction) : Prop :=
  ∃ args heap result after, (function args).runFrom heap = (.ok result, after)

section Success

variable {call : String → HostFunction} {running after : Running}

mutual

/-- What has been executed has called its targets, and has been given values. So
    a call that never gives one is never got past. -/
theorem Instruction.succeeds_of_run : (instruction : Instruction) → {running after : Running} →
    (instruction.run call).runFrom running = (.ok (), after) → ∀ symbol ∈ instruction.targets, (call symbol).Succeeds
  | .binary .., _, _, _ | .load .., _, _, _ | .store .., _, _, _ => by simp [Instruction.targets]
  | .loop induction extent body, _, _, h => by
    unfold Instruction.run at h
    cases extent with
    | zero => simp [Instruction.targets]
    | succ extent =>
      rw [Instruction.targets, if_neg (Nat.succ_ne_zero extent)]
      rw [Stateful.repeatFrom] at h
      obtain ⟨_, _, hpass, -⟩ := Stateful.runFrom_bind_eq_ok.mp h
      obtain ⟨_, _, -, hbody⟩ := Stateful.runFrom_bind_eq_ok.mp hpass
      exact succeeds_of_runBlock body hbody
  | .call symbol args output, _, _, h => by
    unfold Instruction.run at h
    obtain ⟨handed, entered, -, h⟩ := Stateful.runFrom_bind_eq_ok.mp h
    obtain ⟨result, returned, hcall, -⟩ := Stateful.runFrom_bind_eq_ok.mp h
    rw [RunM.onHeap, Stateful.runFrom_focus] at hcall
    simp only [Instruction.targets, List.mem_singleton, forall_eq]
    exact ⟨handed, entered.heap, result, _, Prod.ext (Prod.ext_iff.mp hcall).1 rfl⟩

/-- The same for a block. Each of its instructions has been executed. -/
theorem succeeds_of_runBlock : (block : List Instruction) → {running after : Running} →
    (runBlock call block).runFrom running = (.ok (), after) → ∀ symbol ∈ blockTargets block, (call symbol).Succeeds
  | [], _, _, _ => by simp [blockTargets]
  | instruction :: rest, _, _, h => by
    rw [runBlock] at h
    obtain ⟨_, _, hfirst, hrest⟩ := Stateful.runFrom_bind_eq_ok.mp h
    rw [blockTargets]
    exact List.forall_mem_append.mpr ⟨instruction.succeeds_of_run hfirst, succeeds_of_runBlock rest hrest⟩

end

/-- A call that succeeds has executed each call in its body, because all
    instructions of a body are executed, except for loops without passes. -/
theorem EmittedFunction.succeeds_of_invoke {function : EmittedFunction} (h : (function.invoke call).Succeeds) :
    ∀ symbol ∈ blockTargets function.body, (call symbol).Succeeds := by
  obtain ⟨args, heap, result, final, h⟩ := h
  rw [invoke_eq] at h
  obtain ⟨frame, entered, -, h⟩ := Stateful.runFrom_bind_eq_ok.mp h
  rw [runFrom_executeIn] at h
  have hexecute : (function.execute call).runFrom ⟨frame, entered⟩ = (.ok result, _) := Prod.ext (Prod.ext_iff.mp h).1 rfl
  obtain ⟨_, _, hbody, -⟩ := Stateful.runFrom_bind_eq_ok.mp hexecute
  exact succeeds_of_runBlock function.body hbody

end Success

namespace CompiledModule

variable {compiled : CompiledModule} {origin function callee : EmittedFunction} {symbol : String} {depth : Nat}

/-- A call of a function in the module takes one off the depth. The function is
    the one that its symbol leads to. -/
theorem call_succ_of_bySymbol? (h : compiled.program.bySymbol? symbol = some function) (depth : Nat) :
    compiled.call (depth + 1) symbol = function.invoke (compiled.call depth) := by
  funext args
  rw [call, h]

/-- A call that leads out of the module is the same at any depth. Functions from
    outside are not nested. -/
theorem call_succ_of_none (h : compiled.program.bySymbol? symbol = none) (depth : Nat) :
    compiled.call (depth + 1) symbol = compiled.call 1 symbol := by
  funext args
  rw [call, call, h]

/-- A function from which none that is called again is reached comes to the same
    however much deeper calls may be nested, once there is room for all
    functions of the module on top of what is being executed. -/
theorem invoke_settled {reason : Failure ValueError → Prop} {stack callers : List EmittedFunction}
    (hplain : ∀ failure : Failure ValueError, failure.Plain → reason failure)
    (hhost : ∀ symbol function, compiled.symbols.get? symbol = some function → ∀ args, Fails reason (function args))
    (horigin : origin ∈ compiled.program.functions) (hrecurs : ¬compiled.program.Recurs origin)
    (h : compiled.program.Stack origin stack) (hstack : stack = function :: callers)
    (hroom : compiled.program.functions.length < depth + stack.length) :
    (∀ args, Fails reason (function.invoke (compiled.call depth) args)) ∧
      ∀ deeper ≥ depth, function.invoke (compiled.call deeper) = function.invoke (compiled.call depth) := by
  -- The induction is on the depth: a call takes one off it, and puts one function on the stack.
  induction depth generalizing stack callers function with
  | zero =>
    have hlength := h.length_le horigin hrecurs
    omega
  | succ depth ih =>
    have htarget (symbol) (hmem : symbol ∈ blockTargets function.body) :
        (∀ args, Fails reason (compiled.call (depth + 1) symbol args)) ∧
          ∀ deeper ≥ depth, compiled.call (deeper + 1) symbol = compiled.call (depth + 1) symbol := by
      cases hfound : compiled.program.bySymbol? symbol with
      | some callee =>
        subst hstack
        have hpush := h.push ⟨symbol, hmem, hfound⟩
        obtain ⟨hfails, hsame⟩ := ih hpush rfl (by simp only [List.length_cons] at hroom ⊢; omega)
        simp only [call_succ_of_bySymbol? hfound]
        exact ⟨hfails, hsame⟩
      | none =>
        refine ⟨fun args => ?_, fun deeper _ => by rw [call_succ_of_none hfound, call_succ_of_none hfound depth]⟩
        unfold call
        simp only [hfound]
        split
        · exact hhost symbol _ ‹_› args
        · exact Fails.mono (Plain.fail _) hplain
    refine ⟨function.fails_invoke (fun failure h => hplain failure h.plain) fun symbol hmem => (htarget symbol hmem).1, fun deeper hdeeper => ?_⟩
    obtain ⟨deeper, rfl⟩ : ∃ less, deeper = less + 1 := ⟨deeper - 1, by omega⟩
    exact function.invoke_congr fun symbol hmem => (htarget symbol hmem).2 deeper (by omega)

/-- What gives a value has had one from each function it calls, with calls
    nested less deeply. -/
theorem exists_lt_of_calls (hcalls : compiled.program.Calls function callee)
    (h : (function.invoke (compiled.call depth)).Succeeds) :
    ∃ less < depth, (callee.invoke (compiled.call less)).Succeeds := by
  obtain ⟨symbol, hmem, hfound⟩ := hcalls
  have hcallee := EmittedFunction.succeeds_of_invoke h symbol hmem
  cases depth with
  | zero =>
    obtain ⟨args, heap, result, after, hrun⟩ := hcallee
    rw [call, Stateful.runFrom_throw] at hrun
    cases hrun
  | succ depth =>
    rw [call_succ_of_bySymbol? hfound] at hcallee
    exact ⟨depth, Nat.lt_succ_self depth, hcallee⟩

/-- If a function succeeds at some depth, then each function that it leads to
    has succeeded at a smaller one. -/
theorem exists_lt_of_transGen (hcalls : TransGen compiled.program.Calls function callee)
    (h : (function.invoke (compiled.call depth)).Succeeds) :
    ∃ less < depth, (callee.invoke (compiled.call less)).Succeeds := by
  induction hcalls with
  | single hcalls => exact exists_lt_of_calls hcalls h
  | tail _ hcalls ih =>
    obtain ⟨less, hless, hmiddle⟩ := ih
    obtain ⟨least, hleast, hcallee⟩ := exists_lt_of_calls hcalls hmiddle
    exact ⟨least, by omega, hcallee⟩

/-- A function that leads back to itself never succeeds: by the lemma above
    there would be ever smaller depths. -/
theorem not_succeeds_of_recurs (hrecurs : compiled.program.Recurs function) :
    ¬(function.invoke (compiled.call depth)).Succeeds := by
  obtain ⟨repeated, hreaches, hrepeats⟩ := hrecurs
  -- Each time round takes some depth, of which there would have to be less and less.
  have hrepeated (depth) : ¬(repeated.invoke (compiled.call depth)).Succeeds := by
    induction depth using Nat.strong_induction_on with
    | h depth ih =>
      intro h
      obtain ⟨less, hless, hagain⟩ := exists_lt_of_transGen hrepeats h
      exact ih less hless hagain
  intro h
  rcases Relation.reflTransGen_iff_eq_or_transGen.mp hreaches with rfl | hreaches
  · exact hrepeated depth h
  · obtain ⟨less, -, hreached⟩ := exists_lt_of_transGen hreaches h
    exact hrepeated less hreached

end CompiledModule

/-- The call of a function ends, with a value or for a reason that is an error,
    an overflow of word arithmetic or of the capacity of storage, or a reason
    for which a function from outside fails, unless calls lead from it to a
    function that they lead back to: however much deeper calls may be nested
    than there are functions, nothing changes. Where calls do lead back, it
    never gives a value. -/
theorem EmittedModule.invoke_ends_unless_recurs (module : EmittedModule) (table : SymbolTable) (compiled : CompiledModule)
    (reason : Failure ValueError → Prop) (hcompile : module.compile table = .ok compiled)
    (hplain : ∀ failure : Failure ValueError, failure.Plain → reason failure)
    (hhost : ∀ symbol function, table.get? symbol = some function → ∀ args, Fails reason (function args)) (name : String) :
    ((∀ function, module.lookup? name = some function → ¬module.Recurs function) → ∀ args heap, ∃ outcome after,
        FailsOnly reason outcome ∧
          ∀ depth ≥ module.functions.length, (compiled.invoke depth name args).runFrom heap = (outcome, after)) ∧
      ∀ function, module.lookup? name = some function → module.Recurs function →
        ∀ depth args heap result, ((compiled.invoke depth name args).runFrom heap).1 ≠ .ok result := by
  obtain ⟨rfl, rfl⟩ := EmittedModule.program_eq_of_compile hcompile
  constructor
  · intro hrecurs args heap
    cases hfound : compiled.program.lookup? name with
    | none =>
      refine ⟨.error (.error (.unresolvedSymbol name)), heap, .of_error (hplain _ trivial), fun depth _ => ?_⟩
      rw [CompiledModule.invoke, hfound, Stateful.runFrom_fail]
    | some function =>
      have hmem := EmittedModule.mem_of_lookup? hfound
      obtain ⟨hfails, hsame⟩ := CompiledModule.invoke_settled hplain hhost hmem (hrecurs function hfound) .begin rfl
        (Nat.lt_succ_self _)
      refine ⟨_, ((function.invoke (compiled.call compiled.program.functions.length) args).runFrom heap).2,
        hfails args heap, fun depth hdepth => ?_⟩
      rw [CompiledModule.invoke, hfound]
      simp only [hsame depth hdepth]
  · intro function hfound hrecurs depth args heap result hok
    apply CompiledModule.not_succeeds_of_recurs hrecurs
    rw [CompiledModule.invoke, hfound] at hok
    exact ⟨args, heap, result, _, Prod.ext hok rfl⟩

namespace Script

/-- A procedure on two integers that does nothing. -/
def idleDeclaration : FunctionDeclaration where
  name := "d"
  parameters := [.pointer .i32 ⟨[2], [1]⟩]

/-- Defines a function, one that calls it and a function from outside, one that
    calls itself, and one that does nothing with its argument. -/
def circling : Script Unit :=
  newEmitter "m" {} fun id =>
    define id (integerDeclaration "a" .decorated) (fun _ => done (.ok (some (.constant (.i32 1))))) fun _ =>
      define id (integerDeclaration "b" .decorated)
        (fun _ => perform (.emitter id) (.call (integerDeclaration "a" .decorated) []) fun _ =>
          perform (.emitter id) (.call (integerDeclaration "ext" .undecorated) []) done) fun _ =>
        define id (integerDeclaration "c" .decorated)
          (fun _ => perform (.emitter id) (.call (integerDeclaration "c" .decorated) []) done) fun _ =>
          define id idleDeclaration (fun _ => done (.ok none)) done

/-- The world in which the four functions are defined. -/
@[irreducible]
def circled : World Journal := (circling.run.runFrom (.outset ⟨#[]⟩)).2

/-- The function that is called. -/
def called : EmittedFunction := emittedInteger "a" "m_a" [] (.constant (.i32 1))

/-- The function that calls it. -/
def calling : EmittedFunction :=
  emittedInteger "b" "m_b" [.call "m_a" [] (some ⟨0⟩), .call "ext" [] (some ⟨1⟩)] (.register ⟨1⟩)

/-- The function that calls itself. -/
def returning : EmittedFunction := emittedInteger "c" "m_c" [.call "m_c" [] (some ⟨0⟩)] (.register ⟨0⟩)

/-- The module of the four functions. -/
def circledModule : EmittedModule where
  name := "m"
  functions := [called, calling, returning, {
    name := "d"
    symbol := "m_d"
    parameters := idleDeclaration.parameters
    bindings := [.buffer ⟨0⟩]
    returnType := none
    buffers := [⟨⟨0⟩, .i32, 2, .parameter 0⟩]
    body := []
    result := none }]

/-- The compiled module. -/
def circledCompiled : CompiledModule := ⟨circledModule, outsideTable⟩

theorem compile_circledModule : circledModule.compile outsideTable = .ok circledCompiled := by cbv

theorem bySymbol?_circledModule : circledModule.bySymbol? "m_c" = some returning := by decide +kernel

/-- Calls lead on from neither of the first two functions for long. The first
    calls none, and the second the first. -/
theorem not_recurs_calling : ¬circledModule.Recurs calling := by
  refine EmittedModule.not_recurs_of_falls (· ∈ [called, calling]) (fun function => function.body.length) ?_ (by simp)
  rintro caller callee hmem ⟨symbol, htarget, hfound⟩
  rcases List.mem_pair.mp hmem with rfl | rfl
  · simp [called, emittedInteger, blockTargets] at htarget
  · have htargets : blockTargets calling.body = ["m_a", "ext"] := by decide
    rw [htargets] at htarget
    rcases List.mem_pair.mp htarget with rfl | rfl
    · have hcalled : circledModule.bySymbol? "m_a" = some called := by decide +kernel
      obtain rfl := Option.some.inj (hcalled.symm.trans hfound)
      decide
    · have hnone : circledModule.bySymbol? "ext" = none := by decide +kernel
      rw [hnone] at hfound
      cases hfound

theorem recurs_returning : circledModule.Recurs returning :=
  ⟨returning, .refl, .single ⟨"m_c", by simp [returning, emittedInteger, blockTargets, Instruction.targets],
    bySymbol?_circledModule⟩⟩

/-- The functions outside the module fail plainly in the example. -/
theorem plain_outsideTable (symbol : String) (function : HostFunction) (h : outsideTable.get? symbol = some function)
    (args : List HostArgument) : Fails Failure.Plain (function args) := by
  simp only [outsideTable, SymbolTable.empty, SymbolTable.insert, SymbolTable.get?, Std.HashMap.getElem?_insert] at h
  split at h
  · cases h
    exact Plain.pure _
  · simp at h

/-- The function that calls another one gives a value; the one that calls itself
    does not. -/
theorem invoke_ends_unless_recurs_circled :
    ((Action.finishModule ⟨0⟩).runFrom circled).1 = .ok circledModule ∧
      (∀ depth ≥ 4, (circledCompiled.invoke depth "b" []).runFrom ⟨#[]⟩ = (.ok (some (.i32 3)), ⟨#[]⟩)) ∧
      ∀ depth result, ((circledCompiled.invoke depth "c" []).runFrom ⟨#[]⟩).1 ≠ .ok result := by
  have hcalling : circledModule.lookup? "b" = some calling := by decide +kernel
  have hreturning : circledModule.lookup? "c" = some returning := by decide +kernel
  obtain ⟨hends, -⟩ := EmittedModule.invoke_ends_unless_recurs circledModule outsideTable circledCompiled Failure.Plain
    compile_circledModule (fun _ => id) plain_outsideTable "b"
  obtain ⟨-, hnever⟩ := EmittedModule.invoke_ends_unless_recurs circledModule outsideTable circledCompiled Failure.Plain
    compile_circledModule (fun _ => id) plain_outsideTable "c"
  refine ⟨by decide +kernel, fun depth hdepth => ?_, fun depth result => ?_⟩
  · obtain ⟨outcome, after, -, hrun⟩ := hends (by
      intro function hfound
      obtain rfl := Option.some.inj (hcalling.symm.trans hfound)
      exact not_recurs_calling) [] ⟨#[]⟩
    have hfour : (circledCompiled.invoke 4 "b" []).runFrom ⟨#[]⟩ = (.ok (some (.i32 3)), ⟨#[]⟩) := by cbv
    rw [hrun depth hdepth, ← hrun 4 (by decide), hfour]
  · exact hnever returning hreturning recurs_returning depth [] ⟨#[]⟩ result

/-- Where a call of the function that calls itself fails, so does the call it is
    made in. -/
theorem runFrom_invoke_returning {call : String → HostFunction} {heap after : Heap} {failure : Failure ValueError}
    (h : (call "m_c" []).runFrom heap = (.error failure, after)) :
    (returning.invoke call []).runFrom heap = (.error failure, after) := by
  have henter : (returning.enter []).runFrom heap = (.ok {}, heap) := rfl
  have hcall : (RunM.onHeap (call "m_c" [])).runFrom ⟨{}, heap⟩ = (.error failure, ⟨{}, after⟩) := by
    rw [RunM.onHeap, Stateful.runFrom_focus, h]
  have hbody : (runBlock call returning.body).runFrom ⟨{}, heap⟩ = (.error failure, ⟨{}, after⟩) := by
    apply Stateful.runFrom_bind_of_error
    rw [Instruction.run]
    exact Stateful.runFrom_bind_of_error hcall _
  rw [EmittedFunction.invoke_eq, Stateful.runFrom_bind_of_ok henter, EmittedFunction.runFrom_executeIn,
    EmittedFunction.execute, Stateful.runFrom_bind_of_error hbody]

/-- A function that calls itself is defined and compiled like any other, but its
    call never ends: calls are nested too deeply at whatever depth. A call may
    also come to an overflow, where an argument is bound. -/
theorem returning_endless :
    ((Action.finishModule ⟨0⟩).runFrom circled).1 = .ok circledModule ∧
      circledModule.compile outsideTable = .ok circledCompiled ∧
      (∀ depth, (circledCompiled.invoke depth "c" []).runFrom ⟨#[]⟩ = (.error (.fault .callsTooDeep), ⟨#[]⟩)) ∧
      ∀ depth, (circledCompiled.invoke depth "d" [.buffer ⟨0⟩ (2 ^ 64 - 1)]).runFrom ⟨#[.zeros .i32 2]⟩ =
        (.error (.fault .addOverflow), ⟨#[.zeros .i32 2]⟩) := by
  refine ⟨by decide +kernel, compile_circledModule, fun depth => ?_, fun depth => ?_⟩
  · have hlookup : circledCompiled.program.lookup? "c" = some returning := by decide +kernel
    rw [CompiledModule.invoke, hlookup]
    induction depth with
    | zero => exact runFrom_invoke_returning (Stateful.runFrom_throw _ _)
    | succ depth ih =>
      apply runFrom_invoke_returning
      rw [CompiledModule.call_succ_of_bySymbol? bySymbol?_circledModule]
      exact ih
  · cbv

end Script

end StagedArrays
