import StagedArrays.Proofs.Related
import StagedArrays.Proofs.Script.Arguments

namespace StagedArrays

namespace FunctionDeclaration

variable {function other : FunctionDeclaration} {moduleName : String}

/-- Whether an undecorated name is what a decorated one becomes in a module.
    Then a call of the one finds the other. -/
def Mimics (function other : FunctionDeclaration) (moduleName : String) : Prop :=
  function.decoration = .undecorated ∧ other.decoration = .decorated ∧
    function.name = moduleName ++ "_" ++ other.name

/-- A decorated symbol differs from its name. It is longer. -/
theorem prefixed_ne (moduleName name : String) : moduleName ++ "_" ++ name ≠ name := by
  intro heq
  have hlength := congrArg String.length heq
  simp at hlength

/-- Different declarations share a symbol only if one of them mimics the
    other. -/
theorem symbol_eq_iff (hne : (function.name, function.decoration) ≠ (other.name, other.decoration)) :
    function.symbol moduleName = other.symbol moduleName ↔
      function.Mimics other moduleName ∨ other.Mimics function moduleName := by
  unfold symbol Mimics
  cases hfunction : function.decoration <;> cases hother : other.decoration
  case decorated.undecorated => simp [eq_comm]
  case undecorated.decorated => simp
  all_goals simpa [hfunction, hother] using hne

/-- A declaration is known by its name and its symbol together. The symbol alone
    may come of two declarations. -/
theorem decoration_eq (hname : function.name = other.name)
    (hsymbol : function.symbol moduleName = other.symbol moduleName) : function.decoration = other.decoration := by
  by_contra hne
  rcases (symbol_eq_iff fun heq => hne (Prod.ext_iff.mp heq).2).mp hsymbol with ⟨-, -, hmimics⟩ | ⟨-, -, hmimics⟩
  · exact prefixed_ne moduleName other.name (hmimics.symm.trans hname)
  · exact prefixed_ne moduleName function.name (hmimics.symm.trans hname.symm)

end FunctionDeclaration

namespace EmittedModule

variable {program : EmittedModule} {function : EmittedFunction} {symbol name : String}

/-- A symbol leads to the first function that bears it. Functions after it are
    not reached by it. -/
theorem bySymbol?_eq_some_iff : program.bySymbol? symbol = some function ↔
    ∃ k : Nat, program.functions[k]? = some function ∧ function.symbol = symbol ∧
      ∀ l < k, ∀ earlier, program.functions[l]? = some earlier → earlier.symbol ≠ symbol := by
  rw [bySymbol?, List.find?_eq_some_iff_getElem]
  constructor
  · rintro ⟨hsymbol, k, hlt, rfl, hearlier⟩
    refine ⟨k, List.getElem?_eq_getElem hlt, by simpa using hsymbol, fun l hl earlier hget => ?_⟩
    obtain ⟨hlt', rfl⟩ := List.getElem?_eq_some_iff.mp hget
    simpa using hearlier l hl
  · rintro ⟨k, hget, hsymbol, hearlier⟩
    obtain ⟨hlt, rfl⟩ := List.getElem?_eq_some_iff.mp hget
    exact ⟨by simpa using hsymbol, k, hlt, rfl, fun l hl => by simpa using hearlier l hl _ (List.getElem?_eq_getElem _)⟩

theorem bySymbol?_eq_none_iff :
    program.bySymbol? symbol = none ↔ ∀ function ∈ program.functions, function.symbol ≠ symbol := by
  simp [bySymbol?]

/-- What a symbol leads to is also found by looking it up. -/
theorem lookup?_eq_bySymbol? (hbears : ∃ function ∈ program.functions, function.symbol = symbol) :
    program.lookup? symbol = program.bySymbol? symbol := by
  obtain ⟨function, hmem, hsymbol⟩ := hbears
  cases hfound : program.bySymbol? symbol with
  | none => exact absurd hsymbol (bySymbol?_eq_none_iff.mp hfound function hmem)
  | some found => rw [lookup?, hfound]

/-- A function of a name that no other one has, as its name or as its symbol, is
    found by its name. -/
theorem lookup?_name {k : Nat} (hget : program.functions[k]? = some function)
    (hname : ∀ l other, program.functions[l]? = some other → other.name = function.name → l = k)
    (hsymbol : ∀ l other, program.functions[l]? = some other → other.symbol = function.name → l = k) :
    program.lookup? function.name = some function := by
  have hmem := List.mem_of_getElem? hget
  cases hfound : program.bySymbol? function.name with
  | some found =>
    obtain ⟨l, hfoundGet, hfoundSymbol, -⟩ := bySymbol?_eq_some_iff.mp hfound
    obtain rfl := hsymbol l found hfoundGet hfoundSymbol
    rw [lookup?, hfound, ← hfoundGet, hget]
  | none =>
    rw [lookup?, hfound]
    obtain ⟨found, hfind⟩ : ∃ found, program.functions.find? (fun other => other.name == function.name) = some found :=
      Option.isSome_iff_exists.mp (List.find?_isSome.mpr ⟨function, hmem, beq_self_eq_true _⟩)
    obtain ⟨l, hfoundGet⟩ := List.mem_iff_getElem?.mp (List.mem_of_find?_eq_some hfind)
    obtain rfl := hname l found hfoundGet (by simpa using List.find?_some hfind)
    exact hfind.trans (hfoundGet.symm.trans hget)

end EmittedModule

/-- Hands arguments over to a function, and keeps what it returns. The function
    may come from the module or from outside. -/
def RunM.calling (function : HostFunction) (symbol : String) (arguments : List CallArgument)
    (output : Option RegisterId) : RunM Unit := do
  let handed ← RunM.arguments arguments
  let result ← RunM.onHeap (function handed)
  RunM.keep symbol result output

/-- Whether no function before the one of a position bears its symbol. This is
    so if no two functions bear the same. -/
def EmittedModule.Foremost (program : EmittedModule) (k : Nat) : Prop :=
  ∀ function, program.functions[k]? = some function →
    ∀ l < k, ∀ earlier, program.functions[l]? = some earlier → earlier.symbol ≠ function.symbol

namespace CompiledModule

variable {module : EmittedModule} {table : SymbolTable} {compiled : CompiledModule} {symbol : String}

/-- A call goes to the function of the module that its symbol leads to. -/
theorem run_call_of_bySymbol? {function : EmittedFunction} (hcompile : module.compile table = .ok compiled)
    (hsymbol : module.bySymbol? symbol = some function) (arguments : List CallArgument) (output : Option RegisterId)
    (depth : Nat) : (Instruction.call symbol arguments output).run (compiled.call (depth + 1)) =
      RunM.calling (function.invoke (compiled.call depth)) symbol arguments output := by
  obtain ⟨hprogram, -⟩ := EmittedModule.program_eq_of_compile hcompile
  rw [Instruction.run, RunM.calling]
  refine bind_congr fun handed => ?_
  rw [call, hprogram, hsymbol]

/-- A call leaves the module if no function in it bears the symbol. Then the
    table of the compiled module decides. -/
theorem run_call_of_get? {entry : HostFunction} (hcompile : module.compile table = .ok compiled)
    (hsymbol : module.bySymbol? symbol = none) (hentry : table.get? symbol = some entry)
    (arguments : List CallArgument) (output : Option RegisterId) (depth : Nat) :
    (Instruction.call symbol arguments output).run (compiled.call (depth + 1)) =
      RunM.calling entry symbol arguments output := by
  obtain ⟨hprogram, hsymbols⟩ := EmittedModule.program_eq_of_compile hcompile
  rw [Instruction.run, RunM.calling]
  refine bind_congr fun handed => ?_
  rw [call, hprogram, hsymbols, hsymbol, hentry]

end CompiledModule

namespace FunctionBuilder

variable {index : Nat} {types : List ValueType} {builder after : FunctionBuilder} {values : List Value}

/-- Binding parameters gives no function another name. -/
theorem names_bindParameters (h : bindParameters index types builder = .ok (values, after)) :
    after.name = builder.name ∧ after.symbol = builder.symbol := by
  induction types generalizing index builder values with
  | nil => cases h; exact ⟨rfl, rfl⟩
  | cons type types ih =>
    obtain ⟨value, next, rest, hbinds, hrest, rfl⟩ := exists_binds h
    obtain ⟨hname, hsymbol⟩ := ih hrest
    cases hbinds <;> exact ⟨hname, hsymbol⟩

end FunctionBuilder

/-- Whether a function bears the name and the symbol that it has been declared
    with. -/
def EmittedFunction.NamedAfter (moduleName : String) (function : EmittedFunction) (transcript : Transcript) : Prop :=
  function.name = transcript.declared.name ∧ function.symbol = transcript.declared.symbol moduleName

theorem Emitter.Recorded.namedAfter {emitter : Emitter} {function : EmittedFunction} {transcript : Transcript}
    (h : emitter.Recorded function transcript) : function.NamedAfter emitter.moduleName transcript := by
  obtain ⟨hstart, -, -, -, -⟩ := h
  exact FunctionBuilder.names_bindParameters hstart

/-- A finished module has the name that its emitter was made with. -/
theorem Action.name_of_finishModule {σ : Type} {id : EmitterId} {world after : World σ} {module : EmittedModule}
    (h : (finishModule id).runFrom world = (.ok module, after)) : module.name = (world.emitterAt id).moduleName := by
  rw [finishModule, runFrom_onEmitter_eq, Prod.mk.injEq] at h
  cases hcurrent : (world.emitterAt id).current with
  | some builder => simp [Emitter.finish, Stateful.runFrom_bind, hcurrent] at h
  | none =>
    simp only [Emitter.finish, Stateful.runFrom_bind, Stateful.runFrom_get, hcurrent] at h
    rw [← Except.ok.inj h.1]

namespace World.Documented

variable {id : EmitterId} {world : World Journal}

/-- The functions of a documented emitter bear the names and symbols of their
    declarations, in order. -/
theorem forall₂_namedAfter (h : world.Documented id) :
    List.Forall₂ (EmittedFunction.NamedAfter (world.emitterAt id).moduleName)
      (world.emitterAt id).functions.toList (world.client id).recorded := by
  refine h.imp ?_
  rintro function transcript ⟨origin, -, hrecorded⟩
  rw [← origin.property]
  exact hrecorded.namedAfter

/-- Every call is recorded with the symbol that its declaration has in the
    module. -/
theorem exists_of_call (h : world.Documented id) {caller : Transcript} (hcaller : caller ∈ (world.client id).recorded)
    {declaration : FunctionDeclaration} {args : List Value} {result : Option Value} {code : List Instruction}
    (hmem : .performed (.call declaration args) (.ok result) code ∈ caller.events) :
    ∃ loads arguments output,
      code = loads ++ [.call (declaration.symbol (world.emitterAt id).moduleName) arguments output] := by
  obtain ⟨k, hlt, rfl⟩ := List.mem_iff_getElem.mp hcaller
  obtain ⟨origin, -, hrecorded⟩ := h.get (h.length_eq ▸ hlt) hlt
  obtain ⟨loads, arguments, output, hcode, -⟩ := hrecorded.exists_of_call hmem
  exact ⟨loads, arguments, output, origin.property ▸ hcode⟩

end World.Documented

namespace EmittedModule

variable {module : EmittedModule} {recorded : List Transcript} {k l : Nat} {function : EmittedFunction}

/-- Each function of a module has a note of its definition at the same
    position. -/
theorem exists_namedAfter (hnames : List.Forall₂ (EmittedFunction.NamedAfter module.name) module.functions recorded)
    (hget : module.functions[k]? = some function) :
    ∃ transcript, recorded[k]? = some transcript ∧ function.NamedAfter module.name transcript := by
  have hrel := rel_getElem? hnames k
  rw [hget] at hrel
  generalize recorded[k]? = found at hrel ⊢
  cases hrel with
  | some hnamed => exact ⟨_, rfl, hnamed⟩

/-- Functions of different declarations are different, even if they share a
    symbol. -/
theorem index_eq (hnames : List.Forall₂ (EmittedFunction.NamedAfter module.name) module.functions recorded)
    (hdistinct : (recorded.map fun transcript => (transcript.declared.name, transcript.declared.decoration)).Nodup)
    (hk : module.functions[k]? = some function) (hl : module.functions[l]? = some function) : k = l := by
  obtain ⟨transcript, hgetk, hnamek, hsymbolk⟩ := exists_namedAfter hnames hk
  obtain ⟨other, hgetl, hnamel, hsymboll⟩ := exists_namedAfter hnames hl
  have hname := hnamek.symm.trans hnamel
  have hdecoration := FunctionDeclaration.decoration_eq hname (hsymbolk.symm.trans hsymboll)
  have hlt := (List.getElem?_eq_some_iff.mp hgetk).1
  refine (List.getElem?_inj (by simpa using hlt) hdistinct).mp ?_
  simp [hgetk, hgetl, hname, hdecoration]

/-- The symbol of a function leads to it exactly if no function before it bears
    the symbol. -/
theorem bySymbol?_symbol_eq_some_iff
    (hnames : List.Forall₂ (EmittedFunction.NamedAfter module.name) module.functions recorded)
    (hdistinct : (recorded.map fun transcript => (transcript.declared.name, transcript.declared.decoration)).Nodup)
    (hget : module.functions[k]? = some function) :
    module.bySymbol? function.symbol = some function ↔ module.Foremost k := by
  rw [bySymbol?_eq_some_iff]
  constructor
  · rintro ⟨l, hl, -, hearlier⟩ found hfound
    obtain rfl := index_eq hnames hdistinct hget hl
    obtain rfl : function = found := Option.some.inj (hget.symm.trans hfound)
    exact hearlier
  · exact fun hforemost => ⟨k, hget, rfl, hforemost function hget⟩

end EmittedModule

namespace Script

/-- Declarations that differ in name or decoration have different symbols,
    unless an undecorated name is what a decorated one becomes. A function is
    found by its symbol exactly if none before it bears the same symbol, and by
    a name of its own if that is no other function's symbol. A call executes the
    function of its own declaration if none before that bears the symbol, and
    leaves the module if none in it does. -/
theorem symbols_reach_declarations {α : Type} (script : Script α) (heap : Heap) (id : EmitterId)
    (module : EmittedModule) (final : World Journal) (recorded : List Transcript)
    (hrecorded : recorded = ((script.run.runFrom (.outset heap)).2.client id).recorded)
    (hfinish : (Action.finishModule id).runFrom (script.run.runFrom (.outset heap)).2 = (.ok module, final))
    (hdistinct : (recorded.map fun transcript => (transcript.declared.name, transcript.declared.decoration)).Nodup) :
    List.Forall₂ (EmittedFunction.NamedAfter module.name) module.functions recorded ∧
    (∀ (k l : Nat) (transcript other : Transcript), recorded[k]? = some transcript → recorded[l]? = some other →
      k ≠ l → (transcript.declared.symbol module.name = other.declared.symbol module.name ↔
        transcript.declared.Mimics other.declared module.name ∨ other.declared.Mimics transcript.declared module.name)) ∧
    (∀ (k : Nat) (function : EmittedFunction), module.functions[k]? = some function →
      (module.lookup? function.symbol = some function ↔ module.Foremost k) ∧
      ((∀ (l : Nat) (other : EmittedFunction), module.functions[l]? = some other → other.name = function.name → l = k) →
        (∀ (l : Nat) (other : EmittedFunction), module.functions[l]? = some other → other.symbol = function.name → l = k) →
          module.lookup? function.name = some function)) ∧
    ∀ caller ∈ recorded, ∀ (declaration : FunctionDeclaration) (args : List Value) (result : Option Value)
      (code : List Instruction), .performed (.call declaration args) (.ok result) code ∈ caller.events →
      ∃ loads arguments output, code = loads ++ [.call (declaration.symbol module.name) arguments output] ∧
        ∀ (table : SymbolTable) (compiled : CompiledModule), module.compile table = .ok compiled → ∀ depth : Nat,
          (∀ (k : Nat) (callee : EmittedFunction) (notes : Transcript), module.functions[k]? = some callee →
            recorded[k]? = some notes → notes.declared.name = declaration.name →
            notes.declared.decoration = declaration.decoration → module.Foremost k →
              (Instruction.call (declaration.symbol module.name) arguments output).run (compiled.call (depth + 1)) =
                RunM.calling (callee.invoke (compiled.call depth)) (declaration.symbol module.name) arguments output) ∧
          (declaration.decoration = .undecorated →
            (∀ function ∈ module.functions, function.symbol ≠ declaration.name) →
              ∀ entry, table.get? declaration.name = some entry →
                (Instruction.call (declaration.symbol module.name) arguments output).run (compiled.call (depth + 1)) =
                  RunM.calling entry (declaration.symbol module.name) arguments output) := by
  subst hrecorded
  have hdocumented := World.documented_run script heap id
  have hnames := hdocumented.forall₂_namedAfter
  rw [← Action.functions_of_finishModule hfinish, ← Action.name_of_finishModule hfinish] at hnames
  refine ⟨hnames, fun k l transcript other hk hl hne => ?_, fun k function hget => ⟨?_, ?_⟩,
    fun caller hcaller declaration args result code hcall => ?_⟩
  · refine FunctionDeclaration.symbol_eq_iff fun heq => hne ?_
    have hlt := (List.getElem?_eq_some_iff.mp hk).1
    refine (List.getElem?_inj (by simpa using hlt) hdistinct).mp ?_
    simpa [hk, hl] using heq
  · rw [EmittedModule.lookup?_eq_bySymbol? ⟨function, List.mem_of_getElem? hget, rfl⟩]
    exact EmittedModule.bySymbol?_symbol_eq_some_iff hnames hdistinct hget
  · exact EmittedModule.lookup?_name hget
  · obtain ⟨loads, arguments, output, rfl⟩ := hdocumented.exists_of_call hcaller hcall
    rw [← Action.name_of_finishModule hfinish]
    refine ⟨loads, arguments, output, rfl, fun table compiled hcompile depth =>
      ⟨fun k callee notes hcallee hnotes hname hdecoration hforemost => ?_, fun hundecorated hnone entry hentry => ?_⟩⟩
    · obtain ⟨found, hfound, -, hsymbol⟩ := EmittedModule.exists_namedAfter hnames hcallee
      obtain rfl : found = notes := Option.some.inj (hfound.symm.trans hnotes)
      have hsame : declaration.symbol module.name = callee.symbol := by
        rw [hsymbol, FunctionDeclaration.symbol, FunctionDeclaration.symbol, hname, hdecoration]
      rw [hsame]
      exact CompiledModule.run_call_of_bySymbol? hcompile
        ((EmittedModule.bySymbol?_symbol_eq_some_iff hnames hdistinct hcallee).mpr hforemost) arguments output depth
    · have hsymbol : declaration.symbol module.name = declaration.name := by
        rw [FunctionDeclaration.symbol, hundecorated]
      rw [hsymbol]
      exact CompiledModule.run_call_of_get? hcompile (EmittedModule.bySymbol?_eq_none_iff.mpr hnone) hentry
        arguments output depth

/-- A function without parameters that returns an integer. -/
def integerDeclaration (name : String) (decoration : Decoration) : FunctionDeclaration where
  name := name
  returnType := some (.scalar .i32)
  decoration := decoration

/-- Defines a decorated function and an undecorated one of a given name, and a
    third that calls the undecorated one and a function from outside. -/
def relaying (name : String) : Script Unit :=
  newEmitter "m" {} fun id =>
    define id (integerDeclaration "a" .decorated) (fun _ => done (.ok (some (.constant (.i32 1))))) fun _ =>
      define id (integerDeclaration name .undecorated) (fun _ => done (.ok (some (.constant (.i32 2))))) fun _ =>
        define id (integerDeclaration "b" .decorated)
          (fun _ => perform (.emitter id) (.call (integerDeclaration name .undecorated) []) fun result =>
            perform (.emitter id) (.call (integerDeclaration "ext" .undecorated) []) fun _ => done result) done

/-- The world in which the three functions are defined. -/
@[irreducible]
def relayed (name : String) : World Journal := ((relaying name).run.runFrom (.outset ⟨#[]⟩)).2

/-- A function that returns an integer. -/
def emittedInteger (name symbol : String) (body : List Instruction) (result : Operand) : EmittedFunction where
  name := name
  symbol := symbol
  parameters := []
  bindings := []
  returnType := some (.scalar .i32)
  buffers := []
  body := body
  result := some result

/-- The module of the three functions. -/
def relayModule (name : String) : EmittedModule where
  name := "m"
  functions := [emittedInteger "a" "m_a" [] (.constant (.i32 1)), emittedInteger name name [] (.constant (.i32 2)),
    emittedInteger "b" "m_b" [.call name [] (some ⟨0⟩), .call "ext" [] (some ⟨1⟩)] (.register ⟨0⟩)]

/-- A function from outside. -/
def outsideTable : SymbolTable := SymbolTable.empty.insert "ext" fun _ => return some (.i32 3)

/-- What a recorded call was written for, and what is recorded. -/
def targetOf? : EmitterEvent → Option (String × Decoration × List Instruction)
  | .performed (.call declaration _) (.ok _) code => some (declaration.name, declaration.decoration, code)
  | _ => none

/-- A recorded target belongs to a call that was performed. The call has
    succeeded. -/
theorem exists_of_targetOf? {events : List EmitterEvent} {name : String} {decoration : Decoration}
    {code : List Instruction} (h : (name, decoration, code) ∈ events.filterMap targetOf?) :
    ∃ declaration args result, declaration.name = name ∧ declaration.decoration = decoration ∧
      .performed (.call declaration args) (.ok result) code ∈ events := by
  obtain ⟨event, hmem, htarget⟩ := List.mem_filterMap.mp h
  unfold targetOf? at htarget
  split at htarget
  · cases htarget
    exact ⟨_, _, _, rfl, rfl, hmem⟩
  · cases htarget

/-- Where no name gets in the way, both calls go where they should. One goes to
    a function of the module, and the other out of it. -/
theorem symbols_reach_declarations_relaying :
    ((Action.finishModule ⟨0⟩).runFrom (relayed "c")).1 = .ok (relayModule "c") ∧
      (relayModule "c").lookup? "a" = (relayModule "c").functions[0]? ∧
      (Instruction.call "c" [] (some ⟨0⟩)).run ((⟨relayModule "c", outsideTable⟩ : CompiledModule).call 1) =
        RunM.calling ((emittedInteger "c" "c" [] (.constant (.i32 2))).invoke
          ((⟨relayModule "c", outsideTable⟩ : CompiledModule).call 0)) "c" [] (some ⟨0⟩) ∧
      (Instruction.call "ext" [] (some ⟨1⟩)).run ((⟨relayModule "c", outsideTable⟩ : CompiledModule).call 1) =
        RunM.calling (fun _ => return some (.i32 3)) "ext" [] (some ⟨1⟩) := by
  have hmodule : ((Action.finishModule ⟨0⟩).runFrom (relayed "c")).1 = .ok (relayModule "c") := by decide +kernel
  have hdeclared : (((relayed "c").client ⟨0⟩).recorded.map fun transcript =>
      (transcript.declared.name, transcript.declared.decoration)) =
        [("a", .decorated), ("c", .undecorated), ("b", .decorated)] := by decide +kernel
  have htargets : ((relayed "c").client ⟨0⟩).recorded.map (fun transcript => transcript.events.filterMap targetOf?) =
      [[], [], [("c", .undecorated, [.call "c" [] (some ⟨0⟩)]), ("ext", .undecorated, [.call "ext" [] (some ⟨1⟩)])]] := by
    decide +kernel
  have hcompile : (relayModule "c").compile outsideTable = .ok ⟨relayModule "c", outsideTable⟩ := by cbv
  have hfinish : (Action.finishModule ⟨0⟩).runFrom (relayed "c") = (.ok (relayModule "c"), _) :=
    Prod.ext_iff.mpr ⟨hmodule, rfl⟩
  obtain ⟨first, second, third, hrecorded⟩ :=
    List.length_eq_three.mp (by simpa using congrArg List.length hdeclared)
  have hdistinct : (((relayed "c").client ⟨0⟩).recorded.map fun transcript =>
      (transcript.declared.name, transcript.declared.decoration)).Nodup := by
    rw [hdeclared]
    decide
  have hcaller : third ∈ ((relayed "c").client ⟨0⟩).recorded := by simp [hrecorded]
  have hnotes : ((relayed "c").client ⟨0⟩).recorded[1]? = some second := by simp [hrecorded]
  rw [hrecorded] at hdeclared htargets
  simp only [List.map_cons, List.map_nil, List.cons.injEq, and_true, Prod.mk.injEq] at hdeclared htargets
  obtain ⟨-, ⟨hname, hdecoration⟩, -⟩ := hdeclared
  have hinside : ("c", Decoration.undecorated, [Instruction.call "c" [] (some ⟨0⟩)]) ∈
      third.events.filterMap targetOf? := by rw [htargets.2.2]; exact .head _
  have houtside : ("ext", Decoration.undecorated, [Instruction.call "ext" [] (some ⟨1⟩)]) ∈
      third.events.filterMap targetOf? := by rw [htargets.2.2]; exact .tail _ (.head _)
  obtain ⟨inside, args, result, hinsideName, hinsideDecoration, hinsideCall⟩ := exists_of_targetOf? hinside
  obtain ⟨outside, args', result', houtsideName, houtsideDecoration, houtsideCall⟩ := exists_of_targetOf? houtside
  have hreached := hfinish
  rw [relayed] at hreached hdistinct hcaller hnotes
  obtain ⟨-, -, hlookups, hcalls⟩ :=
    symbols_reach_declarations (relaying "c") ⟨#[]⟩ ⟨0⟩ (relayModule "c") _ _ rfl hreached hdistinct
  refine ⟨hmodule, ?_, ?_, ?_⟩
  · refine (hlookups 0 _ rfl).2 (fun l other hget hsame => ?_) fun l other hget hsame => ?_
    all_goals
      obtain ⟨hlt, rfl⟩ := List.getElem?_eq_some_iff.mp hget
      rcases l with _ | _ | _ | l
      · rfl
      · exact absurd hsame (by simp [relayModule, emittedInteger])
      · exact absurd hsame (by simp [relayModule, emittedInteger])
      · exact absurd hlt (by simp [relayModule])
  · obtain ⟨loads, arguments, output, hcode, hrun⟩ := hcalls third hcaller inside args result _ hinsideCall
    obtain ⟨hrun, -⟩ := hrun outsideTable _ hcompile 0
    have hforemost : (relayModule "c").Foremost 1 := by
      rintro function ⟨⟩ l hlt earlier hget
      obtain rfl : l = 0 := by omega
      cases hget
      decide
    have hreach := hrun 1 _ second rfl hnotes (hname.trans hinsideName.symm) (hdecoration.trans hinsideDecoration.symm)
      hforemost
    obtain ⟨-, hlast⟩ := List.append_inj' (show [] ++ [_] = _ from hcode) rfl
    obtain ⟨hsymbol, rfl, rfl⟩ := Instruction.call.inj (List.singleton_inj.mp hlast)
    rwa [← hsymbol] at hreach
  · obtain ⟨loads, arguments, output, hcode, hrun⟩ := hcalls third hcaller outside args' result' _ houtsideCall
    obtain ⟨-, hrun⟩ := hrun outsideTable _ hcompile 0
    have hentry : outsideTable.get? outside.name = some fun _ => return some (.i32 3) := by
      rw [houtsideName]
      cbv
    have hreach := hrun houtsideDecoration (by rw [houtsideName]; decide) _ hentry
    obtain ⟨-, hlast⟩ := List.append_inj' (show [] ++ [_] = _ from hcode) rfl
    obtain ⟨hsymbol, rfl, rfl⟩ := Instruction.call.inj (List.singleton_inj.mp hlast)
    rwa [← hsymbol] at hreach

/-- An undecorated name that is another function's symbol leads to the other
    function, in a call as well. -/
theorem undecorated_displaced :
    ((Action.finishModule ⟨0⟩).runFrom (relayed "m_a")).1 = .ok (relayModule "m_a") ∧
      (((relayed "m_a").client ⟨0⟩).recorded.map fun transcript =>
        (transcript.declared.name, transcript.declared.decoration)) =
          [("a", .decorated), ("m_a", .undecorated), ("b", .decorated)] ∧
      (relayModule "m_a").functions.map (·.symbol) = ["m_a", "m_a", "m_b"] ∧
      (relayModule "m_a").lookup? "m_a" = (relayModule "m_a").functions[0]? ∧
      ((⟨relayModule "m_a", outsideTable⟩ : CompiledModule).invoke 2 "b" []).runFrom ⟨#[]⟩ =
        (.ok (some (.i32 1)), ⟨#[]⟩) := by
  refine ⟨by decide +kernel, by decide +kernel, by decide, by decide, ?_⟩
  cbv

end Script

end StagedArrays
