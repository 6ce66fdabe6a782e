import StagedArrays.Proofs.Script.Recursion

namespace StagedArrays

open Stateful (Fails)

/-- Whether an instruction calls a symbol, or one inside it does under however
    many loops. -/
inductive Instruction.Names (symbol : String) : Instruction → Prop where
  | call (args : List CallArgument) (output : Option RegisterId) : Names symbol (.call symbol args output)
  | loop {instruction : Instruction} {body : List Instruction} (induction : RegisterId) (extent : Nat)
      (hmem : instruction ∈ body) (h : Names symbol instruction) : Names symbol (.loop induction extent body)

mutual

/-- An instruction names a symbol if it is listed among its symbols. This
    connects occurrences with the list that is checked. -/
theorem Instruction.names_iff_mem_symbols {symbol : String} :
    (instruction : Instruction) → (instruction.Names symbol ↔ symbol ∈ instruction.symbols)
  | .call callee args output => by
    rw [Instruction.symbols, List.mem_singleton]
    constructor
    · rintro ⟨⟩
      rfl
    · rintro rfl
      exact .call args output
  | .loop induction extent body => by
    rw [Instruction.symbols, ← exists_names_iff_mem_blockSymbols body]
    constructor
    · rintro (_ | ⟨_, _, hmem, h⟩)
      exact ⟨_, hmem, h⟩
    · rintro ⟨instruction, hmem, h⟩
      exact .loop induction extent hmem h
  | .binary .. | .load .. | .store .. => by
    rw [Instruction.symbols]
    exact ⟨nofun, nofun⟩

/-- The symbols of a block are those that its instructions name. By recursion on
    the code, together with the instructions and their loops. -/
theorem exists_names_iff_mem_blockSymbols {symbol : String} :
    (block : List Instruction) → ((∃ instruction ∈ block, instruction.Names symbol) ↔ symbol ∈ blockSymbols block)
  | [] => by simp [blockSymbols]
  | instruction :: rest => by
    rw [blockSymbols, List.mem_append, ← instruction.names_iff_mem_symbols, ← exists_names_iff_mem_blockSymbols rest]
    exact List.exists_mem_cons_iff ..

end

/-- Whether a call of a symbol stands anywhere in a function, whether or not it
    is ever executed. -/
def EmittedFunction.Names (function : EmittedFunction) (symbol : String) : Prop :=
  ∃ instruction ∈ function.body, instruction.Names symbol

/-- The referenced symbols of a function are those that it names. This is the
    list that compiling goes through. -/
theorem EmittedFunction.mem_referencedSymbols_iff {function : EmittedFunction} {symbol : String} :
    symbol ∈ function.referencedSymbols ↔ function.Names symbol := by
  rw [referencedSymbols, List.mem_eraseDups]
  exact (exists_names_iff_mem_blockSymbols function.body).symm

/-- Whether a function never reports that a symbol leads nowhere, whatever it is
    called with. -/
def HostFunction.Links (function : HostFunction) : Prop :=
  ∀ args heap symbol, ((function args).runFrom heap).1 ≠ .error (.error (.unresolvedSymbol symbol))

/-- A host function links if it never reports a missing symbol, whatever its
    arguments are. -/
theorem HostFunction.links_iff_fails {function : HostFunction} :
    function.Links ↔ ∀ args, Fails (fun failure => ∀ symbol, failure ≠ .error (.unresolvedSymbol symbol)) (function args) := by
  constructor
  · rintro h args heap _ hfails symbol rfl
    exact h args heap symbol hfails
  · exact fun h args heap symbol hfails => h args heap _ hfails symbol rfl

/-- A function links if what it calls does. The code itself has no other way of
    reporting a symbol. -/
theorem EmittedFunction.links_invoke (function : EmittedFunction) {call : String → HostFunction}
    (h : ∀ symbol, function.Names symbol → (call symbol).Links) : HostFunction.Links (function.invoke call) := by
  refine HostFunction.links_iff_fails.mpr (function.fails_invoke ?_ fun symbol hmem => ?_)
  · rintro _ hown symbol rfl
    exact hown trivial
  · have hnames := (exists_names_iff_mem_blockSymbols function.body).mpr (blockTargets_subset function.body hmem)
    exact HostFunction.links_iff_fails.mp (h symbol hnames)

namespace EmittedModule

/-- Whether a symbol is neither one of the module's functions nor in the
    table. -/
def Lacks (module : EmittedModule) (table : SymbolTable) (symbol : String) : Prop :=
  (∀ function ∈ module.functions, function.symbol ≠ symbol) ∧ table.get? symbol = none

variable {module : EmittedModule} {table : SymbolTable} {symbol : String}

/-- Whether a symbol is lacking is found out by looking it up twice. First the
    module is asked, and then the table. -/
theorem lacks_iff : module.Lacks table symbol ↔
    ((module.bySymbol? symbol).isNone && !table.contains symbol) = true := by
  rw [Lacks, ← bySymbol?_eq_none_iff]
  simp [SymbolTable.contains]

/-- What the check goes through is what the functions name. The check goes by a
    list, and the statement by occurrence. -/
theorem mem_referenced_iff : symbol ∈ module.functions.flatMap EmittedFunction.referencedSymbols ↔
    ∃ function ∈ module.functions, function.Names symbol := by
  simp only [List.mem_flatMap, EmittedFunction.mem_referencedSymbols_iff]

/-- The check finds fault with a symbol that a function names and nothing
    resolves, if there is one. -/
theorem unresolved?_eq_none_iff :
    module.unresolved? table (module.functions.flatMap EmittedFunction.referencedSymbols) = none ↔
      ∀ function ∈ module.functions, ∀ symbol, function.Names symbol → ¬module.Lacks table symbol := by
  unfold unresolved?
  simp only [List.find?_eq_none, ← lacks_iff, mem_referenced_iff]
  exact ⟨fun h function hmem symbol hnames => h symbol ⟨function, hmem, hnames⟩,
    fun h symbol ⟨function, hmem, hnames⟩ => h function hmem symbol hnames⟩

/-- A symbol that is reported leads neither into the module nor out of it. It is
    one of those that were looked at. -/
theorem lacks_of_unresolved? {symbols : List String} (h : module.unresolved? table symbols = some symbol) :
    symbol ∈ symbols ∧ module.Lacks table symbol := by
  unfold unresolved? at h
  have hmissing := List.find?_some h
  exact ⟨List.mem_of_find?_eq_some h, lacks_iff.mpr hmissing⟩

/-- A module that does not compile names a symbol that neither it nor the table
    has; the error is about that symbol. -/
theorem exists_of_compile_eq_error {cause : ValueError} (h : module.compile table = .error cause) :
    ∃ symbol, cause = .unresolvedSymbol symbol ∧ module.Lacks table symbol ∧
      ∃ function ∈ module.functions, function.Names symbol := by
  unfold compile at h
  split at h
  · next symbol hfound =>
    cases h
    obtain ⟨hmem, hlacks⟩ := lacks_of_unresolved? hfound
    exact ⟨symbol, rfl, hlacks, mem_referenced_iff.mp hmem⟩
  · cases h

/-- A module compiles exactly if every symbol that one of its functions names,
    at any depth of loops, is defined in it or in the table. -/
theorem compile_isOk_iff : (∃ compiled, module.compile table = .ok compiled) ↔
    ∀ function ∈ module.functions, ∀ symbol, function.Names symbol → ¬module.Lacks table symbol := by
  rw [← unresolved?_eq_none_iff]
  unfold compile
  constructor
  · rintro ⟨compiled, h⟩
    split at h
    · cases h
    · assumption
  · intro hnone
    rw [hnone]
    exact ⟨_, rfl⟩

/-- A function is found by its name and by its symbol, or another one is. A name
    never leads nowhere once a function has it. -/
theorem exists_lookup? {function : EmittedFunction} {name : String} (hmem : function ∈ module.functions)
    (hname : name = function.name ∨ name = function.symbol) : ∃ found, module.lookup? name = some found := by
  unfold lookup?
  split
  · exact ⟨_, rfl⟩
  · next hnone =>
    rcases hname with rfl | rfl
    · exact Option.isSome_iff_exists.mp (List.find?_isSome.mpr ⟨function, hmem, beq_self_eq_true _⟩)
    · exact absurd rfl (bySymbol?_eq_none_iff.mp hnone function hmem)

end EmittedModule

namespace CompiledModule

variable {compiled : CompiledModule}

/-- A call of a symbol that is not missing links, at whatever depth, if the
    module lacks none that it names. -/
theorem links_call (hhost : ∀ symbol function, compiled.symbols.get? symbol = some function → HostFunction.Links function)
    (hresolved : ∀ function ∈ compiled.program.functions, ∀ symbol, function.Names symbol →
      ¬compiled.program.Lacks compiled.symbols symbol) (depth : Nat) :
    ∀ symbol, ¬compiled.program.Lacks compiled.symbols symbol → HostFunction.Links (compiled.call depth symbol) := by
  -- A call takes one off the depth, and leads to a function of the module or out of it.
  induction depth with
  | zero => exact fun _ _ _ _ _ hfails => nomatch hfails
  | succ depth ih =>
    intro symbol hsymbol
    cases hfound : compiled.program.bySymbol? symbol with
    | some function =>
      rw [call_succ_of_bySymbol? hfound]
      have hmem : function ∈ compiled.program.functions := List.mem_of_find?_eq_some hfound
      exact function.links_invoke fun target hnames => ih target (hresolved function hmem target hnames)
    | none =>
      cases hhosted : compiled.symbols.get? symbol with
      | some function =>
        intro args
        rw [call, hfound, hhosted]
        exact hhost symbol function hhosted args
      | none => exact absurd ⟨EmittedModule.bySymbol?_eq_none_iff.mp hfound, hhosted⟩ hsymbol

end CompiledModule

/-- Compiling fails for an unresolved symbol exactly if a function names one
    that neither the module nor the table has, under whatever loops, and reports
    such a one. Once it has succeeded, no function of the module reports one at
    any depth of calls, as long as the functions of the table do not. -/
theorem EmittedModule.compile_resolves (module : EmittedModule) (table : SymbolTable) :
    ((∃ symbol, module.compile table = .error (.unresolvedSymbol symbol)) ↔
        ∃ function ∈ module.functions, ∃ symbol, function.Names symbol ∧ module.Lacks table symbol) ∧
      (∀ cause, module.compile table = .error cause → ∃ symbol, cause = .unresolvedSymbol symbol ∧
        module.Lacks table symbol ∧ ∃ function ∈ module.functions, function.Names symbol) ∧
      ∀ compiled, module.compile table = .ok compiled →
        (∀ symbol function, table.get? symbol = some function → HostFunction.Links function) →
        ∀ function ∈ module.functions, ∀ name, name = function.name ∨ name = function.symbol →
          ∀ depth, HostFunction.Links (compiled.invoke depth name) := by
  refine ⟨⟨?_, ?_⟩, fun cause => exists_of_compile_eq_error, fun compiled hcompile hhost function hmem name hname depth => ?_⟩
  · rintro ⟨symbol, h⟩
    obtain ⟨_, -, hlacks, function, hmem, hnames⟩ := exists_of_compile_eq_error h
    exact ⟨function, hmem, _, hnames, hlacks⟩
  · rintro ⟨function, hmem, symbol, hnames, hlacks⟩
    cases hcompile : module.compile table with
    | error cause =>
      obtain ⟨found, rfl, -⟩ := exists_of_compile_eq_error hcompile
      exact ⟨found, rfl⟩
    | ok compiled => exact absurd hlacks (compile_isOk_iff.mp ⟨compiled, hcompile⟩ function hmem symbol hnames)
  · have hresolved := compile_isOk_iff.mp ⟨compiled, hcompile⟩
    obtain ⟨rfl, rfl⟩ := program_eq_of_compile hcompile
    obtain ⟨found, hfound⟩ := exists_lookup? hmem hname
    intro args
    rw [CompiledModule.invoke, hfound]
    exact found.links_invoke (fun symbol hnames =>
      CompiledModule.links_call hhost hresolved depth symbol (hresolved found (mem_of_lookup? hfound) symbol hnames)) args

namespace Script

/-- A function that calls another one under two loops, which calls a function
    from outside. -/
def linkedModule : EmittedModule where
  name := "m"
  functions := [
    emittedInteger "a" "m_a" [.loop ⟨0⟩ 2 [.loop ⟨1⟩ 1 [.call "m_b" [] (some ⟨2⟩)]]] (.register ⟨2⟩),
    emittedInteger "b" "m_b" [.call "ext" [] (some ⟨0⟩)] (.register ⟨0⟩)]

/-- The functions of the example's table report no missing symbols. -/
theorem links_outsideTable (symbol : String) (function : HostFunction) (h : outsideTable.get? symbol = some function) :
    HostFunction.Links function := by
  simp only [outsideTable, SymbolTable.empty, SymbolTable.insert, SymbolTable.get?, Std.HashMap.getElem?_insert] at h
  split at h
  · cases h
    intro _ _ _ hfails
    cases hfails
  · simp at h

/-- With the function from outside the chain of calls ends in a value; without
    it compiling reports the symbol. -/
theorem compile_resolves_linkedModule :
    HostFunction.Links ((⟨linkedModule, outsideTable⟩ : CompiledModule).invoke 3 "a") ∧
      (((⟨linkedModule, outsideTable⟩ : CompiledModule).invoke 3 "a" []).runFrom ⟨#[]⟩).1 = .ok (some (.i32 3)) ∧
      linkedModule.compile .empty = .error (.unresolvedSymbol "ext") ∧
      ∃ function ∈ linkedModule.functions, ∃ symbol, function.Names symbol ∧ linkedModule.Lacks .empty symbol := by
  obtain ⟨-, -, hlinks⟩ := EmittedModule.compile_resolves linkedModule outsideTable
  obtain ⟨hiff, -, -⟩ := EmittedModule.compile_resolves linkedModule .empty
  have hcompile : linkedModule.compile outsideTable = .ok ⟨linkedModule, outsideTable⟩ := by cbv
  have hempty : linkedModule.compile .empty = .error (.unresolvedSymbol "ext") := by cbv
  exact ⟨hlinks _ hcompile links_outsideTable _ (.head _) "a" (.inl rfl) 3, by cbv, hempty, hiff.mp ⟨_, hempty⟩⟩

end Script

end StagedArrays
