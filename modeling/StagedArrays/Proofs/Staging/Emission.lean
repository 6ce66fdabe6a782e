import StagedArrays.Proofs.Emission.Bulk
import StagedArrays.Proofs.Staging.Evaluation

namespace StagedArrays

namespace Graph

/-- Runs a graph with other literals, and copies each result to the value that
    comes after them for it. The client keeps the number of slots made. -/
def record (graph : Graph Node) (maxSlots : Nat) (parameters : List Value) : Action Nat (Option Value) := do
  let (results, slots) ← (graph.withLiterals parameters).evaluate maxSlots
  deliver results (graph.retained.zip (parameters.drop graph.literals.length))
  modify fun world => world.withClient slots
  return none

/-- Records a graph as the only function of a new module. Its parameters stand
    for the literals, and after them for the outputs. -/
def define (graph : Graph Node) (maxSlots : Nat) (moduleName : String) (config : EmitterConfig)
    (function : FunctionDeclaration) : Action Nat EmitterId := do
  let id ← Action.newEmitter moduleName config
  Action.defineFunction id function (graph.record maxSlots)
  return id

/-- Host storage for what a graph keeps: for each result a buffer of its own. -/
structure Outlets (graph : Graph Node) (heap : Heap) (outputs : List Value) : Prop where
  length_eq : outputs.length = graph.retained.length
  input : ∀ output ∈ outputs, Program.Input heap output
  signed : ∀ output ∈ outputs, Word.Signed output.layout.extents.prod
  pairwise : outputs.Pairwise Value.Apart
  apart : ∀ literal ∈ graph.literals, ∀ output ∈ outputs, literal.Apart output

/-- A graph, and the same graph under an emitter with parameters in the place of
    literals. -/
def staging {σ τ : Type} (graph : Graph Node) (outputs parameters : List Value) (id : EmitterId) (executing : World σ)
    (recording : World τ) : Staging σ τ where
  id
  executing
  recording
  bindings := (graph.literals ++ outputs).zip parameters
  barred := outputs.filterMap fun output => output.host?.map Prod.fst

section Start

variable {σ τ : Type} {graph : Graph Node} {outputs parameters : List Value} {id : EmitterId} {executing : World σ}
  {recording : World τ}

/-- A parameter stands for each literal and for each output. -/
theorem bound_parameters
    (h : List.Forall₂ (fun value parameter => parameter.dtype = value.dtype ∧ parameter.layout = value.layout)
      (graph.literals ++ outputs) parameters) :
    List.Forall₂ ((graph.staging outputs parameters id executing recording).bindings.Bound) (graph.literals ++ outputs)
      parameters :=
  (forall₂_and_mem_zip h).imp fun _ _ hpair => ⟨hpair.2, hpair.1.1, hpair.1.2⟩

/-- Storage that is apart from all outputs is not among the buffers that only
    the delivery may write. -/
theorem notMem_barred {value : Value} (h : ∀ output ∈ outputs, value.Apart output) {ref : HostRef} {offset : Nat}
    (hdata : value.data = .host ref offset) : ref ∉ (graph.staging outputs parameters id executing recording).barred := by
  intro hmem
  obtain ⟨output, houtput, href⟩ := List.mem_filterMap.mp hmem
  refine h output houtput ?_
  rw [href, Value.host?_eq_some.mpr hdata]
  rfl

/-- A value in a buffer that is not barred is apart from all outputs. The
    buffers of the outputs are barred. -/
theorem apart_of_notMem_barred {value output : Value} {ref : HostRef} {offset : Nat} (hdata : value.data = .host ref offset)
    (hspared : ref ∉ (graph.staging outputs parameters id executing recording).barred) (hmem : output ∈ outputs) :
    value.Apart output := by
  intro hsame
  rw [Value.host?_eq_some.mpr hdata] at hsame
  exact hspared (List.mem_filterMap.mpr ⟨output, hmem, hsame.symm⟩)

theorem Outlets.pairwise_zip (h : graph.Outlets executing.heap outputs) :
    (graph.retained.zip outputs).Pairwise fun target other => target.2.Apart other.2 := by
  rw [← List.pairwise_map, List.map_snd_zip (Nat.le_of_eq h.length_eq)]
  exact h.pairwise

/-- Under an emitter, the parameters that come first stand for the literals, the
    others for the outputs. -/
theorem binds_parameters (houtlets : graph.Outlets executing.heap outputs)
    (h : List.Forall₂ ((graph.staging outputs parameters id executing recording).bindings.Bound) (graph.literals ++ outputs)
      parameters) :
    List.Forall₂ ((graph.staging outputs parameters id executing recording).Binds
        (graph.staging outputs parameters id executing recording).bindings) graph.literals
        (parameters.take graph.literals.length) ∧
      List.Forall₂ ((graph.staging outputs parameters id executing recording).bindings.Bound) outputs
        (parameters.drop graph.literals.length) := by
  have htake := List.forall₂_take graph.literals.length h
  have hdrop := List.forall₂_drop graph.literals.length h
  rw [List.take_left] at htake
  rw [List.drop_left] at hdrop
  refine ⟨(forall₂_and_mem_zip htake).imp fun value parameter hpair => ⟨hpair.1, fun ref offset hdata => ?_⟩, hdrop⟩
  exact notMem_barred (houtlets.apart value (List.of_mem_zip hpair.2).1) hdata

variable {maxSlots : Nat}

/-- A graph and its double under an emitter start in step. -/
theorem runs_start (hidle : graph.idle = graph) (hunmanaged : graph.Unmanaged)
    (hactive : executing.contexts.head? = some .compute) (hactive' : recording.contexts.head? = some (.emitter id))
    (hinput : ∀ value ∈ graph.literals, Program.Input executing.heap value) (houtlets : graph.Outlets executing.heap outputs)
    (h : List.Forall₂ ((graph.staging outputs parameters id executing recording).bindings.Bound) (graph.literals ++ outputs)
      parameters) :
    (graph.staging outputs parameters id executing recording).Runs graph
      (graph.staging outputs parameters id executing recording).bindings ⟨graph, { storage := ⟨{ maxSlots }, executing⟩ }⟩
      ⟨graph.withLiterals parameters, { storage := ⟨{ maxSlots }, recording⟩ }⟩ := by
  have hkept : graph.outputs = [] := congrArg Graph.outputs hidle.symm
  have hall : ∀ value ∈ graph.literals ++ outputs, Program.Input executing.heap value :=
    List.forall_mem_append.mpr ⟨hinput, houtlets.input⟩
  refine ⟨⟨⟨hactive, hactive', rfl, fun pair hmem => ?_, fun ref hmem => ?_, [], rfl, rfl⟩, rfl, .nil⟩,
    ⟨?_, ?_, rfl, ?_, ?_⟩⟩
  · exact hall pair.1 (List.of_mem_zip hmem).1
  · obtain ⟨output, houtput, href⟩ := List.mem_filterMap.mp hmem
    obtain ⟨⟨found, offset⟩, hhost, rfl⟩ := Option.map_eq_some_iff.mp href
    exact (houtlets.input output houtput).fits.known found offset (Value.host?_eq_some.mp hhost)
  · have hentries := Staging.forall₂_withLiterals hidle hunmanaged (binds_parameters houtlets h).1
      (parameters.drop graph.literals.length)
    rw [List.take_append_drop] at hentries
    exact hentries
  · rw [withLiterals, hkept]
    exact .nil
  · rw [hkept]
    exact .nil
  · rw [hkept]
    exact fun _ hmem => (List.not_mem_nil hmem).elim

end Start

section Delivered

variable {heap final other : Heap} {results : List (NodeId × Variable)} {id : NodeId} {output : Value} {result : Variable}

/-- An output to which the elements of a result are copied holds the same
    tensor. -/
theorem Takes.exists_holds (h : Takes heap results (id, output)) (hresult : results.lookup id = some result)
    (hcopied : ∀ coordinates ∈ Layout.rowMajor output.layout.extents,
      output.peek final coordinates = result.value.peek heap coordinates) :
    ∃ tensor, result.Holds heap tensor ∧ (Variable.unmanaged output).Holds final tensor := by
  obtain ⟨hinput, hdtype, hextents⟩ := h.fits result hresult
  have hsound := hinput.fits.sound
  obtain ⟨ref, offset, hdata, -⟩ := hinput
  obtain ⟨xs, hxs⟩ : ∃ xs, result.elements heap = .ok xs := by
    refine exists_mapM fun coordinates hmem => ?_
    have hmem' : coordinates ∈ Layout.rowMajor output.layout.extents := hextents ▸ hmem
    obtain ⟨x, hx, -⟩ := hsound.exists_peek hdata (Layout.indices_of_signed_prod h.signed hmem') (Layout.mem_rowMajor.mp hmem)
    exact ⟨x, hx⟩
  refine ⟨_, Variable.holds_elements hxs, hdtype.symm, hextents.symm, ?_⟩
  rw [← hxs, Variable.elements, Variable.elements, show result.layout.extents = output.layout.extents from hextents]
  exact mapM_congr hcopied

end Delivered

section Recorded

variable {graph : Graph Node} {maxSlots slots : Nat} {moduleName : String} {config : EmitterConfig}
  {function : FunctionDeclaration} {recording recorded : World Nat} {id : EmitterId}

/-- A graph that is recorded has been run, and has delivered its results. -/
theorem exists_of_define (h : (graph.define maxSlots moduleName config function).runFrom recording = (.ok id, recorded)) :
    ∃ parameters started results slots evaluated delivered operand ended, id = ⟨recording.emitters.size⟩ ∧
      (Action.onEmitter id (Emitter.startFunction function)).runFrom
        { recording with emitters := recording.emitters.push { moduleName, config } } = (.ok parameters, started) ∧
      ((graph.withLiterals parameters).evaluate maxSlots).runFrom
        { started with contexts := .emitter id :: started.contexts } = (.ok (results, slots), evaluated) ∧
      (deliver results (graph.retained.zip (parameters.drop graph.literals.length))).runFrom evaluated = (.ok (), delivered) ∧
      (Action.onEmitter id (Emitter.resultOperand function none)).runFrom (delivered.withClient slots) =
        (.ok operand, ended) ∧
      (Action.onEmitter id (Emitter.endFunction (.ok operand))).runFrom { ended with contexts := ended.contexts.tail } =
        (.ok (), recorded) := by
  obtain ⟨_, added, hnew, h⟩ := Stateful.runFrom_bind_eq_ok.mp h
  cases hnew
  obtain ⟨_, after, hdefine, h⟩ := Stateful.runFrom_bind_eq_ok.mp h
  cases h
  obtain ⟨parameters, started, operand, ended, hstart, hbody, hend⟩ := Action.exists_of_defineFunction hdefine
  obtain ⟨_, between, hrecord, hresult⟩ := Stateful.runFrom_bind_eq_ok.mp hbody
  obtain ⟨⟨results, slots⟩, evaluated, hevaluate, hrecord⟩ := Stateful.runFrom_bind_eq_ok.mp hrecord
  obtain ⟨_, delivered, hdeliver, hrecord⟩ := Stateful.runFrom_bind_eq_ok.mp hrecord
  cases hrecord
  exact ⟨parameters, started, results, slots, evaluated, delivered, operand, ended, rfl, hstart, hevaluate, hdeliver, hresult,
    hend⟩

/-- Parameters that a definition starts with are of the types of the values that
    they stand for. -/
theorem forall₂_parameters {heap : Heap} {inputs parameters : List Value} {started : World Nat}
    (hinput : ∀ input ∈ inputs, Program.Input heap input) (hparameters : function.parameters = inputs.map ValueType.of)
    (hstart : (Action.onEmitter ⟨recording.emitters.size⟩ (Emitter.startFunction function)).runFrom
      { recording with emitters := recording.emitters.push { moduleName, config } } = (.ok parameters, started)) :
    List.Forall₂ (fun value parameter => parameter.dtype = value.dtype ∧ parameter.layout = value.layout) inputs
      parameters := by
  have hnew : (recording.emitters.push { moduleName, config })[recording.emitters.size]?.getD default =
      { moduleName, config } := by simp
  rw [Action.runFrom_onEmitter] at hstart
  simp only [hnew, Prod.mk.injEq] at hstart
  obtain ⟨builder, hbuilder⟩ := Comparison.exists_start (Prod.ext hstart.1 rfl)
  obtain ⟨bound, hstarted⟩ := FunctionBuilder.exists_started hinput hparameters hbuilder
  refine hstarted.entered.bound.flip.imp ?_
  rintro value _ ⟨buffer, ref, offset, rfl, -⟩
  exact ⟨rfl, rfl⟩

end Recorded

/-- A graph that has been run directly, and has been recorded with parameters
    for its literals and outputs. Both runs have made as many slots. The
    function can be compiled, and a call of it on the literals and outputs
    leaves the same in all storage that there was as delivering the results
    directly does. An output whose coordinates have places of their own then
    holds what the result does. -/
theorem invoke_eq_deliver {σ : Type} {graph : Graph Node} {maxSlots slots : Nat} {outputs : List Value}
    {executing after : World σ} {recording recorded : World Nat} {results : List (NodeId × Variable)} {moduleName : String}
    {config : EmitterConfig} {function : FunctionDeclaration} {id : EmitterId} (hidle : graph.idle = graph)
    (hunmanaged : graph.Unmanaged) (hactive : executing.contexts.head? = some .compute)
    (hinput : ∀ value ∈ graph.literals, Program.Input executing.heap value) (houtlets : graph.Outlets executing.heap outputs)
    (hsigned : ∀ ref : HostRef, ref.index < executing.heap.buffers.size → Word.Signed (executing.heap.get ref).length)
    (hparameters : function.parameters = (graph.literals ++ outputs).map ValueType.of)
    (hevaluate : (graph.evaluate maxSlots).runFrom executing = (.ok (results, slots), after))
    (hdefine : (graph.define maxSlots moduleName config function).runFrom recording = (.ok id, recorded)) :
    recorded.client = slots ∧ ∃ final module,
      (deliver results (graph.retained.zip outputs)).runFrom after = (.ok (), final) ∧
      (Action.finishModule id).runFrom recorded = (.ok module, recorded) ∧ ∀ table,
        module.compile table = .ok ⟨module, table⟩ ∧
          ∀ depth name, name = function.name ∨ name = function.symbol moduleName → ∃ heap,
            ((⟨module, table⟩ : CompiledModule).invoke depth name (Program.arguments (graph.literals ++ outputs))).runFrom
                executing.heap = (.ok none, heap) ∧
              (∀ ref : HostRef, ref.index < executing.heap.buffers.size → heap.get ref = final.heap.get ref) ∧
              ∀ node result, (node, result) ∈ results → ∃ output, (node, output) ∈ graph.retained.zip outputs ∧
                (output.layout.Injective →
                  ∃ tensor, result.Holds after.heap tensor ∧ (Variable.unmanaged output).Holds heap tensor) := by
  obtain ⟨parameters, started, results', slots', evaluated, delivered, operand, ended, rfl, hstart, hevaluate', hdeliver',
    hresult, hend⟩ := exists_of_define hdefine
  have hall : ∀ value ∈ graph.literals ++ outputs, Program.Input executing.heap value :=
    List.forall_mem_append.mpr ⟨hinput, houtlets.input⟩
  have hlike := forall₂_parameters hall hparameters hstart
  have hbound := @bound_parameters _ _ graph outputs parameters ⟨recording.emitters.size⟩ executing
    { started with contexts := .emitter ⟨recording.emitters.size⟩ :: started.contexts } hlike
  obtain ⟨state, hrun, rfl, rfl⟩ := runFrom_evaluate_eq_ok hevaluate
  obtain ⟨state', hrun', rfl, rfl⟩ := runFrom_evaluate_eq_ok hevaluate'
  obtain ⟨grown, hgrown, hruns, hresults, hkeys, hkept⟩ :=
    Staging.joint_run (runs_start hidle hunmanaged hactive rfl hinput houtlets hbound) hrun hrun'
  have hworks : (graph.staging outputs parameters _ executing _).Stores grown _ _ := hruns.works
  have htargets := forall₂_zip_left ((binds_parameters houtlets hbound).2.imp fun _ _ hpair => hpair.grow hgrown) graph.retained
  have htakes := hworks.tracks.takes hresults htargets hdeliver' fun target hmem =>
    houtlets.signed target.2 (List.of_mem_zip hmem).2
  obtain ⟨heap, hdeliver, hadvances, -, hcopied⟩ := exists_runFrom_deliver hworks.tracks.active htakes
  obtain ⟨grown', -, htracks, -⟩ := Staging.joint_deliver hresults htargets hworks.tracks hdeliver hdeliver'
  obtain ⟨ops, hops, hops'⟩ := htracks.performed
  simp only [staging, List.map_fst_zip (Nat.le_of_eq hlike.length_eq)] at hops
  simp only [staging, List.map_snd_zip (Nat.le_of_eq hlike.length_eq.symm)] at hops'
  obtain ⟨module, hfinish, hmodule⟩ := BulkOp.invoke_eq_performAll hactive hall hsigned hparameters hlike.length_eq.symm hops
    rfl hstart hops' hresult hend
  refine ⟨?_, _, module, hdeliver, hfinish, fun table => ⟨(hmodule table).1, fun depth name hname => ?_⟩⟩
  · have hended : ended.client = state'.activity.storage.allocator.totalSlots :=
      (congrArg (fun run => run.2.client) hresult).symm
    have hrecorded : recorded.client = ended.client := (congrArg (fun run => run.2.client) hend).symm
    rw [hrecorded, hended, hworks.totalSlots_eq]
  · obtain ⟨called, hinvoke, hget⟩ := (hmodule table).2 depth name hname
    refine ⟨called, hinvoke, hget, fun node result hmem => ?_⟩
    have hlookup := lookup_eq_some_of_mem hkeys hmem
    obtain ⟨output, houtput⟩ := exists_mem_zip (mem_retained (hkept _ hmem)) houtlets.length_eq
    refine ⟨output, houtput, fun hinjective => ?_⟩
    have hspared : ∀ node result, results.lookup node = some result → ∀ target ∈ graph.retained.zip outputs,
        result.value.Apart target.2 := by
      intro node result hlookup target htarget
      have hrel := rel_lookup hresults node
      rw [hlookup] at hrel
      generalize results'.lookup node = found at hrel
      cases hrel with
      | some hpairs =>
        obtain ⟨ref, offset, hdata, -⟩ := hworks.tracks.inputs _ hpairs.mem
        exact apart_of_notMem_barred hdata (hpairs.spared ref offset hdata) (List.of_mem_zip htarget).2
    have hpeek := hcopied houtlets.pairwise_zip hspared _ houtput result hlookup hinjective
    obtain ⟨tensor, hresult, hholds⟩ := (htakes _ houtput).exists_holds hlookup hpeek
    have hsound := ((htakes _ houtput).input.advance hadvances).fits.sound
    have hknown := (houtlets.input output (List.of_mem_zip houtput).2).fits.known
    exact ⟨tensor, hresult, hholds.of_alike hsound (.of_get_eq fun ref offset hdata => hget ref (hknown ref offset hdata))⟩

theorem homogeneous_addend : ∀ x ∈ #[Numeric.i32 5, .i32 7], x.dtype = .i32 := by decide

/-- A host with three buffers of two integers. -/
def tripleHost : World Unit where
  heap := ⟨#[⟨.i32, #[.i32 2, .i32 3], by decide⟩, ⟨.i32, #[.i32 5, .i32 7], homogeneous_addend⟩,
    ⟨.i32, #[.i32 0, .i32 0], by decide⟩]⟩
  contexts := [.compute]
  client := ()

/-- The buffer of a number as a vector. -/
def vectorAt (index : Nat) : Value := ⟨.i32, ⟨[2], [1]⟩, .host ⟨index⟩ 0⟩

/-- Adds two vectors, and multiplies the sum by the first. -/
def scaledSum : Graph Node where
  entries := #[
    { node := .literal (.unmanaged (vectorAt 0)), dependents := [⟨2⟩, ⟨3⟩] },
    { node := .literal (.unmanaged (vectorAt 1)), dependents := [⟨2⟩] },
    { node := .binary { op := .add, lhs := ⟨0⟩, rhs := ⟨1⟩ }, dependents := [⟨3⟩] },
    { node := .binary { op := .mul, lhs := ⟨2⟩, rhs := ⟨0⟩ }, retention := .output }]

def scaledSumDeclaration : FunctionDeclaration where
  name := "scaled_sum"
  parameters := [vectorAt 0, vectorAt 1, vectorAt 2].map ValueType.of

/-- The three vectors over the buffer of three are valid inputs. -/
theorem input_vectorAt {index : Nat} (h : index < 3) : Program.Input tripleHost.heap (vectorAt index) := by
  obtain rfl | rfl | rfl : index = 0 ∨ index = 1 ∨ index = 2 := by omega
  · exact ⟨⟨0⟩, 0, rfl, by decide, rfl, by cbv⟩
  · exact ⟨⟨1⟩, 0, rfl, by decide, rfl, by cbv⟩
  · exact ⟨⟨2⟩, 0, rfl, by decide, rfl, by cbv⟩

/-- Every buffer of the host in the example can be counted by a signed word. -/
theorem signed_tripleHost (ref : HostRef) (h : ref.index < tripleHost.heap.buffers.size) :
    Word.Signed (tripleHost.heap.get ref).length := by
  obtain ⟨index⟩ := ref
  obtain rfl | rfl | rfl : index = 0 ∨ index = 1 ∨ index = 2 := by
    have hlt : index < 3 := h
    omega
  all_goals
    rw [Word.signed_iff]
    decide

/-- The last of the three vectors can take the result that the graph keeps. -/
theorem outlets_scaledSum : scaledSum.Outlets tripleHost.heap [vectorAt 2] where
  length_eq := by decide
  input := by simpa using input_vectorAt (by decide)
  signed := by simp [Word.signed_iff, vectorAt]
  pairwise := List.pairwise_singleton _ _
  apart := by decide

theorem unmanaged_scaledSum : scaledSum.Unmanaged := by
  intro index entry value hentry hnode
  rcases index with _ | _ | _ | _ | index <;> cases hentry <;> cases hnode <;> rfl

/-- Three slots are made in either run. The call finds the product in the buffer
    that it is given for it. -/
theorem invoke_eq_deliver_scaledSum : ∃ results after recorded module heap,
    (scaledSum.evaluate 3).runFrom tripleHost = (.ok (results, 3), after) ∧
    (scaledSum.define 3 "m" {} scaledSumDeclaration).runFrom { client := 0 } = (.ok ⟨0⟩, recorded) ∧ recorded.client = 3 ∧
    (Action.finishModule ⟨0⟩).runFrom recorded = (.ok module, recorded) ∧
    ((⟨module, .empty⟩ : CompiledModule).invoke 1 "scaled_sum"
      (Program.arguments [vectorAt 0, vectorAt 1, vectorAt 2])).runFrom tripleHost.heap = (.ok none, heap) ∧
    (Variable.unmanaged (vectorAt 2)).elements heap = .ok [.i32 14, .i32 30] := by
  let product : Variable := ⟨some ⟨0⟩, vectorAt 3⟩
  have hevaluate : ((scaledSum.evaluate 3).runFrom tripleHost).1 = .ok ([(⟨3⟩, product)], 3) := by decide +kernel
  have hdefine : ((scaledSum.define 3 "m" {} scaledSumDeclaration).runFrom { client := 0 }).1 = .ok ⟨0⟩ := by decide +kernel
  have helements : product.elements ((scaledSum.evaluate 3).runFrom tripleHost).2.heap = .ok [.i32 14, .i32 30] := by
    decide +kernel
  have hliterals : ∀ value ∈ scaledSum.literals, Program.Input tripleHost.heap value := by
    have hlist : scaledSum.literals = [vectorAt 0, vectorAt 1] := by decide
    rw [hlist]
    simpa using ⟨input_vectorAt (by decide), input_vectorAt (by decide)⟩
  have hidle : scaledSum.idle = scaledSum := by simp [scaledSum, idle, Node.idle]
  obtain ⟨hslots, _, module, -, hfinish, hmodule⟩ := invoke_eq_deliver hidle unmanaged_scaledSum rfl hliterals
    outlets_scaledSum signed_tripleHost rfl (Prod.ext hevaluate rfl) (Prod.ext hdefine rfl)
  obtain ⟨heap, hinvoke, -, hresults⟩ := (hmodule .empty).2 1 "scaled_sum" (.inl rfl)
  obtain ⟨output, houtput, hholds⟩ := hresults ⟨3⟩ product List.mem_cons_self
  obtain ⟨rfl⟩ : output = vectorAt 2 := by
    have hzip : scaledSum.retained.zip [vectorAt 2] = [(⟨3⟩, vectorAt 2)] := by decide
    rw [hzip] at houtput
    simpa using houtput
  obtain ⟨tensor, hproduct, hheld⟩ := hholds (by decide)
  obtain rfl := hproduct.unique (Variable.holds_elements helements)
  exact ⟨_, _, _, module, heap, Prod.ext hevaluate rfl, Prod.ext hdefine rfl, hslots, hfinish, hinvoke, hheld.elements_eq⟩

end Graph

end StagedArrays
