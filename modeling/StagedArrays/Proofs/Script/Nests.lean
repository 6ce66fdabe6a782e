import StagedArrays.Proofs.Script.Execution

namespace StagedArrays

/-- A call in progress keeps its registers as they are, given ones apart.
    Storage may change in any way. -/
def Running.Confined (registers : List RegisterId) (running after : Running) : Prop :=
  ∀ id ∉ registers, after.frame.registers[id]? = running.frame.registers[id]?

/-- A call in progress differs from an earlier one only in what given registers
    hold. -/
structure Running.SameBut (registers : List RegisterId) (running after : Running) : Prop where
  confined : running.Confined registers after
  buffers_eq : after.frame.buffers = running.frame.buffers
  heap_eq : after.heap = running.heap

namespace Running

variable {registers more : List RegisterId} {running next after : Running} {call : String → HostFunction}

instance : IsPreorder Running (Confined registers) where
  refl _ _ _ := rfl
  trans _ _ _ h h' id hid := (h' id hid).trans (h id hid)

theorem Confined.mono (h : running.Confined registers after) (hsubset : registers ⊆ more) :
    running.Confined more after :=
  fun id hid => h id fun hmem => hid (hsubset hmem)

/-- Assigning one of the given registers confines the change to them. -/
theorem allows_confined (registers : List RegisterId) : Allows (Confined registers) registers where
  heap _ _ _ _ := rfl
  assign running register hmem x id hid := by
    apply (Frame.registers_assign running.frame register id x).trans
    rw [if_neg]
    rintro rfl
    exact hid hmem

/-- A block changes no register but those it assigns. Those that loops count in
    are among these. -/
theorem confined_runBlock (code : List Instruction) (running : Running) :
    running.Confined (blockOutputs code) ((runBlock call code).runFrom running).2 :=
  (allows_confined _).moves_runBlock running

theorem SameBut.refl (registers : List RegisterId) (running : Running) : running.SameBut registers running :=
  ⟨fun _ _ => rfl, rfl, rfl⟩

theorem SameBut.trans (h : running.SameBut registers next) (h' : next.SameBut registers after) :
    running.SameBut registers after :=
  ⟨trans_of (Confined registers) h.confined h'.confined, h'.buffers_eq.trans h.buffers_eq, h'.heap_eq.trans h.heap_eq⟩

theorem SameBut.mono (h : running.SameBut registers after) (hsubset : registers ⊆ more) : running.SameBut more after :=
  ⟨h.confined.mono hsubset, h.buffers_eq, h.heap_eq⟩

theorem sameBut_assign {register : RegisterId} (hmem : register ∈ registers) (running : Running) (x : Numeric) :
    running.SameBut registers ⟨running.frame.assign register x, running.heap⟩ :=
  ⟨(allows_confined registers).assign running register hmem x, rfl, rfl⟩

end Running

/-- Whether registers hold coordinates, one each. They are 64-bit integers
    there. -/
def Frame.Holds (frame : Frame) (registers : List RegisterId) (coordinates : List Nat) : Prop :=
  List.Forall₂ (fun id index => frame.registers[id]? = some (.ofIndex index)) registers coordinates

/-- A block is executed once for each of a list of coordinates, in order, with
    the coordinates in given registers. Nothing but those registers changes
    before, between and after the executions. The first one that fails is the
    last, and the outcome is its outcome. -/
inductive Passes (call : String → HostFunction) (registers : List RegisterId) (code : List Instruction) :
    List (List Nat) → Running → Except (Failure ValueError) Unit × Running → Prop where
  | done {running after : Running} (same : running.SameBut registers after) :
      Passes call registers code [] running (.ok (), after)
  | pass {coordinates : List Nat} {more : List (List Nat)} {running start next : Running}
      {final : Except (Failure ValueError) Unit × Running} (same : running.SameBut registers start)
      (holds : start.frame.Holds registers coordinates) (run_eq : (runBlock call code).runFrom start = (.ok (), next))
      (rest : Passes call registers code more next final) : Passes call registers code (coordinates :: more) running final
  | fail {coordinates : List Nat} {more : List (List Nat)} {running start after : Running} {failure : Failure ValueError}
      (same : running.SameBut registers start) (holds : start.frame.Holds registers coordinates)
      (run_eq : (runBlock call code).runFrom start = (.error failure, after)) :
      Passes call registers code (coordinates :: more) running (.error failure, after)

namespace Passes

variable {call : String → HostFunction} {registers : List RegisterId} {register : RegisterId} {code : List Instruction}
  {coordinates more : List (List Nat)} {running next : Running} {final : Except (Failure ValueError) Unit × Running}

/-- Only the given registers matter to where the executions start, so that they
    may have changed before. -/
theorem of_sameBut (h : Passes call registers code coordinates next final) (hsame : running.SameBut registers next) :
    Passes call registers code coordinates running final := by
  cases h with
  | done same => exact .done (hsame.trans same)
  | pass same holds run_eq rest => exact .pass (hsame.trans same) holds run_eq rest
  | fail same holds run_eq => exact .fail (hsame.trans same) holds run_eq

/-- A single execution. -/
theorem singleton {indices : List Nat} (hholds : running.frame.Holds registers indices) :
    Passes call registers code [indices] running ((runBlock call code).runFrom running) := by
  rcases hrun : (runBlock call code).runFrom running with ⟨failure | ⟨⟩, after⟩
  · exact .fail (.refl _ _) hholds hrun
  · exact .pass (.refl _ _) hholds hrun (.done (.refl _ _))

/-- More executions follow if none has failed so far. Otherwise nothing is
    executed any more. -/
theorem append {between : Except (Failure ValueError) Unit × Running}
    (h : Passes call registers code coordinates running between)
    (hok : ∀ next, between = (.ok (), next) → Passes call registers code more next final)
    (herror : ∀ failure after, between = (.error failure, after) → final = (.error failure, after)) :
    Passes call registers code (coordinates ++ more) running final := by
  induction h with
  | done same => exact (hok _ rfl).of_sameBut same
  | pass same holds run_eq _ ih => exact .pass same holds run_eq (ih hok herror)
  | fail same holds run_eq =>
    rw [herror _ _ rfl]
    exact .fail same holds run_eq

/-- One action after another executes the block for the one's coordinates, and
    then for the other's. -/
theorem bind {action rest : RunM Unit} (h : Passes call registers code coordinates running (action.runFrom running))
    (hrest : ∀ next, Passes call registers code more next (rest.runFrom next)) :
    Passes call registers code (coordinates ++ more) running ((do action; rest).runFrom running) := by
  apply h.append
  · intro next hrun
    rw [Stateful.runFrom_bind_of_ok hrun]
    exact hrest next
  · intro failure after hrun
    exact Stateful.runFrom_bind_of_error hrun _

/-- A register that the block does not assign holds its index throughout. It is
    the counter of the next loop outwards. -/
theorem cons {index : Nat} (h : Passes call registers code coordinates running final)
    (hregister : register ∉ registers) (hcode : register ∉ blockOutputs code)
    (hholds : running.frame.registers[register]? = some (.ofIndex index)) :
    Passes call (register :: registers) code (coordinates.map (index :: ·)) running final := by
  have hsubset : registers ⊆ register :: registers := List.subset_cons_self _ _
  induction h with
  | done same => exact .done (same.mono hsubset)
  | @pass _ _ _ start next _ same holds run_eq _ ih =>
    have hstart := (same.confined register hregister).trans hholds
    have hconfined := @Running.confined_runBlock call code start
    rw [run_eq] at hconfined
    exact .pass (same.mono hsubset) (.cons hstart holds) run_eq (ih ((hconfined register hcode).trans hstart))
  | fail same holds run_eq =>
    have hstart := (same.confined register hregister).trans hholds
    exact .fail (same.mono hsubset) (.cons hstart holds) run_eq

/-- A counted loop around executions, by induction on the count. -/
theorem repeatFrom {inner : RunM Unit}
    (h : ∀ running, Passes call registers code coordinates running (inner.runFrom running))
    (hregister : register ∉ registers) (hcode : register ∉ blockOutputs code) (count first : Nat) (running : Running) :
    Passes call (register :: registers) code
      ((List.range' first count).flatMap fun index => coordinates.map (index :: ·)) running
      ((Stateful.repeatFrom (fun index => do RunM.assign register (.ofIndex index); inner) count first).runFrom
        running) := by
  induction count generalizing first running with
  | zero => exact .done (.refl _ _)
  | succ count ih =>
    rw [List.range'_succ, List.flatMap_cons, Stateful.repeatFrom]
    refine bind ?_ (ih (first + 1))
    have hassigned : running.SameBut (register :: registers) _ :=
      Running.sameBut_assign List.mem_cons_self running (.ofIndex first)
    refine (cons (h _) hregister hcode ?_).of_sameBut hassigned
    simp [Frame.registers_assign]

end Passes

namespace FunctionBuilder

/-- The registers of loops are consecutive. They begin with a given one. -/
theorem mem_loopRegisters {id : RegisterId} {first count : Nat} :
    id ∈ loopRegisters first count ↔ first ≤ id.index ∧ id.index < first + count := by
  cases id with
  | mk index => simp [loopRegisters]

end FunctionBuilder

/-- The loops of a nest go through the coordinates of a shape, by induction on
    the extents. -/
theorem Fragment.passes_nest {call : String → HostFunction} {f : Fragment} {first : Nat} {extents : List Nat}
    (hfresh : ∀ id ∈ FunctionBuilder.loopRegisters first extents.length, id ∉ blockOutputs f.code) (running : Running) :
    Passes call (FunctionBuilder.loopRegisters first extents.length) f.code (Layout.rowMajor extents) running
      ((runBlock call (f.nest first extents).code).runFrom running) := by
  induction extents generalizing first running with
  | nil => exact .singleton .nil
  | cons extent extents ih =>
    have hregisters : FunctionBuilder.loopRegisters first (extents.length + 1) =
      ⟨first⟩ :: FunctionBuilder.loopRegisters (first + 1) extents.length := rfl
    rw [List.length_cons, hregisters] at hfresh ⊢
    obtain ⟨hcode, hfresh⟩ := List.forall_mem_cons.mp hfresh
    rw [Layout.rowMajor, List.range_eq_range', nest, runBlock_singleton]
    apply Passes.repeatFrom (ih hfresh) _ hcode
    simp [FunctionBuilder.mem_loopRegisters]

/-- What is recorded inside loops leaves their registers alone. It takes
    registers of its own, which come later. -/
theorem Fragment.Orderly.notMem_blockOutputs {f : Fragment} {config : EmitterConfig} {builder : FunctionBuilder} {count : Nat}
    (h : f.Orderly config (builder.opened count)) {id : RegisterId}
    (hmem : id ∈ FunctionBuilder.loopRegisters builder.nextRegister count) : id ∉ blockOutputs f.code := by
  rw [h.outputs_eq, FunctionBuilder.nextRegister_opened, FunctionBuilder.mem_loopRegisters]
  rw [FunctionBuilder.mem_loopRegisters] at hmem
  omega

namespace Stateful

variable {ε σ α : Type}

/-- An error that is caught and raised again makes no difference. -/
theorem runFrom_caught_bind_settle (action : Stateful ε σ α) (state : σ) :
    (do settle ((← caught action).mapError Failure.error)).runFrom state = action.runFrom state := by
  unfold caught
  rw [runFrom_bind, runFrom_bind_of_ok (runFrom_attempt action state)]
  rcases action.runFrom state with ⟨(cause | fault) | value, after⟩ <;> rfl

end Stateful

namespace Script

/-- Loops for the function in progress end as their body does, and are recorded
    as a nest around what it records. -/
theorem exists_nest {world after : World Journal} {id : EmitterId} {builder : FunctionBuilder} {layout : Layout}
    {body : List Scalar → Script Unit} {outcome : Except (Failure ValueError) Unit}
    (hcurrent : (world.emitterAt id).current = some builder)
    (hrun : (forEach (.emitter id) layout body done).run.runFrom world = (outcome, after))
    (hfault : ∀ fault, outcome ≠ .error (.fault fault)) :
    ∃ (f : Fragment) (inner : World Journal), f.Orderly (world.emitterAt id).config (builder.opened layout.rank) ∧
      (body (builder.loopCoordinates layout.rank)).run.runFrom (world.inside id builder layout.rank) = (outcome, inner) ∧
      inner.emitterAt id = (world.emitterAt id).emitting ((builder.opened layout.rank).extend f) ∧
      after.emitterAt id =
        (world.emitterAt id).emitting (builder.extend (f.nest builder.nextRegister layout.extents)) := by
  have hloops : ((Context.emitter id).forEach layout fun coordinates =>
      Journal.bracket (.emitter id) coordinates (body coordinates).run).runFrom world = (outcome, after) :=
    (Stateful.runFrom_caught_bind_settle _ world).symm.trans hrun
  rcases hbody : (body (builder.loopCoordinates layout.extents.length)).run.runFrom
    (world.inside id builder layout.extents.length) with ⟨found, inner⟩
  have hbracket := @Journal.runFrom_bracket_opened id world (fun coordinates => (body coordinates).run) builder found
    layout.extents.length inner hbody
  have hfound : ∀ fault, found ≠ .error (.fault fault) := by
    rintro fault rfl
    rw [Context.runFrom_forEach_of_some hcurrent hbracket] at hloops
    exact hfault fault (congrArg Prod.fst hloops).symm
  have hleads := (body (builder.loopCoordinates layout.extents.length)).leads id
    (world.inside id builder layout.extents.length)
  rw [hbody] at hleads
  have hproceeds := hleads.proceeds hfound
  rw [World.Proceeds, World.emitterAt_inside hcurrent] at hproceeds
  obtain ⟨events, f, hemission, hinner, -⟩ := (Emitter.proceeds_iff rfl).mp hproceeds
  have hamended : (inner.amended id (·.extend [.closed])).emitterAt id =
    (world.emitterAt id).emitting ((builder.opened layout.extents.length).extend f) := hinner
  rw [Context.runFrom_forEach_of_emitting hcurrent hbracket hfound hamended] at hloops
  cases hloops
  exact ⟨f, inner, hemission.orderly, hbody, hinner,
    World.emitterAt_replaced_of_current (congrArg Emitter.current hamended) _⟩

end Script

/-- The coordinates of a layout are those below its extents, each once, in
    lexicographic order. An odometer hands them out one by one, and nothing from
    then on. Whatever loops for the layout record inside the function in
    progress, they record a nest around what their body has recorded, and
    wherever that is executed its body is executed for the coordinates of the
    layout one by one, as far as there is no failure, with the coordinates in
    the registers that the body has been recorded with. -/
theorem Layout.coordinates_in_loop_order (layout : Layout) :
    (∀ coordinates, coordinates ∈ layout.coordinates ↔ InBounds coordinates layout.extents) ∧
      layout.coordinates.Nodup ∧ layout.coordinates.Pairwise (List.Lex (· < ·)) ∧
      layout.coordinates.length = layout.extents.prod ∧
      (∀ count, (Odometer.advanced^[count] (Odometer.start layout.extents)).handed = layout.coordinates[count]?) ∧
      ∀ (world after : World Journal) (id : EmitterId) (builder : FunctionBuilder) (body : List Scalar → Script Unit)
        (outcome : Except (Failure ValueError) Unit),
        (world.emitterAt id).current = some builder →
          (Script.forEach (.emitter id) layout body .done).run.runFrom world = (outcome, after) →
            (∀ fault, outcome ≠ .error (.fault fault)) →
              ∃ (f : Fragment) (inner : World Journal),
                (body (builder.loopCoordinates layout.rank)).run.runFrom (world.inside id builder layout.rank) =
                    (outcome, inner) ∧
                  inner.emitterAt id = (world.emitterAt id).emitting ((builder.opened layout.rank).extend f) ∧
                  after.emitterAt id =
                    (world.emitterAt id).emitting (builder.extend (f.nest builder.nextRegister layout.extents)) ∧
                  ∀ (call : String → HostFunction) (running : Running),
                    Passes call (FunctionBuilder.loopRegisters builder.nextRegister layout.rank) f.code layout.coordinates
                      running ((runBlock call (f.nest builder.nextRegister layout.extents).code).runFrom running) := by
  have hpairwise := pairwise_rowMajor layout.extents
  rw [← coordinates_eq] at hpairwise
  refine ⟨fun coordinates => mem_coordinates, hpairwise.nodup, hpairwise, ?_, Odometer.handed_iterate_start layout, ?_⟩
  · rw [coordinates_eq, length_rowMajor]
  · intro world after id builder body outcome hcurrent hrun hfault
    obtain ⟨f, inner, horderly, hbody, hinner, hafter⟩ := Script.exists_nest hcurrent hrun hfault
    refine ⟨f, inner, hbody, hinner, hafter, fun call running => ?_⟩
    rw [coordinates_eq]
    exact Fragment.passes_nest (fun id hmem => horderly.notMem_blockOutputs hmem) running

/-- A body that records the product of two coordinates. -/
def Script.multiplying : List Scalar → Script Unit
  | [row, column] => perform (.emitter ⟨0⟩) (.binary .mul row.value column.value) fun _ => done (.ok ())
  | _ => done (.ok ())

/-- The body of a loop over two rows and three columns is recorded once and
    executed six times, row by row. -/
theorem Layout.coordinates_in_loop_order_multiplying :
    (⟨[2, 3], [3, 1]⟩ : Layout).coordinates = [[0, 0], [0, 1], [0, 2], [1, 0], [1, 1], [1, 2]] ∧
      ∃ (builder : FunctionBuilder) (after : World Journal), (Script.begun.emitterAt ⟨0⟩).current = some builder ∧
        (Script.forEach (.emitter ⟨0⟩) ⟨[2, 3], [3, 1]⟩ Script.multiplying .done).run.runFrom Script.begun = (.ok (), after) ∧
        (after.emitterAt ⟨0⟩).innermost =
          [.loop ⟨1⟩ 2 [.loop ⟨2⟩ 3 [.binary ⟨3⟩ .mul (.register ⟨1⟩) (.register ⟨2⟩)]]] ∧
        ∃ f : Fragment, after.emitterAt ⟨0⟩ = (Script.begun.emitterAt ⟨0⟩).emitting
            (builder.extend (f.nest builder.nextRegister [2, 3])) ∧
          ∀ (call : String → HostFunction) (running : Running),
            Passes call (FunctionBuilder.loopRegisters builder.nextRegister 2) f.code
              [[0, 0], [0, 1], [0, 2], [1, 0], [1, 1], [1, 2]] running
              ((runBlock call (f.nest builder.nextRegister [2, 3]).code).runFrom running) := by
  have hcoordinates : (⟨[2, 3], [3, 1]⟩ : Layout).coordinates = [[0, 0], [0, 1], [0, 2], [1, 0], [1, 1], [1, 2]] := by decide
  have hbegun : (Script.begun.emitterAt ⟨0⟩).current.isSome := by decide +kernel
  obtain ⟨builder, hcurrent⟩ := Option.isSome_iff_exists.mp hbegun
  have houtcome : ((Script.forEach (.emitter ⟨0⟩) ⟨[2, 3], [3, 1]⟩ Script.multiplying .done).run.runFrom
      Script.begun).1 = .ok () := by decide +kernel
  have hcode : (((Script.forEach (.emitter ⟨0⟩) ⟨[2, 3], [3, 1]⟩ Script.multiplying .done).run.runFrom
      Script.begun).2.emitterAt ⟨0⟩).innermost =
        [.loop ⟨1⟩ 2 [.loop ⟨2⟩ 3 [.binary ⟨3⟩ .mul (.register ⟨1⟩) (.register ⟨2⟩)]]] := by decide +kernel
  obtain ⟨-, -, -, -, -, hloops⟩ := Layout.coordinates_in_loop_order ⟨[2, 3], [3, 1]⟩
  obtain ⟨f, inner, -, -, hafter, hpasses⟩ := hloops Script.begun _ ⟨0⟩ builder Script.multiplying (.ok ()) hcurrent
    (Prod.ext_iff.mpr ⟨houtcome, rfl⟩) fun _ heq => nomatch heq
  rw [hcoordinates] at hpasses
  exact ⟨hcoordinates, builder, _, hcurrent, Prod.ext_iff.mpr ⟨houtcome, rfl⟩, hcode, f, hafter, hpasses⟩

end StagedArrays
