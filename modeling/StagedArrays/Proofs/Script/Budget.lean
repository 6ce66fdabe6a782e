import Mathlib.Logic.Relation
import StagedArrays.Proofs.Script.Steps

namespace StagedArrays

open Relation (ReflTransGen)
open Stateful (Moves)

namespace Emitter

/-- Whether an emitter comes from a new one in such steps. Only such emitters
    are ever met. -/
def Arises (emitter : Emitter) : Prop :=
  ∃ moduleName config, ReflTransGen Step { moduleName := moduleName, config := config } emitter

variable {emitter after : Emitter}

theorem arises_new (moduleName : String) (config : EmitterConfig) : Arises { moduleName, config } :=
  ⟨moduleName, config, .refl⟩

theorem Arises.step (h : emitter.Arises) (hstep : emitter.Step after) : after.Arises := by
  obtain ⟨moduleName, config, hsteps⟩ := h
  exact ⟨moduleName, config, hsteps.tail hstep⟩

/-- Whether the function in progress is within the budget of the emitter. There
    is nothing to say while none is in progress. -/
def InBudget (emitter : Emitter) : Prop := ∀ builder, emitter.current = some builder → builder.InBudget emitter.config

/-- What operations record stays within the budget, as each allocation has been
    compared with what was left. -/
theorem Grows.inBudget (h : emitter.Grows after) (hbudget : emitter.InBudget) : after.InBudget := by
  cases hcurrent : emitter.current with
  | none => rwa [h.eq_of_none hcurrent]
  | some builder =>
    obtain ⟨f, rfl, horderly, -⟩ := (grows_iff hcurrent).mp h
    rintro _ ⟨⟩
    exact horderly.inBudget (hbudget builder hcurrent)

/-- How loops change an emitter: the function in progress has declared what it
    had before. -/
structure Declares (emitter after : Emitter) : Prop where
  config_eq : after.config = emitter.config
  buffers_eq : after.current.map FunctionBuilder.buffers = emitter.current.map FunctionBuilder.buffers

instance : IsPreorder Emitter Declares where
  refl _ := ⟨rfl, rfl⟩
  trans _ _ _ h h' := ⟨h'.config_eq.trans h.config_eq, h'.buffers_eq.trans h.buffers_eq⟩

/-- Loops declare no storage, so that the budget is not touched. They are opened
    and closed around operations. -/
theorem Declares.inBudget (h : emitter.Declares after) (hbudget : emitter.InBudget) : after.InBudget := by
  intro builder hcurrent
  have hbuffers := h.buffers_eq
  rw [hcurrent, Option.map_some, eq_comm, Option.map_eq_some_iff] at hbuffers
  obtain ⟨earlier, hearlier, hbuffers⟩ := hbuffers
  rw [h.config_eq]
  exact FunctionBuilder.inBudget_of_buffers_eq hbuffers.symm (hbudget earlier hearlier)

/-- What is done with the function in progress, its buffers left alone. -/
theorem declares_builder_set (change : FunctionBuilder → FunctionBuilder)
    (hbuffers : ∀ builder, (change builder).buffers = builder.buffers) : Moves Declares (do setBuilder (change (← builder))) := by
  intro emitter
  cases hcurrent : emitter.current with
  | none =>
    rw [Stateful.runFrom_bind_of_error (runFrom_builder_of_none hcurrent)]
    exact refl_of Declares emitter
  | some current =>
    rw [Stateful.runFrom_bind_of_ok (runFrom_builder hcurrent), runFrom_setBuilder]
    exact ⟨rfl, by simp [emitting, hcurrent, hbuffers]⟩

/-- The start of a loop nest declares no storage. -/
theorem declares_openLoops (extents : List Nat) : Moves Declares (Emit.openLoops extents) := by
  intro emitter
  cases hcurrent : emitter.current with
  | none =>
    cases extents with
    | nil => exact refl_of Declares emitter
    | cons extent extents =>
      rw [Emit.openLoops, Stateful.runFrom_bind_of_error (runFrom_builder_of_none hcurrent)]
      exact refl_of Declares emitter
  | some builder =>
    rw [← emitting_eq hcurrent, runFrom_openLoops]
    exact ⟨rfl, by simp [emitting]⟩

/-- Neither does its end. -/
theorem declares_closeLoops (registers : List RegisterId) (extents : List Nat) :
    Moves Declares (Emit.closeLoops registers extents) := by
  induction registers generalizing extents with
  | nil => exact .pure _
  | cons register registers ih =>
    cases extents with
    | nil => exact .pure _
    | cons extent extents =>
      refine .bind (ih extents) fun _ => ?_
      exact declares_builder_set (fun builder => builder.closeBlock.2.emit (.loop register extent builder.closeBlock.1))
        fun builder => by simp

/-- Whatever a function ends with, it is not in progress any more. Its storage
    no longer counts then. -/
theorem current_endFunction (emitter : Emitter) (outcome : Except (Failure ValueError) (Option Operand)) :
    ((endFunction outcome).runFrom emitter).2.current = none := by
  cases hcurrent : emitter.current with
  | none => rwa [runFrom_endFunction_of_none hcurrent]
  | some builder =>
    rw [endFunction, Stateful.runFrom_bind_of_ok (runFrom_builder hcurrent),
      Stateful.runFrom_bind_of_ok (Stateful.runFrom_modify _ _)]
    cases outcome with
    | error failure => rfl
    | ok operand =>
      rw [Stateful.runFrom_bind_of_ok (Stateful.runFrom_settle _ _)]
      cases builder.finish operand <;> rfl

/-- Nothing that happens to an emitter takes the function in progress beyond the
    budget. -/
theorem Step.inBudget (h : emitter.Step after) (hbudget : emitter.InBudget) : after.InBudget := by
  cases h with
  | begin function =>
    rcases runFrom_startFunction emitter function with ⟨failure, hrun⟩ | ⟨parameters, builder, -, hstart, hrun⟩
    · rwa [hrun]
    · rw [hrun]
      rintro _ ⟨⟩
      exact (FunctionBuilder.entering_start hstart).inBudget _
  | perform operation => exact (operation.grows_emit emitter).inBudget hbudget
  | openLoops extents => exact (declares_openLoops extents emitter).inBudget hbudget
  | closeLoops registers extents => exact (declares_closeLoops registers extents emitter).inBudget hbudget
  | readResult function result => exact (grows_resultOperand function result emitter).inBudget hbudget
  | finish outcome =>
    intro builder hcurrent
    rw [current_endFunction] at hcurrent
    cases hcurrent

/-- The function in progress is within the budget, whatever has happened to the
    emitter. -/
theorem Arises.inBudget (h : emitter.Arises) : emitter.InBudget := by
  obtain ⟨moduleName, config, hsteps⟩ := h
  induction hsteps with
  | refl => exact nofun
  | tail _ hstep ih => exact hstep.inBudget ih

end Emitter

namespace BufferDeclaration

/-- Where the bytes of all declarations can be added up, the total is their
    sum. -/
theorem eq_of_foldlM_bytes {declarations : List BufferDeclaration} {total bytes : Nat}
    (h : declarations.foldlM (fun total declaration => do Word.add total (← declaration.bytes)) total = .ok bytes) :
    bytes = total + (declarations.map fun declaration => declaration.length * declaration.dtype.size).sum := by
  induction declarations generalizing total with
  | nil =>
    cases h
    rfl
  | cons declaration rest ih =>
    rw [List.foldlM_cons] at h
    obtain ⟨next, hnext, h⟩ := bind_eq_ok_iff.mp h
    obtain ⟨size, hsize, hnext⟩ := bind_eq_ok_iff.mp hnext
    obtain ⟨rfl, -⟩ := Word.add_eq_ok_iff.mp hnext
    obtain ⟨rfl, -⟩ := Word.mul_eq_ok_iff.mp hsize
    rw [ih h, List.map_cons, List.sum_cons, Nat.add_assoc]

/-- The bytes of declarations together are the sum of theirs. That it was
    computed means that nothing overflowed. -/
theorem eq_of_totalBytes {declarations : List BufferDeclaration} {bytes : Nat} (h : totalBytes declarations = .ok bytes) :
    bytes = (declarations.map fun declaration => declaration.length * declaration.dtype.size).sum := by
  rw [eq_of_foldlM_bytes h, Nat.zero_add]

end BufferDeclaration

namespace FunctionBuilder

/-- Bytes of storage that a function has declared for itself so far. The storage
    of its parameters does not count. -/
def usedBytes (builder : FunctionBuilder) : Nat :=
  (builder.localBuffers.map fun declaration => declaration.length * declaration.dtype.size).sum

/-- Within the budget the bytes of all local buffers can be added up. They do
    not exceed a word. -/
theorem InBudget.totalBytes_eq {config : EmitterConfig} {builder : FunctionBuilder} (h : builder.InBudget config) :
    BufferDeclaration.totalBytes builder.localBuffers = .ok builder.usedBytes := by
  obtain ⟨-, bytes, hbytes, -⟩ := h
  rw [hbytes, BufferDeclaration.eq_of_totalBytes hbytes, usedBytes]

end FunctionBuilder

namespace Emit

variable {emitter : Emitter} {builder : FunctionBuilder} {dtype : DType} {layout : Layout} {used length : Nat}

/-- With all buffers used up there is an error before the size is looked at. The
    function in progress is named in it. -/
theorem runFrom_allocate_of_full (hcurrent : emitter.current = some builder)
    (hfull : emitter.config.maxBuffers ≤ builder.localBuffers.length) : (allocate dtype layout).runFrom emitter =
      (.error (.error (.resourceExhausted (.buffers builder.name builder.localBuffers.length))), emitter) := by
  rw [allocate, Stateful.runFrom_bind_of_ok (Stateful.runFrom_get emitter),
    Stateful.runFrom_bind_of_ok (Emitter.runFrom_builder hcurrent)]
  simp only [if_pos hfull, Stateful.runFrom_fail]

/-- Where there is room for another buffer, its bytes are added to those in use
    and compared with the budget. -/
theorem runFrom_allocate_of_room (hcurrent : emitter.current = some builder)
    (hroom : builder.localBuffers.length < emitter.config.maxBuffers)
    (hused : BufferDeclaration.totalBytes builder.localBuffers = .ok used) (hlength : layout.memorySize = .ok length) :
    (allocate dtype layout).runFrom emitter =
      match (do Word.add used (← Word.mul length dtype.size) : Except Fault Nat) with
      | .error fault => (.error (.fault fault), emitter)
      | .ok needed =>
        if emitter.config.maxStorageBytes < needed then
          (.error (.error (.resourceExhausted (.storage builder.name needed emitter.config.maxStorageBytes))), emitter)
        else (.ok (.emittedBuffer dtype layout ⟨builder.buffers.size⟩),
          emitter.emitting (builder.newBuffer dtype length .own).2) := by
  rw [allocate, Stateful.runFrom_bind_of_ok (Stateful.runFrom_get emitter),
    Stateful.runFrom_bind_of_ok (Emitter.runFrom_builder hcurrent)]
  simp only [if_neg (Nat.not_le.mpr hroom), hused, hlength]
  rw [Stateful.runFrom_bind_of_ok (Stateful.runFrom_liftM _ _), Stateful.runFrom_bind_of_ok (Stateful.runFrom_liftM _ _)]
  cases hrequested : Word.mul length dtype.size with
  | error fault => exact Stateful.runFrom_bind_of_error (Stateful.runFrom_liftM _ _) _
  | ok requested =>
    rw [Stateful.runFrom_bind_of_ok (Stateful.runFrom_liftM _ _), ok_bind]
    cases hneeded : Word.add used requested with
    | error fault => exact Stateful.runFrom_bind_of_error (Stateful.runFrom_liftM _ _) _
    | ok needed =>
      rw [Stateful.runFrom_bind_of_ok (Stateful.runFrom_liftM _ _)]
      by_cases hexceeds : emitter.config.maxStorageBytes < needed
      · simp only [if_pos hexceeds, Stateful.runFrom_fail]
      · simp only [if_neg hexceeds]
        rfl

end Emit

namespace World

/-- Whether all emitters of a world come from new ones. -/
def Arises {σ : Type} (world : World σ) : Prop := ∀ emitter ∈ world.emitters, emitter.Arises

/-- An order for what leaves them so. It is respected by all that a session can
    do. -/
def Raises {σ : Type} (world after : World σ) : Prop := world.Arises → after.Arises

instance {σ : Type} : IsPreorder (World σ) Raises where
  refl _ := id
  trans _ _ _ h h' := h' ∘ h

/-- Each emitter of a world that came from new ones did so itself. For a name
    without emitter the default is a new one. -/
theorem Arises.emitterAt {σ : Type} {world : World σ} (h : world.Arises) (id : EmitterId) : (world.emitterAt id).Arises := by
  unfold World.emitterAt
  cases hget : world.emitters[id.index]? with
  | none => exact Emitter.arises_new "" {}
  | some emitter => exact h emitter (Array.mem_of_getElem? hget)

end World

/-- Every operation of a script is a step of the emitters, so that they still
    come from new ones. -/
theorem Script.follows_raises : Script.Follows (World.Raises (σ := Journal)) where
  same _ _ hsame harises := by
    rw [World.Arises, hsame]
    exact harises
  step _ id _ hstep harises emitter hmem := by
    rcases Array.mem_or_eq_of_mem_setIfInBounds hmem with hmem | rfl
    · exact harises emitter hmem
    · exact (harises.emitterAt id).step hstep
  push _ moduleName config harises emitter hmem := by
    rcases Array.mem_push.mp hmem with hmem | rfl
    · exact harises emitter hmem
    · exact Emitter.arises_new moduleName config

/-- Whatever a program does with emitters, as a body of a function or outside,
    they come from new ones. -/
theorem Script.raises_run {α : Type} (script : Script α) : Moves World.Raises script.run := follows_raises.run script

/-- The budget is exact for every function in progress, whatever it has declared
    so far: another buffer is declared if there is one left and its bytes fit
    beside those in use, and refused, with nothing changed, if not. That is so
    as far as the bytes can be counted in a word; where they cannot, which is
    beyond every budget, the request ends in a fault instead. -/
theorem Emitter.allocate_exact {emitter : Emitter} {builder : FunctionBuilder} (dtype : DType) (layout : Layout)
    {length : Nat} (harises : emitter.Arises) (hcurrent : emitter.current = some builder)
    (hword : emitter.config.maxStorageBytes < Word.bound) (hlength : layout.memorySize = .ok length) :
    (builder.localBuffers.length < emitter.config.maxBuffers →
        builder.usedBytes + length * dtype.size ≤ emitter.config.maxStorageBytes →
          (Emit.allocate dtype layout).runFrom emitter = (.ok (.emittedBuffer dtype layout ⟨builder.buffers.size⟩),
            emitter.emitting { builder with
              buffers := builder.buffers.push ⟨⟨builder.buffers.size⟩, dtype, length, .own⟩ })) ∧
      (emitter.config.maxBuffers ≤ builder.localBuffers.length → (Emit.allocate dtype layout).runFrom emitter =
        (.error (.error (.resourceExhausted (.buffers builder.name builder.localBuffers.length))), emitter)) ∧
      (builder.localBuffers.length < emitter.config.maxBuffers →
        emitter.config.maxStorageBytes < builder.usedBytes + length * dtype.size →
          builder.usedBytes + length * dtype.size < Word.bound → (Emit.allocate dtype layout).runFrom emitter =
            (.error (.error (.resourceExhausted (.storage builder.name (builder.usedBytes + length * dtype.size)
              emitter.config.maxStorageBytes))), emitter)) ∧
      (builder.localBuffers.length < emitter.config.maxBuffers →
        Word.bound ≤ builder.usedBytes + length * dtype.size → (Emit.allocate dtype layout).runFrom emitter =
          (.error (.fault (if length * dtype.size < Word.bound then .addOverflow else .multiplyOverflow)), emitter)) := by
  have hused := (harises.inBudget builder hcurrent).totalBytes_eq
  have hneeded (hfits : builder.usedBytes + length * dtype.size < Word.bound) :
      (do Word.add builder.usedBytes (← Word.mul length dtype.size) : Except Fault Nat) =
        .ok (builder.usedBytes + length * dtype.size) := by
    rw [Word.mul_eq_ok_iff.mpr ⟨rfl, by omega⟩, ok_bind, Word.add_eq_ok_iff.mpr ⟨rfl, hfits⟩]
  refine ⟨fun hroom hfits => ?_, Emit.runFrom_allocate_of_full hcurrent, fun hroom hexceeds hfits => ?_,
    fun hroom hoverflows => ?_⟩
  · rw [Emit.runFrom_allocate_of_room hcurrent hroom hused hlength, hneeded (by omega)]
    simp only [if_neg (Nat.not_lt.mpr hfits)]
    rfl
  · rw [Emit.runFrom_allocate_of_room hcurrent hroom hused hlength, hneeded hfits]
    simp only [if_pos hexceeds]
  · rw [Emit.runFrom_allocate_of_room hcurrent hroom hused hlength]
    by_cases hrequested : length * dtype.size < Word.bound
    · rw [Word.mul_eq_ok_iff.mpr ⟨rfl, hrequested⟩, ok_bind, Word.add, if_neg (Nat.not_lt.mpr hoverflows), if_pos hrequested]
    · rw [Word.mul, if_neg hrequested, error_bind, if_neg hrequested]

namespace Emitter

/-- A function that has declared eight bytes less than the budget. -/
def ladenBuilder : FunctionBuilder where
  name := "f"
  symbol := "m_f"
  parameters := []
  returnType := none
  buffers := #[⟨⟨0⟩, .i64, 131071, .own⟩]

/-- An emitter that has the function in progress. -/
def laden : Emitter := { moduleName := "m", current := some ladenBuilder, scope := 1 }

theorem arises_laden : laden.Arises :=
  ((arises_new "m" {}).step (.begin { name := "f" })).step (.perform (.allocate .i64 ⟨[131071], [1]⟩))

/-- One more element fits, which fills the budget to the last byte, and two do
    not. -/
theorem allocate_exact_laden :
    (∃ after, (Emit.allocate .i64 ⟨[1], [1]⟩).runFrom laden = (.ok (.emittedBuffer .i64 ⟨[1], [1]⟩ ⟨1⟩), after)) ∧
      (Emit.allocate .i64 ⟨[2], [1]⟩).runFrom laden =
        (.error (.error (.resourceExhausted (.storage "f" 1048584 1048576))), laden) := by
  obtain ⟨hfits, -, -, -⟩ := allocate_exact .i64 ⟨[1], [1]⟩ arises_laden rfl (by decide) rfl
  obtain ⟨-, -, hexceeds, -⟩ := allocate_exact .i64 ⟨[2], [1]⟩ arises_laden rfl (by decide) rfl
  exact ⟨⟨_, hfits (by decide) (by decide)⟩, hexceeds (by decide) (by decide) (by decide)⟩

/-- Far more elements than fit, each of eight bytes, are not refused: their
    bytes cannot be counted in a word. -/
theorem allocate_overflows :
    laden.Arises ∧ laden.current = some ladenBuilder ∧ ladenBuilder.localBuffers.length < laden.config.maxBuffers ∧
      laden.config.maxStorageBytes < ladenBuilder.usedBytes + 2 ^ 62 * DType.i64.size ∧
      (⟨[2 ^ 62], [1]⟩ : Layout).memorySize = .ok (2 ^ 62) ∧
      (Emit.allocate .i64 ⟨[2 ^ 62], [1]⟩).runFrom laden = (.error (.fault .multiplyOverflow), laden) :=
  ⟨arises_laden, rfl, by decide, by decide, rfl, rfl⟩

end Emitter

end StagedArrays
