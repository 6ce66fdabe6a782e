import StagedArrays.Proofs.Code.Failing
import StagedArrays.Proofs.Script.Steps
import StagedArrays.Proofs.Script.Symbols

namespace StagedArrays

open Stateful (Fails)

/-- Parameters whose sizes can be told are bound, or there is an error. There is
    no fault other than an overflow of their sizes. -/
theorem FunctionBuilder.bindParameters_fails {types : List ValueType}
    (hsizes : ∀ type ∈ types, type.pointerLevel ≠ 0 → ∃ size, type.layout.memorySize = .ok size) (index : Nat)
    (builder : FunctionBuilder) : FailsOnly Failure.IsError (bindParameters index types builder) := by
  induction types generalizing index builder with
  | nil => exact .ok _
  | cons type types ih =>
    have hrest (builder : FunctionBuilder) := ih (fun other hmem => hsizes other (.tail _ hmem)) (index + 1) builder
    rw [bindParameters]
    split
    · refine .bind (.mapError (.any _) fun _ _ => trivial) fun _ => .bind (.ok _) ?_
      rintro ⟨value, next⟩
      exact .bind (hrest next) fun _ => .ok _
    · next hlevel =>
      obtain ⟨size, hsize⟩ := hsizes type (.head _) hlevel
      rw [hsize, liftM_fault_ok, ok_bind]
      refine .bind (.ok _) ?_
      rintro ⟨value, next⟩
      exact .bind (hrest next) fun _ => .ok _

namespace Emitter

variable {emitter : Emitter}

/-- Without a function in progress there is an error, and nothing else can go
    wrong. -/
theorem fails_builder : Fails Failure.IsError builder := by
  unfold builder
  refine .bind .get fun emitter => ?_
  split
  · exact .pure _
  · exact .fail trivial

/-- An operand is recorded, or there is an error: immediates and registers need
    no arithmetic. -/
theorem fails_operand (value : Value) : Fails Failure.IsError (Emit.operand value) := by
  unfold Emit.operand
  refine .bind (.lift (.mapError (.any _) fun _ _ => trivial)) fun _ => ?_
  split
  · exact .pure _
  · exact .pure _
  · exact .bind (.bind fails_builder fun _ => .bind (.modify _) fun _ => .pure _) fun _ => .pure _
  · exact .fail trivial

/-- To read the result of a function may be an error, but breaks nothing off.
    The definition ends with the error then. -/
theorem fails_resultOperand (function : FunctionDeclaration) (result : Option Value) :
    Fails Failure.IsError (resultOperand function result) := by
  unfold resultOperand
  split
  · exact .bind (.lift (.mapError (.any _) fun _ _ => trivial)) fun _ => .bind (fails_operand _) fun _ => .pure _
  · exact .pure _
  · exact .fail trivial
  · exact .fail trivial

/-- An emitter without a function starts one if its parameters can be bound.
    Otherwise the emitter is left as it was. -/
theorem runFrom_startFunction_of_none (hcurrent : emitter.current = none) (function : FunctionDeclaration) :
    (startFunction function).runFrom emitter =
      match FunctionBuilder.start function emitter.moduleName with
      | .ok (parameters, builder) => (.ok parameters, { emitter with current := some builder, scope := emitter.scope + 1 })
      | .error failure => (.error failure, emitter) := by
  cases hstart : FunctionBuilder.start function emitter.moduleName <;>
    simp [startFunction, Stateful.runFrom_bind, hcurrent, hstart]

theorem runFrom_startFunction_of_ne_none (hcurrent : emitter.current ≠ none) (function : FunctionDeclaration) :
    (startFunction function).runFrom emitter = (.error (.error (.invalidArgument .nestedDefinition)), emitter) := by
  simp [startFunction, Stateful.runFrom_bind, Option.isSome_iff_ne_none.mpr hcurrent]

theorem runFrom_finish_of_none (hcurrent : emitter.current = none) :
    finish.runFrom emitter = (.ok ⟨emitter.moduleName, emitter.functions.toList⟩, emitter) := by
  simp [finish, Stateful.runFrom_bind, hcurrent]

theorem runFrom_finish_of_ne_none (hcurrent : emitter.current ≠ none) :
    finish.runFrom emitter = (.error (.error (.invalidArgument .finishWhileEmitting)), emitter) := by
  simp [finish, Stateful.runFrom_bind, Option.isSome_iff_ne_none.mpr hcurrent]

/-- Loops that are opened leave what is recorded for good as it is. They concern
    the function in progress only. -/
theorem eq_of_openLoops {after : Emitter} {extents : List Nat} {registers : List RegisterId}
    (h : (Emit.openLoops extents).runFrom emitter = (.ok registers, after)) :
    after.functions = emitter.functions ∧ after.settings = emitter.settings := by
  cases hcurrent : emitter.current with
  | none =>
    obtain rfl : after = emitter := by simpa [h] using Journal.openLoops_of_none hcurrent extents
    exact ⟨rfl, rfl⟩
  | some builder =>
    have hopened := runFrom_openLoops emitter builder extents
    rw [emitting_eq hcurrent] at hopened
    cases h.symm.trans hopened
    exact ⟨rfl, rfl⟩

/-- An emitter has recorded further functions, each under the name and the
    symbol of its declaration. -/
def Gains (emitter after : Emitter) (declarations : List FunctionDeclaration) : Prop :=
  ∃ added : List EmittedFunction, after.functions.toList = emitter.functions.toList ++ added ∧
    List.Forall₂ (fun function declaration =>
      function.name = declaration.name ∧ function.symbol = declaration.symbol emitter.moduleName) added declarations

/-- Functions gained later come after those gained before. Nothing is ever taken
    away. -/
theorem Gains.trans {after final : Emitter} {declarations more : List FunctionDeclaration} (h : emitter.Gains after declarations)
    (hsettings : after.settings = emitter.settings) (h' : after.Gains final more) :
    emitter.Gains final (declarations ++ more) := by
  obtain ⟨added, hadded, hnamed⟩ := h
  obtain ⟨last, hlast, hnamed'⟩ := h'
  rw [show after.moduleName = emitter.moduleName from congrArg Prod.fst hsettings] at hnamed'
  exact ⟨added ++ last, by rw [hlast, hadded, List.append_assoc], List.rel_append hnamed hnamed'⟩

end Emitter

namespace Journal

/-- The world in which the body of a function begins. The emitter has a draft,
    and its context is the active one. -/
def beginning (world : World Journal) (id : EmitterId) (function : FunctionDeclaration) (parameters : List Value)
    (builder : FunctionBuilder) : World Journal :=
  drafting { starting world id builder with contexts := .emitter id :: world.contexts } id function parameters

end Journal

namespace World

/-- No emitter is taken away. So a name that stood for one does so for good. -/
def Enlarges {σ : Type} (world after : World σ) : Prop := world.emitters.size ≤ after.emitters.size

instance {σ : Type} : IsPreorder (World σ) Enlarges where
  refl _ := Nat.le_refl _
  trans _ _ _ := Nat.le_trans

/-- No operation takes an emitter away. -/
theorem follows_enlarges : Script.Follows (Enlarges (σ := Journal)) where
  same _ _ hsame := Nat.le_of_eq (congrArg Array.size hsame.symm)
  step _ _ _ _ := Nat.le_of_eq (Array.size_setIfInBounds).symm
  push _ _ _ := by
    rw [Enlarges, Array.size_push]
    exact Nat.le_succ _

/-- The worlds that programs come to, between any two steps and where the body
    of a function or of a nest of loops begins. -/
inductive Reached : World Journal → Prop where
  | outset (heap : Heap) : Reached (outset heap)
  | run {α : Type} {world : World Journal} (before : Reached world) (script : Script α) : Reached (script.run.runFrom world).2
  | body {world : World Journal} {id : EmitterId} {function : FunctionDeclaration} {parameters : List Value}
      {builder : FunctionBuilder} (before : Reached world) (idle : (world.emitterAt id).current = none)
      (start_eq : FunctionBuilder.start function (world.emitterAt id).moduleName = .ok (parameters, builder)) :
      Reached (Journal.beginning world id function parameters builder)
  | loops {world : World Journal} {id : EmitterId} {extents : List Nat} {registers : List RegisterId} {emitter : Emitter}
      (before : Reached world) (open_eq : (Emit.openLoops extents).runFrom (world.emitterAt id) = (.ok registers, emitter)) :
      Reached ((world.replaced id emitter).amended id (·.extend [.opened (registers.map (Scalar.ofRegister .i64))]))

variable {world : World Journal} {id : EmitterId}

/-- Another emitter may change, and the notes on this one stay true; also this
    one may, apart from its functions and settings. -/
theorem documented_replaced {other : EmitterId} {emitter : Emitter} (h : world.Documented id)
    (hsame : emitter.functions = (world.emitterAt other).functions ∧ emitter.settings = (world.emitterAt other).settings) :
    (world.replaced other emitter).Documented id := by
  refine documented_congr world ?_ ?_ rfl h
  all_goals
    rw [emitterAt_replaced]
    split
    · next hand => simp only [hand.1, hsame]
    · rfl

/-- Wherever a program is, the functions that an emitter has recorded are
    noted. -/
theorem Reached.documented (h : world.Reached) (id : EmitterId) : world.Documented id := by
  induction h with
  | outset heap => exact .nil
  | run _ script ih => exact (script.leads id _).documented ih
  | @body world other function parameters builder _ _ _ ih =>
    have hstarted : (Journal.starting world other builder).Documented id := documented_replaced ih ⟨rfl, rfl⟩
    refine documented_congr (Journal.starting world other builder) rfl rfl ?_ hstarted
    by_cases heq : id = other
    · rw [heq, Journal.beginning, Journal.client_drafting]
    · rw [Journal.beginning, Journal.drafting, client_amended_of_ne _ heq]
  | loops _ hopen ih => exact Journal.documented_amended_extend _ (documented_replaced ih (Emitter.eq_of_openLoops hopen))

/-- No function is in progress: the next one can be started, and a module that
    is finished consists of the functions recorded so far. -/
structure Ready (id : EmitterId) (world : World Journal) : Prop where
  starts : ∀ function, (Action.onEmitter id (Emitter.startFunction function)).runFrom world =
    match FunctionBuilder.start function (world.emitterAt id).moduleName with
    | .ok (parameters, builder) => (.ok parameters, Journal.starting world id builder)
    | .error failure => (.error failure, world)
  finishes : (Action.finishModule id).runFrom world =
    (.ok ⟨(world.emitterAt id).moduleName, (world.emitterAt id).functions.toList⟩, world)
  noted : List.Forall₂ (EmittedFunction.NamedAfter (world.emitterAt id).moduleName)
    (world.emitterAt id).functions.toList (world.client id).recorded

/-- A function is in progress: nobody can define another one or finish the
    module, and to try changes nothing. No program puts the function away or
    records another one. -/
structure Engaged (id : EmitterId) (world : World Journal) : Prop where
  define : ∀ function action, (Journal.define id function action).runFrom world =
    (.error (.error (.invalidArgument .nestedDefinition)), world)
  finish : (Action.finishModule id).runFrom world = (.error (.error (.invalidArgument .finishWhileEmitting)), world)
  lasts : ∀ {α : Type} (script : Script α) (outcome : Except (Failure ValueError) α) (after : World Journal),
    script.run.runFrom world = (outcome, after) → (∀ fault, outcome ≠ .error (.fault fault)) →
      (after.emitterAt id).current ≠ none ∧ (after.emitterAt id).functions = (world.emitterAt id).functions ∧
        (after.client id).recorded = (world.client id).recorded

/-- An emitter without a function in progress is ready for the next one and for
    the end of its module. -/
theorem Documented.ready (h : world.Documented id) (hidle : (world.emitterAt id).current = none) : world.Ready id := by
  refine ⟨fun function => ?_, ?_, h.forall₂_namedAfter⟩
  · rw [Action.runFrom_onEmitter_eq, Emitter.runFrom_startFunction_of_none hidle]
    rcases FunctionBuilder.start function (world.emitterAt id).moduleName with failure | ⟨parameters, builder⟩
    · exact Prod.ext rfl (world.replaced_emitterAt id)
    · rfl
  · rw [Action.finishModule, Action.runFrom_onEmitter_eq, Emitter.runFrom_finish_of_none hidle, replaced_emitterAt]

/-- An emitter with a function in progress refuses a second one and refuses to
    finish. Operations go into the function in progress and no function is
    added. -/
theorem engaged_of_ne_none (hcurrent : (world.emitterAt id).current ≠ none) : world.Engaged id := by
  refine ⟨fun function action => ?_, ?_, fun script outcome after hrun hfault => ?_⟩
  · refine Stateful.runFrom_bind_of_error (Stateful.runFrom_bind_of_error ?_ _) _
    rw [Action.runFrom_onEmitter_eq, Emitter.runFrom_startFunction_of_ne_none hcurrent, replaced_emitterAt]
  · rw [Action.finishModule, Action.runFrom_onEmitter_eq, Emitter.runFrom_finish_of_ne_none hcurrent, replaced_emitterAt]
  · obtain ⟨builder, hbuilder⟩ := Option.ne_none_iff_exists'.mp hcurrent
    have hproceeds := (script.leads id world).proceeds
    rw [hrun] at hproceeds
    obtain ⟨hfunctions, -, hrecorded⟩ := (hproceeds hfault).eq_of_some hbuilder
    exact ⟨(hproceeds hfault).isSome_current hbuilder, hfunctions, hrecorded⟩

end World

namespace Script

/-- A program returns, with a result or an error, with so many contexts
    entered. -/
structure Returned {α : Type} (depth : Nat) (run : Except (Failure ValueError) α × World Journal) : Prop where
  outcome : FailsOnly Failure.IsError run.1
  length_contexts : run.2.contexts.length = depth

end Script

namespace Journal

/-- The body of a function returns, if it can begin, and in the contexts that it
    has begun in. -/
def Concludes (id : EmitterId) (function : FunctionDeclaration) (action : List Value → Action Journal (Option Value))
    (world : World Journal) : Prop :=
  ∀ parameters builder, FunctionBuilder.start function (world.emitterAt id).moduleName = .ok (parameters, builder) →
    Script.Returned (world.contexts.length + 1) ((action parameters).runFrom (beginning world id function parameters builder))

/-- What a body has led to: a failure, or what is read as its result. It is read
    before the emitter ends the function. -/
def resultOf (id : EmitterId) (function : FunctionDeclaration) :
    Except (Failure ValueError) (Option Value) × World Journal → Except (Failure ValueError) (Option Operand)
  | (.error failure, _) => .error failure
  | (.ok result, inner) => ((Emitter.resultOperand function result).runFrom (inner.emitterAt id)).1

/-- What a definition comes to. It succeeds if the parameters can be bound, and
    the body returns a result as declared. -/
def conclusion (id : EmitterId) (function : FunctionDeclaration) (action : List Value → Action Journal (Option Value))
    (world : World Journal) : Except (Failure ValueError) Unit :=
  match FunctionBuilder.start function (world.emitterAt id).moduleName with
  | .error failure => .error failure
  | .ok (parameters, builder) =>
    discard (resultOf id function ((action parameters).runFrom (beginning world id function parameters builder)))

/-- How a definition ends: with one function more, which is as it is declared,
    or with none. Either way none is in progress. -/
structure Settled (id : EmitterId) (function : FunctionDeclaration) (world : World Journal)
    (run : Except (Failure ValueError) Unit × World Journal) : Prop where
  length_contexts : run.2.contexts.length = world.contexts.length
  settings_eq : (run.2.emitterAt id).settings = (world.emitterAt id).settings
  idle : (run.2.emitterAt id).current = none
  appended : run.1 = .ok () → ∃ added transcript, transcript.declared = function ∧
    added.NamedAfter (world.emitterAt id).moduleName transcript ∧
    (run.2.emitterAt id).functions = (world.emitterAt id).functions.push added ∧
    (run.2.client id).recorded = (world.client id).recorded ++ [transcript]
  kept : run.1 ≠ .ok () → (run.2.emitterAt id).functions = (world.emitterAt id).functions ∧
    (run.2.client id).recorded = (world.client id).recorded

variable {id : EmitterId} {world : World Journal} {function : FunctionDeclaration} {parameters : List Value}
  {builder : FunctionBuilder} {action : List Value → Action Journal (Option Value)}

/-- A body that returns is followed by its result being read, which keeps to the
    function that is in progress. -/
theorem exists_returned (world : World Journal)
    (h : ∀ parameters world, World.Leads id world ((action parameters).runFrom world))
    (hcurrent : (world.emitterAt id).current = some builder)
    (hreturned : Script.Returned world.contexts.length ((action parameters).runFrom (drafting world id function parameters))) :
    ∃ outcome after, (do
        let result ← body id function action parameters
        Action.onEmitter id (Emitter.resultOperand function result)).runFrom world = (outcome, after) ∧
      outcome = resultOf id function ((action parameters).runFrom (drafting world id function parameters)) ∧
      Ended id function parameters world after outcome ∧ Script.Returned world.contexts.length (outcome, after) ∧
      (after.client id).draft.declared = function := by
  obtain ⟨outcome, after, hrun, hended⟩ := exists_ended h parameters world
  have hproceeds := (h parameters (drafting world id function parameters)).proceeds fun fault heq =>
    hreturned.outcome _ heq
  have hdeclared : (((action parameters).runFrom (drafting world id function parameters)).2.client id).draft.declared =
      function := by
    obtain ⟨events, f, -, -, hpage⟩ := (Emitter.proceeds_iff hcurrent).mp hproceeds
    rw [hpage, client_drafting]
    rfl
  refine ⟨outcome, after, hrun, ?_⟩
  rw [Stateful.runFrom_bind, runFrom_body, ← drafting] at hrun
  rcases hbody : (action parameters).runFrom (drafting world id function parameters) with ⟨failure | result, inner⟩
  all_goals rw [hbody] at hrun hreturned hdeclared
  · cases hrun
    exact ⟨rfl, hended, ⟨.of_error (hreturned.outcome failure rfl), hreturned.length_contexts⟩, hdeclared⟩
  · cases hrun
    refine ⟨rfl, hended, ⟨Emitter.fails_resultOperand function result _, hreturned.length_contexts⟩, ?_⟩
    have hpage (events : List EmitterEvent) :
        ((inner.amended id (·.extend events)).client id).draft.declared = (inner.client id).draft.declared := by
      rw [World.client_amended_self]
      rfl
    exact (hpage _).trans hdeclared

/-- A definition whose body cannot begin ends at once. The emitter is left as it
    was. -/
theorem runFrom_define_of_start_error {failure : Failure ValueError} (hidle : (world.emitterAt id).current = none)
    (hstart : FunctionBuilder.start function (world.emitterAt id).moduleName = .error failure) :
    (define id function action).runFrom world = (.error failure, world) := by
  refine Stateful.runFrom_bind_of_error (Stateful.runFrom_bind_of_error ?_ _) _
  rw [Action.runFrom_onEmitter_eq, Emitter.runFrom_startFunction_of_none hidle, hstart]
  exact Prod.ext rfl (world.replaced_emitterAt id)

/-- The emitter puts the function in progress away, and keeps it if its body has
    led to a result. -/
theorem settled_endFunction (after : World Journal) {outcome : Except (Failure ValueError) (Option Operand)} {f : Fragment}
    {scope : Nat} (hstart : FunctionBuilder.start function (world.emitterAt id).moduleName = .ok (parameters, builder))
    (hemitter : after.emitterAt id = { world.emitterAt id with scope := scope }.emitting (builder.extend f))
    (hrecorded : (after.client id).recorded = (world.client id).recorded)
    (hdeclared : (after.client id).draft.declared = function)
    (hreturned : Script.Returned world.contexts.length (outcome, after)) :
    let run := (do
      Action.onEmitter id (Emitter.endFunction outcome)
      amend id fun page => { page with recorded := page.recorded ++ [page.draft] }).runFrom after
    Settled id function world run ∧ run.1 = discard outcome := by
  obtain ⟨hname, hsymbol⟩ := FunctionBuilder.names_bindParameters hstart
  have hreplaced (emitter : Emitter) : (after.replaced id emitter).emitterAt id = emitter :=
    World.emitterAt_replaced_of_current (congrArg Emitter.current hemitter) _
  rw [Stateful.runFrom_bind, Action.runFrom_onEmitter_eq, hemitter]
  cases outcome with
  | error failure =>
    rw [Emitter.runFrom_endFunction_of_error]
    refine ⟨⟨hreturned.length_contexts, ?_, ?_, (fun hok => nomatch hok), fun _ => ⟨?_, hrecorded⟩⟩, rfl⟩
    all_goals
      rw [hreplaced]
      rfl
  | ok operand =>
    rw [Emitter.runFrom_endFunction_of_ok (FunctionBuilder.blocks_start hstart)]
    dsimp only
    rw [runFrom_amend]
    refine ⟨⟨hreturned.length_contexts, ?_, ?_, fun _ => ?_, fun hne => (hne rfl).elim⟩, rfl⟩
    · rw [World.emitterAt_amended, hreplaced]
      rfl
    · rw [World.emitterAt_amended, hreplaced]
      rfl
    · refine ⟨builder.finished f operand, (after.client id).draft, hdeclared, ⟨?_, ?_⟩, ?_, ?_⟩
      · rw [hdeclared]
        exact hname
      · rw [hdeclared]
        exact hsymbol
      · rw [World.emitterAt_amended, hreplaced]
      · rw [World.client_amended_self, ← hrecorded]
        rfl

/-- A definition whose body returns ends with the function recorded or with the
    failure of the body. -/
theorem settled_define_of_start (h : ∀ parameters world, World.Leads id world ((action parameters).runFrom world))
    (hlt : id.index < world.emitters.size) (hidle : (world.emitterAt id).current = none)
    (hstart : FunctionBuilder.start function (world.emitterAt id).moduleName = .ok (parameters, builder))
    (hreturned : Script.Returned (world.contexts.length + 1)
      ((action parameters).runFrom (beginning world id function parameters builder))) :
    Settled id function world ((define id function action).runFrom world) ∧
      ((define id function action).runFrom world).1 =
        discard (resultOf id function ((action parameters).runFrom (beginning world id function parameters builder))) := by
  have hstarted : (starting world id builder).emitterAt id =
      { world.emitterAt id with current := some builder, scope := (world.emitterAt id).scope + 1 } := by
    rw [starting, World.emitterAt_replaced, if_pos ⟨rfl, hlt⟩]
  have hcurrent : ((starting world id builder).emitterAt id).current = some builder := congrArg Emitter.current hstarted
  have hrun := Emitter.runFrom_startFunction_of_none hidle function
  rw [hstart] at hrun
  obtain ⟨outcome, inner, hbody, hresult, hended, houtcome, hdeclared⟩ := exists_returned
    { starting world id builder with contexts := .emitter id :: (starting world id builder).contexts } h hcurrent hreturned
  have hno : ∀ fault, outcome ≠ .error (.fault fault) := fun fault heq => houtcome.outcome _ heq
  obtain ⟨hrecorded, f, hemitter⟩ := hended.emitting hno builder hcurrent
  obtain ⟨hsettled, hdiscard⟩ := settled_endFunction { inner with contexts := inner.contexts.tail } hstart
    (hemitter.trans (congrArg (·.emitting (builder.extend f)) hstarted)) hrecorded hdeclared
    ⟨houtcome.outcome, by rw [List.length_tail, houtcome.length_contexts]; rfl⟩
  rw [runFrom_define_of_start hrun (Action.runFrom_withContext_of_length_eq hbody houtcome.length_contexts)]
  have hdiscarded := hdiscard.trans (congrArg discard hresult)
  rcases outcome with (cause | fault) | operand
  · exact ⟨hsettled, hdiscarded⟩
  · exact (hno fault rfl).elim
  · exact ⟨hsettled, hdiscarded⟩

/-- A definition comes to what its parameters, its body and its result lead
    to. -/
theorem settled_define (h : ∀ parameters world, World.Leads id world ((action parameters).runFrom world))
    (hlt : id.index < world.emitters.size) (hidle : (world.emitterAt id).current = none)
    (hconcludes : Concludes id function action world) :
    Settled id function world ((define id function action).runFrom world) ∧
      ((define id function action).runFrom world).1 = conclusion id function action world := by
  unfold conclusion
  cases hstart : FunctionBuilder.start function (world.emitterAt id).moduleName with
  | error failure =>
    rw [runFrom_define_of_start_error hidle hstart]
    exact ⟨⟨rfl, rfl, hidle, (fun hok => nomatch hok), fun _ => ⟨rfl, rfl⟩⟩, rfl⟩
  | ok started =>
    obtain ⟨parameters, builder⟩ := started
    exact settled_define_of_start h hlt hidle hstart (hconcludes parameters builder hstart)

/-- A definition breaks off only if the size of a parameter cannot be told. All
    else that goes wrong is an error. -/
theorem conclusion_fails (hconcludes : Concludes id function action world)
    (hsizes : ∀ type ∈ function.parameters, type.pointerLevel ≠ 0 → ∃ size, type.layout.memorySize = .ok size) :
    FailsOnly Failure.IsError (conclusion id function action world) := by
  unfold conclusion
  cases hstart : FunctionBuilder.start function (world.emitterAt id).moduleName with
  | error failure => exact .of_error (FunctionBuilder.bindParameters_fails hsizes 0 _ failure hstart)
  | ok started =>
    obtain ⟨parameters, builder⟩ := started
    have hreturned := hconcludes parameters builder hstart
    refine .bind ?_ fun _ => .ok _
    rcases hrun : (action parameters).runFrom (beginning world id function parameters builder) with ⟨failure | result, inner⟩
    · exact .of_error (hreturned.outcome failure (congrArg Prod.fst hrun))
    · exact Emitter.fails_resultOperand function result _

/-- What has been declared in the calls that have succeeded, in order. The calls
    that have failed leave nothing. -/
def succeeded (calls : List (FunctionDeclaration × Except (Failure ValueError) Unit)) : List FunctionDeclaration :=
  (calls.filter fun call => call.2.isOk).map Prod.fst

/-- A definition gains its function exactly if it succeeds. If it fails, the
    functions recorded are those of before. -/
theorem Settled.gains {outcome : Except (Failure ValueError) Unit} {after : World Journal}
    (h : Settled id function world (outcome, after)) :
    (world.emitterAt id).Gains (after.emitterAt id) (succeeded [(function, outcome)]) := by
  cases outcome with
  | error failure =>
    obtain ⟨hfunctions, -⟩ := h.kept nofun
    exact ⟨[], by rw [List.append_nil, ← hfunctions], .nil⟩
  | ok u =>
    obtain ⟨added, transcript, rfl, hnamed, hfunctions, -⟩ := h.appended rfl
    exact ⟨[added], by rw [hfunctions, Array.toList_push], .cons hnamed .nil⟩

/-- Definitions one after another, of bodies that return, and what each has come
    to. -/
inductive Series (id : EmitterId) :
    World Journal → List (FunctionDeclaration × Except (Failure ValueError) Unit) → World Journal → Prop where
  | nil (world : World Journal) : Series id world [] world
  | cons {world after final : World Journal} {function : FunctionDeclaration} {body : List Value → Script (Option Value)}
      {outcome : Except (Failure ValueError) Unit} {calls : List (FunctionDeclaration × Except (Failure ValueError) Unit)}
      (concludes : Concludes id function (fun parameters => (body parameters).run) world)
      (run_eq : (define id function fun parameters => (body parameters).run).runFrom world = (outcome, after))
      (rest : Series id after calls final) : Series id world ((function, outcome) :: calls) final

/-- The functions of a series are those of the definitions that have succeeded,
    whatever became of the others. -/
theorem Series.gains {calls : List (FunctionDeclaration × Except (Failure ValueError) Unit)} {final : World Journal}
    (h : Series id world calls final) (hdocumented : world.Documented id) (hlt : id.index < world.emitters.size)
    (hidle : (world.emitterAt id).current = none) :
    final.Ready id ∧ (world.emitterAt id).Gains (final.emitterAt id) (succeeded calls) := by
  induction h with
  | nil world => exact ⟨hdocumented.ready hidle, [], (List.append_nil _).symm, .nil⟩
  | @cons world after final function body outcome calls hconcludes hrun rest ih =>
    have hleads (parameters : List Value) (world : World Journal) := (body parameters).leads id world
    obtain ⟨hsettled, -⟩ := settled_define hleads hlt hidle hconcludes
    have hafter := (leads_define id function hleads world).documented hdocumented
    have henlarges := World.follows_enlarges.define id function (fun parameters => World.follows_enlarges.run (body parameters)) world
    rw [hrun] at hsettled hafter henlarges
    obtain ⟨hready, hgains⟩ := ih hafter (Nat.lt_of_lt_of_le hlt henlarges) hsettled.idle
    refine ⟨hready, ?_⟩
    have hcalls : succeeded ((function, outcome) :: calls) = succeeded [(function, outcome)] ++ succeeded calls := by
      rw [succeeded, ← List.singleton_append, List.filter_append, List.map_append]
      rfl
    rw [hcalls]
    exact hsettled.gains.trans hsettled.settings_eq hgains

end Journal

namespace World

/-- Defining a function is all or nothing. Where none is in progress, a
    definition whose body leaves the contexts as it has found them ends with one
    function more, if the body returns a result as declared, or else with a
    failure and the functions as they were; it breaks off only if the size of a
    parameter cannot be told. Either way the next one can be started, and after
    any number of them a module that is finished consists of the functions that
    have been defined. A body begins with its function in progress, and while
    that is so another definition fails, finishing fails, and neither changes
    anything. -/
theorem Reached.define_all_or_nothing {world : World Journal} (h : world.Reached) {id : EmitterId}
    (hlt : id.index < world.emitters.size) :
    ((world.emitterAt id).current = none →
      (∀ (function : FunctionDeclaration) (body : List Value → Script (Option Value)),
        Journal.Concludes id function (fun parameters => (body parameters).run) world →
        let run := (Journal.define id function fun parameters => (body parameters).run).runFrom world
        Journal.Settled id function world run ∧ run.2.Ready id ∧
          run.1 = Journal.conclusion id function (fun parameters => (body parameters).run) world ∧
          ((∀ type ∈ function.parameters, type.pointerLevel ≠ 0 → ∃ size, type.layout.memorySize = .ok size) →
            FailsOnly Failure.IsError run.1)) ∧
      ∀ calls final, Journal.Series id world calls final →
        final.Ready id ∧ (world.emitterAt id).Gains (final.emitterAt id) (Journal.succeeded calls)) ∧
    ((world.emitterAt id).current ≠ none → world.Engaged id) ∧
    ∀ (function : FunctionDeclaration) (parameters : List Value) (builder : FunctionBuilder),
      ((Journal.beginning world id function parameters builder).emitterAt id).current ≠ none := by
  refine ⟨fun hidle => ⟨fun function body hconcludes => ?_, fun calls final hseries =>
    hseries.gains (h.documented id) hlt hidle⟩, engaged_of_ne_none, fun function parameters builder => ?_⟩
  · have hleads (parameters : List Value) (world : World Journal) := (body parameters).leads id world
    obtain ⟨hsettled, hconclusion⟩ := Journal.settled_define hleads hlt hidle hconcludes
    have hdocumented := (Journal.leads_define id function hleads world).documented (h.documented id)
    refine ⟨hsettled, hdocumented.ready hsettled.idle, hconclusion, fun hsizes => ?_⟩
    rw [hconclusion]
    exact Journal.conclusion_fails hconcludes hsizes
  · have hcurrent : ((Journal.starting world id builder).emitterAt id).current = some builder := by
      rw [Journal.starting, emitterAt_replaced, if_pos ⟨rfl, hlt⟩]
    exact ne_of_eq_of_ne hcurrent (Option.some_ne_none builder)

end World

namespace Script

/-- Finishes a module. -/
def finishing (id : EmitterId) : Aside EmittedModule where
  action := Action.finishModule id
  emitters_eq world := by
    rw [Action.finishModule, Action.runFrom_onEmitter_eq]
    by_cases hcurrent : (world.emitterAt id).current = none
    · rw [Emitter.runFrom_finish_of_none hcurrent, World.replaced_emitterAt]
    · rw [Emitter.runFrom_finish_of_ne_none hcurrent, World.replaced_emitterAt]
  client_eq _ := rfl

/-- Enters a context. A guard is handed out for it. -/
def entering (context : Context) : Aside Guard where
  action := Action.enter context
  emitters_eq _ := rfl
  client_eq _ := rfl

/-- Defines a function in a new module. -/
def single : Script Unit :=
  newEmitter "m" {} fun id =>
    define id (integerDeclaration "a" .decorated) (fun _ => done (.ok (some (.constant (.i32 1))))) done

/-- The world in which that function is defined. -/
@[irreducible]
def defined : World Journal := (single.run.runFrom (.outset ⟨#[]⟩)).2

theorem reached_defined : defined.Reached := by
  rw [defined]
  exact .run (.outset _) _

/-- Tries to define another function and to finish the module, and returns an
    integer all the same. -/
def meddling (_ : List Value) : Script (Option Value) :=
  define ⟨0⟩ (integerDeclaration "c" .decorated) (fun _ => done (.ok none)) fun _ =>
    aside (finishing ⟨0⟩) fun _ => done (.ok (some (.constant (.i32 2))))

/-- The names of the functions in a module that is finished, or the failure. -/
def finishedNames (id : EmitterId) (world : World Journal) : Except (Failure ValueError) (List String) :=
  ((Action.finishModule id).runFrom world).1.map fun module => module.functions.map (·.name)

/-- What comes of defining another function with a given body. The world is the
    one with a function already in it. -/
def attempted (world : World Journal) (body : List Value → Script (Option Value)) :
    Except (Failure ValueError) Unit × World Journal :=
  (Journal.define ⟨0⟩ (integerDeclaration "b" .decorated) fun parameters => (body parameters).run).runFrom world

/-- Whether that body ends with a result and in the contexts that it has begun
    in. -/
def concludes? (world : World Journal) (body : List Value → Script (Option Value)) : Bool :=
  match FunctionBuilder.start (integerDeclaration "b" .decorated) (world.emitterAt ⟨0⟩).moduleName with
  | .error _ => true
  | .ok (parameters, builder) =>
    let run := (body parameters).run.runFrom
      (Journal.beginning world ⟨0⟩ (integerDeclaration "b" .decorated) parameters builder)
    run.1.isOk && run.2.contexts.length == world.contexts.length + 1

/-- The condition on the course of a body can be checked by running it. This
    serves in examples. -/
theorem concludes_of_concludes? {world : World Journal} {body : List Value → Script (Option Value)}
    (h : concludes? world body = true) :
    Journal.Concludes ⟨0⟩ (integerDeclaration "b" .decorated) (fun parameters => (body parameters).run) world := by
  intro parameters builder hstart
  simp only [concludes?, hstart, Bool.and_eq_true, beq_iff_eq] at h
  obtain ⟨hok, hlength⟩ := h
  refine ⟨fun failure hfailure => ?_, hlength⟩
  rw [hfailure] at hok
  cases hok

/-- A body that returns nothing leaves the functions as they were, and one that
    meddles with its emitter adds its own all the same, before or after the
    other. -/
theorem define_all_or_nothing_meddling :
    (attempted defined meddling).1 = .ok () ∧
      Journal.Settled ⟨0⟩ (integerDeclaration "b" .decorated) defined (attempted defined meddling) ∧
      finishedNames ⟨0⟩ (attempted defined meddling).2 = .ok ["a", "b"] ∧
      let failed := (attempted defined fun _ => done (.ok none)).2
      let final := (attempted failed meddling).2
      Journal.Series ⟨0⟩ defined [(integerDeclaration "b" .decorated, .error (.error (.invalidArgument (.missingResult "b")))),
        (integerDeclaration "b" .decorated, .ok ())] final ∧
        final.Ready ⟨0⟩ ∧ finishedNames ⟨0⟩ final = .ok ["a", "b"] ∧
        (defined.emitterAt ⟨0⟩).Gains (final.emitterAt ⟨0⟩) [integerDeclaration "b" .decorated] := by
  have hlt : (⟨0⟩ : EmitterId).index < defined.emitters.size := by decide +kernel
  have hcurrent : (defined.emitterAt ⟨0⟩).current.isNone = true := by decide +kernel
  obtain ⟨hidle, -, -⟩ := World.Reached.define_all_or_nothing reached_defined hlt
  obtain ⟨hdefine, hseries⟩ := hidle (Option.isNone_iff_eq_none.mp hcurrent)
  obtain ⟨hsettled, -, -, -⟩ := hdefine _ meddling (concludes_of_concludes? (by decide +kernel))
  have hfails : (attempted defined fun _ => done (.ok none)).1 = .error (.error (.invalidArgument (.missingResult "b"))) := by
    decide +kernel
  have hadds : (attempted (attempted defined fun _ => done (.ok none)).2 meddling).1 = .ok () := by decide +kernel
  have hcalls : Journal.Series ⟨0⟩ defined _ (attempted (attempted defined fun _ => done (.ok none)).2 meddling).2 :=
    .cons (concludes_of_concludes? (by decide +kernel)) (Prod.ext hfails rfl)
      (.cons (concludes_of_concludes? (by decide +kernel)) (Prod.ext hadds rfl) (.nil _))
  obtain ⟨hready, hgains⟩ := hseries _ _ hcalls
  exact ⟨by decide +kernel, hsettled, by decide +kernel, hcalls, hready, by decide +kernel, hgains⟩

/-- Enters a context, and returns an integer without having left it. The guard
    is not dropped. -/
def straying (_ : List Value) : Script (Option Value) :=
  aside (entering .compute) fun _ => done (.ok (some (.constant (.i32 2))))

/-- Takes a buffer of two elements whose span exceeds a word. So its size cannot
    be told. -/
def unwieldyDeclaration : FunctionDeclaration :=
  { integerDeclaration "b" .decorated with parameters := [.pointer .i32 ⟨[2], [2 ^ 64 - 1]⟩] }

/-- Where a body returns in another context than it has begun in, the definition
    breaks off and the function stays in progress. It breaks off before the body
    begins where the size of a parameter overflows. -/
theorem define_broken_off :
    defined.Reached ∧ (defined.emitterAt ⟨0⟩).current.isNone = true ∧
      (FunctionBuilder.start (integerDeclaration "b" .decorated) (defined.emitterAt ⟨0⟩).moduleName).toOption.map (fun started =>
        ((straying started.1).run.runFrom
          (Journal.beginning defined ⟨0⟩ (integerDeclaration "b" .decorated) started.1 started.2)).1) =
            some (.ok (some (.constant (.i32 2)))) ∧
      (attempted defined straying).1 = .error (.fault (.guardOutOfOrder 2 1)) ∧
      ((attempted defined straying).2.emitterAt ⟨0⟩).current.isSome = true ∧
      finishedNames ⟨0⟩ (attempted defined straying).2 = .error (.error (.invalidArgument .finishWhileEmitting)) ∧
      ((Journal.define ⟨0⟩ unwieldyDeclaration fun _ => (done (.ok none)).run).runFrom defined).1 =
        .error (.fault .addOverflow) :=
  ⟨reached_defined, by decide +kernel⟩

end Script

end StagedArrays
