import StagedArrays.Proofs.Emission.Straight
import StagedArrays.Proofs.Program.Mirror

namespace StagedArrays

open StagedArrays.Action (Mirrors)

namespace Term

variable {n : Nat} {env : Env n}

/-- The same term where further variables are in scope. Variables are numbered
    from the outermost, so that its number stays. -/
def shift (count : Nat) : Term n → Term (n + count)
  | bound index => bound (index.castAdd count)
  | immediate x => immediate x

/-- The variable bound last. -/
def top : Term (n + 1) := bound (Fin.last n)

/-- The variables bound last, as many as there are coordinates. They are in the
    order of the dimensions. -/
def coordinates (n count : Nat) : List (Term (n + count)) := List.ofFn fun i => bound (i.natAdd n)

/-- A term means the same where further variables are in scope. Their values do
    not matter. -/
@[simp]
theorem value_shift (term : Term n) (count : Nat) (values : List Value) :
    (term.shift count).value (env.append count values) = term.value env := by
  cases term with
  | bound index => simp only [shift, value, Env.append, Fin.addCases_left]
  | immediate x => rfl

@[simp]
theorem value_shift_push (term : Term n) (value : Value) : (term.shift 1).value (env.push value) = term.value env :=
  term.value_shift 1 [value]

@[simp]
theorem value_top (value : Value) : top.value (env.push value) = value := by
  have hlast : Fin.last n = Fin.natAdd n (0 : Fin 1) := rfl
  simp only [top, Term.value, Env.push, Env.append, hlast, Fin.addCases_right]
  rfl

/-- The terms for the coordinates of a loop stand for the values that the loop
    has bound last. -/
theorem map_coordinates {count : Nat} {values : List Value} (h : values.length = count) :
    (coordinates n count).map (·.value (env.append count values)) = values := by
  subst h
  refine List.ext_getElem (by simp [coordinates]) fun index hlt hlt' => ?_
  simp only [coordinates, List.map_ofFn, List.getElem_ofFn, Function.comp_apply, value, Env.append, Fin.addCases_right,
    Env.ofList, List.getD_eq_getElem?_getD, List.getElem?_eq_getElem hlt', Option.getD_some]

/-- Terms stand for the same values where one more variable is in scope. The new
    one is not among them. -/
theorem map_shift_push (terms : List (Term n)) (value : Value) :
    (terms.map (shift 1)).map (·.value (env.push value)) = terms.map (·.value env) := by
  rw [List.map_map]
  exact List.map_congr_left fun term _ => term.value_shift_push value

end Term

namespace Program

variable {n : Nat} {σ : Type} {context : Context}

/-- An allocation is mirrored by the one that a program makes. Outside of loops
    nothing is noted. -/
theorem mirrors_allocation (dtype : DType) (layout : Layout) :
    (context.allocate dtype layout : Action σ Value).Mirrors context (allocation false dtype layout) := by
  refine .activeContext_bind ?_
  rw [← bind_pure (context.allocate dtype layout : Action σ Value)]
  exact .bind (Context.mirrors_allocate _ _) fun fresh => .note_bind _ (.pure fresh)

/-- So is the choice of an element. The program notes that its coordinates are
    read. -/
theorem mirrors_selection (source : Value) (coordinates : List Scalar) :
    (context.element source coordinates : Action σ Value).Mirrors context
      (selection source (coordinates.map Scalar.value)) :=
  .lift_bind (liftM_layoutError_eq_ok_iff.mpr (Comparison.scalarsOf_eq_ok.mpr rfl))
    (.note_bind _ (.activeContext_bind (Context.mirrors_element _ _)))

theorem mirrors_loading (source : Value) : (context.load source : Action σ Value).Mirrors context (loading source) :=
  .note_bind _ (.activeContext_bind (Context.mirrors_load _))

/-- And so is a store. The program notes what is read and what is written. -/
theorem mirrors_storing (destination source : Value) :
    (context.store destination source : Action σ Unit).Mirrors context (storing destination source) := by
  refine .note_bind _ (.activeContext_bind ?_)
  rw [← bind_pure (context.store destination source : Action σ Unit)]
  exact .bind (Context.mirrors_store _ _) fun _ => .note _

theorem mirrors_combination (op : BinaryOp) (a b : Value) :
    (context.binary op a b : Action σ Value).Mirrors context (combination op a b) :=
  .note_bind _ (.activeContext_bind (Context.mirrors_binary _ _ _))

/-- Copies the element at the coordinates bound last. Both elements are looked
    up by them, and one is loaded and stored to the other. -/
def copyElement (count : Nat) (destination source : Term n) : Program (n + count) :=
  .element (source.shift count) (Term.coordinates n count) <|
  .element ((destination.shift count).shift 1) ((Term.coordinates n count).map (Term.shift 1)) <|
  .load (Term.top.shift 1) <|
  .store (Term.top.shift 1) .top <|
  .done none

/-- Updates the element at the coordinates bound last, with a scalar or with the
    element of another value there. -/
def updateElement (count : Nat) (op : BinaryOp) (spread : Bool) (destination source : Term n) : Program (n + count) :=
  match spread with
  | true =>
    .element (destination.shift count) (Term.coordinates n count) <|
    .binary op .top ((source.shift count).shift 1) <|
    .store (Term.top.shift 1) .top <|
    .done none
  | false =>
    .element (destination.shift count) (Term.coordinates n count) <|
    .element ((source.shift count).shift 1) ((Term.coordinates n count).map (Term.shift 1)) <|
    .binary op (Term.top.shift 1) .top <|
    .store ((Term.top.shift 1).shift 1) .top <|
    .done none

end Program

namespace Elementwise

variable {σ : Type}

/-- Replaces one element by its combination with a source, which is itself the
    element if it is spread. -/
def updateWith (context : Context) (op : BinaryOp) (spread : Bool) (destination source : Value)
    (coordinates : List Scalar) : Action σ Unit := do
  let target ← context.element destination coordinates
  match spread with
  | true => context.store target (← context.binary op target source)
  | false =>
    let other ← context.element source coordinates
    context.store target (← context.binary op target other)

/-- One pass of an update reads its source at the same coordinates, or as a
    whole if that has rank 0. -/
theorem updateAt_eq (context : Context) (op : BinaryOp) (destination source : Value) :
    (updateAt context (context.binary op) destination source : List Scalar → Action σ Unit) =
      updateWith context op (decide (source.rank = 0)) destination source := by
  funext coordinates
  unfold updateAt updateWith sourceElement
  by_cases hrank : source.rank = 0
  · simp only [hrank, if_true, decide_true, pure_bind]
  · simp only [hrank, if_false, decide_false]

/-- An update that succeeds updates the elements one after another. -/
theorem runFrom_assignBinary_eq_ok {context : Context} {op : BinaryOp} {destination source : Value} {world final : World σ}
    (hactive : world.contexts.head? = some context) {u : Unit}
    (h : (assignBinary op destination source).runFrom world = (.ok u, final)) :
    (context.forEach destination.layout
      (updateWith context op (decide (source.rank = 0)) destination source)).runFrom world = (.ok (), final) := by
  unfold assignBinary update at h
  obtain ⟨_, _, hchecked, h⟩ := Stateful.runFrom_bind_eq_ok.mp h
  rw [Stateful.runFrom_liftM, Prod.mk.injEq] at hchecked
  obtain ⟨-, rfl⟩ := hchecked
  split at h
  · rw [Stateful.runFrom_bind_of_ok (Action.runFrom_activeContext hactive)] at h
    rw [← updateAt_eq]
    exact h
  · cases h

end Elementwise

namespace Program

variable {n : Nat} {σ : Type} {context : Context}

/-- One pass of a copy has a program for its shadow: one that takes an element
    of each operand, loads and stores. -/
theorem mirrors_copyAt [ArrayLibrary] (destination source : Term n) (env : Env n) {count : Nat} {coordinates : List Scalar}
    (hlength : coordinates.length = count) :
    (Elementwise.copyAt context (destination.value env) (source.value env) coordinates : Action σ Unit).Mirrors context
      (discard ((copyElement count destination source).run true (env.append count (coordinates.map Scalar.value)))) := by
  have hcoordinates : (Term.coordinates n count).map (·.value (env.append count (coordinates.map Scalar.value))) =
      coordinates.map Scalar.value := Term.map_coordinates (by rw [List.length_map, hlength])
  simp only [copyElement, run, Term.map_shift_push, hcoordinates, Term.value_shift, Term.value_shift_push, Term.value_top]
  refine .discard_bind (mirrors_selection _ _) fun item => .discard_bind (mirrors_selection _ _) fun target =>
    .discard_bind (mirrors_loading _) fun x => .discard_done (mirrors_storing _ _) none

/-- One pass of an update has a program for its shadow too. It reads both
    elements, combines them and stores. -/
theorem mirrors_updateWith [ArrayLibrary] (op : BinaryOp) (spread : Bool) (destination source : Term n) (env : Env n) {count : Nat}
    {coordinates : List Scalar} (hlength : coordinates.length = count) :
    (Elementwise.updateWith context op spread (destination.value env) (source.value env) coordinates :
      Action σ Unit).Mirrors context (discard
        ((updateElement count op spread destination source).run true (env.append count (coordinates.map Scalar.value)))) := by
  have hcoordinates : (Term.coordinates n count).map (·.value (env.append count (coordinates.map Scalar.value))) =
      coordinates.map Scalar.value := Term.map_coordinates (by rw [List.length_map, hlength])
  cases spread with
  | true =>
    simp only [updateElement, run, hcoordinates, Term.value_shift, Term.value_shift_push, Term.value_top]
    refine .discard_bind (mirrors_selection _ _) fun target => .discard_bind (mirrors_combination _ _ _) fun x =>
      .discard_done (mirrors_storing _ _) none
  | false =>
    simp only [updateElement, run, Term.map_shift_push, hcoordinates, Term.value_shift, Term.value_shift_push,
      Term.value_top]
    refine .discard_bind (mirrors_selection _ _) fun target => .discard_bind (mirrors_selection _ _) fun other =>
      .discard_bind (mirrors_combination _ _ _) fun x => .discard_done (mirrors_storing _ _) none

end Program

end StagedArrays
