import Mathlib.Data.List.GetD
import StagedArrays.Proofs.Program.Elementwise

namespace StagedArrays

open Stateful (Moves)

/-- An operation on whole arrays. Variables are numbered from the first, and an
    operation that has a result adds one variable to them. -/
inductive BulkOp where
  | allocate (dtype : DType) (shape : Shape)
  | view (source : Nat) (shape : Shape)
  /-- Copies element by element, for the coordinates of a shape. -/
  | copy (shape : Shape) (destination source : Nat)
  /-- Combines element by element. A source that is spread is combined with
      every element. -/
  | update (op : BinaryOp) (shape : Shape) (spread : Bool) (destination source : Nat)

namespace BulkOp

variable {σ : Type}

/-- The variable of a given number. -/
def lookup (env : List Value) (index : Nat) : Value := env.getD index (.constant default)

/-- Carries an operation out in a context, and gives the variables after it. An
    allocation adds one, and any other operation leaves them as they are. -/
def perform (context : Context) (env : List Value) : BulkOp → Action σ (List Value)
  | allocate dtype shape => do return env ++ [← context.allocate dtype shape.toLayout]
  | view source shape => do
    return env ++ [← .onHeap do (lookup env source).withLayout (← get) shape.toLayout]
  | copy shape destination source => do
    context.forEach shape.toLayout (Elementwise.copyAt context (lookup env destination) (lookup env source))
    return env
  | update op shape spread destination source => do
    context.forEach shape.toLayout
      (Elementwise.updateWith context op spread (lookup env destination) (lookup env source))
    return env

/-- Carries operations out one after another. It stops at the first that
    fails. -/
def performAll (context : Context) : List BulkOp → List Value → Action σ (List Value)
  | [], env => return env
  | op :: ops, env => do performAll context ops (← op.perform context env)

/-- The variable of a given number as a program names it, among so many. A
    number that is too large stands for an immediate. -/
def term (n index : Nat) : Term n := if h : index < n then .bound ⟨index, h⟩ else .immediate default

/-- The program that carries operations out. It has no result, and writes to its
    variables. -/
def program : List BulkOp → (n : Nat) → Program n
  | [], _ => .done none
  | .allocate dtype shape :: ops, n => .allocate dtype shape (program ops (n + 1))
  | .view source shape :: ops, n => .view (term n source) shape (program ops (n + 1))
  | .copy shape destination source :: ops, n =>
    .forEach shape (.copyElement shape.rank (term n destination) (term n source)) (program ops n)
  | .update op shape spread destination source :: ops, n =>
    .forEach shape (.updateElement shape.rank op spread (term n destination) (term n source)) (program ops n)

variable {context : Context} {env : List Value} {n : Nat}

/-- Operations in two lists are carried out one list after the other. The
    variables are handed on. -/
theorem performAll_append (context : Context) (ops ops' : List BulkOp) (env : List Value) :
    (performAll context (ops ++ ops') env : Action σ (List Value)) =
      performAll context ops env >>= performAll context ops' := by
  induction ops generalizing env with
  | nil => exact (pure_bind env _).symm
  | cons op ops ih => simp only [List.cons_append, performAll, ih, bind_assoc]

/-- Such a program takes storage outside its loops only. -/
theorem straight_program (ops : List BulkOp) (n : Nat) : (program ops n).Straight false := by
  induction ops generalizing n with
  | nil => trivial
  | cons op ops ih =>
    cases op with
    | allocate dtype shape => exact ⟨rfl, ih _⟩
    | view source shape => exact ih _
    | copy shape destination source => exact ⟨trivial, ih _⟩
    | update op shape spread destination source => cases spread <;> exact ⟨trivial, ih _⟩

/-- A term for a value that is at hand stands for this value. -/
theorem value_term (h : env.length = n) (index : Nat) : (term n index).value (.ofList n env) = lookup env index := by
  unfold term lookup
  split
  · rfl
  · next hge => rw [List.getD_eq_default _ _ (h ▸ Nat.le_of_not_lt hge)]; rfl

/-- A further value goes behind those at hand, so that earlier terms still stand
    for what they did. -/
theorem push_ofList (h : env.length = n) (value : Value) :
    (Env.ofList n env).push value = .ofList (n + 1) (env ++ [value]) := by
  funext index
  refine Fin.addCases (fun index => ?_) (fun index => ?_) index
  · simp only [Env.push, Env.append, Fin.addCases_left, Env.ofList, Fin.val_castAdd]
    rw [List.getD_append _ _ _ _ (h ▸ index.isLt)]
  · simp only [Env.push, Env.append, Fin.addCases_right, Env.ofList, Fin.val_natAdd]
    rw [List.getD_append_right _ _ _ _ (h ▸ Nat.le_add_right _ _), h, Nat.add_sub_cancel_left]

/-- The program does what the operations do. It keeps a log besides, which the
    operations do not. -/
theorem mirrors_program [ArrayLibrary] (ops : List BulkOp) (h : env.length = n) :
    (performAll context ops env >>= fun _ => pure none : Action σ (Option Value)).Mirrors context
      ((program ops n).run false (.ofList n env)) := by
  induction ops generalizing n env with
  | nil => exact .pure none
  | cons op ops ih =>
    cases op with
    | allocate dtype shape =>
      simp only [performAll, perform, program, Program.run, bind_assoc, pure_bind]
      refine .bind (Program.mirrors_allocation dtype shape.toLayout) fun fresh => ?_
      rw [push_ofList h]
      exact ih (by rw [List.length_append, h, List.length_singleton])
    | view source shape =>
      simp only [performAll, perform, program, Program.run, bind_assoc, pure_bind, value_term h]
      refine .bind (.onHeap _) fun fresh => ?_
      rw [push_ofList h]
      exact ih (by rw [List.length_append, h, List.length_singleton])
    | copy shape destination source =>
      simp only [performAll, perform, program, Program.run, bind_assoc, pure_bind, ← value_term h]
      refine .activeContext_bind (.bind (Context.mirrors_forEach fun coordinates hlength => ?_) fun _ => ih h)
      exact Program.mirrors_copyAt _ _ _ hlength
    | update op shape spread destination source =>
      simp only [performAll, perform, program, Program.run, bind_assoc, pure_bind, ← value_term h]
      refine .activeContext_bind (.bind (Context.mirrors_forEach fun coordinates hlength => ?_) fun _ => ih h)
      exact Program.mirrors_updateWith _ _ _ _ _ hlength

/-- What every operation of a context respects, these do. They are made up of
    such operations. -/
theorem moves_perform {order : World σ → World σ → Prop} [IsPreorder (World σ) order] (h : Context.Follows order)
    (hallocate : ∀ (context : Context) (dtype : DType) (layout : Layout),
      Moves order (context.allocate dtype layout : Action σ Value))
    (context : Context) (env : List Value) (op : BulkOp) : Moves order (op.perform context env : Action σ (List Value)) := by
  cases op with
  | allocate dtype shape => exact .bind (hallocate context dtype _) fun _ => .pure _
  | view source shape => exact .bind (.of_eq fun _ => rfl) fun _ => .pure _
  | copy shape destination source =>
    exact .bind (h.forEach context _ fun coordinates => .bind (h.element context _ _) fun _ =>
      .bind (h.element context _ _) fun _ => .bind (h.load context _) fun _ => h.store context _ _) fun _ => .pure _
  | update op shape spread destination source =>
    refine .bind (h.forEach context _ fun coordinates => .bind (h.element context _ _) fun _ => ?_) fun _ => .pure _
    cases spread with
    | true => exact .bind (h.binary context op _ _) fun _ => h.store context _ _
    | false => exact .bind (h.element context _ _) fun _ => .bind (h.binary context op _ _) fun _ => h.store context _ _

/-- What each operation respects, all of them do. By induction on the list. -/
theorem moves_performAll {order : World σ → World σ → Prop} [IsPreorder (World σ) order] (h : Context.Follows order)
    (hallocate : ∀ (context : Context) (dtype : DType) (layout : Layout),
      Moves order (context.allocate dtype layout : Action σ Value))
    (context : Context) (ops : List BulkOp) (env : List Value) :
    Moves order (performAll context ops env : Action σ (List Value)) := by
  induction ops generalizing env with
  | nil => exact .pure env
  | cons op ops ih => exact .bind (moves_perform h hallocate context env op) fun _ => ih _

end BulkOp

end StagedArrays
