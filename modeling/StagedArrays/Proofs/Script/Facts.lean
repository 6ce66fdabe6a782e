import StagedArrays.Proofs.Script.Execution

namespace StagedArrays

namespace Numeric

/-- A coordinate below an extent. It is read as a position, which fails for
    negative numbers. -/
def Below (extent : Nat) (x : Numeric) : Prop := ∃ index, x.asIndex = .ok index ∧ index < extent

/-- A 64-bit integer up to a bound. It may be negative. -/
def UpTo (bound : Int) (x : Numeric) : Prop := ∃ value, x = .i64 value ∧ value.toInt ≤ bound

variable {x y z : Numeric} {a b : Int}

theorem UpTo.mono (h : x.UpTo a) (hle : a ≤ b) : x.UpTo b := by
  obtain ⟨value, rfl, hvalue⟩ := h
  exact ⟨value, rfl, by omega⟩

/-- A natural number that is wrapped into a word with a sign is no greater than
    it was. -/
theorem toInt_ofNat_le (n : Nat) : (Int64.ofNat n).toInt ≤ n := by
  rw [Int64.toInt_ofNat']
  have hle : (n : Int) % Int64.size ≤ n := by exact_mod_cast Nat.mod_le n Int64.size
  rw [Int.bmod_def]
  split <;> omega

theorem upTo_ofIndex (n : Nat) : (ofIndex n).UpTo n := ⟨_, rfl, toInt_ofNat_le n⟩

/-- An upper bound of an immediate is one of the position that it stands for. A
    position is never negative. -/
theorem UpTo.le_of_asIndex {index : Nat} (h : x.UpTo a) (hindex : x.asIndex = .ok index) : (index : Int) ≤ a := by
  obtain ⟨value, rfl, hvalue⟩ := h
  have hsigned := signed_of_asIndex hindex
  have heq := eq_ofIndex_of_asIndex rfl hindex
  rw [ofIndex, i64.injEq] at heq
  rwa [heq, toInt_ofNat_of_signed hsigned] at hvalue

/-- Integers are combined exactly. If the exact result does not fit, there is
    none. -/
theorem exists_of_binary {u v : Int64} {op : BinaryOp} (h : (i64 u).binary op (i64 v) = .ok z) :
    ∃ w, z = .i64 w ∧ w.toInt = op.onInt u.toInt v.toInt := by
  obtain ⟨result, hresult, h⟩ := bind_eq_ok_iff.mp h
  cases h
  unfold BinaryOp.checked at hresult
  split at hresult
  · cases hresult
  · dsimp only at hresult
    split at hresult
    · next hrange =>
      cases hresult
      refine ⟨_, rfl, Int64.toInt_ofInt_of_le ?_ ?_⟩
      · exact hrange.1
      · have hmax := hrange.2
        rw [Int64.toInt_maxValue] at hmax
        omega
    · cases hresult

/-- Bounds of 64-bit integers add up. The addition is checked, so that it cannot
    wrap around. -/
theorem upTo_add (hx : x.UpTo a) (hy : y.UpTo b) (h : x.binary .add y = .ok z) : z.UpTo (a + b) := by
  obtain ⟨u, rfl, hu⟩ := hx
  obtain ⟨v, rfl, hv⟩ := hy
  obtain ⟨w, rfl, hw⟩ := exists_of_binary h
  refine ⟨w, rfl, ?_⟩
  rw [hw, BinaryOp.onInt]
  omega

/-- A coordinate times an increment leads no further than the last coordinate
    does. -/
theorem upTo_mul {extent increment : Nat} (hx : x.Below extent) (h : x.binary .mul (ofIndex increment) = .ok z) :
    0 < extent ∧ z.UpTo (((extent - 1) * increment : Nat) : Int) := by
  obtain ⟨index, hindex, hlt⟩ := hx
  have hdtype : x.dtype = .i64 := (dtype_of_binary h).1.symm
  have hsigned := signed_of_asIndex hindex
  rw [eq_ofIndex_of_asIndex hdtype hindex] at h
  obtain ⟨w, rfl, hw⟩ := exists_of_binary h
  refine ⟨by omega, w, rfl, ?_⟩
  rw [hw, BinaryOp.onInt, toInt_ofNat_of_signed hsigned]
  have hincrement := Int.mul_le_mul_of_nonneg_left (toInt_ofNat_le increment) (Int.natCast_nonneg index)
  have hstep : index * increment ≤ (extent - 1) * increment := Nat.mul_le_mul_right increment (by omega)
  have hstep' : ((index * increment : Nat) : Int) ≤ (((extent - 1) * increment : Nat) : Int) := Int.ofNat_le.mpr hstep
  rw [Int.natCast_mul] at hstep'
  omega

end Numeric

/-- What is known about the contents of registers, and how many are in use.
    Later registers are left for later. -/
structure Facts where
  about : RegisterId → Numeric → Prop
  count : Nat

namespace Facts

/-- More is known, about more registers, but nothing else about those that have
    been in use. -/
structure Extends (facts later : Facts) : Prop where
  count_le : facts.count ≤ later.count
  about_eq : ∀ id : RegisterId, id.index < facts.count → later.about id = facts.about id

instance : IsPreorder Facts Extends where
  refl _ := ⟨Nat.le_refl _, fun _ _ => rfl⟩
  trans _ _ _ h h' := ⟨Nat.le_trans h.count_le h'.count_le, fun id hlt =>
    (h'.about_eq id (Nat.lt_of_lt_of_le hlt h.count_le)).trans (h.about_eq id hlt)⟩

/-- Something is learned about the next register. It counts as in use from then
    on. -/
def learn (facts : Facts) (fact : Numeric → Prop) : Facts where
  about id := if id.index = facts.count then fact else facts.about id
  count := facts.count + 1

/-- Nothing is known about a number of further registers. They count as in use
    from then on. -/
def take (facts : Facts) (count : Nat) : Facts where
  about id := if facts.count ≤ id.index then fun _ => True else facts.about id
  count := facts.count + count

theorem extends_learn (facts : Facts) (fact : Numeric → Prop) : facts.Extends (facts.learn fact) := by
  refine ⟨Nat.le_succ _, fun id hlt => ?_⟩
  exact if_neg (Nat.ne_of_lt hlt)

theorem about_learn (facts : Facts) (fact : Numeric → Prop) : (facts.learn fact).about ⟨facts.count⟩ = fact := if_pos rfl

theorem extends_take (facts : Facts) (count : Nat) : facts.Extends (facts.take count) := by
  refine ⟨Nat.le_add_right _ _, fun id hlt => ?_⟩
  exact if_neg (Nat.not_le_of_lt hlt)

end Facts

/-- A frame whose registers are as is known. A register that is not assigned
    satisfies anything. -/
def Frame.Satisfies (frame : Frame) (facts : Facts) : Prop :=
  ∀ (id : RegisterId) (x : Numeric), frame.registers[id]? = some x → facts.about id x

/-- What a rank-0 value stands for at some point of an execution. It may change
    as the execution goes on. -/
def Running.denotes? (running : Running) (value : Value) : Option Numeric :=
  match value.data with
  | .constant x => some x
  | .register id => running.frame.registers[id]?
  | .buffer id offset =>
    match running.frame.address id offset with
    | .ok (ref, index) => (running.heap.get ref).get? index
    | .error _ => none
  | .host .. => none

/-- Whatever an operand stands for has a property, at any point where a promise
    is kept and registers are as is known. -/
structure Operand.Yields (facts : Facts) (promise : Running → Prop) (property : Numeric → Prop) (operand : Operand) :
    Prop where
  constant : ∀ x, operand = .constant x → property x
  execution : ∀ later, facts.Extends later → ∀ running, promise running → running.frame.Satisfies later →
    ∀ x, running.frame.operand operand = .ok x → property x

namespace Operand

variable {facts facts' : Facts} {promise : Running → Prop} {property property' : Numeric → Prop}
  {operand : Operand}

/-- A constant has the properties of its number, whatever else is known. -/
theorem yields_constant {x : Numeric} (h : property x) : (constant x).Yields facts promise property := by
  refine ⟨fun y heq => ?_, fun later _ running _ _ y heq => ?_⟩
  · cases heq
    exact h
  · cases heq
    exact h

/-- What is known about a register is known of an operand that reads it. The
    register has to be in use. -/
theorem yields_register {id : RegisterId} (hlt : id.index < facts.count) (h : ∀ x, facts.about id x → property x) :
    (register id).Yields facts promise property := by
  refine ⟨fun _ heq => (nomatch heq), fun later hextends running _ hsatisfies x heq => h x ?_⟩
  rw [← hextends.about_eq id hlt]
  refine hsatisfies id x ?_
  rw [Frame.operand] at heq
  split at heq
  · next found hfound =>
    cases heq
    exact hfound
  · cases heq

/-- What an operand yields it yields where more is known. The registers that it
    reads are the same. -/
theorem Yields.extend (hextends : facts.Extends facts') (h : operand.Yields facts promise property) :
    operand.Yields facts' promise property where
  constant := h.constant
  execution later hlater := h.execution later (trans_of Facts.Extends hextends hlater)

/-- What holds anywhere holds where more is promised. The promise is about the
    point that an execution has come to. -/
theorem Yields.promised (h : operand.Yields facts (fun _ => True) property) : operand.Yields facts promise property where
  constant := h.constant
  execution later hlater running _ := h.execution later hlater running trivial

/-- What yields one property yields each that follows from it. The promise is
    the same. -/
theorem Yields.imp (himp : ∀ x, property x → property' x) (h : operand.Yields facts promise property) :
    operand.Yields facts promise property' where
  constant x heq := himp x (h.constant x heq)
  execution later hlater running hrunning hsatisfies x hx :=
    himp x (h.execution later hlater running hrunning hsatisfies x hx)

end Operand

/-- Whether an instruction that is executed then leaves registers as is known,
    and stores only inside a buffer. -/
def Instruction.Keeps (declared : List BufferDeclaration) (facts : Facts) (running : Running) : Instruction → Prop
  | .binary output op a b => ∀ x y z, running.frame.operand a = .ok x → running.frame.operand b = .ok y →
      x.binary op y = .ok z → facts.about output z
  | .load output buffer offset => ∀ ref index z, running.frame.address buffer offset = .ok (ref, index) →
      (running.heap.get ref).get? index = some z → facts.about output z
  | .store buffer offset _ => ∀ x distance, running.frame.operand offset = .ok x → x.asIndex = .ok distance →
      ∃ declaration ∈ declared, declaration.id = buffer ∧ distance < declaration.length
  | .loop .. => True
  | .call .. => False

namespace Emitter

/-- Whatever an action records keeps to what is known by then, at any point
    where a promise is kept, and its result is as described with what is known
    then. -/
def Certifies {α : Type} (emitter : Emitter) (builder : FunctionBuilder) (declared : List BufferDeclaration)
    (facts : Facts) (promise : Running → Prop) (action : EmitterM α) (post : α → Facts → Prop) : Prop :=
  emitter.Adds builder action fun outcome f => ∃ facts', facts.Extends facts' ∧ facts'.count = facts.count + f.registers ∧
    (∀ later, facts'.Extends later → ∀ running, promise running → running.frame.Satisfies later →
      ∀ instruction ∈ f.code, instruction.Keeps declared later running) ∧
    ∀ result, outcome = .ok result → post result facts'

namespace Certifies

variable {α β : Type} {emitter : Emitter} {builder : FunctionBuilder} {declared : List BufferDeclaration} {facts : Facts}
  {promise : Running → Prop} {action : EmitterM α} {post : α → Facts → Prop}

theorem pure {value : α} (h : post value facts) :
    emitter.Certifies builder declared facts promise (Pure.pure value) post := by
  refine Adds.pure ⟨facts, refl_of Facts.Extends facts, rfl, ?_, ?_⟩
  · intro later _ running _ _ instruction hmem
    cases hmem
  · rintro _ ⟨⟩
    exact h

theorem fail {cause : ValueError} :
    emitter.Certifies builder declared facts promise (Stateful.fail cause) post := by
  refine Adds.fail ⟨facts, refl_of Facts.Extends facts, rfl, ?_, ?_⟩
  · intro later _ running _ _ instruction hmem
    cases hmem
  · rintro _ ⟨⟩

/-- What only computes records nothing. What comes after is certified for each
    value it may have. -/
theorem lift_bind {m : Type → Type} [MonadLiftT m (Except (Failure ValueError))] {x : m α} {next : α → EmitterM β}
    {post : β → Facts → Prop}
    (h : ∀ value, (liftM x : Outcome α) = .ok value → emitter.Certifies builder declared facts promise (next value) post) :
    emitter.Certifies builder declared facts promise (liftM x >>= next) post := by
  refine Adds.lift_bind (fun failure => ⟨facts, refl_of Facts.Extends facts, rfl, ?_, ?_⟩) h
  · intro later _ running _ _ instruction hmem
    cases hmem
  · rintro _ ⟨⟩

/-- The rest of a sequence may rely on what is known after its first part. The
    count of known registers is that of the builder, so that nothing known is
    said of a register yet to come. -/
theorem bind {next : α → EmitterM β} {post' : β → Facts → Prop} (hcount : facts.count = builder.nextRegister)
    (h : emitter.Certifies builder declared facts promise action post)
    (hnext : ∀ value builder facts', facts.Extends facts' → facts'.count = builder.nextRegister → post value facts' →
      emitter.Certifies builder declared facts' promise (next value) post') :
    emitter.Certifies builder declared facts promise (action >>= next) post' := by
  refine Adds.bind h (fun failure f hpost => ?_) fun value f hpost => ?_
  · obtain ⟨facts', hextends, hcount', hkeeps, -⟩ := hpost
    exact ⟨facts', hextends, hcount', hkeeps, fun _ heq => nomatch heq⟩
  · obtain ⟨facts', hextends, hcount', hkeeps, hpost⟩ := hpost
    have hcount'' : facts'.count = (builder.extend f).nextRegister := by
      rw [hcount', hcount, FunctionBuilder.nextRegister_extend]
    refine (hnext value _ facts' hextends hcount'' (hpost value rfl)).mono fun outcome g hpost' => ?_
    obtain ⟨facts'', hextends', hregisters, hkeeps', hpost'⟩ := hpost'
    refine ⟨facts'', trans_of Facts.Extends hextends hextends', ?_, ?_, hpost'⟩
    · rw [hregisters, hcount', Fragment.append, Nat.add_assoc]
    · intro later hlater running hpromise hsatisfies instruction hmem
      rcases List.mem_append.mp hmem with hmem | hmem
      · exact hkeeps later (trans_of Facts.Extends hextends' hlater) running hpromise hsatisfies instruction hmem
      · exact hkeeps' later hlater running hpromise hsatisfies instruction hmem

/-- Making something of a result records nothing more. -/
theorem map {k : α → β} {post' : β → Facts → Prop} (hcount : facts.count = builder.nextRegister)
    (h : emitter.Certifies builder declared facts promise action post)
    (hpost : ∀ value facts, post value facts → post' (k value) facts) :
    emitter.Certifies builder declared facts promise (do return k (← action)) post' :=
  h.bind hcount fun value _ facts' _ _ hvalue => .pure (hpost value facts' hvalue)

/-- Something is learned about the result of an instruction. It has to follow
    from what is known of the operands. -/
theorem emitWithOutput {instruction : RegisterId → Instruction} (fact : Numeric → Prop)
    (hcount : facts.count = builder.nextRegister)
    (h : ∀ later, facts.Extends later → later.about ⟨facts.count⟩ = fact → ∀ running, promise running →
      running.frame.Satisfies later → (instruction ⟨facts.count⟩).Keeps declared later running) :
    emitter.Certifies builder declared facts promise (Emitter.emitWithOutput instruction)
      fun output facts' => (Operand.register output).Yields facts' (fun _ => True) fact := by
  rw [← bind_pure (Emitter.emitWithOutput instruction)]
  refine Adds.emitWithOutput_bind (.pure ?_)
  rw [Fragment.append_empty, ← hcount]
  refine ⟨facts.learn fact, facts.extends_learn fact, rfl, ?_, ?_⟩
  · intro later hlater running hpromise hsatisfies found hmem
    cases List.mem_singleton.mp hmem
    refine h later (trans_of Facts.Extends (facts.extends_learn fact) hlater) ?_ running hpromise hsatisfies
    rw [hlater.about_eq ⟨facts.count⟩ (Nat.lt_succ_self _), Facts.about_learn]
  · rintro _ ⟨⟩
    refine Operand.yields_register (Nat.lt_succ_self _) fun x hx => ?_
    rwa [Facts.about_learn] at hx

/-- An instruction that assigns nothing. -/
theorem emit {instruction : Instruction}
    (h : ∀ later, facts.Extends later → ∀ running, promise running → running.frame.Satisfies later →
      instruction.Keeps declared later running) :
    emitter.Certifies builder declared facts promise (do setBuilder ((← Emitter.builder).emit instruction))
      fun _ _ => True := by
  refine Adds.builder_bind (Adds.setBuilder_emit ⟨facts, refl_of Facts.Extends facts, rfl, ?_, fun _ _ => trivial⟩)
  intro later hlater running hpromise hsatisfies found hmem
  cases List.mem_singleton.mp hmem
  exact h later hlater running hpromise hsatisfies

/-- What holds of two operands tells what holds of the result of combining
    them. -/
theorem binaryOperand {op : BinaryOp} {a b : Operand} {p q r : Numeric → Prop} (hcount : facts.count = builder.nextRegister)
    (ha : a.Yields facts promise p) (hb : b.Yields facts promise q)
    (h : ∀ x y z, p x → q y → x.binary op y = .ok z → r z) :
    emitter.Certifies builder declared facts promise (Emitter.binaryOperand op a b)
      fun operand facts' => operand.Yields facts' (fun _ => True) r := by
  unfold Emitter.binaryOperand
  split
  · next x y =>
    refine lift_bind fun z hz => .pure (Operand.yields_constant ?_)
    exact h x y z (ha.constant x rfl) (hb.constant y rfl) (liftM_error_eq_ok_iff.mp hz)
  · refine .map hcount (.emitWithOutput r hcount ?_) fun output facts' hyields => hyields
    intro later hlater habout running hpromise hsatisfies x y z hx hy hz
    rw [habout]
    exact h x y z (ha.execution later hlater running hpromise hsatisfies x hx)
      (hb.execution later hlater running hpromise hsatisfies y hy) hz

end Certifies

end Emitter

end StagedArrays
