import StagedArrays.Proofs.Script.Facts

namespace StagedArrays

open Layout (reach)

namespace Value

/-- A value of storage whose place leaves room for its layout in the buffer. -/
def Seated (declared : List BufferDeclaration) (facts : Facts) (value : Value) : Prop :=
  ∀ id place, value.data = .buffer id place → ∃ declaration ∈ declared, declaration.id = id ∧
    ∃ size, value.layout.memorySize = .ok size ∧
      place.Yields facts (fun _ => True) (Numeric.UpTo (declaration.length - size))

/-- The same storage seen through a layout that reaches no further. The
    increments may be any. -/
structure Refits (source value : Value) : Prop where
  data_eq : value.data = source.data
  formed : value.layout.Formed
  size_le : ∃ size size', source.layout.memorySize = .ok size ∧ value.layout.memorySize = .ok size' ∧ size' ≤ size

variable {declared : List BufferDeclaration} {facts facts' : Facts} {value source : Value}

theorem mem_toOption_iff {size : Nat} {found : Except Fault Nat} : size ∈ found.toOption ↔ found = .ok size := by
  cases found <;> simp [Except.toOption]

/-- Whether a value is another one seen through a layout that reaches no
    further, in terms of layouts. -/
theorem refits_iff : source.Refits value ↔ value.data = source.data ∧
    value.layout.increments.length = value.layout.extents.length ∧
      ∃ size ∈ source.layout.memorySize.toOption, ∃ size' ∈ value.layout.memorySize.toOption, size' ≤ size := by
  simp only [mem_toOption_iff]
  constructor
  · rintro ⟨hdata, hformed, size, size', hsize, hsize', hle⟩
    exact ⟨hdata, hformed, size, hsize, size', hsize', hle⟩
  · rintro ⟨hdata, hformed, size, hsize, size', hsize', hle⟩
    exact ⟨hdata, hformed, size, size', hsize, hsize', hle⟩

instance (source value : Value) : Decidable (source.Refits value) := decidable_of_iff' _ refits_iff

/-- A value stays in its seat where more is known. Its buffer is the same. -/
theorem Seated.mono (hextends : facts.Extends facts') (h : value.Seated declared facts) : value.Seated declared facts' := by
  intro id place hdata
  obtain ⟨declaration, hmem, hid, size, hsize, hplace⟩ := h id place hdata
  exact ⟨declaration, hmem, hid, size, hsize, hplace.extend hextends⟩

/-- A value that refits one that is seated is seated, as its layout reaches no
    further. -/
theorem Seated.refit (h : source.Seated declared facts) (hrefits : source.Refits value) : value.Seated declared facts := by
  intro id place hdata
  obtain ⟨size, size', hsize, hsize', hle⟩ := hrefits.size_le
  obtain ⟨declaration, hmem, hid, found, hfound, hplace⟩ := h id place (hrefits.data_eq ▸ hdata)
  cases hfound.symm.trans hsize
  refine ⟨declaration, hmem, hid, size', hsize', hplace.imp fun x hx => ?_⟩
  exact hx.mono (by omega)

/-- A value that is not in storage needs no seat. Immediates and registers are
    of this kind. -/
theorem seated_of_isAddressable_eq_false (h : value.isAddressable = false) : value.Seated declared facts := by
  intro id place hdata
  rw [isAddressable, hdata] at h
  cases h

end Value

namespace Emit

variable {emitter : Emitter} {builder : FunctionBuilder} {declared : List BufferDeclaration} {facts : Facts}
  {promise : Running → Prop}

/-- What is promised of a value holds of its operand. -/
theorem certifies_operand {value : Value} (property : Numeric → Prop) (hcount : facts.count = builder.nextRegister)
    (hconstant : ∀ x, value.data = .constant x → property x)
    (hpromise : ∀ running, promise running → ∀ x, running.denotes? value = some x → property x) :
    emitter.Certifies builder declared facts promise (operand value)
      fun operand facts' => operand.Yields facts' promise property := by
  refine .lift_bind fun _ _ => ?_
  split
  · next x hdata => exact .pure (Operand.yields_constant (hconstant x hdata))
  · next id hdata =>
    refine .pure ⟨fun _ heq => (nomatch heq), fun later _ running hrunning _ x hx => hpromise running hrunning x ?_⟩
    rw [Frame.operand] at hx
    split at hx
    · next found hfound =>
      cases hx
      rw [Running.denotes?, hdata]
      exact hfound
    · cases hx
  · next id offset hdata =>
    refine .map hcount (.emitWithOutput property hcount ?_) fun output facts' hyields => ?_
    · intro later _ habout running hrunning _ ref index z haddress hget
      rw [habout]
      refine hpromise running hrunning z ?_
      rw [Running.denotes?, hdata]
      simp only [haddress, hget]
    · exact hyields.promised
  · exact .fail

/-- Nothing needs to be promised of a value that is no coordinate. -/
theorem certifies_operand_of_any (value : Value) (hcount : facts.count = builder.nextRegister) :
    emitter.Certifies builder declared facts promise (operand value) fun _ _ => True :=
  (certifies_operand (fun _ => True) hcount (fun _ _ => trivial) fun _ _ _ _ => trivial).mono
    fun _ _ ⟨facts', hextends, hregisters, hkeeps, _⟩ => ⟨facts', hextends, hregisters, hkeeps, fun _ _ => trivial⟩

/-- The code for a coordinate keeps it below the extent if the promise is that
    the coordinate is in bounds. -/
theorem certifies_indexOperand {coordinate : Scalar} (extent : Nat) (hcount : facts.count = builder.nextRegister)
    (hpromise : ∀ running, promise running → ∀ x, running.denotes? coordinate.value = some x → x.Below extent) :
    emitter.Certifies builder declared facts promise (indexOperand coordinate extent)
      fun operand facts' => operand.Yields facts' promise (Numeric.Below extent) := by
  unfold indexOperand
  split
  · refine .lift_bind fun index hindex => ?_
    have hsigned := Numeric.signed_of_asIndex (liftM_error_eq_ok_iff.mp hindex)
    split
    · exact .fail
    · next hlt =>
      exact .pure (Operand.yields_constant ⟨index, Numeric.asIndex_ofIndex hsigned, Nat.lt_of_not_le hlt⟩)
  · next hnone =>
    refine .lift_bind fun _ _ => certifies_operand _ hcount (fun x hdata => ?_) hpromise
    rw [Value.asConstant?_eq_some.mpr hdata] at hnone
    cases hnone

/-- Coordinates below their extents lead no further than the layout reaches. -/
theorem certifies_offsetOperand {offset : Operand} {extents increments : List Nat} {coordinates : List Scalar}
    (length : Int) (hcount : facts.count = builder.nextRegister) (hincrements : increments.length = extents.length)
    (hcoordinates : coordinates.length = extents.length)
    (hoffset : offset.Yields facts (fun _ => True)
      fun x => 0 ∉ extents → x.UpTo (length - 1 - reach (extents.zip increments)))
    (hpromise : ∀ running, promise running → ∀ pair ∈ extents.zip (coordinates.map Scalar.value), ∀ x,
      running.denotes? pair.2 = some x → x.Below pair.1) :
    emitter.Certifies builder declared facts promise (offsetOperand offset extents increments coordinates)
      fun place facts' => place.Yields facts' (fun _ => True) (Numeric.UpTo (length - 1)) := by
  induction extents generalizing offset increments coordinates builder facts with
  | nil =>
    refine .pure (hoffset.imp fun x hx => ?_)
    exact (hx List.not_mem_nil).mono (by simp [reach])
  | cons extent extents ih =>
    cases increments with
    | nil => cases hincrements
    | cons increment increments =>
      cases coordinates with
      | nil => cases hcoordinates
      | cons coordinate coordinates =>
        refine .bind hcount (certifies_indexOperand extent hcount fun running hrunning =>
          hpromise running hrunning (extent, coordinate.value) List.mem_cons_self) fun index _ facts₁ h₁ hcount₁ hindex => ?_
        refine .bind hcount₁ (.binaryOperand hcount₁ hindex (Operand.yields_constant rfl)
          (q := (· = .ofIndex increment)) (r := fun z => 0 < extent ∧ z.UpTo (((extent - 1) * increment : Nat) : Int)) ?_)
          fun term _ facts₂ h₂ hcount₂ hterm => ?_
        · rintro x _ z hx rfl hz
          exact Numeric.upTo_mul hx hz
        refine .bind hcount₂ (.binaryOperand hcount₂ ((hoffset.extend h₁).extend h₂).promised hterm.promised
          (r := fun z => 0 ∉ extents → z.UpTo (length - 1 - reach (extents.zip increments))) ?_)
          fun place _ facts₃ _ hcount₃ hplace => ?_
        · rintro x y z hx ⟨hpositive, hy⟩ hz hextents
          have hx := hx (by simp only [List.mem_cons, not_or]; exact ⟨by omega, hextents⟩)
          refine (Numeric.upTo_add hx hy hz).mono ?_
          simp only [List.zip_cons_cons, reach, List.map_cons, List.sum_cons, Int.natCast_add]
          omega
        · refine ih hcount₃ (Nat.succ_inj.mp hincrements) (Nat.succ_inj.mp hcoordinates) hplace fun running hrunning pair hmem => ?_
          exact hpromise running hrunning pair (List.mem_cons_of_mem _ hmem)

/-- An element has a place in the storage that it is an element of. Its
    coordinates are promised to be below the extents. -/
theorem certifies_element {value : Value} {coordinates : List Scalar} (hcount : facts.count = builder.nextRegister)
    (hvalue : value.Seated declared facts) (hformed : value.isAddressable = true → value.layout.Formed)
    (hpromise : ∀ running, promise running → ∀ pair ∈ value.layout.extents.zip (coordinates.map Scalar.value), ∀ x,
      running.denotes? pair.2 = some x → x.Below pair.1) :
    emitter.Certifies builder declared facts promise (element value coordinates)
      fun result facts' => result.Seated declared facts' := by
  refine .lift_bind fun _ hrank => ?_
  rw [liftM_layoutError_eq_ok_iff, Layout.ensureRank_eq_ok] at hrank
  split
  · next id offset hdata =>
    obtain ⟨declaration, hmem, hid, size, hsize, hoffset⟩ := hvalue id offset hdata
    have hformed := hformed (by rw [Value.isAddressable, hdata])
    refine .map hcount (certifies_offsetOperand declaration.length hcount hformed hrank.symm ?_ hpromise) ?_
    · refine hoffset.imp fun x hx hpositive => hx.mono ?_
      obtain ⟨rfl, -⟩ := Layout.memorySize_eq_ok hsize hpositive
      omega
    · rintro place facts' hplace _ _ ⟨⟩
      exact ⟨declaration, hmem, hid, 1, Layout.memorySize_of_rank_zero rfl, hplace⟩
  · exact .pure hvalue
  · exact .pure hvalue
  · exact .fail

/-- A store goes to a place inside its buffer. Of the number that is stored
    nothing has to be known. -/
theorem certifies_store {destination source : Value} (hcount : facts.count = builder.nextRegister)
    (hdestination : destination.Seated declared facts) :
    emitter.Certifies builder declared facts promise (store destination source) fun _ _ => True := by
  refine .lift_bind fun _ hrank => .lift_bind fun _ _ => ?_
  rw [liftM_layoutError_eq_ok_iff, Layout.ensureRank_eq_ok] at hrank
  split
  · next id offset hdata =>
    obtain ⟨declaration, hmem, hid, size, hsize, hoffset⟩ := hdestination id offset hdata
    cases (Layout.memorySize_of_rank_zero hrank).symm.trans hsize
    refine .bind hcount (certifies_operand_of_any source hcount) fun operand _ facts' hextends _ _ => .emit ?_
    intro later hlater running _ hsatisfies x distance hx hdistance
    have hupTo := hoffset.execution later (trans_of Facts.Extends hextends hlater) running trivial hsatisfies x hx
    have hle := hupTo.le_of_asIndex hdistance
    exact ⟨declaration, hmem, hid, by omega⟩
  · exact .fail
  · exact .fail
  · exact .fail

theorem certifies_load (value : Value) (hcount : facts.count = builder.nextRegister) :
    emitter.Certifies builder declared facts promise (load value) fun result facts' => result.Seated declared facts' := by
  refine .map hcount (certifies_operand_of_any value hcount) fun operand facts' _ => ?_
  cases operand <;> exact Value.seated_of_isAddressable_eq_false rfl

/-- The result of an arithmetic operation is no storage, so that nothing has to
    be known about it. -/
theorem certifies_binary (op : BinaryOp) (a b : Value) (hcount : facts.count = builder.nextRegister) :
    emitter.Certifies builder declared facts promise (binary op a b)
      fun result facts' => result.Seated declared facts' := by
  refine .lift_bind fun _ _ => ?_
  refine .bind hcount (certifies_operand (fun _ => True) hcount (fun _ _ => trivial) fun _ _ _ _ => trivial)
    fun x _ facts₁ _ hcount₁ hx => ?_
  refine .bind hcount₁ (certifies_operand (fun _ => True) hcount₁ (fun _ _ => trivial) fun _ _ _ _ => trivial)
    fun y _ facts₂ h₂ hcount₂ hy => ?_
  refine .map hcount₂ (.binaryOperand hcount₂ (hx.extend h₂) hy (r := fun _ => True)
    fun _ _ _ _ _ _ => trivial) fun operand facts' _ => ?_
  cases operand <;> exact Value.seated_of_isAddressable_eq_false rfl

end Emit

namespace Operation

/-- The value in whose storage an operation finds a place or stores. For an
    element it is the value that it is taken of. -/
def target? : Operation → Option Value
  | element value _ => some value
  | store destination _ => some destination
  | allocate .. | load _ | binary .. | call .. => none

/-- The coordinates of an element, each with the extent that it is to be
    below. -/
def coordinates : Operation → List (Nat × Value)
  | element value coordinates => value.layout.extents.zip (coordinates.map Scalar.value)
  | allocate .. | load _ | store .. | binary .. | call .. => []

/-- Whether each coordinate of an element stands for a position below its
    extent. -/
def InBounds (running : Running) (operation : Operation) : Prop :=
  ∀ pair ∈ operation.coordinates, ∀ x, running.denotes? pair.2 = some x → x.Below pair.1

/-- Whether an operation is anything but a call. -/
def IsPlain : Operation → Prop
  | call .. => False
  | allocate .. | element .. | load _ | store .. | binary .. => True

instance : (operation : Operation) → Decidable operation.IsPlain
  | call .. => isFalse id
  | allocate .. | element .. | load _ | store .. | binary .. => isTrue trivial

variable {emitter : Emitter} {builder : FunctionBuilder} {declared : List BufferDeclaration} {facts : Facts}

theorem certifies_map {α : Type} {promise : Running → Prop} {action : EmitterM α} {k : α → Option Value}
    (hcount : facts.count = builder.nextRegister) {post : α → Facts → Prop}
    (h : emitter.Certifies builder declared facts promise action post)
    (hpost : ∀ result facts, post result facts → ∀ value, k result = some value → value.Seated declared facts) :
    emitter.Certifies builder declared facts promise (k <$> action)
      fun result facts' => ∀ value, result = some value → value.Seated declared facts' := by
  rw [map_eq_pure_bind]
  exact .map hcount h hpost

/-- What an operation that is no call records keeps to what is known, as long as
    coordinates are in bounds. -/
theorem adds_certified {operation : Operation} (hplain : operation.IsPlain) (hcount : facts.count = builder.nextRegister)
    (htarget : ∀ value, operation.target? = some value →
      value.Seated declared facts ∧ (value.isAddressable = true → value.layout.Formed)) :
    emitter.Adds builder operation.emit fun outcome f => f.buffers ⊆ declared →
      ∃ facts', facts.Extends facts' ∧ facts'.count = facts.count + f.registers ∧
        (∀ later, facts'.Extends later → ∀ running, operation.InBounds running → running.frame.Satisfies later →
          ∀ instruction ∈ f.code, instruction.Keeps declared later running) ∧
        ∀ result, outcome = .ok result → ∀ value, result = some value → value.Seated declared facts' := by
  have hsome (result : Value) (facts : Facts) (hresult : result.Seated declared facts) (value : Value)
      (heq : some result = some value) : value.Seated declared facts := by
    cases heq
    exact hresult
  cases operation with
  | call => exact hplain.elim
  | allocate dtype layout =>
    unfold emit
    dsimp only
    rw [map_eq_pure_bind]
    refine .map ((Emit.adds_allocate emitter builder dtype layout).mono fun outcome f hpost hbuffers => ?_)
    obtain ⟨hcode, hregisters, hvalue⟩ := hpost
    refine ⟨facts, refl_of Facts.Extends facts, by rw [hregisters, Nat.add_zero], ?_, fun result heq value hsome => ?_⟩
    · intro later _ running _ _ instruction hmem
      rw [hcode] at hmem
      cases hmem
    · subst hsome
      cases outcome with
      | error failure => cases heq
      | ok found =>
        cases heq
        obtain ⟨length, hlength, rfl, heq⟩ := hvalue value rfl
        rintro _ _ ⟨⟩
        refine ⟨_, hbuffers (heq ▸ List.mem_singleton_self _), rfl, length, hlength, Operand.yields_constant ?_⟩
        exact (Numeric.upTo_ofIndex 0).mono (by simp)
  | element value coordinates =>
    obtain ⟨hseated, hformed⟩ := htarget value rfl
    exact (certifies_map hcount (Emit.certifies_element hcount hseated hformed fun _ => id) hsome).mono fun _ _ hpost _ => hpost
  | load value => exact (certifies_map hcount (Emit.certifies_load value hcount) hsome).mono fun _ _ hpost _ => hpost
  | store destination source =>
    obtain ⟨hseated, -⟩ := htarget destination rfl
    refine (certifies_map hcount (Emit.certifies_store hcount hseated) ?_).mono fun _ _ hpost _ => hpost
    rintro _ _ _ _ ⟨⟩
  | binary op a b => exact (certifies_map hcount (Emit.certifies_binary op a b hcount) hsome).mono fun _ _ hpost _ => hpost

end Operation

/-- So does what is recorded to return a value. -/
theorem Emitter.certifies_resultOperand {emitter : Emitter} {builder : FunctionBuilder}
    {declared : List BufferDeclaration} {facts : Facts} {promise : Running → Prop} (function : FunctionDeclaration)
    (result : Option Value) (hcount : facts.count = builder.nextRegister) :
    emitter.Certifies builder declared facts promise (resultOperand function result) fun _ _ => True := by
  unfold resultOperand
  split
  · exact .lift_bind fun _ _ => .map hcount (Emit.certifies_operand_of_any _ hcount) fun _ _ _ => trivial
  · exact .pure trivial
  · exact .fail
  · exact .fail

end StagedArrays
