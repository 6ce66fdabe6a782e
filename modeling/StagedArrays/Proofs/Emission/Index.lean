import StagedArrays.Proofs.Emission.Operand

namespace StagedArrays

namespace Comparison

variable {l l' : Link}

/-- An immediate was recorded as itself, so that the direct value beside it
    reads the same number. -/
theorem reads_of_matches_constant {recorded direct : Value} {x : Numeric} (h : l.Matches recorded direct)
    (hdata : recorded.data = .constant x) : direct.Reads l.direct x := by
  obtain ⟨dtype, layout, data⟩ := recorded
  obtain ⟨dtype', layout', data'⟩ := direct
  obtain ⟨rfl, rfl, -, hmatches⟩ := h
  cases hdata
  cases data' <;> simp only [Link.DataMatches] at hmatches
  obtain ⟨rfl, -, hrank⟩ := hmatches
  exact Value.reads_constant hrank rfl

variable [ArrayLibrary] {c : Comparison} {builder : FunctionBuilder}

/-- An operation that is recorded computes what the operation gives, or fails as
    it does. -/
theorem emits_recordedBinary (op : BinaryOp) (a b : Operand) :
    c.Emits builder (do return .register (← Emitter.emitWithOutput fun output => .binary output op a b))
      fun operand f => ∀ l x y, l.At builder → c.Sound l → l.Holds a x → l.Holds b y →
        (∀ z, x.binary op y = .ok z → c.Computes l f (·.Holds operand z)) ∧
          ∀ cause, x.binary op y = .error cause → c.Fails l f.code := by
  refine .map (.emitWithOutput (by simp [Instruction.symbols]) ?_)
  intro l x y hat hsound hx hy
  constructor
  · intro z hz
    rw [← hat.registers_eq]
    refine computes_assign hsound ?_ (l.holds_assign z)
    simp [Instruction.run, Stateful.runFrom_bind, hx.2, hy.2, hz, Link.assign]
  · intro cause hcause
    refine ⟨.error cause, l.running, ?_⟩
    rw [runBlock_singleton]
    simp [Instruction.run, Stateful.runFrom_bind, hx.2, hy.2, hcause]
    rfl

/-- Whether it is recorded or carried out at once, an operation on operands
    computes what the operation gives on what they stand for. -/
theorem emits_binaryOperand (op : BinaryOp) (a b : Operand) :
    c.Emits builder (Emitter.binaryOperand op a b) fun operand f =>
      ∀ l x y, l.At builder → c.Sound l → l.Holds a x → l.Holds b y →
        (∀ z, x.binary op y = .ok z → c.Computes l f (·.Holds operand z)) ∧
          ∀ cause, x.binary op y = .error cause → c.Fails l f.code := by
  cases a with
  | register id => exact emits_recordedBinary op _ b
  | constant x =>
    cases b with
    | register id => exact emits_recordedBinary op _ _
    | constant y =>
      refine .lift_bind fun z hz => .pure ?_
      intro l x' y' _ hsound hx hy
      have hz : x.binary op y = .ok z := liftM_error_eq_ok_iff.mp hz
      rw [Link.holds_constant] at hx hy
      subst hx hy
      rw [hz]
      constructor
      · rintro _ ⟨⟩
        exact .pure hsound (Link.holds_constant.mpr rfl)
      · rintro cause ⟨⟩

/-- A coordinate is recorded as an operand that stands for the same
    coordinate. -/
theorem emits_indexOperand (coordinate : Scalar) (extent : Nat) :
    c.Emits builder (Emit.indexOperand coordinate extent) fun operand f =>
      (∀ x, coordinate.value.data = .constant x → ∃ index, x.asIndex = .ok index ∧ index < extent) ∧
        ∀ l (direct : Scalar) index, l.At builder → c.Sound l → l.Matches coordinate.value direct.value →
          l.Readable direct.value → direct.Points l.direct index →
            c.Computes l f (·.Holds operand (.ofIndex index)) := by
  unfold Emit.indexOperand
  split
  · next x hx =>
    have hdata := Value.asConstant?_eq_some.mp hx
    refine .lift_bind fun index hindex => ?_
    have hindex : x.asIndex = .ok index := liftM_error_eq_ok_iff.mp hindex
    split
    · exact .fail
    · next hlt =>
      refine .pure ⟨?_, ?_⟩
      · intro y hy
        cases hdata.symm.trans hy
        exact ⟨index, hindex, Nat.lt_of_not_le hlt⟩
      · rintro l direct index' _ hsound hmatches _ ⟨y, hy, hindex'⟩
        cases hy.unique (reads_of_matches_constant hmatches hdata)
        cases hindex.symm.trans hindex'
        exact .pure hsound (Link.holds_constant.mpr rfl)
  · next hx =>
    refine .lift_bind fun _ hdtype => ?_
    have hdtype : coordinate.value.dtype = .i64 := by simpa using hdtype
    refine (emits_operand coordinate.value).mono fun operand f hoperand => ⟨?_, ?_⟩
    · intro x hdata
      rw [Value.asConstant?_eq_some.mpr hdata] at hx
      cases hx
    · rintro l direct index hat hsound hmatches hreadable ⟨y, hy, hindex⟩
      obtain ⟨x, hx, hxdtype, hcomputes⟩ := hoperand.2 l direct.value hat hsound hmatches hreadable
      rw [hy.unique hx] at hindex
      have hi64 : x.dtype = .i64 := by rw [hxdtype, ← hmatches.dtype_eq, hdtype]
      rw [← Numeric.eq_ofIndex_of_asIndex hi64 hindex]
      exact hcomputes

/-- The place of an element is recorded as an operand that stands for the same
    place. -/
theorem emits_offsetOperand {extents increments : List Nat} {coordinates : List Scalar} (offset : Operand) :
    c.Emits builder (Emit.offsetOperand offset extents increments coordinates) fun operand f =>
      increments.length = extents.length → coordinates.length = extents.length →
        List.Forall₂ (fun (coordinate : Scalar) extent => ∀ x, coordinate.value.data = .constant x →
            ∃ index, x.asIndex = .ok index ∧ index < extent) coordinates extents ∧
          ∀ l base directs indices, l.At builder → c.Sound l → l.Holds offset (.ofIndex base) →
            List.Forall₂ (fun (coordinate direct : Scalar) =>
              l.Matches coordinate.value direct.value ∧ l.Readable direct.value) coordinates directs →
            List.Forall₂ (Scalar.Points l.direct) directs indices →
            Word.Signed (base + (List.zipWith (· * ·) indices increments).sum) →
              c.Computes l f
                (·.Holds operand (.ofIndex (base + (List.zipWith (· * ·) indices increments).sum))) := by
  induction offset, extents, increments, coordinates using Emit.offsetOperand.induct generalizing builder with
  | case2 extents increments offset coordinates hshort =>
    have hstop : Emit.offsetOperand offset extents increments coordinates = pure offset := by
      unfold Emit.offsetOperand
      split
      · exact (hshort _ _ _ _ _ _ rfl rfl rfl).elim
      · rfl
    rw [hstop]
    refine .pure fun hincrements hcoordinates => ?_
    cases extents with
    | cons extent extents =>
      obtain ⟨increment, increments, rfl⟩ := List.exists_cons_of_length_eq_add_one hincrements
      obtain ⟨coordinate, coordinates, rfl⟩ := List.exists_cons_of_length_eq_add_one hcoordinates
      exact (hshort _ _ _ _ _ _ rfl rfl rfl).elim
    | nil =>
      obtain rfl := List.length_eq_zero_iff.mp hincrements
      obtain rfl := List.length_eq_zero_iff.mp hcoordinates
      refine ⟨.nil, ?_⟩
      rintro l base _ _ _ hsound hoffset ⟨⟩ ⟨⟩ _
      exact .pure hsound hoffset
  | case1 offset extent extents increment increments coordinate coordinates ih =>
    unfold Emit.offsetOperand
    refine .bind (emits_indexOperand coordinate extent) fun index f₁ hindex => ?_
    refine .bind (emits_binaryOperand .mul index (.constant (.ofIndex increment))) fun term f₂ hterm => ?_
    refine .bind (emits_binaryOperand .add offset term) fun place f₃ hplace => ?_
    refine (ih place).mono fun operand f₄ hrest hincrements hcoordinates => ?_
    obtain ⟨hchecked, hrest⟩ := hrest (by simpa using hincrements) (by simpa using hcoordinates)
    refine ⟨.cons hindex.1 hchecked, ?_⟩
    intro l base directs indices hat hsound hoffset hmatches hpoints hsigned
    obtain ⟨direct, directs, ⟨hmatch, hreadable⟩, htail, rfl⟩ := List.forall₂_cons_left_iff.mp hmatches
    obtain ⟨i, indices, hpoint, hlater, rfl⟩ := List.forall₂_cons_left_iff.mp hpoints
    rw [List.zipWith_cons_cons, List.sum_cons, ← Nat.add_assoc] at hsigned ⊢
    have hi : Word.Signed i := by
      obtain ⟨x, _, hx⟩ := hpoint
      exact Numeric.signed_of_asIndex hx
    have hmul := Numeric.binary_mul_ofIndex (b := increment) hi (hsigned.mono (by omega))
    have hadd := Numeric.binary_add_ofIndex (a := base) (b := i * increment) (hsigned.mono (by omega))
    refine .bind (hindex.2 l direct i hat hsound hmatch hreadable hpoint) ?_
    intro l₁ hdirect₁ _ hreaches₁ hholds₁
    have hat₁ := hreaches₁.at_extend hat
    refine .bind ((hterm l₁ _ _ hat₁ hreaches₁.sound hholds₁ (Link.holds_constant.mpr rfl)).1 _ hmul) ?_
    intro l₂ hdirect₂ _ hreaches₂ hholds₂
    have hat₂ := hreaches₂.at_extend hat₁
    have hkeeps₂ := hreaches₁.leads.toKeeps.trans hreaches₂.leads.toKeeps
    refine .bind ((hplace l₂ _ _ hat₂ hreaches₂.sound (hkeeps₂.holds hoffset) hholds₂).1 _ hadd) ?_
    intro l₃ hdirect₃ _ hreaches₃ hholds₃
    have hat₃ := hreaches₃.at_extend hat₂
    have hkeeps₃ := hkeeps₂.trans hreaches₃.leads.toKeeps
    have hdirect : l₃.direct = l.direct := hdirect₃.trans (hdirect₂.trans hdirect₁)
    refine hrest l₃ _ directs indices hat₃ hreaches₃.sound hholds₃ ?_ ?_ hsigned
    · exact htail.imp fun coordinate direct h =>
        ⟨hsound.matches hkeeps₃ h.1, hsound.readable hkeeps₃ h.1 h.2⟩
    · rw [hdirect]
      exact hlater

end Comparison

end StagedArrays
