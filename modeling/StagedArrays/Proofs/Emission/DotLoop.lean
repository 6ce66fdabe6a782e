import StagedArrays.Proofs.Emission.Update
import StagedArrays.Proofs.Kernel.Dot

namespace StagedArrays

namespace Vector

/-- What one coordinate adds to an inner product: the product of the two
    elements there. -/
def dotStep (v w : Vector) (total index : Scalar) : Action AccessLog Unit := do
  let x ← v.element index
  let y ← w.element index
  discard (total.assign .add (← Scalar.combine .mul x y))

end Vector

namespace Comparison

/-- A value of rank 0 is a scalar. What stands opposite a scalar can so be taken
    for one. -/
theorem ofValue_of_matches {l : Link} {s : Scalar} {value : Value} (h : l.Matches s.value value) :
    ∃ hrank, (liftM (Scalar.ofValue value) : Outcome Scalar) = .ok ⟨value, hrank⟩ :=
  ⟨h.rank_eq.trans s.rank_eq, Scalar.ofValue_eq_ok.mpr rfl⟩

/-- For a scalar with storage an update in place is the update of its storage;
    the value that comes back is not needed. -/
theorem discard_assign {op : BinaryOp} {total other : Scalar} (h : total.value.isAddressable = true) :
    (discard (total.assign op other) : Action AccessLog Unit) =
      Elementwise.assignBinary op total.value other.value := by
  have hbind : total.assign op other =
      (Elementwise.assignBinary op total.value other.value >>= fun _ => pure total : Action AccessLog Scalar) := by
    rw [Scalar.assign, if_pos h]
  rw [hbind, Functor.discard, map_const]
  simp only [Function.comp_apply, Function.const, map_bind, map_pure, bind_pure_unit]

/-- A pass of the loop for inner products, with its sum in storage. The product
    of two elements is added to the sum in place. -/
theorem dotStep_eq (v w : Vector) (total index : Scalar) (h : total.value.isAddressable = true) :
    v.dotStep w total index = (do
      let x ← v.element index
      let y ← w.element index
      let product ← Scalar.combine .mul x y
      Elementwise.assignBinary .add total.value product.value) := by
  simp only [Vector.dotStep, discard_assign h]

variable [ArrayLibrary] {c : Comparison} {builder : FunctionBuilder} {excused : ValueError → Prop}

/-- What a walk through a vector does at coordinates. Only single coordinates
    occur. -/
def alongVector (body : Scalar → Action AccessLog Unit) : List Scalar → Action AccessLog Unit
  | [index] => body index
  | _ => pure ()

/-- A walk through a vector in the recording is followed by a walk through one
    of the same layout. -/
theorem records_forVector {ι : Type} {value : Value} {recorded : Scalar → Action AccessLog Unit}
    {direct : ι → Scalar → Action AccessLog Unit} {ready : ι → Link → Prop}
    (hstable : ∀ i l l', c.Sound l → l.Keeps l' → ready i l → ready i l')
    (hgrows : ∀ i index, (direct i index).Grows)
    (hbody : ∀ inner index, c.Records inner (recorded index) fun _ f =>
      (inner.extend f).buffers.toList <+: c.declarations → ∀ i l n, l.At inner → c.Sound l → ready i l →
        l.Matches index.value (Scalar.ofIndex n).value →
          c.Follows excused l f (direct i (Scalar.ofIndex n)) fun _ _ => True) :
    c.Records builder (Action.forVector value recorded) fun _ f =>
      (builder.extend f).buffers.toList <+: c.declarations → ∀ i l value', l.At builder → c.Sound l →
        ready i l → value.layout = value'.layout →
          c.Follows excused l f (Action.forVector value' (direct i)) fun _ _ => True := by
  unfold Action.forVector
  split
  · next extent hextents =>
    refine .activeContext_bind (.lift_bind fun shape hshape => ?_)
    have hpacked : Layout.packed [extent] = .ok shape := liftM_fault_eq_ok_iff.mp hshape
    refine (@records_forEach _ _ excused _ ι _ _ (fun i => alongVector (direct i)) _ hstable ?_ ?_).mono ?_
    · intro i coordinates
      unfold alongVector
      split
      · exact hgrows i _
      · exact .pure _
    · intro inner coordinates
      have hone : ∀ {indices : List Nat}, Layout.InBounds indices shape.extents → ∃ n, indices = [n] := by
        intro indices hin
        rw [Layout.extents_eq_of_packed hpacked] at hin
        exact List.length_eq_one_iff.mp hin.length_eq
      split
      · next index =>
        refine (hbody inner index).mono fun _ f h hprefix i l indices hat hsound hready hin hcoordinates => ?_
        obtain ⟨n, rfl⟩ := hone hin
        exact h hprefix i l n hat hsound hready (List.forall₂_cons.mp hcoordinates).1.1
      · next hother =>
        refine .pure fun _ i l indices _ _ _ hin hcoordinates => ?_
        obtain ⟨n, rfl⟩ := hone hin
        obtain ⟨index, hindex⟩ := List.length_eq_one_iff.mp hcoordinates.length_eq
        exact (hother index hindex).elim
    · intro _ f h hprefix i l value' hat hsound hready hlayout
      rw [← hlayout, hextents]
      exact .activeContext_bind (.lift_bind hshape (h hprefix i l hat hsound hready))
  · exact .fail

/-- Taking an element of a vector is recorded as code that takes the same
    element of the vector at hand. A coordinate that is refused directly is
    excused, because the code does not compare it. -/
theorem records_vectorElement (v : Vector) (index : Scalar) :
    c.Records builder (v.element index) fun s f => ∀ l (v' : Vector) n, l.At builder → c.Sound l →
      l.Matches v.value v'.value → l.Readable v'.value → l.Matches index.value (Scalar.ofIndex n).value →
        c.Follows ValueError.RefusesCoordinate l f (v'.element (Scalar.ofIndex n))
          fun l' s' => l'.Matches s.value s'.value ∧ l'.Readable s'.value := by
  refine .activeContext_bind (.bind (records_element v.value [index]) fun item f hitem => .lift fun s hs => ?_)
  have hs : s.value = item := Scalar.ofValue_eq_ok.mp hs
  subst hs
  intro l v' n hat hsound hmatches hreadable hindex
  have hcoordinates : List.Forall₂ (fun (coordinate direct : Scalar) =>
      l.Matches coordinate.value direct.value ∧ l.Readable direct.value) [index] [Scalar.ofIndex n] :=
    .cons ⟨hindex, l.readable_constant _⟩ .nil
  refine .activeContext_bind (((hitem l v'.value _ hat hsound hmatches hcoordinates).excuse
    fun cause hmisses => hmisses.1).bind (fun _ => .lift _) ?_)
  rintro l' item' hreaches ⟨hitem', hcells⟩
  obtain ⟨hrank, hscalar⟩ := ofValue_of_matches hitem'
  refine .lift hscalar hreaches.sound ⟨hitem', fun cell hmem => ?_⟩
  exact hsound.readable hreaches.leads.toKeeps hmatches hreadable cell (hcells cell hmem)

/-- Two scalars are combined in a fresh register, and the code leaves there what
    the direct combination gives. -/
theorem records_combine (op : BinaryOp) (a b : Scalar) :
    c.Records builder (Scalar.combine op a b) fun s f => ∀ l (a' b' : Scalar), l.At builder → c.Sound l →
      l.Matches a.value a'.value → l.Readable a'.value → l.Matches b.value b'.value → l.Readable b'.value →
        c.Follows excused l f (Scalar.combine op a' b')
          fun l' s' => l'.Matches s.value s'.value ∧ l'.Readable s'.value := by
  refine .activeContext_bind (.bind (@records_binary _ _ excused _ op a.value b.value)
    fun result f hresult => .lift fun s hs => ?_)
  have hs : s.value = result := Scalar.ofValue_eq_ok.mp hs
  subst hs
  intro l a' b' hat hsound ha hareadable hb hbreadable
  refine .activeContext_bind ((hresult l _ _ hat hsound ha hb hareadable hbreadable).bind (fun _ => .lift _) ?_)
  rintro l' result' hreaches ⟨hresult', hreadable⟩
  obtain ⟨hrank, hscalar⟩ := ofValue_of_matches hresult'
  exact .lift hscalar hreaches.sound ⟨hresult', hreadable⟩

/-- What one coordinate adds to an inner product in the recording is followed by
    the same. -/
theorem records_dotStep (v w : Vector) (total index : Scalar) (haddressable : total.value.isAddressable = true) :
    c.Records builder (v.dotStep w total index) fun _ f =>
      (builder.extend f).buffers.toList <+: c.declarations → ∀ l (v' w' : Vector) (total' : Scalar) n,
        l.At builder → c.Sound l → l.Matches v.value v'.value ∧ l.Readable v'.value →
        l.Matches w.value w'.value ∧ l.Readable w'.value →
        l.Matches total.value total'.value ∧ l.Readable total'.value →
        l.Matches index.value (Scalar.ofIndex n).value →
          c.Follows ValueError.RefusesCoordinate l f (v'.dotStep w' total' (Scalar.ofIndex n))
            fun _ _ => True := by
  rw [dotStep_eq v w total index haddressable]
  refine .bind (records_vectorElement v index) fun x f₁ hx => ?_
  refine .bind (records_vectorElement w index) fun y f₂ hy => ?_
  refine .bind (@records_combine _ _ _ ValueError.RefusesCoordinate .mul x y) fun product f₃ hproduct => ?_
  refine (records_assignBinary .add total.value product.value product.rank_eq).mono fun _ f₄ hassign => ?_
  intro hprefix l v' w' total' n hat hsound hv hw htotal hindex
  rw [dotStep_eq v' w' total' _ (htotal.1.isAddressable_eq.trans haddressable)]
  refine (hx l v' n hat hsound hv.1 hv.2 hindex).bind (fun _ => .bind (.vectorElement _ _) fun _ =>
    .bind (.combine _ _ _) fun _ => .assignBinary _ _ _) ?_
  rintro l₁ x' h₁ ⟨hx', hxreadable⟩
  have hkeeps₁ := h₁.leads.toKeeps
  have hat₁ := h₁.at_extend hat
  refine (hy l₁ w' n hat₁ h₁.sound (hsound.matches hkeeps₁ hw.1) (hsound.readable hkeeps₁ hw.1 hw.2)
    (hsound.matches hkeeps₁ hindex)).bind (fun _ => .bind (.combine _ _ _) fun _ => .assignBinary _ _ _) ?_
  rintro l₂ y' h₂ ⟨hy', hyreadable⟩
  have hkeeps₂ := h₂.leads.toKeeps
  have hat₂ := h₂.at_extend hat₁
  refine (hproduct l₂ x' y' hat₂ h₂.sound (h₁.sound.matches hkeeps₂ hx')
    (h₁.sound.readable hkeeps₂ hx' hxreadable) hy' hyreadable).bind (fun _ => .assignBinary _ _ _) ?_
  rintro l₃ product' h₃ ⟨hproduct', hpreadable⟩
  have hkeeps := (hkeeps₁.trans hkeeps₂).trans h₃.leads.toKeeps
  refine hassign ?_ l₃ _ _ (h₃.at_extend hat₂) h₃.sound (hsound.matches hkeeps htotal.1)
    (hsound.readable hkeeps htotal.1 htotal.2) hproduct' hpreadable
  simpa only [FunctionBuilder.extend_extend, Fragment.append_assoc] using hprefix

/-- What two vectors stand for, with everything they cover known to agree. Inner
    products read all of it. -/
def Opposite (l : Link) (v w v' w' : Vector) : Prop :=
  (l.Matches v.value v'.value ∧ l.Readable v'.value) ∧ l.Matches w.value w'.value ∧ l.Readable w'.value

/-- Vectors that are opposite each other stay so while the link is kept. Their
    storage is where it was. -/
theorem Sound.opposite {l l' : Link} (hsound : c.Sound l) (h : l.Keeps l') {v w v' w' : Vector}
    (hopposite : Opposite l v w v' w') : Opposite l' v w v' w' :=
  ⟨⟨hsound.matches h hopposite.1.1, hsound.readable h hopposite.1.1 hopposite.1.2⟩,
    hsound.matches h hopposite.2.1, hsound.readable h hopposite.2.1 hopposite.2.2⟩

/-- An inner product as a loop in the recording is followed by the same loop. -/
theorem records_dotByLoop (v w : Vector) :
    c.Records builder (v.dotByLoop w) fun s f =>
      (builder.extend f).buffers.toList <+: c.declarations → ∀ l v' w', l.At builder → c.Sound l →
        Opposite l v w v' w' → c.Follows ValueError.RefusesCoordinate l f (v'.dotByLoop w')
          fun l' s' => l'.Matches s.value s'.value ∧ l'.Readable s'.value := by
  rw [Vector.dotByLoop_eq]
  refine .lift_bind fun vSize hv => .lift_bind fun wSize hw => ?_
  split
  case isTrue => exact .fail
  case isFalse hsize =>
    refine .bind (@records_zeroScalar _ _ ValueError.RefusesCoordinate _ v.dtype) ?_
    rintro total f₁ ⟨haddressable, -, htotal⟩
    refine .bind (@records_forVector _ _ _ ValueError.RefusesCoordinate (Vector × Vector × Scalar) _ _
      (fun i => i.1.dotStep i.2.1 i.2.2)
      (fun i l => Opposite l v w i.1 i.2.1 ∧ l.Matches total.value i.2.2.value ∧
        l.Readable i.2.2.value) ?_ ?_ ?_) fun _ f₂ hloop => .pure ?_
    · intro i l l' hsound hkeeps hready
      exact ⟨hsound.opposite hkeeps hready.1, hsound.matches hkeeps hready.2.1,
        hsound.readable hkeeps hready.2.1 hready.2.2⟩
    · exact fun i index => .bind (.vectorElement _ _) fun _ => .bind (.vectorElement _ _) fun _ =>
        .bind (.combine _ _ _) fun _ => .map _ (.assign _ _ _)
    · intro inner index
      refine (records_dotStep v w total index haddressable).mono fun _ f h hprefix i l n hat hsound hready => ?_
      exact h hprefix l i.1 i.2.1 i.2.2 n hat hsound hready.1.1 hready.1.2 hready.2
    · rw [Fragment.append_empty]
      intro hprefix l v' w' hat hsound hopposite
      rw [Vector.dotByLoop_eq]
      have hsizes : v'.size = v.size ∧ w'.size = w.size := by
        simp only [Vector.size, Value.size, hopposite.1.1.layout_eq, hopposite.2.1.layout_eq, and_self]
      have hdtype : v'.dtype = v.dtype := hopposite.1.1.dtype_eq.symm
      rw [hsizes.1, hsizes.2]
      refine .lift_bind hv (.lift_bind hw ?_)
      rw [if_neg hsize, hdtype]
      rw [← FunctionBuilder.extend_extend] at hprefix
      refine (htotal ((FunctionBuilder.prefix_extend _ _).trans hprefix) l hat hsound).bind
        (fun total' => .bind (.forVector fun index => ?_) fun _ => .pure _) ?_
      · exact .bind (.vectorElement _ _) fun _ => .bind (.vectorElement _ _) fun _ =>
          .bind (.combine _ _ _) fun _ => .map _ (.assign _ _ _)
      · rintro l₁ total' hreaches ⟨htotal', hreadable⟩
        rw [← Fragment.append_empty f₂]
        refine (hloop hprefix (v', w', total') l₁ v'.value (hreaches.at_extend hat) hreaches.sound
          ⟨hsound.opposite hreaches.leads.toKeeps hopposite, htotal', hreadable⟩
          hopposite.1.1.layout_eq).bind (fun _ => .pure _) ?_
        intro l₂ _ hreaches₂ _
        exact .pure hreaches₂.sound ⟨hreaches.sound.matches hreaches₂.leads.toKeeps htotal',
          hreaches.sound.readable hreaches₂.leads.toKeeps htotal' hreadable⟩

end Comparison

end StagedArrays
