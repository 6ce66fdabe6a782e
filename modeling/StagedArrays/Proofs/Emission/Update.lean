import StagedArrays.Proofs.Emission.Iteration
import StagedArrays.Proofs.Emission.ZeroScalar

namespace StagedArrays

namespace Link

/-- What stands opposite storage is storage. So both sides take the same branch
    of an update. -/
theorem Matches.isAddressable_eq {l : Link} {recorded direct : Value} (h : l.Matches recorded direct) :
    direct.isAddressable = recorded.isAddressable := by
  obtain ⟨-, -, -, hdata⟩ := h
  unfold Value.isAddressable
  cases hrecorded : recorded.data <;> cases hdirect : direct.data <;> rw [hrecorded, hdirect] at hdata <;>
    first | rfl | cases hdata

theorem Matches.rank_eq {l : Link} {recorded direct : Value} (h : l.Matches recorded direct) :
    direct.rank = recorded.rank := by
  rw [Value.rank, Value.rank, h.layout_eq]

end Link

namespace Comparison

/-- A source of rank 0 fits every destination of its type: extents are not
    compared then. -/
theorem checkOperands_eq_ok {destination source : Value} {u : Unit} (hrank : source.rank = 0) :
    (liftM (Elementwise.checkOperands destination source) : Outcome Unit) = .ok u ↔
      source.dtype = destination.dtype := by
  have hskip : ¬(source.rank ≠ 0 ∧ source.layout.extents ≠ destination.layout.extents) := fun h => h.1 hrank
  simp only [liftM_self, Elementwise.checkOperands, if_neg hskip, bind_eq_ok_iff, liftM_error_eq_ok_iff,
    Value.ensureDType_eq_ok]
  constructor
  · rintro ⟨_, h, -⟩
    exact h
  · exact fun h => ⟨(), h, rfl⟩

variable [ArrayLibrary] {c : Comparison} {builder : FunctionBuilder}

/-- An update of one element in the recording is followed by the same update:
    both elements are read and the result is stored. -/
theorem records_updateAt (op : BinaryOp) (destination source : Value) (coordinates : List Scalar)
    (hrank : source.rank = 0) :
    c.Records builder (Elementwise.updateAt (.emitter c.id)
        (fun target other => (Context.emitter c.id).binary op target other) destination source coordinates)
      fun _ f => ∀ l destination' source' directs, l.At builder → c.Sound l →
        l.Matches destination destination' → l.Readable destination' → l.Matches source source' →
        l.Readable source' → List.Forall₂ (fun (coordinate direct : Scalar) =>
          l.Matches coordinate.value direct.value ∧ l.Readable direct.value) coordinates directs →
          c.Follows ValueError.RefusesCoordinate l f (Elementwise.updateAt .compute
            (fun target other => Context.compute.binary op target other) destination' source' directs)
            fun _ _ => True := by
  unfold Elementwise.updateAt Elementwise.sourceElement
  rw [if_pos hrank]
  refine .bind (records_element destination coordinates) fun target f₁ htarget => ?_
  simp only [pure_bind]
  refine .bind (@records_binary _ _ ValueError.RefusesCoordinate _ op target source) fun result f₂ hresult => ?_
  refine (@records_store _ _ ValueError.RefusesCoordinate _ target result).mono fun _ f₃ hstore => ?_
  intro l destination' source' directs hat hsound hdestination hdreadable hsource hsreadable hcoordinates
  rw [if_pos (hsource.rank_eq.trans hrank)]
  simp only [pure_bind]
  have hfirst := @Follows.excuse _ _ _ _ _ _ ValueError.RefusesCoordinate _ _
    (htarget l destination' directs hat hsound hdestination hcoordinates) fun cause hmisses => hmisses.1
  refine hfirst.bind (fun _ => .bind (.onHeap _) fun _ => .onHeap _) ?_
  rintro l₁ target' hreaches₁ ⟨htarget', hcells⟩
  have hkeeps₁ := hreaches₁.leads.toKeeps
  have hat₁ := hreaches₁.at_extend hat
  have hreadable : l₁.Readable target' := fun cell hmem =>
    hsound.readable hkeeps₁ hdestination hdreadable cell (hcells cell hmem)
  refine (hresult l₁ target' source' hat₁ hreaches₁.sound htarget' (hsound.matches hkeeps₁ hsource) hreadable
    (hsound.readable hkeeps₁ hsource hsreadable)).bind (fun _ => .onHeap _) ?_
  rintro l₂ result' hreaches₂ ⟨hresult', hrreadable⟩
  refine (hstore l₂ target' result' (hreaches₂.at_extend hat₁) hreaches₂.sound
    (hreaches₁.sound.matches hreaches₂.leads.toKeeps htarget') hresult' hrreadable).mono ?_
  exact fun _ _ _ _ => trivial

/-- An update in place in the recording is followed by the same update. -/
theorem records_assignBinary (op : BinaryOp) (destination source : Value) (hrank : source.rank = 0) :
    c.Records builder (Elementwise.assignBinary op destination source) fun _ f =>
      (builder.extend f).buffers.toList <+: c.declarations → ∀ l destination' source', l.At builder →
        c.Sound l → l.Matches destination destination' → l.Readable destination' →
        l.Matches source source' → l.Readable source' →
          c.Follows ValueError.RefusesCoordinate l f (Elementwise.assignBinary op destination' source')
            fun _ _ => True := by
  refine .lift_bind fun _ hcheck => ?_
  have hdtype := (checkOperands_eq_ok hrank).mp hcheck
  split
  case isFalse => exact .fail
  case isTrue haddressable =>
    refine .activeContext_bind ((@records_forEach _ _ ValueError.RefusesCoordinate _ (Value × Value) _ _
      (fun i => Elementwise.updateAt .compute
        (fun target other => Context.compute.binary op target other) i.1 i.2)
      (fun i l => (l.Matches destination i.1 ∧ l.Readable i.1) ∧ l.Matches source i.2 ∧ l.Readable i.2)
      ?_ ?_ ?_).mono ?_)
    · rintro ⟨destination', source'⟩ l l' hsound hkeeps ⟨⟨hdestination, hdreadable⟩, hsource, hsreadable⟩
      exact ⟨⟨hsound.matches hkeeps hdestination, hsound.readable hkeeps hdestination hdreadable⟩,
        hsound.matches hkeeps hsource, hsound.readable hkeeps hsource hsreadable⟩
    · exact fun i coordinates => .updateAt _ (fun _ _ => .binary _ _ _ _) _ _ _
    · intro inner coordinates
      refine (records_updateAt op destination source coordinates hrank).mono fun _ f h => ?_
      rintro - ⟨destination', source'⟩ l indices hat hsound ⟨⟨hdestination, hdreadable⟩, hsource, hsreadable⟩
        _ hcoordinates
      exact h l destination' source' _ hat hsound hdestination hdreadable hsource hsreadable hcoordinates
    · intro _ f h hprefix l destination' source' hat hsound hdestination hdreadable hsource hsreadable
      refine @Follows.lift_bind _ _ _ _ _ _ _ _ _ _ () _ _ ((checkOperands_eq_ok (hsource.rank_eq.trans hrank)).mpr ?_) ?_
      · rw [← hsource.dtype_eq, ← hdestination.dtype_eq, hdtype]
      · rw [if_pos (hdestination.isAddressable_eq.trans haddressable), ← hdestination.layout_eq]
        exact .activeContext_bind (h hprefix (destination', source') l hat hsound
          ⟨⟨hdestination, hdreadable⟩, hsource, hsreadable⟩)

end Comparison

end StagedArrays
