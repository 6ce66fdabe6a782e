import StagedArrays.Proofs.Emission.Loop

namespace StagedArrays

namespace Link

/-- The same moment with other counts of what is in use. Between two passes the
    counts are set back. -/
def mark (l : Link) (registers buffers : Nat) : Link :=
  { l with
    registers := registers
    buffers := buffers }

theorem sameStorage_mark (l : Link) (registers buffers : Nat) : l.SameStorage (l.mark registers buffers) := by
  constructor <;> rfl

/-- Nothing is lost where a moment is looked at again with the counts of an
    earlier one. -/
theorem Keeps.mark {l l' : Link} (h : l.Keeps l') : l.Keeps (l'.mark l.registers l.buffers) where
  buffers_eq := h.buffers_eq
  registers_eq := h.registers_eq
  backing_eq := h.backing_eq
  registers_le := Nat.le_refl _
  buffers_le := Nat.le_refl _
  size_le := h.size_le
  dtype_eq := h.dtype_eq
  length_eq := h.length_eq
  agreed := h.agreed

end Link

namespace Comparison

/-- Registers that hold coordinates stand for the immediates of the
    coordinates. -/
theorem forall₂_matches_of_holds {l : Link} {registers : List RegisterId} {coordinates : List Nat}
    (h : List.Forall₂ (fun register index => l.Holds (.register register) (.ofIndex index)) registers
      coordinates) :
    List.Forall₂ (fun (coordinate direct : Scalar) =>
        l.Matches coordinate.value direct.value ∧ l.Readable direct.value)
      (registers.map (Scalar.ofRegister .i64)) (coordinates.map Scalar.ofIndex) := by
  rw [List.forall₂_map_left_iff, List.forall₂_map_right_iff]
  exact h.imp fun register index hholds => ⟨hholds.matches_valueOf, fun cell hmem => by cases hmem⟩

variable [ArrayLibrary] {c : Comparison} {excused : ValueError → Prop}

variable (c) in
/-- One execution of the body of a recorded loop, with the count in its
    register. -/
def pass (induction : RegisterId) (code : List Instruction) (index : Nat) : RunM Unit := do
  RunM.assign induction (.ofIndex index)
  runBlock c.call code

/-- The moment at which a body begins is one at which its counter has been
    set. -/
theorem runFrom_pass (l : Link) (code : List Instruction) (index : Nat) :
    (c.pass ⟨l.registers⟩ code index).runFrom l.running =
      (runBlock c.call code).runFrom (l.assign (.ofIndex index)).running := by
  rw [pass, Stateful.runFrom_bind_of_ok (RunM.runFrom_assign _ _ _)]
  rfl

/-- More registers and buffers may be counted as in use. Nothing is claimed of
    them. -/
theorem leads_mark {l : Link} {registers buffers : Nat} (hregisters : l.registers ≤ registers) (hbuffers : l.buffers ≤ buffers) :
    c.Leads l (l.mark registers buffers) where
  buffers_eq := rfl
  registers_eq _ _ := rfl
  backing_eq _ _ := rfl
  registers_le := hregisters
  buffers_le := hbuffers
  size_le := Nat.le_refl _
  dtype_eq _ _ := rfl
  length_eq _ _ := rfl
  agreed _ _ h := h
  unused_eq _ _ _ _ _ _ _ := rfl

/-- The passes after one go over the registers and buffers of that one again. -/
theorem leads_of_pass {l l₁ l' : Link} {x : Numeric} (hpass : c.Leads (l.assign x) l₁)
    (hrest : c.Leads (l₁.mark l.registers l.buffers) l') (hbuffers : l₁.buffers ≤ l'.buffers) : c.Leads l l' where
  toKeeps := ((l.keeps_assign x).trans hpass.toKeeps).mark.trans hrest.toKeeps
  unused_eq declaration hmem hown hle other base hget := by
    rw [hrest.unused_eq declaration hmem hown hle other base ((congrArg (·[declaration.id]?) hpass.buffers_eq).trans hget)]
    exact hpass.unused_eq declaration hmem hown (Nat.le_trans hbuffers hle) other base hget

section Iterations

variable {f : Fragment} {direct : Nat → Action AccessLog Unit} {ready : Link → Prop}
  {registers buffers extent : Nat}

/-- Executions of a recorded body follow executions of the direct one, if each
    does from a moment at which the counter has been set. What makes ready for
    the body has to last. -/
theorem iterations_follow (hstable : ∀ l l', c.Sound l → l.Keeps l' → ready l → ready l')
    (hgrows : ∀ index, (direct index).Grows)
    (hbody : ∀ l index, index < extent → l.registers = registers + 1 → l.buffers = buffers → c.Sound l →
      ready l → l.Holds (.register ⟨registers⟩) (.ofIndex index) →
        c.Follows excused l f (direct index) fun _ _ => True)
    (count first : Nat) (hcount : first + count ≤ extent) {l : Link} (hregisters : l.registers = registers)
    (hbuffers : l.buffers = buffers) (hsound : c.Sound l) (hready : ready l)
    {outcome : Except (Failure ValueError) Unit} {world : World AccessLog}
    (hrun : (Stateful.repeatFrom direct count first).runFrom (c.executingAt l) = (outcome, world))
    (hstored : world.client.StoredBeforeLoaded) :
    match outcome with
    | .ok _ => ∃ l', world = c.executingAt l' ∧ c.Leads l l' ∧ c.Sound l' ∧
        l'.registers = registers + (f.registers + 1) ∧ l'.buffers = buffers + f.buffers.length ∧
          (Stateful.repeatFrom (c.pass ⟨registers⟩ f.code) count first).runFrom l.running =
            (.ok (), l'.running)
    | .error (.error cause) => excused cause ∨ ∃ failure running,
        (Stateful.repeatFrom (c.pass ⟨registers⟩ f.code) count first).runFrom l.running =
          (.error failure, running)
    | .error (.fault _) => True := by
  induction count generalizing first l with
  | zero =>
    cases hrun
    exact ⟨l.mark (registers + (f.registers + 1)) (buffers + f.buffers.length), rfl,
      leads_mark (hregisters ▸ Nat.le_add_right _ _) (hbuffers ▸ Nat.le_add_right _ _),
      hsound.sameStorage (l.sameStorage_mark _ _), rfl, rfl, rfl⟩
  | succ count ih =>
    have hset := l.keeps_assign (.ofIndex first)
    have hsound' := hsound.sameStorage (l.sameStorage_assign (.ofIndex first))
    have hfollows := hbody (l.assign (.ofIndex first)) first (by omega) (by rw [← hregisters]; rfl) hbuffers
      hsound' (hstable _ _ hsound hset hready) (hregisters ▸ l.holds_assign _)
    have hpass := runFrom_pass (c := c) l f.code first
    rw [hregisters] at hpass
    cases hdirect : (direct first).runFrom (c.executingAt l) with
    | mk step between =>
      cases step with
      | error failure =>
        rw [Stateful.repeatFrom, Stateful.runFrom_bind_of_error hdirect] at hrun
        cases hrun
        have hstep := hfollows _ _ hdirect hstored
        cases failure with
        | fault fault => trivial
        | error cause =>
          refine hstep.imp_right fun hfails => ?_
          obtain ⟨failure, running, hfails⟩ := hfails
          exact ⟨failure, running, Stateful.runFrom_bind_of_error (hpass.trans hfails) _⟩
      | ok u =>
        rw [Stateful.repeatFrom, Stateful.runFrom_bind_of_ok hdirect] at hrun
        have hstored' : between.client.StoredBeforeLoaded := by
          obtain ⟨more, hmore⟩ := Action.Grows.repeatFrom hgrows count (first + 1) between
          rw [hrun] at hmore
          exact .of_append (by rw [hmore]; exact hstored)
        obtain ⟨l₁, rfl, hreaches, -⟩ := hfollows _ _ hdirect hstored'
        have hkeeps := (hset.trans hreaches.leads.toKeeps).mark
        have hstep : (c.pass ⟨registers⟩ f.code first).runFrom l.running = (.ok (), l₁.running) :=
          hpass.trans hreaches.run_eq
        have hrest := ih (first + 1) (by omega) (l := l₁.mark l.registers l.buffers) hregisters hbuffers
          (hreaches.sound.sameStorage (l₁.sameStorage_mark l.registers l.buffers))
          (hstable _ _ hsound hkeeps hready) hrun
        cases outcome with
        | error failure =>
          cases failure with
          | fault fault => trivial
          | error cause =>
            refine hrest.imp_right fun hrest => ?_
            obtain ⟨failure, running, hfails⟩ := hrest
            exact ⟨failure, running, (Stateful.runFrom_bind_of_ok hstep _).trans hfails⟩
        | ok v =>
          obtain ⟨l', hworld, hleads, hsound', hregisters', hbuffers', hrun'⟩ := hrest
          have hle : l₁.buffers ≤ l'.buffers := by
            rw [hreaches.buffers_eq, hbuffers', ← hbuffers]
            exact Nat.le_refl _
          exact ⟨l', hworld, leads_of_pass hreaches.leads hleads hle, hsound', hregisters', hbuffers',
            (Stateful.runFrom_bind_of_ok hstep _).trans hrun'⟩

/-- A recorded loop follows a counted one. By induction on the passes, with what
    is ready at the start of each. -/
theorem follows_loop (hstable : ∀ l l', c.Sound l → l.Keeps l' → ready l → ready l')
    (hgrows : ∀ index, (direct index).Grows) {l : Link}
    (hbody : ∀ l' index, index < extent → l'.registers = l.registers + 1 → l'.buffers = l.buffers →
      c.Sound l' → ready l' → l'.Holds (.register ⟨l.registers⟩) (.ofIndex index) →
        c.Follows excused l' f (direct index) fun _ _ => True)
    (hsound : c.Sound l) (hready : ready l) :
    c.Follows excused l ⟨[.loop ⟨l.registers⟩ extent f.code], f.registers + 1, f.buffers⟩
      (Stateful.repeatFrom direct extent 0) fun _ _ => True := by
  intro outcome world hrun hstored
  have h := iterations_follow hstable hgrows hbody extent 0 (by omega) rfl rfl hsound hready hrun hstored
  have hcode : runBlock c.call [.loop ⟨l.registers⟩ extent f.code] =
      Stateful.repeatFrom (c.pass ⟨l.registers⟩ f.code) extent 0 := runBlock_singleton _ _
  rcases outcome with (cause | fault) | u
  · refine h.imp_right ?_
    rintro ⟨failure, running, hfails⟩
    exact ⟨failure, running, hcode ▸ hfails⟩
  · trivial
  · obtain ⟨l', hworld, hleads, hsound', hregisters, hbuffers, hrun'⟩ := h
    exact ⟨l', hworld, ⟨hleads, hsound', hregisters, hbuffers, hcode ▸ hrun'⟩, trivial⟩

end Iterations

/-- A nest of recorded loops follows a walk through a shape. By induction on the
    extents, the outermost first. -/
theorem follows_nest {f : Fragment} {extents : List Nat} {direct : List Nat → Action AccessLog Unit}
    {ready : Link → Prop} (hstable : ∀ l l', c.Sound l → l.Keeps l' → ready l → ready l')
    (hgrows : ∀ coordinates, (direct coordinates).Grows) {l : Link}
    (hbody : ∀ l' coordinates, Layout.InBounds coordinates extents →
      l'.registers = l.registers + extents.length → l'.buffers = l.buffers → c.Sound l' → ready l' →
        List.Forall₂ (fun register index => l'.Holds (.register register) (.ofIndex index))
          (FunctionBuilder.loopRegisters l.registers extents.length) coordinates →
            c.Follows excused l' f (direct coordinates) fun _ _ => True)
    (hsound : c.Sound l) (hready : ready l) :
    c.Follows excused l (f.nest l.registers extents) ((Layout.rowMajor extents).forM direct)
      fun _ _ => True := by
  induction extents generalizing direct ready l with
  | nil =>
    have hone : (Layout.rowMajor []).forM direct = direct [] := by
      simp only [Layout.rowMajor, List.forM, bind_pure_unit]
    rw [hone]
    exact hbody l [] .nil rfl rfl hsound hready .nil
  | cons extent extents ih =>
    rw [Stateful.forM_rowMajor_cons]
    refine follows_loop (f := f.nest (l.registers + 1) extents) hstable (fun index => .forM fun rest => hgrows _)
      ?_ hsound hready
    intro l₁ index hlt hregisters hbuffers hsound₁ hready₁ hholds
    rw [← hregisters]
    refine @ih _ (fun l' => ready l' ∧ l'.Holds (.register ⟨l.registers⟩) (.ofIndex index)) ?_
      (fun rest => hgrows _) _ ?_ hsound₁ ⟨hready₁, hholds⟩
    · exact fun l₂ l₃ hsound₂ hkeeps h => ⟨hstable l₂ l₃ hsound₂ hkeeps h.1, hkeeps.holds h.2⟩
    · intro l₂ rest hin hregisters₂ hbuffers₂ hsound₂ hready₂ hrest
      refine hbody l₂ (index :: rest) (.cons hlt hin) ?_ (hbuffers₂.trans hbuffers) hsound₂ hready₂.1 ?_
      · rw [hregisters₂, hregisters, List.length_cons]
        omega
      · rw [hregisters] at hrest
        exact .cons hready₂.2 hrest

variable {builder : FunctionBuilder} {ι : Type}

/-- A loop in the recording is followed by a loop over the same shape, if the
    recorded body is followed by the direct one for all coordinates. -/
theorem records_forEach {layout : Layout} {recorded : List Scalar → Action AccessLog Unit}
    {direct : ι → List Scalar → Action AccessLog Unit} {ready : ι → Link → Prop}
    (hstable : ∀ i l l', c.Sound l → l.Keeps l' → ready i l → ready i l')
    (hgrows : ∀ i coordinates, (direct i coordinates).Grows)
    (hbody : ∀ inner coordinates, c.Records inner (recorded coordinates) fun _ f =>
      (inner.extend f).buffers.toList <+: c.declarations → ∀ i l (indices : List Nat), l.At inner → c.Sound l →
        ready i l → Layout.InBounds indices layout.extents →
          List.Forall₂ (fun (coordinate direct : Scalar) =>
            l.Matches coordinate.value direct.value ∧ l.Readable direct.value) coordinates
              (indices.map Scalar.ofIndex) →
            c.Follows excused l f (direct i (indices.map Scalar.ofIndex)) fun _ _ => True) :
    c.Records builder ((Context.emitter c.id).forEach layout recorded) fun _ f =>
      (builder.extend f).buffers.toList <+: c.declarations → ∀ i l, l.At builder → c.Sound l → ready i l →
        c.Follows excused l f (Context.compute.forEach layout (direct i)) fun _ _ => True := by
  refine .forEach ((hbody _ _).mono fun _ f hfollows => ?_)
  intro hprefix i l hat hsound hready
  rw [Context.forEach, Layout.forCoordinates_eq, ← hat.registers_eq]
  refine follows_nest (hstable i) (fun indices => hgrows i _) ?_ hsound hready
  intro l' indices hin hregisters hbuffers hsound' hready' hholds
  refine hfollows ?_ i l' indices ⟨?_, ?_⟩ hsound' hready' hin ?_
  · rw [FunctionBuilder.buffers_extend, Fragment.buffers_nest] at hprefix
    rw [FunctionBuilder.buffers_extend, FunctionBuilder.buffers_opened]
    exact hprefix
  · rw [hregisters, hat.registers_eq, FunctionBuilder.nextRegister_opened]
  · rw [hbuffers, hat.buffers_eq, FunctionBuilder.buffers_opened]
  · rw [← hat.registers_eq]
    exact forall₂_matches_of_holds hholds

end Comparison

end StagedArrays
