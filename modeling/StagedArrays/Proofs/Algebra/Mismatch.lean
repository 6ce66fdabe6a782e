import StagedArrays.Kernel.Interleaved
import StagedArrays.Proofs.Algebra.Passes

namespace StagedArrays

open Stateful (Ends FailsWith)

variable {σ : Type} {world : World σ} {context : Context} {failure : Failure ValueError}

namespace Combination

/-- How an operation goes on operands that it should refuse for a given
    reason. -/
structure Refuses [ArrayLibrary] (c : Combination) (context : Context) (world : World σ) (failure : Failure ValueError) : Prop where
  /-- Without groundwork it fails at once, and changes nothing. -/
  atOnce : (c.groundwork : Option (Action σ Value)) = none → c.run.runFrom world = (.error failure, world)
  /-- Where its groundwork fails it fails with that. -/
  unready : ∀ groundwork refusal after, c.groundwork = some groundwork →
    groundwork.runFrom world = (.error refusal, after) → c.run.runFrom world = (.error refusal, after)
  /-- If it compares the operands as a whole it fails after its groundwork,
      which stays. -/
  afterwards : ∀ groundwork fresh after, c.groundwork = some groundwork →
    groundwork.runFrom world = (.ok fresh, after) → c.passes = [] → c.run.runFrom world = (.error failure, after)
  /-- If it compares them element by element it gives the outcome of its
      groundwork where there is no pass. -/
  unnoticed : ∀ groundwork fresh after, c.groundwork = some groundwork →
    groundwork.runFrom world = (.ok fresh, after) → c.passes ≠ [] → context = .compute →
      (∀ v ∈ c.passes, v.value.layout.extents = [0]) → c.run.runFrom world = (.ok (some fresh), after)
  /-- It fails where there is a pass. -/
  inPass : ∀ groundwork fresh after, c.groundwork = some groundwork →
    groundwork.runFrom world = (.ok fresh, after) → c.passes ≠ [] →
      ¬(context = .compute ∧ ∀ v ∈ c.passes, v.value.layout.extents = [0]) →
        FailsWith failure (∀ v ∈ c.passes, v.Usable context world.heap) (c.run.runFrom world)
  /-- What was there is as it was. -/
  keeps : (∀ fault, (c.run.runFrom world).1 ≠ .error (.fault fault)) → world.Keeps (c.run.runFrom world).2

variable {c : Combination} {groundwork : Action σ Value}

/-- A combination that lays no groundwork and fails at once has refused its
    operands, and left the world as it was. -/
theorem refuses_of_none [ArrayLibrary] (hgroundwork : (c.groundwork : Option (Action σ Value)) = none)
    (hrun : c.run.runFrom world = (.error failure, world)) : c.Refuses context world failure where
  atOnce _ := hrun
  unready _ _ _ hsome := nomatch hgroundwork.symm.trans hsome
  afterwards _ _ _ hsome := nomatch hgroundwork.symm.trans hsome
  unnoticed _ _ _ hsome := nomatch hgroundwork.symm.trans hsome
  inPass _ _ _ hsome := nomatch hgroundwork.symm.trans hsome
  keeps _ := by
    rw [hrun]
    exact .refl world

/-- An operation that compares its operands as a whole after its groundwork. If
    the groundwork fails there is nothing to compare. -/
theorem refuses_of_afterwards [ArrayLibrary] (hgroundwork : c.groundwork = some groundwork) (hpasses : c.passes = [])
    (hends : Ends (fun _ => world.Keeps) (fun _ => world.Keeps) True (groundwork.runFrom world))
    (hunready : ∀ refusal after, groundwork.runFrom world = (.error refusal, after) →
      c.run.runFrom world = (.error refusal, after))
    (hafter : ∀ fresh after, groundwork.runFrom world = (.ok fresh, after) → c.run.runFrom world = (.error failure, after)) :
    c.Refuses context world failure where
  atOnce hnone := nomatch hgroundwork.symm.trans hnone
  unready found refusal after hsome hrun := by
    cases hgroundwork.symm.trans hsome
    exact hunready refusal after hrun
  afterwards found fresh after hsome hrun _ := by
    cases hgroundwork.symm.trans hsome
    exact hafter fresh after hrun
  unnoticed _ _ _ _ _ hne := (hne hpasses).elim
  inPass _ _ _ _ _ hne := (hne hpasses).elim
  keeps hfault := by
    rcases hrun : groundwork.runFrom world with ⟨refusal | fresh, after⟩
    · rw [hunready refusal after hrun] at hfault ⊢
      rw [hrun] at hends
      cases refusal with
      | error cause => exact hends.error cause rfl
      | fault fault => exact (hfault fault rfl).elim
    · rw [hafter fresh after hrun]
      rw [hrun] at hends
      exact hends.ok fresh rfl

/-- An operation that takes a total for its groundwork, and adds to it in a loop
    that compares types in each pass. -/
theorem refuses_of_loop [ArrayLibrary] (loop : Scalar → Action σ Unit) (dtype : DType) (hcontext : world.contexts.head? = some context)
    (hgroundwork : c.groundwork = some groundwork) (hpasses : c.passes ≠ [])
    (hends : Ends (fun _ => world.Keeps) (fun _ => world.Keeps) True (groundwork.runFrom world))
    (hunready : ∀ refusal after, groundwork.runFrom world = (.error refusal, after) →
      c.run.runFrom world = (.error refusal, after))
    (htotal : ∀ fresh after, groundwork.runFrom world = (.ok fresh, after) → ∃ total : Scalar, total.value = fresh ∧
      total.dtype = dtype ∧ context.Ready after ∧
        c.run.runFrom world = (loop total >>= fun _ => pure (some total.value)).runFrom after)
    (hquiet : ∀ total, total.dtype = dtype → ∀ count (after : World σ),
      Ends (fun _ => after.Spares count) (fun _ => after.Spares count) True ((loop total).runFrom after))
    (hempty : ∀ total (after : World σ), after.contexts.head? = some .compute →
      (∀ v ∈ c.passes, v.value.layout.extents = [0]) → (loop total).runFrom after = (.ok (), after))
    (hfails : ∀ total, total.dtype = dtype → ∀ after : World σ, after.contexts.head? = some context → context.Ready after →
      ¬(context = .compute ∧ ∀ v ∈ c.passes, v.value.layout.extents = [0]) →
        FailsWith failure (∀ v ∈ c.passes, v.Usable context after.heap) ((loop total).runFrom after)) :
    c.Refuses context world failure where
  atOnce hnone := nomatch hgroundwork.symm.trans hnone
  unready found refusal after hsome hrun := by
    cases hgroundwork.symm.trans hsome
    exact hunready refusal after hrun
  afterwards _ _ _ _ _ hnil := (hpasses hnil).elim
  unnoticed found fresh after hsome hrun _ hcompute hzero := by
    cases hgroundwork.symm.trans hsome
    rw [hrun] at hends
    obtain ⟨total, rfl, -, -, hloop⟩ := htotal fresh after hrun
    subst hcompute
    rw [hloop, Stateful.runFrom_bind_of_ok (hempty total after ((hends.ok _ rfl).head? hcontext) hzero),
      Stateful.runFrom_pure]
  inPass found fresh after hsome hrun _ hpass := by
    cases hgroundwork.symm.trans hsome
    rw [hrun] at hends
    have hkeeps : world.Keeps after := hends.ok fresh rfl
    obtain ⟨total, -, hdtype, hready, hloop⟩ := htotal fresh after hrun
    rw [hloop]
    refine .bind_of_fails ((hfails total hdtype after (hkeeps.head? hcontext) hready hpass).imp fun husable v hv => ?_)
    exact (husable v hv).of_keeps hkeeps
  keeps hfault := by
    rcases hrun : groundwork.runFrom world with ⟨(cause | fault) | fresh, after⟩
    all_goals rw [hrun] at hends
    · rw [hunready _ after hrun]
      exact hends.error cause rfl
    · exact (hfault fault (by rw [hunready _ after hrun])).elim
    · obtain ⟨total, -, hdtype, -, hloop⟩ := htotal fresh after hrun
      have hlast : Ends (fun _ => after.Spares world.heap.buffers.size) (fun _ => after.Spares world.heap.buffers.size) True
          ((loop total >>= fun _ => (pure (some total.value) : Action σ (Option Value))).runFrom after) :=
        (hquiet total hdtype _ after).bind fun _ _ hlast => .of_ok hlast
      have hkeeps : world.Keeps after := hends.ok fresh rfl
      rw [← hloop] at hlast
      rcases houtcome : (c.run.runFrom world).1 with (cause | fault) | a
      · exact hkeeps.trans (hlast.error cause houtcome)
      · exact (hfault fault houtcome).elim
      · exact hkeeps.trans (hlast.ok a houtcome)

theorem ends_groundwork_copy (hcontext : world.contexts.head? = some context) (value : Value) :
    Ends (fun _ => world.Keeps) (fun _ => world.Keeps) True ((Elementwise.copy value).runFrom world) :=
  (Elementwise.ends_copy hcontext value).mono (fun _ _ h => h.1) fun _ _ => id

/-- An operator that copies one operand, and then updates the copy by the
    other. -/
theorem refuses_of_update [ArrayLibrary] {value operand : Value} {combine : Context → Value → Value → Action σ Value}
    {next : Value → Action σ (Option Value)} (hcontext : world.contexts.head? = some context)
    (hgroundwork : c.groundwork = some (Elementwise.copy value : Action σ Value)) (hpasses : c.passes = [])
    (hrun : c.run = (do
      let fresh ← Elementwise.copy value
      Elementwise.update combine fresh operand
      return fresh) >>= next) (h : value.compareOperands operand = .error failure) : c.Refuses context world failure := by
  refine refuses_of_afterwards hgroundwork hpasses (ends_groundwork_copy hcontext value) (fun refusal after hcopy => ?_)
    fun fresh after hcopy => ?_
  · rw [hrun, bind_assoc, Stateful.runFrom_bind_of_error hcopy]
  · rw [hrun, bind_assoc, Stateful.runFrom_bind_of_ok hcopy, bind_assoc]
    exact Stateful.runFrom_bind_of_error (Elementwise.runFrom_update_copy hcontext hcopy h) _

/-- The operands of an operation on scalars are compared only when the copy of
    the left one is updated. The mismatch is reported all the same. -/
theorem refuses_scalar [ArrayLibrary] (hcontext : world.contexts.head? = some context) (op : BinaryOp) {a b : Scalar}
    (h : b.dtype ≠ a.dtype) : (scalar op a b).Refuses context world (.error (.typeMismatch a.dtype b.dtype)) := by
  refine refuses_of_afterwards rfl rfl (ends_groundwork_copy hcontext a.value) (fun refusal after hcopy => ?_)
    fun fresh after hcopy => ?_
  · refine Stateful.runFrom_bind_of_error (Stateful.runFrom_bind_of_error ?_ _) _
    rw [Scalar.copy, Stateful.runFrom_bind_of_error hcopy]
  · exact Stateful.runFrom_bind_of_error (Scalar.runFrom_binary_of_dtype_ne op hcontext hcopy h) _

/-- The types of a vector and the scalar it is accumulated onto are compared in
    each pass; an empty vector has none. -/
theorem refuses_accumulate [ArrayLibrary] (hcontext : world.contexts.head? = some context) {v : Vector} {initial : Scalar}
    (h : v.dtype ≠ initial.dtype) :
    (accumulate v initial).Refuses context world (.error (.typeMismatch initial.dtype v.dtype)) := by
  refine refuses_of_loop v.addInto initial.dtype hcontext rfl (List.cons_ne_nil _ _)
    (ends_groundwork_copy hcontext initial.value)
    (fun refusal after hcopy => ?_) (fun fresh after hcopy => ?_) (fun total hdtype count after => ?_)
    (fun total after hcontext hempty => ?_) fun total hdtype after hcontext hready hpasses => ?_
  · refine Stateful.runFrom_bind_of_error (Stateful.runFrom_bind_of_error ?_ _) _
    rw [Scalar.copy, Stateful.runFrom_bind_of_error hcopy]
  · obtain ⟨total, htotal, hvalue, hdtype, -, hready⟩ := Scalar.exists_runFrom_copy hcontext hcopy
    refine ⟨total, hvalue, hdtype, hready, ?_⟩
    rw [run, Vector.accumulate, bind_assoc, Stateful.runFrom_bind_of_ok htotal, bind_assoc]
    rfl
  · exact Vector.ends_forVector fun _ _ => Vector.ends_addPass (hdtype ▸ h)
  · exact Vector.runFrom_forVector_of_empty hcontext (hempty v List.mem_cons_self)
  · have hfails := Vector.failsWith_addInto hcontext hready (hdtype ▸ h) fun hempty =>
      hpasses ⟨hempty.1, fun _ hv => List.mem_singleton.mp hv ▸ hempty.2⟩
    rw [hdtype] at hfails
    exact hfails.imp fun husable => husable v List.mem_cons_self

/-- Where the numbers of elements agree the types are compared in each pass.
    Without a pass they are not compared at all. -/
theorem refuses_dotByLoop_of_size [ArrayLibrary] (hcontext : world.contexts.head? = some context) {v w : Vector} {count : Nat}
    (hv : v.size = .ok count) (hw : w.size = .ok count) (h : w.dtype ≠ v.dtype) :
    (dotByLoop v w).Refuses context world (.error (.typeMismatch v.dtype w.dtype)) := by
  have hgroundwork : (dotByLoop v w).groundwork = some (do return (← Scalar.allocate v.dtype).value : Action σ Value) := by
    rw [groundwork, hv, hw]
    exact if_pos rfl
  have hextents : w.value.layout.extents = v.value.layout.extents := Vector.extents_eq_of_size hw hv
  have hallocate := Scalar.ends_allocate hcontext v.dtype
  have hloop := Vector.runFrom_dotByLoop_of_size hv hw world
  refine refuses_of_loop (v.productsInto w) v.dtype hcontext hgroundwork (List.cons_ne_nil _ _)
    (hallocate.bind fun fresh after hafter => .of_ok hafter.1) (fun refusal after hrun => ?_) (fun fresh after hrun => ?_)
    (fun total hdtype count after => Vector.ends_forVector fun _ _ => Vector.ends_multiplyPass h)
    (fun total after hcontext hempty => ?_) fun total hdtype after hcontext hready hpasses => ?_
  · rcases hstart : (Scalar.allocate v.dtype).runFrom world with ⟨cause | total, last⟩
    · rw [Stateful.runFrom_bind_of_error hstart] at hrun
      cases hrun
      exact Stateful.runFrom_bind_of_error (by rw [hloop, Stateful.runFrom_bind_of_error hstart]) _
    · rw [Stateful.runFrom_bind_of_ok hstart] at hrun
      cases hrun
  · obtain ⟨total, last, hstart, hvalue⟩ := Stateful.runFrom_bind_eq_ok.mp hrun
    cases hvalue
    rw [hstart] at hallocate
    obtain ⟨-, hdtype, hready⟩ := hallocate.ok total rfl
    refine ⟨total, rfl, hdtype, hready, ?_⟩
    rw [run, Stateful.runFrom_bind, hloop, Stateful.runFrom_bind_of_ok hstart, Stateful.runFrom_bind, Stateful.runFrom_bind]
    rcases (v.productsInto w total).runFrom after with ⟨cause | u, last⟩ <;> rfl
  · exact Vector.runFrom_forVector_of_empty hcontext (hempty v List.mem_cons_self)
  · refine (Vector.failsWith_productsInto hcontext hready hextents h fun ⟨hcompute, hempty⟩ => hpasses ⟨hcompute, fun u hu => ?_⟩).imp
      fun husable => ⟨husable v List.mem_cons_self, husable w (List.mem_cons_of_mem _ List.mem_cons_self)⟩
    rcases List.mem_pair.mp hu with rfl | rfl
    · exact hempty
    · rw [hextents, hempty]

/-- The loop of an inner product compares the sizes at once, but the types only
    in each pass. -/
theorem refuses_dotByLoop [ArrayLibrary] (hcontext : world.contexts.head? = some context) {v w : Vector}
    (h : v.compareSizes w = .error failure) : (dotByLoop v w).Refuses context world failure := by
  by_cases hcounts : ∃ count, v.size = .ok count ∧ w.size = .ok count
  · obtain ⟨count, hv, hw⟩ := hcounts
    obtain ⟨hdtype, rfl⟩ := Vector.of_compareSizes h hv hw
    exact refuses_dotByLoop_of_size hcontext hv hw hdtype
  · refine refuses_of_none ?_ (Stateful.runFrom_bind_of_error (Vector.runFrom_compareCounts hcounts h) _)
    rw [groundwork]
    split
    · next m n hv hw => exact if_neg fun heq : m = n => hcounts ⟨m, hv, heq ▸ hw⟩
    · rfl

/-- Operands that do not fit are refused in every context, with the error that
    says why, unless the operation fails before it comes to compare them, or has
    no element to compare. -/
theorem exists_refuses [ArrayLibrary] (c : Combination) (hfits : ¬c.Fits) (world : World σ) (hcontext : world.contexts.head? = some context) :
    ∃ failure, c.comparison = .error failure ∧ c.Refuses context world failure := by
  obtain ⟨failure, h⟩ := exists_comparison hfits
  refine ⟨failure, h, ?_⟩
  cases c with
  | assignScalar op a b =>
    obtain ⟨hdtype, rfl⟩ := Value.of_compareTypes h
    exact refuses_of_none rfl (Stateful.runFrom_bind_of_error (Scalar.runFrom_assign_of_dtype_ne op hdtype) _)
  | assignVector op v operand =>
    exact refuses_of_none rfl (Stateful.runFrom_bind_of_error (Elementwise.runFrom_update_of_compareOperands h) _)
  | assignMatrix op m operand =>
    exact refuses_of_none rfl (Stateful.runFrom_bind_of_error (Elementwise.runFrom_update_of_compareOperands h) _)
  | assignReversed op destination operand =>
    exact refuses_of_none rfl (Stateful.runFrom_bind_of_error (Elementwise.runFrom_update_of_compareOperands h) _)
  | copyInto destination source =>
    exact refuses_of_none rfl (Stateful.runFrom_bind_of_error (Elementwise.runFrom_copyInto_of_comparison h) _)
  | call function args =>
    exact refuses_of_none rfl (FunctionDeclaration.runFrom_call_of_checkArguments hcontext h)
  | dot v w => exact refuses_of_none rfl (Stateful.runFrom_bind_of_error (Vector.runFrom_dot_of_compareSizes h) _)
  | dotByLoop v w => exact refuses_dotByLoop hcontext h
  | accumulate v initial =>
    obtain ⟨hdtype, rfl⟩ := Value.of_compareTypes h
    exact refuses_accumulate hcontext hdtype
  | scalar op a b =>
    obtain ⟨hdtype, rfl⟩ := Value.of_compareTypes h
    exact refuses_scalar hcontext op hdtype
  | vector | matrix => exact refuses_of_update hcontext rfl rfl (bind_assoc _ _ _) h
  | scalarVector op s v =>
    have hoperands : v.value.compareOperands s.value = .error failure := Value.compareOperands_of_compareTypes h
    cases op <;> exact refuses_of_update hcontext rfl rfl (bind_assoc _ _ _) hoperands
  | scalarPlusMatrix | scalarTimesMatrix =>
    exact refuses_of_update hcontext rfl rfl (bind_assoc _ _ _) (Value.compareOperands_of_compareTypes h)

/-- Two long integers of a function being emitted. Integers of the other type
    stand beside them. -/
def longs : Vector := ⟨⟨.i64, ⟨[2], [1]⟩, .buffer ⟨0⟩ (.constant (.i64 0))⟩, rfl⟩

def ints : Vector := ⟨⟨.i32, ⟨[2], [1]⟩, .buffer ⟨1⟩ (.constant (.i64 0))⟩, rfl⟩

/-- A function of the two vectors is being emitted, and has no instruction
    yet. -/
def emitting : World Unit where
  emitters := #[{
    moduleName := "m"
    current := some {
      name := "f"
      symbol := "m_f"
      parameters := [.pointer .i64 ⟨[2], [1]⟩, .pointer .i32 ⟨[2], [1]⟩]
      returnType := none
      bindings := #[.buffer ⟨0⟩, .buffer ⟨1⟩]
      buffers := #[⟨⟨0⟩, .i64, 2, .parameter 0⟩, ⟨⟨1⟩, .i32, 2, .parameter 1⟩]
    }
    scope := 1
  }]
  contexts := [.emitter ⟨0⟩]
  client := ()

/-- The sum of the two vectors is refused once the first is copied. -/
theorem exists_refuses_sum :
    ¬(vector .add longs ints.value).Fits ∧ emitting.contexts.head? = some (.emitter ⟨0⟩) ∧
    ((vector .add longs ints.value).run.runFrom emitting).1 = .error (.error (.typeMismatch .i64 .i32)) := by
  have hfits : ¬(vector .add longs ints.value).Fits := fun h => absurd h.1 (by decide)
  obtain ⟨failure, hcomparison, hrefuses⟩ := exists_refuses (vector .add longs ints.value) hfits emitting rfl
  obtain rfl : Failure.error (.typeMismatch .i64 .i32) = failure := Except.error.inj hcomparison
  have hcopied : ((Elementwise.copy longs.value).runFrom emitting).1.toOption.isSome := by decide +kernel
  rcases hcopy : (Elementwise.copy longs.value).runFrom emitting with ⟨_ | fresh, after⟩
  · rw [hcopy] at hcopied
    cases hcopied
  · exact ⟨hfits, rfl, congrArg Prod.fst (hrefuses.afterwards _ fresh after rfl hcopy rfl)⟩

def emptyLongs : Vector := ⟨⟨.i64, ⟨[0], [1]⟩, .host ⟨0⟩ 0⟩, rfl⟩

def emptyInts : Vector := ⟨⟨.i32, ⟨[0], [1]⟩, .host ⟨1⟩ 0⟩, rfl⟩

def computing : World Unit := { heap := ⟨#[.empty .i64, .empty .i32]⟩, contexts := [.compute], client := () }

/-- The product of empty vectors of different types is not refused by the loop,
    and a sum that is refused leaves the copy in the function being emitted. -/
theorem refusals_missed :
    (¬∀ (c : Combination) (world : World Unit), world.contexts.head? = some .compute → ¬c.Fits →
      ∃ cause, (c.run.runFrom world).1 = .error (.error cause)) ∧
    ¬∀ (c : Combination) (world : World Unit) (id : EmitterId), world.contexts.head? = some (.emitter id) → ¬c.Fits →
      ((c.run.runFrom world).2.emitterAt id).current = (world.emitterAt id).current := by
  constructor
  · intro hclaim
    obtain ⟨cause, hcause⟩ := hclaim (dotByLoop emptyLongs emptyInts) computing rfl fun h => absurd h.1 (by decide)
    have hok : ((dotByLoop emptyLongs emptyInts).run.runFrom computing).1.toOption.isSome := by decide +kernel
    rw [hcause] at hok
    cases hok
  · intro hclaim
    have hsame := hclaim (vector .add longs ints.value) emitting ⟨0⟩ rfl fun h => absurd h.1 (by decide)
    have hleft : (((vector .add longs ints.value).run.runFrom emitting).2.emitterAt ⟨0⟩).current.map (·.buffers.size) = some 3 := by
      decide +kernel
    rw [hsame] at hleft
    exact absurd hleft (by decide)

end Combination

end StagedArrays
