import StagedArrays.Proofs.Emission.Call
import StagedArrays.Proofs.Emission.DotLoop

namespace StagedArrays

namespace Layout

/-- A layout of one dimension has one increment. -/
theorem eq_of_rank_one {layout : Layout} (hrank : layout.rank = 1) (hformed : layout.Formed) :
    ∃ extent increment, layout = ⟨[extent], [increment]⟩ := by
  obtain ⟨extents, increments⟩ := layout
  obtain ⟨extent, rfl⟩ := List.length_eq_one_iff.mp hrank
  obtain ⟨increment, rfl⟩ := List.length_eq_one_iff.mp (hformed.trans hrank)
  exact ⟨extent, increment, rfl⟩

end Layout

namespace FunctionDeclaration

/-- Checks see the type, the level and the layout of an argument. These are the
    same for values that stand for each other. -/
theorem check_eq {type : ValueType} {l : Link} {recorded direct : Value} (h : l.Matches recorded direct) :
    type.check direct = type.check recorded := by
  simp only [ValueType.check, Value.ensureDType, Value.pointerLevel, Value.size, h.isAddressable_eq, h.dtype_eq,
    h.layout_eq]

/-- Recorded parameters and the values passed for them pass the same checks,
    since a check looks at types, levels and extents. -/
theorem checkEach_eq {types : List ValueType} {l : Link} {recorded directs : List Value}
    (h : List.Forall₂ l.Matches recorded directs) : checkEach types directs = checkEach types recorded := by
  induction h generalizing types with
  | nil => rfl
  | cons hfirst _ ih =>
    cases types with
    | nil => rfl
    | cons type types => simp only [checkEach, check_eq hfirst, ih]

/-- Arguments that match pass the same checks. Only their types and layouts are
    looked at. -/
theorem checkArguments_eq {function function' : FunctionDeclaration} {l : Link} {recorded directs : List Value}
    (hname : function'.name = function.name) (hparameters : function'.parameters = function.parameters)
    (h : List.Forall₂ l.Matches recorded directs) :
    function'.checkArguments directs = function.checkArguments recorded := by
  simp only [checkArguments, hname, hparameters, h.length_eq, checkEach_eq h]

end FunctionDeclaration

namespace Comparison

variable {l : Link}

/-- A value with dimensions that stands opposite a recorded one is on the
    host. -/
theorem exists_host_of_matches {recorded direct : Value} (h : l.Matches recorded direct)
    (hrank : direct.layout.rank ≠ 0) : ∃ ref offset, direct.data = .host ref offset := by
  have hdata := h.data
  cases hdirect : direct.data with
  | host ref offset => exact ⟨ref, offset, rfl⟩
  | constant x =>
    cases hrecorded : recorded.data <;> rw [hrecorded, hdirect] at hdata <;>
      simp only [Link.DataMatches] at hdata
    · exact (hrank hdata.2.2).elim
    · exact (hrank hdata.2.2).elim
  | buffer | register => cases hrecorded : recorded.data <;> rw [hrecorded, hdirect] at hdata <;> cases hdata

/-- Storage that stands for a vector's agrees with it on everything the vector
    covers. -/
theorem stridedEq_of_readable {ref other : HostRef} {offset extent increment : Nat} {value : Value}
    (halike : l.Alike ref other) (hreadable : l.Readable value) (hdata : value.data = .host ref offset)
    (hlayout : value.layout = ⟨[extent], [increment]⟩) :
    (l.direct.get ref).StridedEq extent increment offset (l.running.heap.get other) := by
  refine ⟨halike.dtype_eq.symm, halike.length_eq.symm, fun k hk => ?_⟩
  have hin : Layout.InBounds [k] value.layout.extents := by
    rw [hlayout]
    exact .cons hk .nil
  have hplace : value.layout.place [k] = k * increment := by simp [hlayout, Layout.place]
  have hcell := hreadable _ (Value.mem_cells hdata hin)
  rw [hplace] at hcell
  exact (halike.get_eq _ hcell).symm

/-- The values that a kernel is called with stand for each other. Counts and
    increments are the same immediates on both sides. -/
theorem forall₂_matches_arguments {v w v' w' : Vector} (hopposite : Opposite l v w v' w') (x y z : Numeric) :
    List.Forall₂ l.Matches [.constant x, v.value, .constant y, w.value, .constant z]
      [.constant x, v'.value, .constant y, w'.value, .constant z] :=
  .cons (l.matches_constant x) (.cons hopposite.1.1 (.cons (l.matches_constant y)
    (.cons hopposite.2.1 (.cons (l.matches_constant z) .nil))))

/-- What a vector hands over to a kernel agrees where the kernel looks.
    Elsewhere in the buffers it need not. -/
theorem stridedEq_of_opposite {v v' : Vector} {given taken : HostArgument} {size a : Nat}
    (hmatches : l.Matches v.value v'.value) (hreadable : l.Readable v'.value) (hsize : v.size = .ok size)
    (ha : v.value.layout.increment 0 = .ok a) (hgiven : Direct.hostArgument v'.value = .ok given)
    (hdelivers : l.Delivers given taken) : ∃ ref other offset, given = .buffer ref offset ∧
      taken = .buffer other offset ∧
        (l.direct.get ref).StridedEq size a offset (l.running.heap.get other) := by
  have hrank : v'.value.layout.rank = 1 := v'.rank_eq
  obtain ⟨ref, offset, hdata⟩ := exists_host_of_matches hmatches (by rw [hrank]; exact Nat.one_ne_zero)
  obtain ⟨extent, increment, hlayout⟩ := Layout.eq_of_rank_one hrank hmatches.formed
  have hsame : v.value.layout = ⟨[extent], [increment]⟩ := hmatches.layout_eq.trans hlayout
  have hextent : size = extent := by
    rw [Vector.size, Value.size, hsame] at hsize
    simp only [Layout.elementCount, List.foldlM, bind_eq_ok_iff, Word.mul_eq_ok_iff, Nat.one_mul] at hsize
    obtain ⟨_, ⟨rfl, -⟩, hsize⟩ := hsize
    cases hsize
    rfl
  have hincrement : a = increment := by
    rw [hsame] at ha
    cases ha
    rfl
  subst hextent hincrement
  rw [Direct.hostArgument, hdata, Except.ok.injEq] at hgiven
  subst hgiven
  cases taken with
  | scalar x => cases hdelivers
  | buffer other place =>
    obtain ⟨halike, rfl⟩ := hdelivers
    exact ⟨ref, other, offset, rfl, rfl, stridedEq_of_readable halike hreadable hdata hlayout⟩

variable [ArrayLibrary] {c : Comparison} {builder : FunctionBuilder} {excused : ValueError → Prop}
  {α : Type} {arithmetic : DotArithmetic α} {dtype : DType} {read : Numeric → α} {write : α → Numeric}

/-- Kernels give the same on storage that stands for each other. Their results
    depend on the elements in the views alone. -/
theorem kernel_eq {v w v' w' : Vector} {n vIncrement wIncrement : Int32} {size a b : Nat}
    {given taken : List HostArgument} (hopposite : Opposite l v w v' w') (hvSize : v.size = .ok size)
    (hwSize : w.size = .ok size) (hn : n.toInt = size) (ha : v.value.layout.increment 0 = .ok a)
    (hva : vIncrement.toInt = a) (hb : w.value.layout.increment 0 = .ok b) (hwb : wIncrement.toInt = b)
    (hgiven : Direct.hostArguments [.constant (.i32 n), v'.value, .constant (.i32 vIncrement), w'.value,
      .constant (.i32 wIncrement)] = .ok given) (hdelivers : List.Forall₂ l.Delivers given taken) :
    ∃ outcome : Outcome α,
      (vendorDot arithmetic dtype read write given).runFrom l.direct =
          (outcome.map fun z => some (write z), l.direct) ∧
        (vendorDot arithmetic dtype read write taken).runFrom l.running.heap =
          (outcome.map fun z => some (write z), l.running.heap) := by
  simp only [Direct.hostArguments, List.mapM_cons, List.mapM_nil, bind_eq_ok_iff] at hgiven
  obtain ⟨x₁, hx₁, _, ⟨x₂, hx₂, _, ⟨x₃, hx₃, _, ⟨x₄, hx₄, _, ⟨x₅, hx₅, _, hnil, h₅⟩, h₄⟩, h₃⟩, h₂⟩, h₁⟩ := hgiven
  cases hnil; cases h₅; cases h₄; cases h₃; cases h₂; cases h₁; cases hx₁; cases hx₃; cases hx₅
  obtain _ | ⟨hy₁, _ | ⟨hy₂, _ | ⟨hy₃, _ | ⟨hy₄, _ | ⟨hy₅, hrest⟩⟩⟩⟩⟩ := hdelivers
  cases hrest
  obtain ⟨ref, other, offset, rfl, rfl, hx⟩ :=
    stridedEq_of_opposite hopposite.1.1 hopposite.1.2 hvSize ha hx₂ hy₂
  obtain ⟨ref', other', offset', rfl, rfl, hy⟩ :=
    stridedEq_of_opposite hopposite.2.1 hopposite.2.2 hwSize hb hx₄ hy₄
  have heq : ∀ {x : Numeric} {y : HostArgument}, l.Delivers (.scalar x) y → y = .scalar x := by
    intro x y h
    cases y with
    | scalar z => rw [show x = z from h]
    | buffer other place => cases h
  rw [heq hy₁, heq hy₃, heq hy₅]
  refine ⟨_, runFrom_vendorDot .., ?_⟩
  rw [runFrom_vendorDot, arithmetic.ofBuffers_congr (x := l.direct.get ref) (y := l.direct.get ref')]
  · rw [hn, hva]
    exact hx
  · rw [hn, hwb]
    exact hy

/-- What a kernel gives is called for with arguments that pass the checks. The
    checks have been made while recording. -/
theorem records_callKernel {symbol : String} (hsymbol : symbol ∈ Kernel.symbols) (kernel : HostFunction)
    (v w : Vector) (recorded : List Value) :
    c.Records builder ((Vector.kernelDeclaration .emitter symbol kernel v w).callIn (.emitter c.id) recorded)
      fun result f => result = some (.register v.dtype ⟨builder.nextRegister⟩) ∧
        (Vector.kernelDeclaration .emitter symbol kernel v w).checkArguments recorded = .ok () ∧ ∃ args,
          f = { code := [.call symbol args (some ⟨builder.nextRegister⟩)], registers := 1 } ∧
            ∀ l directs, c.Sound l → List.Forall₂ l.Matches recorded directs → ∃ given taken,
              Direct.hostArguments directs = .ok given ∧
                (RunM.arguments args).runFrom l.running = (.ok taken, l.running) ∧
                  List.Forall₂ l.Delivers given taken := by
  refine .lift_bind fun _ hcheck => .bind (emits_call rfl rfl hsymbol recorded).records ?_
  rintro _ _ ⟨rfl, args, rfl, hargs⟩
  refine .lift_bind fun _ _ => .pure ⟨rfl, hcheck, args, by rw [Fragment.append_empty]; rfl, hargs⟩

/-- An inner product by a kernel in the recording is followed by the kernel. -/
theorem records_dotByKernel {symbol : String} (hsymbol : symbol ∈ Kernel.symbols)
    (hcall : c.call symbol = vendorDot arithmetic dtype read write) (hwrite : ∀ z, (write z).dtype = dtype)
    {v w : Vector} (hdtype : v.dtype = dtype) (hsize : w.size = v.size) :
    c.Records builder (v.dotByKernel symbol (vendorDot arithmetic dtype read write) w) fun s f =>
      ∀ l v' w', l.At builder → c.Sound l → Opposite l v w v' w' →
        c.Follows excused l f (v'.dotByKernel symbol (vendorDot arithmetic dtype read write) w')
          fun l' s' => l'.Matches s.value s'.value ∧ l'.Readable s'.value := by
  refine .lift_bind fun size hvSize => .lift_bind fun count hcount => .lift_bind fun a ha =>
    .lift_bind fun vIncrement hva => .lift_bind fun b hb => .lift_bind fun wIncrement hwb => .activeContext_bind ?_
  refine .bind (records_callKernel hsymbol _ v w _) ?_
  rintro _ _ ⟨rfl, hcheck, args, rfl, hargs⟩
  refine .lift fun s hs => ?_
  have hs : s.value = .register v.dtype ⟨builder.nextRegister⟩ := Scalar.ofValue_eq_ok.mp hs
  rw [Fragment.append_empty]
  simp only [liftM_fault_eq_ok_iff, liftM_layoutError_eq_ok_iff, liftM_error_eq_ok_iff] at hvSize hcount ha hva hb hwb
  intro l v' w' hat hsound hopposite
  obtain ⟨n, hn, rfl⟩ := Vector.countValue_eq_ok.mp hcount
  obtain ⟨n', hn', rfl⟩ := Vector.countValue_eq_ok.mp hva
  obtain ⟨n'', hn'', rfl⟩ := Vector.countValue_eq_ok.mp hwb
  have hvalues := forall₂_matches_arguments hopposite (.i32 n) (.i32 n') (.i32 n'')
  obtain ⟨given, taken, hgiven, htaken, hdelivers⟩ := hargs l _ hsound hvalues
  obtain ⟨outcome, hdirect, hrunning⟩ := @kernel_eq _ _ _ _ _ _ write _ _ _ _ _ _ _ _ _ _ _ _
    hopposite hvSize (hsize.trans hvSize) hn ha hn' hb hn'' hgiven hdelivers
  have hlayouts : v'.value.layout = v.value.layout ∧ w'.value.layout = w.value.layout :=
    ⟨hopposite.1.1.layout_eq.symm, hopposite.2.1.layout_eq.symm⟩
  have hsame : v'.dtype = v.dtype := hopposite.1.1.dtype_eq.symm
  have hcheck' := @FunctionDeclaration.checkArguments_eq
    (Vector.kernelDeclaration .emitter symbol (vendorDot arithmetic dtype read write) v w)
    (Vector.kernelDeclaration .compute symbol (vendorDot arithmetic dtype read write) v' w') _ _ _ rfl
    (by simp only [Vector.kernelDeclaration, hsame, hlayouts]) hvalues
  rw [hcheck] at hcheck'
  refine Follows.lift_bind (?_ : _ = Except.ok size) (.lift_bind (?_ : _ = Except.ok (.constant (.i32 n)))
    (.lift_bind (?_ : _ = Except.ok a) (.lift_bind (?_ : _ = Except.ok (.constant (.i32 n'))) (.lift_bind (?_ : _ = Except.ok b)
      (.lift_bind (?_ : _ = Except.ok (.constant (.i32 n''))) (.activeContext_bind ?_))))))
  · rw [liftM_fault_eq_ok_iff, ← hvSize, Vector.size, Value.size, hlayouts.1]
    rfl
  · exact liftM_error_eq_ok_iff.mpr hcount
  · rw [hlayouts.1]
    exact liftM_layoutError_eq_ok_iff.mpr ha
  · exact liftM_error_eq_ok_iff.mpr hva
  · rw [hlayouts.2]
    exact liftM_layoutError_eq_ok_iff.mpr hb
  · exact liftM_error_eq_ok_iff.mpr hwb
  have hdirectCall : _ = (_, c.executingAt l) := Vector.runFrom_callIn_kernel (by rw [hsame, hdtype]; exact hwrite) hcheck'
    (Vector.runFrom_callKernel hgiven hdirect)
  have hrun := @runFrom_call _ c _ symbol _ _ ⟨builder.nextRegister⟩ htaken
  rw [hcall, hrunning] at hrun
  cases outcome with
  | error failure => exact Fails.follows ⟨failure, _, hrun⟩ (Stateful.runFrom_bind_of_error hdirectCall _)
  | ok z =>
    have hscalar : Scalar.ofValue (.constant (write z)) = .ok (.ofNumeric (write z)) := rfl
    refine @Computes.follows _ _ _ _ _ _ _ (.ofNumeric (write z)) _ ?_ ?_
    · rw [← hat.registers_eq] at hrun hs ⊢
      rw [runBlock_singleton] at hrun
      refine computes_assign (x := write z) hsound hrun ⟨?_, fun cell hmem => by cases hmem⟩
      rw [hs, hdtype, ← hwrite z]
      exact (l.holds_assign (write z)).matches_valueOf
    · refine (Stateful.runFrom_bind_of_ok hdirectCall _).trans ?_
      simp only [hscalar, Stateful.runFrom_liftM, liftM_layoutError_ok]

/-- An inner product of vectors of one size in the recording is followed by the
    same. -/
theorem records_dotByType {v w : Vector} (hsize : w.size = v.size) :
    c.Records builder (v.dotByType w) fun s f =>
      (builder.extend f).buffers.toList <+: c.declarations → ∀ l v' w', l.At builder → c.Sound l →
        Opposite l v w v' w' → c.Follows ValueError.RefusesCoordinate l f (v'.dotByType w')
          fun l' s' => l'.Matches s.value s'.value ∧ l'.Readable s'.value := by
  have hsame : ∀ {l : Link} {v' w' : Vector}, Opposite l v w v' w' → v'.dtype = v.dtype :=
    fun h => h.1.1.dtype_eq.symm
  unfold Vector.dotByType
  cases hdtype : v.dtype with
  | f32 =>
    refine (@records_dotByKernel _ _ _ ValueError.RefusesCoordinate _ _ _ _ _ _ (by simp [Kernel.symbols]) c.callSingle (fun _ => rfl) _ _ hdtype hsize).mono ?_
    intro s f h _ l v' w' hat hsound hopposite
    rw [hsame hopposite, hdtype]
    exact h l v' w' hat hsound hopposite
  | f64 =>
    refine (@records_dotByKernel _ _ _ ValueError.RefusesCoordinate _ _ _ _ _ _ (by simp [Kernel.symbols]) c.callDouble (fun _ => rfl) _ _ hdtype hsize).mono ?_
    intro s f h _ l v' w' hat hsound hopposite
    rw [hsame hopposite, hdtype]
    exact h l v' w' hat hsound hopposite
  | bf16 | f16 | i64 | i32 =>
    refine (records_dotByLoop v w).mono fun s f h hprefix l v' w' hat hsound hopposite => ?_
    rw [hsame hopposite, hdtype]
    exact h hprefix l v' w' hat hsound hopposite

/-- An inner product in the recording is followed by an inner product. Both
    sides choose kernel or loop by the element type. -/
theorem records_dot (v w : Vector) :
    c.Records builder (v.dot w) fun s f =>
      (builder.extend f).buffers.toList <+: c.declarations → ∀ l v' w', l.At builder → c.Sound l →
        Opposite l v w v' w' → c.Follows ValueError.RefusesCoordinate l f (v'.dot w')
          fun l' s' => l'.Matches s.value s'.value ∧ l'.Readable s'.value := by
  rw [Vector.dot_eq]
  refine .lift_bind fun vSize hv => .lift_bind fun wSize hw => ?_
  split
  case isTrue => exact .fail
  case isFalse hsize =>
    split
    case isTrue => exact .fail
    case isFalse hdtype =>
      have hvSize : v.size = .ok vSize := liftM_fault_eq_ok_iff.mp hv
      have hwSize : w.size = .ok wSize := liftM_fault_eq_ok_iff.mp hw
      rw [not_not] at hsize hdtype
      refine (records_dotByType (by rw [hwSize, hvSize, hsize])).mono ?_
      intro s f h hprefix l v' w' hat hsound hopposite
      have hsizes : v'.size = v.size ∧ w'.size = w.size := by
        simp only [Vector.size, Value.size, hopposite.1.1.layout_eq, hopposite.2.1.layout_eq, and_self]
      have hdtypes : v'.dtype = v.dtype ∧ w'.dtype = w.dtype :=
        ⟨hopposite.1.1.dtype_eq.symm, hopposite.2.1.dtype_eq.symm⟩
      rw [Vector.dot_eq, hsizes.1, hsizes.2]
      refine .lift_bind hv (.lift_bind hw ?_)
      rw [if_neg (not_not.mpr hsize), hdtypes.1, hdtypes.2, if_neg (not_not.mpr hdtype)]
      exact h hprefix l v' w' hat hsound hopposite

end Comparison

end StagedArrays
