import StagedArrays.Context.Definition
import StagedArrays.Proofs.Emission.Accesses

namespace StagedArrays

namespace Program

/-- Errors of the direct execution that its recording need not share. The
    recording leaves coordinates that are computed to the address arithmetic,
    which sees the flat storage only, and never compares a layout with the
    storage behind it. -/
def Escapes : {n : Nat} → Program n → ValueError → Prop
  | _, done _, _ => False
  | _, allocate _ _ next, cause => next.Escapes cause
  | _, view _ _ next, cause => cause.RefusesLayout ∨ next.Escapes cause
  | _, element _ coordinates next, cause =>
    (cause.RefusesCoordinate ∧ ∃ i, Term.bound i ∈ coordinates) ∨ next.Escapes cause
  | _, load _ next, cause => next.Escapes cause
  | _, store _ _ next, cause => next.Escapes cause
  | _, binary _ _ _ next, cause => next.Escapes cause
  | _, dot _ _ next, cause => cause.RefusesCoordinate ∨ next.Escapes cause
  | _, forEach _ body next, cause => body.Escapes cause ∨ next.Escapes cause

end Program

namespace Link

variable {l : Link} {n : Nat} {recorded direct : Env n}

/-- Variables numbered from values that stand for each other do so too.
    Parameters are the first of them. -/
theorem envMatches_ofList {values values' : List Value} (h : List.Forall₂ l.Matches values values') (count : Nat) :
    l.EnvMatches (Env.ofList count values) (Env.ofList count values') := by
  intro i
  simp only [Env.ofList]
  by_cases hlt : i.val < values.length
  · have hlt' : i.val < values'.length := h.length_eq ▸ hlt
    rw [List.getD_eq_getElem?_getD, List.getD_eq_getElem?_getD, List.getElem?_eq_getElem hlt,
      List.getElem?_eq_getElem hlt']
    exact h.get hlt hlt'
  · have hge' : values'.length ≤ i.val := h.length_eq ▸ Nat.le_of_not_lt hlt
    rw [List.getD_eq_getElem?_getD, List.getD_eq_getElem?_getD, List.getElem?_eq_none (Nat.le_of_not_lt hlt),
      List.getElem?_eq_none hge']
    exact l.matches_constant _

/-- Values that are brought into scope on both sides stand for each other
    there. -/
theorem EnvMatches.append (h : l.EnvMatches recorded direct) (count : Nat) {values values' : List Value}
    (hvalues : List.Forall₂ l.Matches values values') :
    l.EnvMatches (recorded.append count values) (direct.append count values') := by
  intro i
  refine Fin.addCases (fun i => ?_) (fun i => ?_) i
  · simpa only [Env.append, Fin.addCases_left] using h i
  · simpa only [Env.append, Fin.addCases_right] using envMatches_ofList hvalues count i

theorem EnvMatches.push (h : l.EnvMatches recorded direct) {value value' : Value}
    (hvalue : l.Matches value value') : l.EnvMatches (recorded.push value) (direct.push value') :=
  h.append 1 (.cons hvalue .nil)

/-- What a term stands for is the same on both sides, a variable as well as an
    immediate. -/
theorem EnvMatches.term (h : l.EnvMatches recorded direct) (term : Term n) :
    l.Matches (term.value recorded) (term.value direct) := by
  cases term with
  | bound i => exact h i
  | immediate x => exact l.matches_constant x

/-- Terms stand for matching values where variables do. An immediate matches
    itself. -/
theorem EnvMatches.terms (h : l.EnvMatches recorded direct) (terms : List (Term n)) :
    List.Forall₂ l.Matches (terms.map (·.value recorded)) (terms.map (·.value direct)) := by
  rw [List.forall₂_map_left_iff, List.forall₂_map_right_iff]
  exact List.forall₂_same.mpr fun term _ => h.term term

end Link

/-- A coordinate that is no immediate in the recording is a variable. Errors
    about it may escape the recording. -/
theorem Term.exists_bound {n : Nat} {env : Env n} {terms : List (Term n)}
    (h : ∃ value ∈ terms.map (·.value env), value.asConstant? = none) : ∃ i, Term.bound i ∈ terms := by
  obtain ⟨_, hmem, hnone⟩ := h
  obtain ⟨term, hterm, rfl⟩ := List.mem_map.mp hmem
  cases term with
  | bound i => exact ⟨i, hterm⟩
  | immediate x => cases hnone

namespace Comparison

variable [ArrayLibrary] {c : Comparison} {builder : FunctionBuilder}

/-- What a recorded program has to satisfy at the end of a function in progress:
    running it leads to what the direct execution does, from wherever the
    variables stand for each other. -/
def Simulates (c : Comparison) {n : Nat} (builder : FunctionBuilder) (program : Program n) (looping : Bool)
    (recorded : Env n) (result : Option Value) (f : Fragment) : Prop :=
  (builder.extend f).buffers.toList <+: c.declarations → ∀ l direct, l.At builder → c.Sound l →
    l.EnvMatches recorded direct → (looping = false → c.Untouched l) →
      c.Follows program.Escapes l f (program.run looping direct) fun l' => Option.Rel l'.Matches result

section Steps

variable {n : Nat} {program : Program n} {looping : Bool} {recorded : Env n} {excused : ValueError → Prop}

/-- An operation, and what comes after it with the variables that the operation
    leaves. -/
theorem records_step {m : Nat} {α : Type} {operation : Env n → Action AccessLog α} {next : Program m}
    {leave : Env n → α → Env m} {opposite : Link → α → α → Prop}
    (hrun : ∀ env, program.run looping env = operation env >>= fun value => next.run looping (leave env value))
    (hexcused : ∀ cause, excused cause → program.Escapes cause)
    (hnext : ∀ cause, next.Escapes cause → program.Escapes cause)
    (hleave : ∀ l direct value value', l.EnvMatches recorded direct → opposite l value value' →
      l.EnvMatches (leave recorded value) (leave direct value'))
    (hoperation : c.Records builder (operation recorded) fun value f =>
      (builder.extend f).buffers.toList <+: c.declarations → ∀ l direct, l.At builder → c.Sound l →
        l.EnvMatches recorded direct → (looping = false → c.Untouched l) →
          c.Follows excused l f (operation direct) fun l' => opposite l' value)
    (ih : ∀ inner env, c.Records inner (next.run looping env) fun result f =>
      c.Simulates inner next looping env result f) :
    c.Records builder (program.run looping recorded) fun result f =>
      c.Simulates builder program looping recorded result f := by
  rw [hrun]
  refine .bind hoperation fun value f₁ hvalue => (ih _ _).mono fun result f₂ hresult => ?_
  intro hprefix l direct hat hsound henv huntouched
  rw [hrun]
  rw [← FunctionBuilder.extend_extend] at hprefix
  refine ((hvalue ((FunctionBuilder.prefix_extend _ _).trans hprefix) l direct hat hsound henv huntouched).excuse
    hexcused).bind (fun _ => Program.grows_run _ _ _) ?_
  intro l' value' hreaches hopposite
  refine (hresult hprefix l' _ (hreaches.at_extend hat) hreaches.sound
    (hleave l' direct value value' (hsound.envMatches hreaches.leads.toKeeps henv) hopposite) ?_).excuse hnext
  exact fun hlooping => hreaches.leads.untouched (huntouched hlooping)

/-- An operation that binds a variable, and what comes after it. Each case of
    the induction over programs is one of these. -/
theorem records_operation {operation : Env n → Action AccessLog Value} {next : Program (n + 1)}
    (hrun : ∀ env, program.run looping env = operation env >>= fun value => next.run looping (env.push value))
    (hexcused : ∀ cause, excused cause → program.Escapes cause)
    (hnext : ∀ cause, next.Escapes cause → program.Escapes cause)
    (hoperation : c.Records builder (operation recorded) fun value f =>
      (builder.extend f).buffers.toList <+: c.declarations → ∀ l direct, l.At builder → c.Sound l →
        l.EnvMatches recorded direct → (looping = false → c.Untouched l) →
          c.Follows excused l f (operation direct) (·.Matches value ·))
    (ih : ∀ inner (env : Env (n + 1)), c.Records inner (next.run looping env) fun result f =>
      c.Simulates inner next looping env result f) :
    c.Records builder (program.run looping recorded) fun result f =>
      c.Simulates builder program looping recorded result f :=
  records_step hrun hexcused hnext (fun _ _ _ _ henv hmatches => henv.push hmatches) hoperation ih

end Steps

/-- A loop in the recording is followed by a loop, if its body is by the direct
    one. -/
theorem records_loop {n : Nat} {shape : Shape} {body : Program (n + shape.rank)} {recorded : Env n}
    (hbody : ∀ inner (env : Env (n + shape.rank)), c.Records inner (body.run true env) fun result f =>
      c.Simulates inner body true env result f) :
    c.Records builder ((Context.emitter c.id).forEach shape.toLayout fun coordinates =>
        discard (body.run true (recorded.append shape.rank (coordinates.map Scalar.value))))
      fun _ f => (builder.extend f).buffers.toList <+: c.declarations → ∀ l direct, l.At builder → c.Sound l →
        l.EnvMatches recorded direct →
          c.Follows body.Escapes l f (Context.compute.forEach shape.toLayout fun coordinates =>
            discard (body.run true (direct.append shape.rank (coordinates.map Scalar.value)))) fun _ _ => True := by
  have hdiscard : ∀ {action : Action AccessLog (Option Value)}, discard action = do
      return (fun _ => ()) (← action) := by
    intro action
    rw [Functor.discard, map_const, bind_pure_comp]
    rfl
  refine (@records_forEach _ _ _ _ (Env n) _ _
    (fun direct coordinates =>
      discard (body.run true (direct.append shape.rank (coordinates.map Scalar.value))))
    (fun direct l => l.EnvMatches recorded direct)
    (fun _ _ _ hsound hkeeps henv => hsound.envMatches hkeeps henv)
    (fun _ _ => .map _ (Program.grows_run _ _ _)) fun inner coordinates => ?_).mono
      fun _ f h hprefix l direct hat hsound henv => h hprefix direct l hat hsound henv
  rw [hdiscard]
  refine .map ((hbody inner _).mono fun result f h hprefix direct l indices hat hsound henv _ hcoordinates => ?_)
  rw [hdiscard]
  refine .map ((h hprefix l _ hat hsound (henv.append shape.rank ?_) (by simp)).mono fun _ _ _ _ => trivial)
  rw [List.forall₂_map_left_iff, List.forall₂_map_right_iff]
  exact hcoordinates.imp fun _ _ h => h.1

/-- A recorded program is followed by its direct execution. By induction on the
    program, whose loops are treated in full by their own rule. -/
theorem records_run {n : Nat} (program : Program n) (looping : Bool) (recorded : Env n) :
    c.Records builder (program.run looping recorded) fun result f =>
      c.Simulates builder program looping recorded result f := by
  induction program generalizing builder looping with
  | done result =>
    refine .pure fun _ l direct hat hsound henv _ => .pure hsound ?_
    cases result with
    | none => exact .none
    | some term => exact .some (henv.term term)
  | allocate dtype shape next ih =>
    refine records_operation (fun _ => rfl) (fun _ => False.elim) (fun _ h => h) ?_
      fun inner env => ih _ _
    refine (@records_allocation _ _ (fun _ => False) _ looping dtype _ shape.formed).mono fun value f h hprefix l direct hat hsound _ => ?_
    exact h hprefix l hat hsound
  | view source shape next ih =>
    refine records_operation (fun _ => rfl) (fun _ => .inl)
      (fun _ => .inr) ?_ fun inner env => ih _ _
    refine (records_viewing (source.value recorded) shape).mono fun value f h _ l direct hat hsound henv _ => ?_
    exact h l _ hat hsound (henv.term source)
  | element source coordinates next ih =>
    refine records_operation (fun _ => rfl) (fun _ => .inl) (fun _ => .inr) ?_ fun inner env => ih _ _
    refine (records_selection (source.value recorded) _).mono fun value f h _ l direct hat hsound henv _ => ?_
    exact (h l _ _ hat hsound (henv.term source) (henv.terms coordinates)).excuse
      fun cause hmisses => ⟨hmisses.1, Term.exists_bound hmisses.2⟩
  | load source next ih =>
    refine records_operation (fun _ => rfl) (fun _ => False.elim) (fun _ h => h) ?_
      fun inner env => ih _ _
    refine (@records_loading _ _ (fun _ => False) _ (source.value recorded)).mono fun value f h _ l direct hat hsound henv _ => ?_
    exact h l _ hat hsound (henv.term source)
  | store destination source next ih =>
    refine @records_step _ _ _ _ _ _ _ _ _ _ _ _ _ (fun _ _ _ => True)
      (fun _ => rfl) (fun _ => False.elim) (fun _ h => h) (fun _ _ _ _ henv _ => henv) ?_ fun inner env => ih _ _
    refine (@records_storing _ _ (fun _ => False) _ (destination.value recorded) (source.value recorded)).mono
      fun _ f h _ l direct hat hsound henv _ => ?_
    exact h l _ _ hat hsound (henv.term destination) (henv.term source)
  | binary op a b next ih =>
    refine records_operation (fun _ => rfl) (fun _ => False.elim) (fun _ h => h) ?_
      fun inner env => ih _ _
    refine (@records_combination _ _ (fun _ => False) _ op (a.value recorded) (b.value recorded)).mono
      fun value f h _ l direct hat hsound henv _ => ?_
    exact h l _ _ hat hsound (henv.term a) (henv.term b)
  | dot v w next ih =>
    refine records_operation (fun _ => rfl) (fun _ => .inl)
      (fun _ => .inr) ?_ fun inner env => ih _ _
    refine (records_product (v.value recorded) (w.value recorded)).mono
      fun value f h hprefix l direct hat hsound henv _ => ?_
    exact h hprefix l _ _ hat hsound (henv.term v) (henv.term w)
  | forEach shape body next ihBody ihNext =>
    refine @records_step _ _ _ _ _ _ _ _ _ _
      (fun env => do
        (← Action.activeContext).forEach shape.toLayout fun coordinates =>
          discard (body.run true (env.append shape.rank (coordinates.map Scalar.value))))
      _ (fun env _ => env) (fun _ _ _ => True)
      (fun env => ?_) (fun _ => .inl) (fun _ => .inr) (fun _ _ _ _ henv _ => henv) ?_ fun inner env => ihNext _ _
    · rw [bind_assoc]
      rfl
    · refine .activeContext_bind ((records_loop fun inner env => ihBody _ _).mono
        fun _ f h hprefix l direct hat hsound henv _ => .activeContext_bind ?_)
      exact h hprefix l direct hat hsound henv

end Comparison

/-- The contents of a scalar are what it reads as. -/
theorem Scalar.runFrom_contents {s : Scalar} {heap : Heap} {x : Numeric} (h : s.value.Reads heap x) :
    s.contents.runFrom heap = (.ok x, heap) := by
  have hrank : s.value.layout.ensureRank 0 = .ok () := Layout.ensureRank_eq_ok.mpr s.rank_eq
  rw [Value.Reads, Direct.read] at h
  simp only [hrank, Stateful.runFrom_bind, Stateful.runFrom_liftM, liftM_layoutError_ok] at h
  unfold Scalar.contents
  cases hdata : s.value.data <;> rw [hdata] at h
  · simpa using h
  · simp only [Stateful.runFrom_bind, HeapM.runFrom_read] at h ⊢
    exact h
  · cases h
  · cases h

namespace Comparison

variable [ArrayLibrary] {c : Comparison} {excused : ValueError → Prop} {builder : FunctionBuilder} {l : Link}

/-- The operand that a function returns is followed by reading the result. An
    immediate needs no code. -/
theorem records_result (function : FunctionDeclaration) (result : Option Value) :
    c.Records builder (.onEmitter c.id (Emitter.resultOperand function result)) fun operand f =>
      ∀ l result', l.At builder → c.Sound l → Option.Rel l.Matches result result' →
        c.Follows excused l f (Program.readResult result') fun l' => Option.Rel l'.Holds operand := by
  refine Emits.records ?_
  unfold Emitter.resultOperand
  split
  · next value type _ =>
    refine .lift_bind fun _ _ => .map ((emits_operand value).mono fun operand f h => ?_)
    rintro l _ hat hsound hresult
    cases hresult with
    | some hmatches =>
      next value' =>
      have hrank' : value'.rank = 0 := hmatches.rank_eq.trans h.1
      refine @Follows.lift_bind _ _ _ _ _ _ _ _ _ _ ⟨value', hrank'⟩ _ _ (Scalar.ofValue_eq_ok.mpr rfl) ?_
      refine .noteLoads_bind hsound hat (.bind (.onHeap _) fun _ => .pure _) ?_
      intro l' hkeeps hat' hsound' hreadable
      obtain ⟨x, hx, -, hcomputes⟩ := h.2 l' value' hat' hsound' (hsound.matches hkeeps hmatches)
        (hreadable value' List.mem_cons_self)
      refine .map (Computes.onHeap (hcomputes.mono fun _ _ hholds => .some hholds) ?_)
      exact Scalar.runFrom_contents hx
  · refine .pure fun l result' _ hsound hresult => ?_
    cases hresult
    exact .pure hsound .none
  · exact .fail
  · exact .fail

end Comparison

end StagedArrays
