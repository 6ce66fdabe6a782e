import StagedArrays.Proofs.Script.Entry
import StagedArrays.Proofs.Script.Invariants
import StagedArrays.Proofs.Script.Places

namespace StagedArrays

namespace EmitterEvent

/-- The storage in which an event finds a place or stores. -/
def target? : EmitterEvent → Option Value
  | .performed operation _ _ => operation.target?
  | .opened _ | .closed | .returned _ _ => none

/-- What an event hands out. -/
def result? : EmitterEvent → Option Value
  | .performed _ (.ok result) _ => result
  | .performed _ (.error _) _ | .opened _ | .closed | .returned _ _ => none

def IsPlain : EmitterEvent → Prop
  | .performed operation _ _ => operation.IsPlain
  | .opened _ | .closed | .returned _ _ => True

instance : (event : EmitterEvent) → Decidable event.IsPlain
  | .performed operation _ _ => inferInstanceAs (Decidable operation.IsPlain)
  | .opened _ | .closed | .returned _ _ => isTrue trivial

/-- The coordinates that an event has found a place by, each with the extent
    that it is to be below. -/
def coordinates : EmitterEvent → List (Nat × Value)
  | .performed operation _ _ => operation.coordinates
  | .opened _ | .closed | .returned _ _ => []

/-- Whether each of these coordinates stands for a position below its extent. It
    is looked at when the event's code is come to. -/
def InBounds (running : Running) (event : EmitterEvent) : Prop :=
  ∀ pair ∈ event.coordinates, ∀ x, running.denotes? pair.2 = some x → x.Below pair.1

end EmitterEvent

/-- Whether events use storage only as it has been handed out by then, or seen
    through a layout that reaches no further. -/
def Refitting : List Value → List EmitterEvent → Prop
  | _, [] => True
  | handed, event :: events =>
    (∀ value ∈ event.target?.toList, value.isAddressable = true → ∃ source ∈ handed, source.Refits value) ∧
      Refitting (event.result?.toList ++ handed) events

instance decidableRefitting : (handed : List Value) → (events : List EmitterEvent) → Decidable (Refitting handed events)
  | _, [] => isTrue trivial
  | handed, event :: events =>
    have := decidableRefitting (event.result?.toList ++ handed) events
    inferInstanceAs (Decidable ((∀ value ∈ event.target?.toList, value.isAddressable = true →
      ∃ source ∈ handed, source.Refits value) ∧ Refitting (event.result?.toList ++ handed) events))

/-- What has been handed out after events. This is what later events may use. -/
def handedBy (handed : List Value) (events : List EmitterEvent) : List Value :=
  events.foldl (fun handed event => event.result?.toList ++ handed) handed

/-- Later events may use what earlier ones have handed out. So a course of
    events can be taken apart. -/
theorem refitting_append {handed : List Value} {events more : List EmitterEvent} :
    Refitting handed (events ++ more) ↔ Refitting handed events ∧ Refitting (handedBy handed events) more := by
  induction events generalizing handed with
  | nil => simp [Refitting, handedBy]
  | cons event events ih =>
    simp only [List.cons_append, Refitting, ih, and_assoc]
    rfl

/-- What is known by the end of events accounts for what they have recorded:
    code keeps to it as long as coordinates are in bounds, nothing is known
    about the counters of loops, and storage that has been handed out lies in
    buffers. -/
structure Facts.Accounts (facts : Facts) (declared : List BufferDeclaration) (handed : List Value) (events : List EmitterEvent)
    (f : Fragment) (facts' : Facts) : Prop where
  extended : facts.Extends facts'
  count_eq : facts'.count = facts.count + f.registers
  keeps : ∀ later, facts'.Extends later → ∀ event ∈ events, ∀ instruction ∈ event.code, ∀ running, event.InBounds running →
    running.frame.Satisfies later → instruction.Keeps declared later running
  inductions : ∀ later, facts'.Extends later → ∀ id ∈ blockInductions f.code, ∀ x, later.about id x
  seated : ∀ value ∈ handedBy handed events, value.Seated declared facts'

namespace Facts.Accounts

variable {facts facts₁ facts₂ : Facts} {declared : List BufferDeclaration} {handed : List Value}
  {events more : List EmitterEvent} {f g : Fragment}

/-- Nothing has to be accounted for before the first event. -/
theorem nil (hhanded : ∀ value ∈ handed, value.Seated declared facts) : facts.Accounts declared handed [] .empty facts where
  extended := refl_of Facts.Extends facts
  count_eq := rfl
  keeps _ _ _ hmem := nomatch hmem
  inductions _ _ _ hmem := nomatch hmem
  seated := hhanded

/-- Nothing is known about the counters of a nest, whatever is known about its
    body. -/
theorem nest {extents : List Nat} {coordinates : List Scalar}
    (h : (facts.take extents.length).Accounts declared handed events f facts₁) :
    facts.Accounts declared handed (.opened coordinates :: (events ++ [.closed])) (f.nest facts.count extents) facts₁ where
  extended := trans_of Facts.Extends (facts.extends_take extents.length) h.extended
  count_eq := by rw [h.count_eq, Fragment.registers_nest, Facts.take, Nat.add_assoc]
  keeps later hlater event hmem instruction hcode := by
    rcases List.mem_cons.mp hmem with rfl | hmem
    · cases hcode
    · rcases List.mem_append.mp hmem with hmem | hmem
      · exact h.keeps later hlater event hmem instruction hcode
      · cases List.mem_singleton.mp hmem
        cases hcode
  inductions later hlater id hmem x := by
    rw [Fragment.blockInductions_nest, List.mem_append] at hmem
    rcases hmem with hmem | hmem
    · obtain ⟨k, hk, rfl⟩ := List.mem_map.mp hmem
      rw [List.mem_range'_1] at hk
      rw [(trans_of Facts.Extends h.extended hlater).about_eq ⟨k⟩ hk.2, Facts.take]
      simp [hk.1]
    · exact h.inductions later hlater id hmem x
  seated value hmem := by
    refine h.seated value ?_
    rw [handedBy, List.foldl_cons, List.foldl_append] at hmem
    exact hmem

/-- Two courses of events that are accounted for are accounted for as one. What
    is known after the first is where the second begins. -/
theorem append (h : facts.Accounts declared handed events f facts₁)
    (h' : facts₁.Accounts declared (handedBy handed events) more g facts₂) :
    facts.Accounts declared handed (events ++ more) (f.append g) facts₂ where
  extended := trans_of Facts.Extends h.extended h'.extended
  count_eq := by rw [h'.count_eq, h.count_eq, Fragment.append, Nat.add_assoc]
  keeps later hlater := List.forall_mem_append.mpr
    ⟨h.keeps later (trans_of Facts.Extends h'.extended hlater), h'.keeps later hlater⟩
  inductions later hlater := by
    rw [Fragment.append, blockInductions_append]
    exact List.forall_mem_append.mpr ⟨h.inductions later (trans_of Facts.Extends h'.extended hlater), h'.inductions later hlater⟩
  seated value hmem := by
    refine h'.seated value ?_
    rw [handedBy, List.foldl_append] at hmem
    exact hmem

end Facts.Accounts

namespace Emission

variable {emitter : Emitter} {builder : FunctionBuilder} {events : List EmitterEvent} {f : Fragment}
  {declared : List BufferDeclaration} {facts : Facts} {handed : List Value}

/-- An operation records what it certifies of storage that has been handed out
    to it. -/
theorem exists_accounts_performed {operation : Operation} {outcome : Except (Failure ValueError) (Option Value)}
    {code : List Instruction}
    (hrun : operation.emit.runFrom (emitter.emitting builder) = (outcome, emitter.emitting (builder.extend f)))
    (hsteps : blockSteps f.code = f.code) (hcode : code = f.code) (hblocks : builder.blocks ≠ [])
    (hplain : operation.IsPlain) (hdeclared : f.buffers ⊆ declared) (hcount : facts.count = builder.nextRegister)
    (hhanded : ∀ value ∈ handed, value.Seated declared facts)
    (hfits : ∀ value ∈ operation.target?.toList, value.isAddressable = true → ∃ source ∈ handed, source.Refits value) :
    ∃ facts', facts.Accounts declared handed [.performed operation outcome code] f facts' := by
  have htarget : ∀ value, operation.target? = some value →
      value.Seated declared facts ∧ (value.isAddressable = true → value.layout.Formed) := by
    intro value htarget
    cases haddressable : value.isAddressable with
    | false => exact ⟨Value.seated_of_isAddressable_eq_false haddressable, fun heq => nomatch heq⟩
    | true =>
      obtain ⟨source, hsource, hrefits⟩ := hfits value (Option.mem_toList.mpr htarget) haddressable
      exact ⟨(hhanded source hsource).refit hrefits, fun _ => hrefits.formed⟩
  obtain ⟨facts', hextends, hregisters, hkeeps, hresult⟩ :=
    (operation.adds_certified hplain hcount htarget).of_runFrom hblocks hrun hdeclared
  refine ⟨facts', hextends, hregisters, fun later hlater event hevent instruction hmem running => ?_, fun later _ => ?_,
    fun value hmem => ?_⟩
  · cases List.mem_singleton.mp hevent
    change instruction ∈ code at hmem
    rw [hcode] at hmem
    exact fun hbounds hsatisfies => hkeeps later hlater running hbounds hsatisfies instruction hmem
  · rw [blockInductions_eq_nil hsteps]
    exact fun _ hmem => nomatch hmem
  · rcases List.mem_append.mp hmem with hmem | hmem
    · cases outcome with
      | error failure => cases hmem
      | ok result => exact hresult result rfl value (Option.mem_toList.mp hmem)
    · exact (hhanded value hmem).mono hextends

/-- What is recorded while storage is used as it has been handed out keeps to
    what can be known about registers, as long as coordinates are in bounds. -/
theorem exists_accounts (h : Emission emitter builder events f) (hblocks : builder.blocks ≠ [])
    (hplain : ∀ event ∈ events, event.IsPlain) (hdeclared : f.buffers ⊆ declared)
    (hcount : facts.count = builder.nextRegister) (hhanded : ∀ value ∈ handed, value.Seated declared facts)
    (hfits : Refitting handed events) : ∃ facts', facts.Accounts declared handed events f facts' := by
  induction h generalizing facts handed with
  | nil => exact ⟨facts, .nil hhanded⟩
  | operation hrun _ hsteps hcode =>
    exact exists_accounts_performed hrun hsteps (hcode hblocks) hblocks (hplain _ List.mem_cons_self) hdeclared hcount
      hhanded hfits.1
  | @loops builder extents events f _ ih =>
    have hcount' : (facts.take extents.length).count = (builder.opened extents.length).nextRegister := by
      rw [FunctionBuilder.nextRegister_opened, ← hcount]
      rfl
    rw [Fragment.buffers_nest] at hdeclared
    obtain ⟨hfits, -⟩ := refitting_append.mp hfits.2
    obtain ⟨facts', haccounts⟩ := ih (FunctionBuilder.blocks_opened_ne_nil hblocks _)
      (fun event hmem => hplain event (List.mem_cons_of_mem _ (List.mem_append_left _ hmem))) hdeclared hcount'
      (fun value hmem => (hhanded value hmem).mono (facts.extends_take extents.length)) hfits
    exact ⟨facts', hcount ▸ haccounts.nest⟩
  | @append builder events more f g _ _ ih ih' =>
    obtain ⟨hfits, hfits'⟩ := refitting_append.mp hfits
    obtain ⟨hplain, hplain'⟩ := List.forall_mem_append.mp hplain
    obtain ⟨hdeclared, hdeclared'⟩ := List.append_subset.mp hdeclared
    obtain ⟨facts₁, haccounts⟩ := ih hblocks hplain hdeclared hcount hhanded hfits
    have hcount₁ : facts₁.count = (builder.extend f).nextRegister := by
      rw [haccounts.count_eq, hcount, FunctionBuilder.nextRegister_extend]
    obtain ⟨facts₂, haccounts'⟩ := ih' (FunctionBuilder.blocks_extend_ne_nil hblocks f) hplain' hdeclared' hcount₁
      haccounts.seated hfits'
    exact ⟨facts₂, haccounts.append haccounts'⟩

end Emission

/-- A value of storage that has been declared for it, as long as its layout
    reaches. -/
def Value.Declared (declared : List BufferDeclaration) (value : Value) : Prop :=
  ∀ id place, value.data = .buffer id place → place = .constant (.ofIndex 0) ∧
    ∃ declaration ∈ declared, declaration.id = id ∧ value.layout.memorySize = .ok declaration.length

namespace Value

variable {declared more : List BufferDeclaration} {value : Value}

/-- A value whose buffer is declared stays so where more is. The declaration is
    the same. -/
theorem Declared.mono (hsubset : declared ⊆ more) (h : value.Declared declared) : value.Declared more := by
  intro id place hdata
  obtain ⟨hplace, declaration, hmem, hdeclaration⟩ := h id place hdata
  exact ⟨hplace, declaration, hsubset hmem, hdeclaration⟩

/-- Declared storage is seated where its layout reaches no further than its
    buffer. -/
theorem Declared.seated (facts : Facts) (h : value.Declared declared) : value.Seated declared facts := by
  intro id place hdata
  obtain ⟨rfl, declaration, hmem, hid, hsize⟩ := h id place hdata
  refine ⟨declaration, hmem, hid, declaration.length, hsize, Operand.yields_constant ?_⟩
  exact (Numeric.upTo_ofIndex 0).mono (by omega)

end Value

namespace FunctionBuilder

variable {index : Nat} {type : ValueType} {types : List ValueType} {builder after : FunctionBuilder} {value : Value}
  {values : List Value}

/-- A parameter that lies in storage is declared with a buffer as long as its
    layout reaches. -/
theorem Binds.declares (h : builder.Binds index type value after) :
    builder.buffers.toList ⊆ after.buffers.toList ∧ value.Declared after.buffers.toList := by
  cases h with
  | register => exact ⟨List.Subset.refl _, fun _ _ heq => nomatch heq⟩
  | buffer _ hsize =>
    rw [Array.toList_push]
    refine ⟨List.subset_append_left _ _, ?_⟩
    rintro _ _ ⟨⟩
    exact ⟨rfl, _, List.mem_append_right _ (List.mem_singleton_self _), rfl, hsize⟩

/-- The storage of each parameter is declared for it. -/
theorem declares_of_bindParameters (h : bindParameters index types builder = .ok (values, after)) :
    builder.buffers.toList ⊆ after.buffers.toList ∧ ∀ value ∈ values, value.Declared after.buffers.toList := by
  induction types generalizing index builder values with
  | nil =>
    cases h
    exact ⟨List.Subset.refl _, fun _ hmem => nomatch hmem⟩
  | cons type types ih =>
    obtain ⟨value, next, rest, hbinds, hrest, rfl⟩ := exists_binds h
    obtain ⟨hsubset, hvalue⟩ := hbinds.declares
    obtain ⟨hsubset', hvalues⟩ := ih hrest
    exact ⟨List.Subset.trans hsubset hsubset', List.forall_mem_cons.mpr ⟨hvalue.mono hsubset', hvalues⟩⟩

end FunctionBuilder

namespace Emitter

variable {emitter : Emitter} {function : EmittedFunction} {transcript : Transcript} {heap after : Heap}
  {args : List HostArgument} {entered : Frame}

/-- The storage of each parameter of a function is declared for it. -/
theorem Recorded.declares (h : emitter.Recorded function transcript) :
    ∀ value ∈ transcript.parameters, value.Declared function.buffers := by
  obtain ⟨hstart, -, -, -, -⟩ := h
  next declared parameters builder events f g result operand =>
  intro value hmem
  refine ((FunctionBuilder.declares_of_bindParameters hstart).2 value hmem).mono ?_
  simp [FunctionBuilder.finished]

/-- The instructions of a function that uses storage as it has been handed out
    keep to what can be known about registers, as long as coordinates are in
    bounds. -/
theorem Recorded.exists_facts (h : emitter.Recorded function transcript) (hplain : ∀ event ∈ transcript.events, event.IsPlain)
    (hfits : Refitting transcript.parameters transcript.events) :
    ∃ facts : Facts,
      (∀ event ∈ transcript.events, ∀ instruction ∈ event.code, ∀ running, event.InBounds running →
        running.frame.Satisfies facts → instruction.Keeps function.buffers facts running) ∧
      (∀ id ∈ blockInductions function.body, ∀ x, facts.about id x) ∧
      ∀ args heap entered after, (function.enter args).runFrom heap = (.ok entered, after) → entered.Satisfies facts := by
  have hdeclares := h.declares
  obtain ⟨hstart, hbody, hresult, -, hsteps⟩ := h
  next declared parameters builder events f g result operand =>
  have hblocks : builder.blocks ≠ [] := by simp [FunctionBuilder.blocks_start hstart]
  have hbuffers : f.buffers ⊆ (builder.finished (f.append g) operand).buffers := by
    simp only [FunctionBuilder.finished, FunctionBuilder.buffers_extend, Array.toList_append, Fragment.append]
    exact List.subset_append_of_subset_right _ (List.subset_append_left _ _)
  obtain ⟨hplain, -⟩ := List.forall_mem_append.mp hplain
  obtain ⟨hfits, -⟩ := refitting_append.mp hfits
  have hseated (value : Value) (hmem : value ∈ parameters) :=
    (hdeclares value hmem).seated ⟨fun _ _ => True, builder.nextRegister⟩
  obtain ⟨facts₁, haccounts⟩ := hbody.exists_accounts hblocks hplain hbuffers rfl hseated hfits
  have hcount : facts₁.count = (builder.extend f).nextRegister := by
    rw [haccounts.count_eq, FunctionBuilder.nextRegister_extend]
  rw [← FunctionBuilder.extend_extend] at hresult
  have hreturn : emitter.Certifies (builder.extend f) (builder.finished (f.append g) operand).buffers facts₁
      (fun _ => True) (resultOperand declared result) fun _ _ => True := certifies_resultOperand declared result hcount
  obtain ⟨facts, hextends, -, hkeeps', -⟩ :=
    Adds.of_runFrom (FunctionBuilder.blocks_extend_ne_nil hblocks f) hresult hreturn
  refine ⟨facts, List.forall_mem_append.mpr ⟨haccounts.keeps facts hextends, List.forall_mem_singleton.mpr ?_⟩, ?_, ?_⟩
  · exact fun instruction hmem running _ hsatisfies =>
      hkeeps' facts (refl_of Facts.Extends facts) running trivial hsatisfies instruction hmem
  · change ∀ id ∈ blockInductions (f.append g).code, _
    rw [Fragment.append, blockInductions_append, blockInductions_eq_nil hsteps, List.append_nil]
    exact haccounts.inductions facts hextends
  · intro args heap entered after henter id x hget
    obtain ⟨hlength, bound, hbind, hlocals⟩ := EmittedFunction.exists_of_enter henter
    obtain ⟨first, hreceives⟩ := FunctionBuilder.exists_receives_start hstart hlength hbind
    rw [(Frame.eq_of_bindLocals hlocals).1] at hget
    rcases hreceives.assigned id x hget with hempty | hlt
    · simp at hempty
    · rw [(trans_of Facts.Extends haccounts.extended hextends).about_eq id hlt]
      trivial

end Emitter

end StagedArrays
