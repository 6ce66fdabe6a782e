import StagedArrays.Proofs.Emission.Recording
import StagedArrays.Proofs.Program.Growth

namespace StagedArrays

/-- A block that is put together of two executes one after the other. If the
    first fails, the second is not executed. -/
theorem runBlock_append (call : String → HostFunction) (code more : List Instruction) :
    runBlock call (code ++ more) = runBlock call code >>= fun _ => runBlock call more := by
  induction code with
  | nil => simp [runBlock]
  | cons instruction code ih => simp only [List.cons_append, runBlock, ih, bind_assoc]

theorem runBlock_singleton (call : String → HostFunction) (instruction : Instruction) :
    runBlock call [instruction] = instruction.run call := by
  simp only [runBlock, bind_pure_unit]

namespace Link

/-- The recorded part up to a moment is what a builder has recorded so far.
    Registers and buffers are counted alike. -/
structure At (l : Link) (builder : FunctionBuilder) : Prop where
  registers_eq : l.registers = builder.nextRegister
  buffers_eq : l.buffers = builder.buffers.size

end Link

namespace Comparison

variable [ArrayLibrary] (c : Comparison)

/-- The world of the direct execution at a moment. Its contexts and emitters do
    not change on the way. -/
def executingAt (l : Link) : World AccessLog := { c.executing with heap := l.direct, client := l.log }

/-- Running a recorded piece fails. How it fails is left open. -/
def Fails (l : Link) (code : List Instruction) : Prop :=
  ∃ failure running, (runBlock c.call code).runFrom l.running = (.error failure, running)

/-- Running a recorded piece leads from one moment to another, at which
    everything holds again. -/
structure Reaches (l : Link) (f : Fragment) (l' : Link) : Prop where
  leads : c.Leads l l'
  sound : c.Sound l'
  registers_eq : l'.registers = l.registers + f.registers
  buffers_eq : l'.buffers = l.buffers + f.buffers.length
  run_eq : (runBlock c.call f.code).runFrom l.running = (.ok (), l'.running)

/-- A recorded piece follows a direct operation: where that succeeds, running
    the piece leads to the same, and where that fails with an error that is not
    excused, so does the piece. -/
def Follows {α : Type} (excused : ValueError → Prop) (l : Link) (f : Fragment)
    (direct : Action AccessLog α) (post : Link → α → Prop) : Prop :=
  ∀ outcome world, direct.runFrom (c.executingAt l) = (outcome, world) →
    world.client.StoredBeforeLoaded →
      match outcome with
      | .ok value => ∃ l', world = c.executingAt l' ∧ c.Reaches l f l' ∧ post l' value
      | .error (.error cause) => excused cause ∨ c.Fails l f.code
      | .error (.fault _) => True

/-- A recorded piece computes something without touching storage. The direct
    execution need not move for it. -/
def Computes (l : Link) (f : Fragment) (post : Link → Prop) : Prop :=
  ∃ l', l'.direct = l.direct ∧ l'.log = l.log ∧ l'.running.heap = l.running.heap ∧ c.Reaches l f l' ∧ post l'

variable {c} {α β : Type} {excused : ValueError → Prop} {l l' l'' : Link} {f g : Fragment}

/-- No code reaches the link it starts from. -/
theorem Reaches.refl (hsound : c.Sound l) : c.Reaches l .empty l where
  leads := .refl l
  sound := hsound
  registers_eq := rfl
  buffers_eq := rfl
  run_eq := rfl

/-- Code followed by more code reaches what the second part reaches from the
    link between them. -/
theorem Reaches.trans (h : c.Reaches l f l') (h' : c.Reaches l' g l'') : c.Reaches l (f.append g) l'' where
  leads := h.leads.trans h'.leads
  sound := h'.sound
  registers_eq := by simp only [h'.registers_eq, h.registers_eq, Fragment.append, Nat.add_assoc]
  buffers_eq := by
    simp only [h'.buffers_eq, h.buffers_eq, Fragment.append, List.length_append, Nat.add_assoc]
  run_eq := by
    rw [Fragment.append, runBlock_append, Stateful.runFrom_bind_of_ok h.run_eq, h'.run_eq]

/-- A piece fails where its first part does. -/
theorem Fails.append (h : c.Fails l f.code) : c.Fails l (f.append g).code := by
  obtain ⟨failure, running, hrun⟩ := h
  exact ⟨failure, running, by rw [Fragment.append, runBlock_append, Stateful.runFrom_bind_of_error hrun]⟩

/-- A piece fails where its second part does after the first. -/
theorem Reaches.fails (h : c.Reaches l f l') (hfails : c.Fails l' g.code) : c.Fails l (f.append g).code := by
  obtain ⟨failure, running, hrun⟩ := hfails
  exact ⟨failure, running, by rw [Fragment.append, runBlock_append, Stateful.runFrom_bind_of_ok h.run_eq, hrun]⟩

/-- The builder that has recorded the code is at the link that the code reaches:
    registers and buffers are counted alike on both sides. -/
theorem Reaches.at_extend {builder : FunctionBuilder} (h : c.Reaches l f l') (hat : l.At builder) :
    l'.At (builder.extend f) where
  registers_eq := by rw [h.registers_eq, hat.registers_eq, FunctionBuilder.nextRegister_extend]
  buffers_eq := by
    rw [h.buffers_eq, hat.buffers_eq, FunctionBuilder.buffers_extend]
    simp

/-- What follows the parts of a sequence follows the sequence. The direct
    execution may fail in either part, and the second begins where the first has
    led to. -/
theorem Follows.bind {direct : Action AccessLog α} {next : α → Action AccessLog β}
    {post : Link → α → Prop} {post' : Link → β → Prop} (h : c.Follows excused l f direct post)
    (hgrows : ∀ value, (next value).Grows)
    (hnext : ∀ l' value, c.Reaches l f l' → post l' value →
      c.Follows excused l' g (next value) post') :
    c.Follows excused l (f.append g) (direct >>= next) post' := by
  intro outcome world hrun hstored
  cases hdirect : direct.runFrom (c.executingAt l) with
  | mk first between =>
    cases first with
    | error failure =>
      rw [Stateful.runFrom_bind_of_error hdirect] at hrun
      cases hrun
      have hfirst := h _ _ hdirect hstored
      cases failure with
      | fault fault => trivial
      | error cause => exact hfirst.imp_right .append
    | ok value =>
      rw [Stateful.runFrom_bind_of_ok hdirect] at hrun
      have hstored' : between.client.StoredBeforeLoaded := by
        obtain ⟨more, hmore⟩ := hgrows value between
        rw [hrun] at hmore
        exact .of_append (by rw [hmore]; exact hstored)
      obtain ⟨l', rfl, hreaches, hpost⟩ := h _ _ hdirect hstored'
      have hsecond := hnext l' value hreaches hpost outcome world hrun hstored
      cases outcome with
      | ok result =>
        obtain ⟨l'', hworld, hreaches', hpost'⟩ := hsecond
        exact ⟨l'', hworld, hreaches.trans hreaches', hpost'⟩
      | error failure =>
        cases failure with
        | fault fault => trivial
        | error cause => exact hsecond.imp_right hreaches.fails

/-- A weaker claim about the result follows. It may use that the result was
    reached by the code. -/
theorem Follows.mono {direct : Action AccessLog α} {post post' : Link → α → Prop}
    (h : c.Follows excused l f direct post)
    (himp : ∀ l' value, c.Reaches l f l' → post l' value → post' l' value) :
    c.Follows excused l f direct post' := by
  intro outcome world hrun hstored
  have houtcome := h outcome world hrun hstored
  cases outcome with
  | ok value =>
    obtain ⟨l', hworld, hreaches, hpost⟩ := houtcome
    exact ⟨l', hworld, hreaches, himp l' value hreaches hpost⟩
  | error failure => cases failure <;> exact houtcome

/-- More errors of the direct run may be excused without further proof. -/
theorem Follows.excuse {excused' : ValueError → Prop} {direct : Action AccessLog α}
    {post : Link → α → Prop} (h : c.Follows excused l f direct post)
    (himp : ∀ cause, excused cause → excused' cause) : c.Follows excused' l f direct post := by
  intro outcome world hrun hstored
  have houtcome := h outcome world hrun hstored
  cases outcome with
  | ok value => exact houtcome
  | error failure =>
    cases failure with
    | fault fault => trivial
    | error cause => exact houtcome.imp_left (himp cause)

/-- What only gives a value is followed by no code. The value has to be as it
    should. -/
theorem Follows.pure {value : α} {post : Link → α → Prop} (hsound : c.Sound l) (h : post l value) :
    c.Follows excused l .empty (pure value) post := by
  intro outcome world hrun _
  cases hrun
  exact ⟨l, rfl, .refl hsound, h⟩

/-- A piece that leads to what the direct operation leaves follows it. Most
    operations are treated in this way. -/
theorem Reaches.follows {direct : Action AccessLog α} {value : α} {post : Link → α → Prop}
    (h : c.Reaches l f l') (hrun : direct.runFrom (c.executingAt l) = (.ok value, c.executingAt l'))
    (hpost : post l' value) : c.Follows excused l f direct post := by
  intro outcome world hrun' _
  rw [hrun] at hrun'
  cases hrun'
  exact ⟨l', rfl, h, hpost⟩

/-- A direct operation that leaves storage alone is followed by what computes
    its result. -/
theorem Computes.follows {direct : Action AccessLog α} {value : α} {post : Link → α → Prop}
    (h : c.Computes l f (post · value))
    (hrun : direct.runFrom (c.executingAt l) = (.ok value, c.executingAt l)) :
    c.Follows excused l f direct post := by
  intro outcome world hrun' _
  rw [hrun] at hrun'
  cases hrun'
  obtain ⟨l', hdirect, hlog, -, hreaches, hpost⟩ := h
  exact ⟨l', by simp only [executingAt, hdirect, hlog], hreaches, hpost⟩

/-- What is computed follows an operation that only reads host storage. -/
theorem Computes.onHeap {direct : HeapM α} {value : α} {post : Link → α → Prop}
    (h : c.Computes l f (post · value)) (hrun : direct.runFrom l.direct = (.ok value, l.direct)) :
    c.Follows excused l f (.onHeap direct) post :=
  h.follows (by rw [Action.runFrom_onHeap, executingAt, hrun])

/-- A direct operation that fails is followed by what fails. -/
theorem Fails.follows {direct : Action AccessLog α} {failure : Failure ValueError}
    {world : World AccessLog} {post : Link → α → Prop} (h : c.Fails l f.code)
    (hrun : direct.runFrom (c.executingAt l) = (.error failure, world)) :
    c.Follows excused l f direct post := by
  intro outcome world' hrun' _
  rw [hrun] at hrun'
  cases hrun'
  cases failure with
  | fault fault => trivial
  | error cause => exact .inr h

/-- An error that is excused need not be followed. -/
theorem Follows.of_excused {direct : Action AccessLog α} {cause : ValueError} {world : World AccessLog}
    {post : Link → α → Prop} (h : excused cause)
    (hrun : direct.runFrom (c.executingAt l) = (.error (.error cause), world)) :
    c.Follows excused l f direct post := by
  intro outcome world' hrun' _
  rw [hrun] at hrun'
  cases hrun'
  exact .inl h

/-- Faults need not be followed. The statement about programs is about those
    that end without one. -/
theorem Follows.of_fault {direct : Action AccessLog α} {fault : Fault} {world : World AccessLog}
    {post : Link → α → Prop} (hrun : direct.runFrom (c.executingAt l) = (.error (.fault fault), world)) :
    c.Follows excused l f direct post := by
  intro outcome world' hrun' _
  rw [hrun] at hrun'
  cases hrun'
  trivial

theorem Computes.pure {post : Link → Prop} (hsound : c.Sound l) (h : post l) :
    c.Computes l .empty post := ⟨l, rfl, rfl, rfl, .refl hsound, h⟩

/-- One piece of code computes after another. What the first one has reached is
    where the second begins. -/
theorem Computes.bind {post post' : Link → Prop} (h : c.Computes l f post)
    (hnext : ∀ l', l'.direct = l.direct → l'.log = l.log → c.Reaches l f l' → post l' →
      c.Computes l' g post') : c.Computes l (f.append g) post' := by
  obtain ⟨l', hdirect, hlog, hheap, hreaches, hpost⟩ := h
  obtain ⟨l'', hdirect', hlog', hheap', hreaches', hpost'⟩ := hnext l' hdirect hlog hreaches hpost
  exact ⟨l'', hdirect'.trans hdirect, hlog'.trans hlog, hheap'.trans hheap, hreaches.trans hreaches', hpost'⟩

/-- Code fails if a later piece of it does. The pieces before it have been
    executed. -/
theorem Computes.fails {post : Link → Prop} (h : c.Computes l f post)
    (hnext : ∀ l', l'.direct = l.direct → c.Reaches l f l' → post l' → c.Fails l' g.code) :
    c.Fails l (f.append g).code := by
  obtain ⟨l', hdirect, -, -, hreaches, hpost⟩ := h
  exact hreaches.fails (hnext l' hdirect hreaches hpost)

/-- What code computes may be weakened. The new condition need only hold where
    the code can lead. -/
theorem Computes.mono {post post' : Link → Prop} (h : c.Computes l f post)
    (himp : ∀ l', c.Reaches l f l' → post l' → post' l') : c.Computes l f post' := by
  obtain ⟨l', hdirect, hlog, hheap, hreaches, hpost⟩ := h
  exact ⟨l', hdirect, hlog, hheap, hreaches, himp l' hreaches hpost⟩

/-- The active context of the direct execution is the one that computes. -/
theorem runFrom_activeContext_executingAt (l : Link) :
    Action.activeContext.runFrom (c.executingAt l) = (.ok .compute, c.executingAt l) :=
  Action.runFrom_activeContext c.executingActive

theorem Follows.activeContext_bind {next : Context → Action AccessLog α} {post : Link → α → Prop}
    (h : c.Follows excused l f (next .compute) post) :
    c.Follows excused l f (Action.activeContext >>= next) post := by
  intro outcome world hrun hstored
  rw [Stateful.runFrom_bind_of_ok (runFrom_activeContext_executingAt l)] at hrun
  exact h outcome world hrun hstored

/-- What only computes before an operation adds nothing to what has to follow
    it. -/
theorem Follows.lift_bind {m : Type → Type} [MonadLiftT m (Except (Failure ValueError))] {x : m α}
    {value : α} {next : α → Action AccessLog β} {post : Link → β → Prop}
    (hx : (liftM x : Outcome α) = .ok value) (h : c.Follows excused l f (next value) post) :
    c.Follows excused l f (liftM x >>= next) post := by
  intro outcome world hrun hstored
  have hlift : (liftM x : Action AccessLog α).runFrom (c.executingAt l) = (.ok value, c.executingAt l) := by
    rw [Stateful.runFrom_liftM, hx]
  rw [Stateful.runFrom_bind_of_ok hlift] at hrun
  exact h outcome world hrun hstored

/-- A computation that succeeds is followed by no code. It was carried out when
    the code was recorded. -/
theorem Follows.lift {m : Type → Type} [MonadLiftT m (Except (Failure ValueError))] {x : m α}
    {value : α} {post : Link → α → Prop} (hx : (liftM x : Outcome α) = .ok value) (hsound : c.Sound l)
    (h : post l value) : c.Follows excused l .empty (liftM x) post := by
  refine (Reaches.refl hsound).follows ?_ h
  rw [Stateful.runFrom_liftM, hx]

/-- Making something of a result has nothing to follow. No code is recorded for
    it. -/
theorem Follows.map {direct : Action AccessLog α} {k : α → β} {post : Link → β → Prop}
    (h : c.Follows excused l f direct fun l' value => post l' (k value)) :
    c.Follows excused l f (do return k (← direct)) post := by
  rw [← Fragment.append_empty f]
  exact h.bind (fun value => .pure _) fun l' value hreaches hpost => .pure hreaches.sound hpost

end Comparison

end StagedArrays
