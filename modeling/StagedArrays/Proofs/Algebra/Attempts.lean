import StagedArrays.Proofs.Algebra.InPlace
import StagedArrays.Proofs.Allocator.Holding
import StagedArrays.Proofs.Context.Overflow
import StagedArrays.Proofs.Coupling

namespace StagedArrays

open Stateful (Ends)

/-- A step that only looks ends as what it looks for. Its state stays, and it
    cannot break off. -/
theorem Stateful.Ends.of_looks {ε σ α : Type} {x : Except (Failure ε) α} {state : σ} {cause : ε → σ → Prop} {broken : Prop}
    (h : FailsOnly Failure.IsError x) (hcause : ∀ e, cause e state) :
    Ends (fun a after => x = .ok a ∧ after = state) cause broken (x, state) := by
  rcases x with (e | fault) | a
  · exact .of_error (hcause e)
  · exact (h _ rfl).elim
  · exact .of_ok ⟨rfl, rfl⟩

namespace Value

variable {heap after : Heap} {value : Value} {ref : HostRef} {offset index : Nat} {coordinates : List Nat}

/-- What a value of rank 0 holds is read, or there is an error; nothing is
    computed that could break off. -/
theorem held_fails (heap : Heap) (value : Value) : FailsOnly Failure.IsError (value.held heap) := by
  refine .bind (.mapError (.any _) fun _ _ => trivial) fun _ => ?_
  split
  · exact .ok _
  · split
    · exact .ok _
    · exact .of_error trivial
  · exact .of_error trivial
  · exact .of_error trivial

/-- Inside the extents of a value an access is an error at worst. The offset
    cannot overflow, because a sound value has a memory size and every offset
    stays below it. -/
theorem Sound.elementAt_fails (h : value.Sound heap) (hin : Layout.InBounds coordinates value.layout.extents)
    (hwords : ∀ index ∈ coordinates, index < Word.bound) : FailsOnly Failure.IsError (value.elementAt heap coordinates) := by
  have hrank : value.layout.ensureRank coordinates.length = .ok () := Layout.ensureRank_eq_ok.mpr hin.length_eq.symm
  cases hindices : Scalar.indices coordinates with
  | error cause =>
    rw [elementAt, hrank, hindices]
    exact .of_error trivial
  | ok found =>
    obtain rfl := Scalar.eq_of_indices hwords hindices
    cases hdata : value.data with
    | host ref offset =>
      rw [elementAt_host h hdata hindices hin]
      exact .ok _
    | constant x =>
      rw [elementAt, hrank, hindices, hdata]
      exact .ok _
    | buffer | register =>
      rw [elementAt, hrank, hindices, hdata]
      exact .of_error trivial

/-- The same for the right operand of an update, which stands for each element
    if it has rank 0. -/
theorem Sound.sourceAt_fails (h : value.Sound heap) (hin : value.rank = 0 ∨ Layout.InBounds coordinates value.layout.extents)
    (hwords : ∀ index ∈ coordinates, index < Word.bound) : FailsOnly Failure.IsError (value.sourceAt heap coordinates) := by
  unfold sourceAt
  split
  · exact .ok _
  · next hrank => exact h.elementAt_fails (hin.resolve_left hrank) hwords

/-- Storage with an element is there. Only a value without elements may lie in a
    buffer that does not exist. -/
theorem Sound.fits_of_inBounds (h : value.Sound heap) (hin : Layout.InBounds coordinates value.layout.extents) :
    value.Fits heap := by
  refine ⟨h, fun ref offset hdata => ?_⟩
  obtain ⟨-, size, hsize, -, hle⟩ := h.host hdata
  have hlt := Layout.place_lt_memorySize hsize hin
  by_contra hge
  have hempty : (heap.get ref).length = 0 := by
    rw [Heap.get, Array.getElem?_eq_none (Nat.le_of_not_lt hge)]
    rfl
  omega

/-- Values are as they are made whatever is written to a buffer. Types and
    lengths of buffers do not change. -/
theorem Sound.put {x : Numeric} {buffer : HostBuffer} (h : value.Sound heap)
    (hset : (heap.get ref).set index x = .ok buffer) : value.Sound (heap.put ref buffer) := by
  have hsame (other : HostRef) : ((heap.put ref buffer).get other).dtype = (heap.get other).dtype ∧
      ((heap.put ref buffer).get other).length = (heap.get other).length := by
    by_cases hother : other = ref
    · subst hother
      by_cases hlt : other.index < heap.buffers.size
      · rw [Heap.get_put_self heap buffer hlt]
        exact ⟨HostBuffer.dtype_eq_of_set hset, HostBuffer.length_eq_of_set hset⟩
      · rw [Heap.put, Array.setIfInBounds_eq_of_size_le (Nat.le_of_not_lt hlt)]
        exact ⟨rfl, rfl⟩
    · rw [Heap.get_put_of_ne heap buffer hother]
      exact ⟨rfl, rfl⟩
  refine ⟨?_, h.formed⟩
  rw [← h.made]
  cases value.data with
  | constant | register | buffer => rfl
  | host other place => exact make_congr (hsame other).1 (hsame other).2

end Value

/-- The direct context is active, and some values are as values are made. Every
    step of an operation keeps this up. -/
structure World.Serves {σ : Type} (world : World σ) (values : List Value) : Prop where
  active : world.contexts.head? = some .compute
  sound : ∀ value ∈ values, value.Sound world.heap

namespace Context

variable {σ : Type} {world : World σ} {values : List Value}

/-- What an immediate is stored to is on the host, if that succeeds. Every value
    stays as values are made either way. -/
theorem store_ends (h : world.Serves values) (target : Value) (x : Numeric) :
    Ends (fun _ after => after.Serves values ∧ target.host?.isSome = true) (fun _ after => after.Serves values) False
      ((compute.store target (.constant x)).runFrom world) := by
  rw [store, Action.runFrom_onHeap, Direct.store, Stateful.runFrom_bind, Stateful.runFrom_liftM]
  cases target.layout.ensureRank 0 with
  | error cause => exact .of_error h
  | ok _ =>
    dsimp only [liftM_layoutError_ok]
    rw [Stateful.runFrom_bind, Stateful.runFrom_liftM]
    cases (Value.constant x).ensureDType target.dtype with
    | error cause => exact .of_error h
    | ok _ =>
      have hread : (Direct.read (.constant x)).runFrom world.heap = (.ok x, world.heap) := Value.reads_constant rfl rfl
      dsimp only [liftM_error_ok]
      rw [Stateful.runFrom_bind, hread]
      cases hdata : target.data with
      | constant | register | buffer => exact .of_error h
      | host ref place =>
        have hhost : target.host?.isSome = true := by rw [Value.host?_eq_some.mpr hdata]; rfl
        dsimp only
        simp only [HeapM.write, Stateful.runFrom_bind, HeapM.runFrom_read, Stateful.runFrom_liftM]
        cases hset : (world.heap.get ref).set place x with
        | error cause => exact .of_error h
        | ok buffer => exact .of_ok ⟨⟨h.active, fun value hmem => (h.sound value hmem).put hset⟩, hhost⟩

end Context

namespace Elementwise

variable {σ : Type} {world after : World σ} {values : List Value} {destination source : Value} {coordinates : List Nat}

/-- One pass of a copy keeps all values served, and a pass that succeeds has
    shown that its destination is storage. -/
theorem copyAt_ends (h : world.Serves values) (hdestination : destination ∈ values) (hsource : source ∈ values)
    (hextents : source.layout.extents = destination.layout.extents)
    (hin : Layout.InBounds coordinates destination.layout.extents) (hwords : ∀ index ∈ coordinates, index < Word.bound) :
    Ends (fun _ after => after.Serves values ∧ destination.host?.isSome = true) (fun _ after => after.Serves values) False
      ((copyAt .compute destination source (coordinates.map Scalar.ofIndex)).runFrom world) := by
  have hitem := (h.sound source hsource).elementAt_fails (hextents ▸ hin) hwords
  have htarget := (h.sound destination hdestination).elementAt_fails hin hwords
  rw [copyAt]
  refine .bind (by rw [Context.runFrom_element]; exact .of_looks hitem fun _ => h) ?_
  rintro item _ ⟨-, rfl⟩
  refine .bind (by rw [Context.runFrom_element]; exact .of_looks htarget fun _ => h) ?_
  rintro target _ ⟨htarget, rfl⟩
  have hhost (hsome : target.host?.isSome = true) : destination.host?.isSome = true := by
    rcases Value.elementAt_eq_ok (h.sound destination hdestination).formed htarget with ⟨x, -, rfl⟩ | ⟨ref, offset, _, hdata, -⟩
    · exact hsome
    · rw [Value.host?_eq_some.mpr hdata]
      rfl
  refine .bind (by rw [Context.runFrom_load]; exact .of_looks (.bind (Value.held_fails _ _) fun _ => .ok _) fun _ => h) ?_
  rintro loaded final ⟨hloaded, rfl⟩
  cases hx : item.held final.heap with
  | error failure =>
    rw [hx] at hloaded
    cases hloaded
  | ok x =>
    rw [hx] at hloaded
    cases hloaded
    exact (Context.store_ends h target x).mono (fun _ _ hstored => ⟨hstored.1, hhost hstored.2⟩) fun _ _ => id

/-- One pass of an update keeps all values served, whether it succeeds or fails.
    It does not break off. -/
theorem updateAt_ends (op : BinaryOp) (h : world.Serves values) (hdestination : destination ∈ values) (hsource : source ∈ values)
    (hextents : source.rank = 0 ∨ source.layout.extents = destination.layout.extents)
    (hin : Layout.InBounds coordinates destination.layout.extents) (hwords : ∀ index ∈ coordinates, index < Word.bound) :
    Ends (fun _ after => after.Serves values) (fun _ after => after.Serves values) False
      ((updateAt .compute (Context.compute.binary op) destination source (coordinates.map Scalar.ofIndex)).runFrom world) := by
  have htarget := (h.sound destination hdestination).elementAt_fails hin hwords
  have hother := (h.sound source hsource).sourceAt_fails (hextents.imp_right fun heq => heq.symm ▸ hin) hwords
  have hresult (a b : Value) : FailsOnly Failure.IsError (do
      let x ← a.held world.heap
      let y ← b.held world.heap
      let z ← x.binary op y
      return Value.constant z : Outcome Value) := by
    refine .bind (Value.held_fails _ _) fun x => .bind (Value.held_fails _ _) fun y => ?_
    exact .bind (.mapError (.any _) fun _ _ => trivial) fun _ => .ok _
  rw [updateAt]
  refine .bind (by rw [Context.runFrom_element]; exact .of_looks htarget fun _ => h) ?_
  rintro target _ ⟨-, rfl⟩
  refine .bind (by rw [runFrom_sourceElement]; exact .of_looks hother fun _ => h) ?_
  rintro other _ ⟨-, rfl⟩
  refine .bind (by rw [Context.runFrom_binary]; exact .of_looks (hresult _ _) fun _ => h) ?_
  rintro result _ ⟨hz, rfl⟩
  simp only [bind_eq_ok_iff] at hz
  obtain ⟨_, -, _, -, z, -, hz⟩ := hz
  cases hz
  exact (Context.store_ends h target z).mono (fun _ _ hstored => hstored.1) fun _ _ => id

variable {size : Nat}

/-- A copy into storage of its extents does not break off. It succeeds or
    reports an error, and keeps all values served. -/
theorem copyInto_ends (h : world.Serves values) (hdestination : destination ∈ values) (hsource : source ∈ values)
    (hextents : source.layout.extents = destination.layout.extents)
    (hpacks : destination.layout.Packs destination.layout.extents size) :
    Ends (fun _ after => after.Serves values) (fun _ after => after.Serves values) False
      ((copyInto destination source).runFrom world) := by
  rw [copyInto, Stateful.runFrom_bind, Stateful.runFrom_liftM]
  cases source.ensureDType destination.dtype with
  | error cause => exact .of_error h
  | ok _ =>
    simp only [liftM_error_ok, hextents, ne_eq, not_true, if_false]
    rw [Stateful.runFrom_bind_of_ok (Action.runFrom_activeContext h.active), Context.runFrom_forEach, hextents]
    refine .forM_of_invariant (fun coordinates hmem state hserves => ?_) h
    have hin := Layout.mem_rowMajor.mp hmem
    exact (copyAt_ends hserves hdestination hsource hextents hin (hpacks.lt_bound_of_inBounds hin)).mono (fun _ _ => And.left)
      fun _ _ => id

/-- Nor does an update by an operand that fits. The operands have been compared,
    so that no size has to be computed. -/
theorem assignBinary_ends (op : BinaryOp) (h : world.Serves values) (hdestination : destination ∈ values)
    (hsource : source ∈ values) (hdtype : source.dtype = destination.dtype)
    (hextents : source.rank = 0 ∨ source.layout.extents = destination.layout.extents)
    (hpacks : destination.layout.Packs destination.layout.extents size) :
    Ends (fun _ after => after.Serves values) (fun _ after => after.Serves values) False
      ((assignBinary op destination source).runFrom world) := by
  have hchecked := checkOperands_eq_ok hdtype hextents
  rw [assignBinary, update, Stateful.runFrom_bind, Stateful.runFrom_liftM, hchecked]
  dsimp only [liftM_self]
  split
  · rw [Stateful.runFrom_bind_of_ok (Action.runFrom_activeContext h.active), Context.runFrom_forEach]
    refine .forM_of_invariant (fun coordinates hmem state hserves => ?_) h
    have hin := Layout.mem_rowMajor.mp hmem
    exact updateAt_ends op hserves hdestination hsource hextents hin (hpacks.lt_bound_of_inBounds hin)
  · exact .of_error h

end Elementwise

namespace InPlace

variable {σ : Type} {world after : World σ} {destination source : Value} {ref : HostRef} {offset : Nat} {visited : List (List Nat)}

/-- A loop that copies elements from elsewhere and succeeds leaves them as they
    were. -/
theorem peek_of_forM_copy (hdestination : destination.Fits world.heap) (hdata : destination.data = .host ref offset)
    (hsource : source.Fits world.heap) (hjoins : copy.Joins destination source) (hvisits : Visits destination visited)
    (hapart : ¬destination.data.Shares source.data) {u : Unit}
    (hrun : (visited.forM (copy.pass destination source)).runFrom world = (.ok u, after)) :
    ∀ coordinates ∈ visited, ∃ y, source.peek world.heap coordinates = .ok y ∧
      destination.peek after.heap coordinates = .ok y := by
  obtain ⟨outcome, final, done, hrun', hreplaces, hended⟩ := exists_runFrom_forM_pass hdestination hdata hsource hjoins visited
    (.refl _ destination source world.heap) hvisits
  obtain ⟨rfl, rfl⟩ := Prod.mk.inj (hrun.symm.trans hrun')
  obtain rfl : done = visited := by
    rcases hended with ⟨-, hdone⟩ | ⟨_, _, _, houtcome, -⟩
    · exact hdone
    · cases houtcome
  intro coordinates hmem
  obtain ⟨k, hk, rfl⟩ := List.getElem_of_mem hmem
  obtain ⟨x, y, z, -, hy, hlaw, hz⟩ := hreplaces.replaced k hk
  cases hlaw
  refine ⟨y, ?_, hz⟩
  have hin : Layout.InBounds done[k] source.layout.extents := hjoins.2 ▸ hvisits.inBounds _ hmem
  rw [← Value.peekSource_eq_peek hsource.sound hin]
  rwa [if_neg] at hy
  intro hbefore
  obtain ⟨earlier, -, heq⟩ := List.mem_map.mp hbefore
  rw [Value.cell?_host hdata] at heq
  cases hfrom : source.data with
  | host other place =>
    rw [Value.cell?_host hfrom] at heq
    rw [hdata, hfrom] at hapart
    simp only [Option.some.injEq, Prod.mk.injEq] at heq
    exact hapart heq.1
  | constant | register | buffer =>
    simp only [Value.cell?, Value.host?, hfrom] at heq
    cases heq

end InPlace

namespace Elementwise

variable {σ : Type} {world after : World σ} {values : List Value} {destination source : Value} {size : Nat}

/-- A copy into packed storage that succeeds has copied every element, if the
    elements lie elsewhere. -/
theorem exists_mapM_of_copyInto (h : world.Serves values) (hdestination : destination ∈ values) (hsource : source.Fits world.heap)
    (hmem : source ∈ values) (hpacks : destination.layout.Packs destination.layout.extents size)
    (hapart : ¬destination.data.Shares source.data) {u : Unit}
    (hrun : (copyInto destination source).runFrom world = (.ok u, after)) :
    ∃ xs, (Layout.rowMajor destination.layout.extents).mapM (source.peek world.heap) = .ok xs ∧
      (Layout.rowMajor destination.layout.extents).mapM (destination.peek after.heap) = .ok xs := by
  have hjoins : InPlace.copy.Joins destination source := fits_of_copyInto hrun
  have hloop := runFrom_copyInto_eq_ok h.active hrun
  rw [Context.runFrom_forEach, hjoins.2] at hloop
  change ((Layout.rowMajor destination.layout.extents).forM (InPlace.copy.pass destination source)).runFrom world = _ at hloop
  cases hrows : Layout.rowMajor destination.layout.extents with
  | nil => exact ⟨[], rfl, rfl⟩
  | cons first rest =>
    rw [← hrows]
    have hfirst : first ∈ Layout.rowMajor destination.layout.extents := hrows ▸ List.mem_cons_self
    have hwords (coordinates : List Nat) (hmem : coordinates ∈ Layout.rowMajor destination.layout.extents) :=
      hpacks.lt_bound_of_inBounds (Layout.mem_rowMajor.mp hmem)
    -- the first pass has written somewhere, so the destination is on the host
    obtain ⟨ref, offset, hdata⟩ : ∃ ref offset, destination.data = .host ref offset := by
      have hfirstLoop := hloop
      rw [hrows] at hfirstLoop
      obtain ⟨_, between, hpass, -⟩ := Stateful.runFrom_bind_eq_ok.mp hfirstLoop
      have hends := copyAt_ends h hdestination hmem hjoins.2 (Layout.mem_rowMajor.mp hfirst) (hwords first hfirst)
      obtain ⟨⟨ref, offset⟩, hhost⟩ := Option.isSome_iff_exists.mp (hends.ok () (congrArg Prod.fst hpass)).2
      exact ⟨ref, offset, Value.host?_eq_some.mp hhost⟩
    have hfits := (h.sound destination hdestination).fits_of_inBounds (Layout.mem_rowMajor.mp hfirst)
    have hreads (coordinates : List Nat) (hmem : coordinates ∈ Layout.rowMajor destination.layout.extents) :
        Scalar.indices coordinates = .ok coordinates := by
      obtain ⟨_, _, hitem⟩ := InPlace.exists_elementAt_of_forM hloop coordinates hmem
      obtain ⟨found, hfound⟩ := Value.exists_indices_of_elementAt hitem
      rwa [Scalar.eq_of_indices (hwords coordinates hmem) hfound] at hfound
    have hvisits : InPlace.Visits destination (Layout.rowMajor destination.layout.extents) :=
      ⟨hreads, fun _ => Layout.mem_rowMajor.mp, hpacks.injective⟩
    have hcopied := InPlace.peek_of_forM_copy hfits hdata hsource hjoins hvisits hapart hloop
    obtain ⟨xs, hxs⟩ := exists_mapM fun coordinates hmem => (hcopied coordinates hmem).imp fun _ => And.left
    refine ⟨xs, hxs, hxs ▸ mapM_congr fun coordinates hmem => ?_⟩
    obtain ⟨y, hy, hz⟩ := hcopied coordinates hmem
    rw [hy, hz]

end Elementwise

end StagedArrays
