import StagedArrays.Proofs.Algebra.Comparing

namespace StagedArrays

/-- What replaces each element of a destination: a combination with the source
    in one order or the other, or a copy of it. -/
inductive InPlace where
  /-- `destination = destination op source` -/
  | assign (op : BinaryOp)
  /-- `destination = source op destination` -/
  | assignReversed (op : BinaryOp)
  /-- `destination = source` -/
  | copy

namespace InPlace

/-- What an update is carried out as. The operands are in the order in which
    they are written. -/
def run {σ : Type} : InPlace → (destination source : Value) → Action σ Unit
  | assign op => Elementwise.assignBinary op
  | assignReversed op => Elementwise.assignBinaryReversed op
  | copy => Elementwise.copyInto

/-- What an element of the destination and one of the source give. A copy gives
    the latter, whatever the former is. -/
def law : InPlace → Numeric → Numeric → Except ValueError Numeric
  | assign op => fun x y => x.binary op y
  | assignReversed op => fun x y => y.binary op x
  | copy => fun _ y => .ok y

/-- The source has the type of the destination, and its extents. One of rank 0
    can also be combined with each element. -/
def Joins : InPlace → (destination source : Value) → Prop
  | assign _, destination, source | assignReversed _, destination, source => source.Joins destination
  | copy, destination, source =>
    source.dtype = destination.dtype ∧ source.layout.extents = destination.layout.extents

/-- Replaces one element. Both elements are read in the same pass, right
    before. -/
def pass {σ : Type} (destination source : Value) (coordinates : List Nat) : InPlace → Action σ Unit
  | assign op => Elementwise.updateAt .compute (Context.compute.binary op) destination source (coordinates.map Scalar.ofIndex)
  | assignReversed op => Elementwise.updateAt .compute (fun target other => Context.compute.binary op other target)
      destination source (coordinates.map Scalar.ofIndex)
  | copy => Elementwise.copyAt .compute destination source (coordinates.map Scalar.ofIndex)

end InPlace

/-- A layout in which no two coordinates lead to the same place has no more of
    them than places. -/
theorem Layout.Injective.prod_le {layout : Layout} {size : Nat} (h : layout.Injective) (hsize : layout.memorySize = .ok size) :
    layout.extents.prod ≤ size := by
  have hnodup : ((rowMajor layout.extents).map layout.place).Nodup := List.pairwise_map.mpr h
  have hsubset : (rowMajor layout.extents).map layout.place ⊆ List.range size := by
    intro place hmem
    obtain ⟨coordinates, hcoordinates, rfl⟩ := List.mem_map.mp hmem
    exact List.mem_range.mpr (place_lt_memorySize hsize (mem_rowMajor.mp hcoordinates))
  have hle := (List.subperm_of_subset hnodup hsubset).length_le
  rwa [List.length_map, length_rowMajor, List.length_range] at hle

namespace Value

/-- Where the element at given coordinates lies. A value of rank 0 has one
    element, whatever the coordinates. -/
def cell? (value : Value) (coordinates : List Nat) : Option (HostRef × Nat) :=
  value.host?.map fun (ref, offset) => (ref, offset + value.layout.place coordinates)

variable {heap after : Heap} {value : Value} {coordinates : List Nat} {ref : HostRef} {offset : Nat}

/-- The cell of a value at coordinates is its buffer with the place added to the
    offset. No bounds are looked at. -/
theorem cell?_host (hdata : value.data = .host ref offset) (coordinates : List Nat) :
    value.cell? coordinates = some (ref, offset + value.layout.place coordinates) := by
  rw [cell?, host?_eq_some.mpr hdata]
  rfl

/-- An element depends on nothing but where it lies. Whatever else of its
    storage is overwritten, it stays. -/
theorem Fits.peek_congr_cell (h : value.Fits heap) (hadvances : heap.Advances after)
    (hdata : value.data = .host ref offset) (hindices : Scalar.indices coordinates = .ok coordinates)
    (hin : Layout.InBounds coordinates value.layout.extents)
    (hcell : ∀ ref index, value.cell? coordinates = some (ref, index) →
      (after.get ref).get? index = (heap.get ref).get? index) :
    value.peek after coordinates = value.peek heap coordinates := by
  obtain ⟨x, hx, hget⟩ := h.sound.exists_peek hdata hindices hin
  have hafter := hcell _ _ (cell?_host hdata coordinates)
  rw [hx]
  apply peek_host (h.advance hadvances).sound hdata hindices hin
  rw [hafter, hget]

/-- In a value of rank 0 all coordinates lead to the same place. This is how a
    scalar stands for each element of an operand. -/
theorem place_of_rank_zero (h : value.Sound heap) (hrank : value.rank = 0) (coordinates : List Nat) :
    value.layout.place coordinates = 0 := by
  have hformed := h.formed
  rw [Layout.Formed, show value.layout.extents.length = 0 from hrank, List.length_eq_zero_iff] at hformed
  simp [Layout.place, hformed]

/-- What an operand shows at given coordinates depends on one cell. A write
    elsewhere goes unnoticed, however the two values overlap. -/
theorem Fits.peekSource_congr_cell (h : value.Fits heap) (hadvances : heap.Advances after)
    (hindices : Scalar.indices coordinates = .ok coordinates)
    (hin : value.rank = 0 ∨ Layout.InBounds coordinates value.layout.extents)
    (hcell : ∀ ref index, value.cell? coordinates = some (ref, index) →
      (after.get ref).get? index = (heap.get ref).get? index) :
    value.peekSource after coordinates = value.peekSource heap coordinates := by
  cases hdata : value.data with
  | host ref offset =>
    have hsame := hcell _ _ (cell?_host hdata coordinates)
    by_cases hrank : value.rank = 0
    · rw [place_of_rank_zero h.sound hrank, Nat.add_zero] at hsame
      simp only [peekSource, sourceAt, if_pos hrank, ok_bind, held, hdata, hsame]
    · simp only [peekSource, sourceAt, if_neg hrank]
      exact h.peek_congr_cell hadvances hdata hindices (hin.resolve_left hrank) hcell
  | constant | register | buffer =>
    refine peekSource_congr h.sound (.of_get_eq fun ref offset hhost => ?_) coordinates
    cases hdata.symm.trans hhost

end Value

namespace Heap

/-- One element of a buffer has been overwritten. All others, in this buffer and
    in any other, have stayed. -/
structure Writes (heap : Heap) (ref : HostRef) (index : Nat) (x : Numeric) (after : Heap) : Prop extends
    heap.Touches ref after where
  get?_eq : ∀ i, (after.get ref).get? i = if i = index then some x else (heap.get ref).get? i

variable {heap after : Heap} {ref : HostRef} {index : Nat} {x : Numeric}

/-- A write changes one cell, and no other. -/
theorem Writes.get?_of_ne (h : heap.Writes ref index x after) {other : HostRef} {i : Nat} (hne : (other, i) ≠ (ref, index)) :
    (after.get other).get? i = (heap.get other).get? i := by
  by_cases hother : other = ref
  · subst hother
    rw [h.get?_eq, if_neg]
    rintro rfl
    exact hne rfl
  · rw [h.others other hother]

/-- An element of a buffer can be overwritten by one of its type, if its index
    is inside. -/
theorem exists_writes (hlt : ref.index < heap.buffers.size) (hdtype : x.dtype = (heap.get ref).dtype)
    (hindex : index < (heap.get ref).length) :
    ∃ buffer, (heap.get ref).set index x = .ok buffer ∧ heap.Writes ref index x (heap.put ref buffer) := by
  obtain ⟨buffer, hset⟩ := HostBuffer.exists_set hdtype hindex
  refine ⟨buffer, hset, touches_put hlt hset, fun i => ?_⟩
  rw [get_put_self _ _ hlt, HostBuffer.get?_of_set hset]

end Heap

/-- Inside its extents a value is read as a source as it is read otherwise. -/
theorem Value.peekSource_eq_peek {heap : Heap} {value : Value} {coordinates : List Nat} (h : value.Sound heap)
    (hin : Layout.InBounds coordinates value.layout.extents) : value.peekSource heap coordinates = value.peek heap coordinates := by
  by_cases hrank : value.rank = 0
  · have hextents : value.layout.extents = [] := List.length_eq_zero_iff.mp hrank
    rw [hextents] at hin
    cases hin
    rw [peek_nil h hrank, peekSource, sourceAt, if_pos hrank]
    rfl
  · rw [peekSource, sourceAt, if_neg hrank]
    rfl

namespace Elementwise

variable {σ : Type} {world : World σ} {destination source : Value} {ref : HostRef} {offset : Nat} {coordinates : List Nat}
  {combine : Context → Value → Value → Action σ Value} {law : Numeric → Numeric → Except ValueError Numeric}

/-- One element is replaced by what a law makes of it and that of the source, or
    left as it is. -/
theorem exists_runFrom_updateAt (source : Value) (happlies : Applies combine law) (hdestination : destination.Fits world.heap)
    (hdata : destination.data = .host ref offset) (hindices : Scalar.indices coordinates = .ok coordinates)
    (hin : Layout.InBounds coordinates destination.layout.extents) :
    ∃ heap, (updateAt .compute (combine .compute) destination source (coordinates.map Scalar.ofIndex)).runFrom world =
        ((combineWith world.heap law destination source coordinates).map fun _ => (), { world with heap }) ∧
      (∀ failure, combineWith world.heap law destination source coordinates = .error failure → heap = world.heap) ∧
      ∀ z, combineWith world.heap law destination source coordinates = .ok z →
        world.heap.Writes ref (offset + destination.layout.place coordinates) z heap := by
  obtain ⟨x, hx, hget⟩ := hdestination.sound.exists_peek hdata hindices hin
  obtain ⟨hbuffer, size, hsize, -, hle⟩ := hdestination.sound.host hdata
  have hlt := Layout.place_lt_memorySize hsize hin
  have hheld : (⟨destination.dtype, .scalar, .host ref (offset + destination.layout.place coordinates)⟩ : Value).held
      world.heap = .ok x := by
    rw [Value.held_host, hget]
    rfl
  simp only [combineWith, hx, ok_bind, Value.peekSource, updateAt, Stateful.runFrom_bind, Context.runFrom_element,
    Value.elementAt_host hdestination.sound hdata hindices hin, runFrom_sourceElement]
  cases source.sourceAt world.heap coordinates with
  | error failure => exact ⟨world.heap, rfl, fun _ _ => rfl, by rintro _ ⟨⟩⟩
  | ok other =>
    simp only [ok_bind, happlies.run world _ other x hheld]
    cases other.held world.heap with
    | error failure => exact ⟨world.heap, rfl, fun _ _ => rfl, by rintro _ ⟨⟩⟩
    | ok y =>
      simp only [ok_bind]
      cases hz : law x y with
      | error cause => exact ⟨world.heap, rfl, fun _ _ => rfl, by rintro _ ⟨⟩⟩
      | ok z =>
        have hdtype : z.dtype = destination.dtype :=
          (happlies.dtype_eq x y z hz).trans (Value.dtype_of_peek hdestination.sound hx)
        obtain ⟨buffer, hset, hwrites⟩ := Heap.exists_writes (hdestination.known ref offset hdata)
          (hdtype.trans hbuffer.symm) (Nat.lt_of_lt_of_le (Nat.add_lt_add_left hlt offset) hle)
        refine ⟨_, Context.runFrom_store hdtype hset, ?_, ?_⟩ <;> rintro _ ⟨⟩
        exact hwrites

end Elementwise

namespace InPlace

variable {σ : Type} {world : World σ} {f : InPlace} {destination source : Value} {ref : HostRef} {offset : Nat}
  {coordinates : List Nat}

/-- An update that fits elementwise has operands that fit. For some updates more
    is asked. -/
theorem Joins.joins (h : f.Joins destination source) : source.Joins destination := by
  cases f with
  | assign | assignReversed => exact h
  | copy => exact ⟨h.1, .inr h.2⟩

/-- One element of a copy: it is read, and written to its place. -/
theorem exists_runFrom_copyPass (hdestination : destination.Fits world.heap)
    (hdata : destination.data = .host ref offset) (hsource : source.Fits world.heap) (hjoins : copy.Joins destination source)
    (hindices : Scalar.indices coordinates = .ok coordinates) (hin : Layout.InBounds coordinates destination.layout.extents) :
    ∃ heap, (Elementwise.copyAt .compute destination source (coordinates.map Scalar.ofIndex)).runFrom world =
        ((Elementwise.combineWith world.heap copy.law destination source coordinates).map fun _ => (), { world with heap }) ∧
      (∀ failure, Elementwise.combineWith world.heap copy.law destination source coordinates = .error failure →
        heap = world.heap) ∧
      ∀ z, Elementwise.combineWith world.heap copy.law destination source coordinates = .ok z →
        world.heap.Writes ref (offset + destination.layout.place coordinates) z heap := by
  obtain ⟨x, hx, hget⟩ := hdestination.sound.exists_peek hdata hindices hin
  obtain ⟨hbuffer, size, hsize, -, hle⟩ := hdestination.sound.host hdata
  have hlt := Layout.place_lt_memorySize hsize hin
  have hcopied : Elementwise.combineWith world.heap copy.law destination source coordinates =
      source.peek world.heap coordinates := by
    rw [Elementwise.combineWith, hx, ok_bind, Value.peekSource_eq_peek hsource.sound (hjoins.2 ▸ hin)]
    cases source.peek world.heap coordinates <;> rfl
  rw [hcopied, Value.peek]
  simp only [Elementwise.copyAt, Stateful.runFrom_bind, Context.runFrom_element]
  cases hitem : source.elementAt world.heap coordinates with
  | error failure => exact ⟨world.heap, rfl, fun _ _ => rfl, by rintro _ ⟨⟩⟩
  | ok item =>
    simp only [Value.elementAt_host hdestination.sound hdata hindices hin, Context.runFrom_load, ok_bind]
    cases hy : item.held world.heap with
    | error failure => exact ⟨world.heap, rfl, fun _ _ => rfl, by rintro _ ⟨⟩⟩
    | ok y =>
      have hpeek : source.peek world.heap coordinates = .ok y := by rw [Value.peek, hitem, ok_bind, hy]
      have hdtype : y.dtype = destination.dtype := (Value.dtype_of_peek hsource.sound hpeek).trans hjoins.1
      obtain ⟨buffer, hset, hwrites⟩ := Heap.exists_writes (hdestination.known ref offset hdata)
        (hdtype.trans hbuffer.symm) (Nat.lt_of_lt_of_le (Nat.add_lt_add_left hlt offset) hle)
      refine ⟨_, Context.runFrom_store hdtype hset, ?_, ?_⟩ <;> rintro _ ⟨⟩
      exact hwrites

/-- One element is replaced, by what the two values hold at that moment. If they
    give nothing, nothing is written. -/
theorem exists_runFrom_pass (hdestination : destination.Fits world.heap) (hdata : destination.data = .host ref offset)
    (hsource : source.Fits world.heap) (hjoins : f.Joins destination source)
    (hindices : Scalar.indices coordinates = .ok coordinates) (hin : Layout.InBounds coordinates destination.layout.extents) :
    ∃ heap, (f.pass destination source coordinates).runFrom world =
        ((Elementwise.combineWith world.heap f.law destination source coordinates).map fun _ => (), { world with heap }) ∧
      (∀ failure, Elementwise.combineWith world.heap f.law destination source coordinates = .error failure →
        heap = world.heap) ∧
      ∀ z, Elementwise.combineWith world.heap f.law destination source coordinates = .ok z →
        world.heap.Writes ref (offset + destination.layout.place coordinates) z heap := by
  cases f with
  | assign op =>
    have hpass := Elementwise.exists_runFrom_updateAt source (Elementwise.applies_binary op) hdestination hdata hindices hin
    exact hpass
  | assignReversed op =>
    have hpass := Elementwise.exists_runFrom_updateAt source (Elementwise.applies_reversed op) hdestination hdata hindices hin
    exact hpass
  | copy => exact exists_runFrom_copyPass hdestination hdata hsource hjoins hindices hin

/-- What has become of the heap when the elements of a destination at some
    coordinates have been replaced, in that order: each by what it and one of
    the source gave. What an element of the source was is what it is now if it
    lies where the destination was replaced before, and otherwise what it had
    been. -/
structure Replaces (f : InPlace) (destination source : Value) (visited : List (List Nat)) (heap after : Heap) : Prop where
  advances : heap.Advances after
  others : ∀ ref index, some (ref, index) ∉ visited.map destination.cell? →
    (after.get ref).get? index = (heap.get ref).get? index
  replaced : ∀ (k : Nat) (hk : k < visited.length), ∃ x y z, destination.peek heap visited[k] = .ok x ∧
    source.peekSource (if source.cell? visited[k] ∈ (visited.take k).map destination.cell? then after else heap) visited[k] =
      .ok y ∧
    f.law x y = .ok z ∧ destination.peek after visited[k] = .ok z

theorem Replaces.refl (f : InPlace) (destination source : Value) (heap : Heap) : f.Replaces destination source [] heap heap :=
  ⟨.refl heap, fun _ _ _ => rfl, nofun⟩

/-- Coordinates that can be read, no two of which lead to the same place. What
    has been replaced is not replaced again. -/
structure Visits (destination : Value) (visited : List (List Nat)) : Prop where
  reads : ∀ coordinates ∈ visited, Scalar.indices coordinates = .ok coordinates
  inBounds : ∀ coordinates ∈ visited, Layout.InBounds coordinates destination.layout.extents
  pairwise : visited.Pairwise fun coordinates other =>
    destination.layout.place coordinates ≠ destination.layout.place other

/-- Fewer coordinates are visited without repetition if more are. Their order
    stays the same. -/
theorem Visits.sublist {visited shorter : List (List Nat)} (h : Visits destination visited) (hsublist : shorter.Sublist visited) :
    Visits destination shorter :=
  ⟨fun coordinates hmem => h.reads coordinates (hsublist.subset hmem),
    fun coordinates hmem => h.inBounds coordinates (hsublist.subset hmem), h.pairwise.sublist hsublist⟩

section Replaced

variable {visited : List (List Nat)} {heap between after : Heap}

/-- A coordinate list that comes later in the order than all that were visited
    leads to a cell that none of them has led to. This is where the destination
    must not repeat elements. -/
theorem cell?_ne (hdata : destination.data = .host ref offset) (h : Visits destination (visited ++ [coordinates])) :
    ∀ other ∈ visited, destination.cell? other ≠ destination.cell? coordinates := by
  intro other hmem heq
  have hplaces := (List.pairwise_append.mp h.pairwise).2.2 other hmem coordinates (List.mem_singleton_self _)
  rw [Value.cell?_host hdata, Value.cell?_host hdata, Option.some.injEq, Prod.mk.injEq] at heq
  omega

/-- One more element is replaced. Earlier ones keep what they have been given,
    as no two are in one place. -/
theorem Replaces.snoc (h : f.Replaces destination source visited heap between) (hdestination : destination.Fits heap)
    (hdata : destination.data = .host ref offset) (hsource : source.Fits heap) (hjoins : f.Joins destination source)
    (hvisits : Visits destination (visited ++ [coordinates])) {z : Numeric}
    (hz : Elementwise.combineWith between f.law destination source coordinates = .ok z)
    (hwrites : between.Writes ref (offset + destination.layout.place coordinates) z after) :
    f.Replaces destination source (visited ++ [coordinates]) heap after := by
  have hcell := Value.cell?_host hdata coordinates
  have hlast : between.Advances after := hwrites.toTouches.advances
  have hread (other : List Nat) (hmem : other ∈ visited ++ [coordinates]) := hvisits.reads other hmem
  have hshape (other : List Nat) (hmem : other ∈ visited ++ [coordinates]) :
      source.rank = 0 ∨ Layout.InBounds other source.layout.extents := by
    refine hjoins.joins.2.imp_right fun hextents => ?_
    rw [hextents]
    exact hvisits.inBounds other hmem
  have hkept (cell : HostRef × Nat) (hne : some cell ≠ destination.cell? coordinates) :
      (after.get cell.1).get? cell.2 = (between.get cell.1).get? cell.2 :=
    hwrites.get?_of_ne fun heq => hne (by rw [hcell, ← heq])
  -- what lies at an element replaced before is not what is replaced now
  have hsourceKept (other : List Nat) (hmem : other ∈ visited ++ [coordinates])
      (hbefore : source.cell? other ∈ visited.map destination.cell?) :
      source.peekSource after other = source.peekSource between other := by
    refine (hsource.advance h.advances).peekSource_congr_cell hlast (hread other hmem) (hshape other hmem) ?_
    intro ref' index hsome
    obtain ⟨earlier, hearlier, heq⟩ := List.mem_map.mp hbefore
    apply hkept (ref', index)
    rw [← hsome, ← heq]
    exact cell?_ne hdata hvisits earlier hearlier
  refine ⟨h.advances.trans hlast, fun ref' index hnot => ?_, fun k hk => ?_⟩
  · simp only [List.map_append, List.map_cons, List.map_nil, List.mem_append, List.mem_singleton, not_or] at hnot
    rw [hkept (ref', index) hnot.2, h.others ref' index hnot.1]
  · by_cases hlt : k < visited.length
    · obtain ⟨x, y, z', hx, hy, hlaw, hz'⟩ := h.replaced k hlt
      have hmem := List.getElem_mem hlt
      have hmem' := List.mem_append_left [coordinates] hmem
      have hafter : destination.peek after visited[k] = destination.peek between visited[k] := by
        refine (hdestination.advance h.advances).peek_congr_cell hlast hdata (hread _ hmem') (hvisits.inBounds _ hmem') ?_
        intro ref' index hsome
        apply hkept (ref', index)
        rw [← hsome]
        exact cell?_ne hdata hvisits _ hmem
      simp only [List.getElem_append_left hlt, List.take_append_of_le_length (Nat.le_of_lt hlt)]
      refine ⟨x, y, z', hx, ?_, hlaw, hafter.trans hz'⟩
      rw [← hy]
      split
      · next hbefore =>
        have hsubset := List.map_subset destination.cell? (List.take_subset k visited)
        exact hsourceKept _ hmem' (hsubset hbefore)
      · rfl
    · obtain rfl : k = visited.length := by
        simp only [List.length_append, List.length_singleton] at hk
        omega
      have hmem := List.mem_append_right visited (List.mem_singleton_self coordinates)
      simp only [Elementwise.combineWith, bind_eq_ok_iff, liftM_error_eq_ok_iff] at hz
      obtain ⟨x, hx, y, hy, hlaw⟩ := hz
      simp only [List.getElem_concat_length, List.take_left]
      refine ⟨x, y, z, ?_, ?_, hlaw, ?_⟩
      · rw [← hx]
        refine (hdestination.peek_congr_cell h.advances hdata (hread _ hmem) (hvisits.inBounds _ hmem) ?_).symm
        intro ref' index hsome
        refine h.others ref' index fun hbefore => ?_
        obtain ⟨earlier, hearlier, heq⟩ := List.mem_map.mp hbefore
        exact cell?_ne hdata hvisits earlier hearlier (heq.trans hsome.symm)
      · rw [← hy]
        split
        · next hbefore => exact hsourceKept _ hmem hbefore
        · next hbefore =>
          refine (hsource.peekSource_congr_cell h.advances (hread _ hmem) (hshape _ hmem) ?_).symm
          intro ref' index hsome
          exact h.others ref' index (hsome ▸ hbefore)
      · apply Value.peek_host (hdestination.advance (h.advances.trans hlast)).sound hdata (hread _ hmem)
          (hvisits.inBounds _ hmem)
        rw [hwrites.get?_eq, if_pos rfl]

/-- Elements are replaced one after another, up to the first for which there is
    none. -/
theorem exists_runFrom_forM_pass (hdestination : destination.Fits heap) (hdata : destination.data = .host ref offset)
    (hsource : source.Fits heap) (hjoins : f.Joins destination source) (rest : List (List Nat))
    (h : f.Replaces destination source visited heap world.heap) (hvisits : Visits destination (visited ++ rest)) :
    ∃ outcome final done, (rest.forM (f.pass destination source)).runFrom world = (outcome, { world with heap := final }) ∧
      f.Replaces destination source (visited ++ done) heap final ∧
      (outcome = .ok () ∧ done = rest ∨ ∃ coordinates later failure, outcome = .error failure ∧
        rest = done ++ coordinates :: later ∧
        Elementwise.combineWith final f.law destination source coordinates = .error failure) := by
  induction rest generalizing visited world with
  | nil => exact ⟨.ok (), world.heap, [], rfl, by simpa using h, .inl ⟨rfl, rfl⟩⟩
  | cons coordinates rest ih =>
    have hmem : coordinates ∈ visited ++ coordinates :: rest := by simp
    have hprefix : Visits destination (visited ++ [coordinates]) :=
      hvisits.sublist ((List.Sublist.refl visited).append (List.singleton_sublist.mpr List.mem_cons_self))
    obtain ⟨between, hpass, hfailed, hwrites⟩ := exists_runFrom_pass (hdestination.advance h.advances) hdata
      (hsource.advance h.advances) hjoins (hvisits.reads _ hmem) (hvisits.inBounds _ hmem)
    cases hz : Elementwise.combineWith world.heap f.law destination source coordinates with
    | error failure =>
      rw [hz, hfailed failure hz] at hpass
      refine ⟨.error failure, world.heap, [], Stateful.runFrom_bind_of_error hpass _, ?_, .inr ?_⟩
      · simpa using h
      · exact ⟨coordinates, rest, failure, rfl, rfl, hz⟩
    | ok z =>
      rw [hz] at hpass
      have hnext := h.snoc hdestination hdata hsource hjoins hprefix hz (hwrites z hz)
      obtain ⟨outcome, final, done, hrun, hreplaces, hended⟩ := @ih { world with heap := between } _ hnext
        (by simpa using hvisits)
      refine ⟨outcome, final, coordinates :: done, ?_, by simpa using hreplaces, ?_⟩
      · exact (Stateful.runFrom_bind_of_ok hpass _).trans hrun
      · refine hended.imp (fun ⟨hok, hdone⟩ => ⟨hok, by rw [hdone]⟩) ?_
        rintro ⟨coordinates', later, failure, houtcome, rfl, hfails⟩
        exact ⟨coordinates', later, failure, houtcome, rfl, hfails⟩

end Replaced

/-- An operation that succeeds found its operands to fit. All comparisons come
    before the loop. -/
theorem joins_of_run {final : World σ} {u : Unit} (h : (f.run destination source).runFrom world = (.ok u, final)) :
    f.Joins destination source := by
  have hupdate {combine : Context → Value → Value → Action σ Value}
      (h : (Elementwise.update combine destination source).runFrom world = (.ok u, final)) : source.Joins destination := by
    rw [Elementwise.update, Elementwise.checkOperands_eq] at h
    obtain ⟨_, _, hchecked, -⟩ := Stateful.runFrom_bind_eq_ok.mp h
    rw [Stateful.runFrom_liftM, Prod.mk.injEq] at hchecked
    exact Value.joins_of_compareOperands hchecked.1
  cases f with
  | assign op => exact hupdate h
  | assignReversed op => exact hupdate h
  | copy => exact Elementwise.fits_of_copyInto h

/-- An update in place is the sequence of its passes. The operands have been
    compared once they join, and no pass compares them again. -/
theorem runFrom_run (hcontext : world.contexts.head? = some .compute) (haddressable : destination.isAddressable = true)
    (hjoins : f.Joins destination source) : (f.run destination source).runFrom world =
      ((Layout.rowMajor destination.layout.extents).forM (f.pass destination source)).runFrom world := by
  have hensure : source.ensureDType destination.dtype = .ok () := Value.ensureDType_eq_ok.mpr hjoins.joins.1
  have hupdate (combine : Context → Value → Value → Action σ Value) :
      (Elementwise.update combine destination source).runFrom world =
        ((Layout.rowMajor destination.layout.extents).forM fun coordinates =>
          Elementwise.updateAt .compute (combine .compute) destination source (coordinates.map Scalar.ofIndex)).runFrom world := by
    have hchecked := Elementwise.checkOperands_eq_ok hjoins.joins.1 hjoins.joins.2
    simp only [Elementwise.update, Stateful.runFrom_bind, Stateful.runFrom_liftM, hchecked, liftM_self, haddressable,
      if_true, Action.runFrom_activeContext hcontext, Context.runFrom_forEach]
  cases f with
  | assign op => exact hupdate _
  | assignReversed op => exact hupdate _
  | copy =>
    simp only [run, Elementwise.copyInto, Stateful.runFrom_bind, Stateful.runFrom_liftM, hensure, liftM_error_ok, hjoins.2,
      ne_eq, not_true, if_false, Action.runFrom_activeContext hcontext, Context.runFrom_forEach]
    rfl

/-- Each element of the destination that is replaced could be found. Otherwise
    its pass would have failed. -/
theorem exists_elementAt_of_forM {visited : List (List Nat)} {final : World σ} {u : Unit}
    (h : (visited.forM (f.pass destination source)).runFrom world = (.ok u, final)) :
    ∀ coordinates ∈ visited, ∃ heap item, destination.elementAt heap coordinates = .ok item := by
  induction visited generalizing world with
  | nil => simp
  | cons coordinates rest ih =>
    obtain ⟨_, between, hpass, hrest⟩ := Stateful.runFrom_bind_eq_ok.mp h
    refine List.forall_mem_cons.mpr ⟨?_, ih hrest⟩
    have hupdate {combine : Value → Value → Action σ Value} (h : (Elementwise.updateAt .compute combine destination source
        (coordinates.map Scalar.ofIndex)).runFrom world = (.ok (), between)) :
        ∃ heap item, destination.elementAt heap coordinates = .ok item := by
      obtain ⟨item, _, hitem, -⟩ := Stateful.runFrom_bind_eq_ok.mp h
      rw [Context.runFrom_element, Prod.mk.injEq] at hitem
      exact ⟨_, item, hitem.1⟩
    cases f with
    | assign op => exact hupdate hpass
    | assignReversed op => exact hupdate hpass
    | copy =>
      obtain ⟨_, _, -, hpass⟩ := Stateful.runFrom_bind_eq_ok.mp hpass
      obtain ⟨item, _, hitem, -⟩ := Stateful.runFrom_bind_eq_ok.mp hpass
      rw [Context.runFrom_element, Prod.mk.injEq] at hitem
      exact ⟨_, item, hitem.1⟩

/-- Where each element can be found, all coordinates are read as themselves.
    None of them is too great for a signed word then. -/
theorem visits_rowMajor (hdestination : destination.Fits world.heap) (hdata : destination.data = .host ref offset)
    (hinjective : destination.layout.Injective)
    (hfound : ∀ coordinates ∈ Layout.rowMajor destination.layout.extents, ∃ heap item,
      destination.elementAt heap coordinates = .ok item) :
    Visits destination (Layout.rowMajor destination.layout.extents) := by
  obtain ⟨-, size, hsize, -, -⟩ := hdestination.sound.host hdata
  have hcount := hinjective.prod_le hsize
  have hbound := Layout.memorySize_lt_bound hsize
  refine ⟨fun coordinates hmem => ?_, fun _ => Layout.mem_rowMajor.mp, hinjective⟩
  have hin := Layout.mem_rowMajor.mp hmem
  obtain ⟨heap, item, hitem⟩ := hfound coordinates hmem
  obtain ⟨found, hindices⟩ := Value.exists_indices_of_elementAt hitem
  have hfew : ∀ index ∈ coordinates, index < Word.bound := by
    intro index hindex
    obtain ⟨extent, hextent, hlt⟩ := Layout.exists_lt_of_inBounds hin hindex
    have hle := Layout.le_prod_of_mem hin.zero_notMem hextent
    omega
  rw [hindices, Scalar.eq_of_indices hfew hindices]

/-- An operation that succeeds in place replaces the elements in row-major
    order, and reads the source meanwhile: an element of the source that lies
    where the destination has been replaced by then counts as it has become.
    Each other one counts as it was, so that all do if no element of the source
    lies at an earlier one of the destination. Nothing outside the destination
    changes. -/
theorem replaces_of_run (hcontext : world.contexts.head? = some .compute) (hdestination : destination.Fits world.heap)
    (hsource : source.Fits world.heap) (haddressable : destination.isAddressable = true)
    (hinjective : destination.layout.Injective) {after : World σ}
    (h : (f.run destination source).runFrom world = (.ok (), after)) :
    ∃ heap, after = { world with heap } ∧
      f.Replaces destination source (Layout.rowMajor destination.layout.extents) world.heap heap ∧
      ((∀ (k : Nat) (hk : k < (Layout.rowMajor destination.layout.extents).length),
          source.cell? (Layout.rowMajor destination.layout.extents)[k] ∉
            ((Layout.rowMajor destination.layout.extents).take k).map destination.cell?) →
        ∀ coordinates ∈ Layout.rowMajor destination.layout.extents, destination.peek heap coordinates =
          Elementwise.combineWith world.heap f.law destination source coordinates) := by
  have hjoins := joins_of_run h
  rw [runFrom_run hcontext haddressable hjoins] at h
  have hfound := exists_elementAt_of_forM h
  obtain ⟨heap, rfl, hreplaces⟩ : ∃ heap, after = { world with heap } ∧
      f.Replaces destination source (Layout.rowMajor destination.layout.extents) world.heap heap := by
    cases hdata : destination.data with
    | host ref offset =>
      obtain ⟨outcome, heap, done, hrun, hreplaces, hended⟩ := exists_runFrom_forM_pass hdestination hdata hsource hjoins
        (Layout.rowMajor destination.layout.extents) (.refl f destination source world.heap)
        (visits_rowMajor hdestination hdata hinjective hfound)
      rw [h, Prod.mk.injEq] at hrun
      obtain ⟨houtcome, rfl⟩ := hrun
      rcases hended with ⟨-, rfl⟩ | ⟨_, _, failure, hfailed, -⟩
      · exact ⟨heap, rfl, hreplaces⟩
      · cases houtcome.trans hfailed
    | buffer id place =>
      -- no element of emitted storage can be found, so that there is none
      have hempty : Layout.rowMajor destination.layout.extents = [] := by
        apply List.eq_nil_iff_forall_not_mem.mpr
        intro coordinates hmem
        obtain ⟨heap, item, hitem⟩ := hfound coordinates hmem
        rcases Value.elementAt_eq_ok hdestination.sound.formed hitem with ⟨x, hconstant, -⟩ | ⟨_, _, _, hhost, -⟩
        · cases hdata.symm.trans hconstant
        · cases hdata.symm.trans hhost
      rw [hempty] at h ⊢
      cases h
      exact ⟨world.heap, rfl, .refl f destination source world.heap⟩
    | constant | register => simp [Value.isAddressable, hdata] at haddressable
  refine ⟨heap, rfl, hreplaces, fun hapart coordinates hmem => ?_⟩
  obtain ⟨k, hk, rfl⟩ := List.getElem_of_mem hmem
  obtain ⟨x, y, z, hx, hy, hlaw, hz⟩ := hreplaces.replaced k hk
  rw [if_neg (hapart k hk)] at hy
  simp [Elementwise.combineWith, hx, hy, hlaw, hz, ok_bind]

/-- Three numbers, the last two of which are a view. The first two are another,
    which overlaps it. -/
def overlapping : World Unit where
  heap := ⟨#[⟨.i32, #[.i32 1, .i32 2, .i32 3], by decide⟩]⟩
  contexts := [.compute]
  client := ()

def firstTwo : Value := ⟨.i32, ⟨[2], [1]⟩, .host ⟨0⟩ 0⟩

def lastTwo : Value := ⟨.i32, ⟨[2], [1]⟩, .host ⟨0⟩ 1⟩

theorem fits_lastTwo : lastTwo.Fits overlapping.heap := ⟨⟨rfl, rfl⟩, fun ref offset hdata => by cases hdata; decide⟩

theorem fits_firstTwo : firstTwo.Fits overlapping.heap := ⟨⟨rfl, rfl⟩, fun ref offset hdata => by cases hdata; decide⟩

/-- The number in the middle is added to the last one once the first one has
    been added to it. -/
theorem replaces_of_run_overlapping :
    overlapping.contexts.head? = some .compute ∧ lastTwo.Fits overlapping.heap ∧ firstTwo.Fits overlapping.heap ∧
    lastTwo.isAddressable = true ∧ lastTwo.layout.Injective ∧
    ∃ heap, ((assign .add).run lastTwo firstTwo).runFrom overlapping = (.ok (), { overlapping with heap }) ∧
      (assign .add).Replaces lastTwo firstTwo [[0], [1]] overlapping.heap heap ∧
      lastTwo.peek heap [0] = .ok (.i32 3) ∧ lastTwo.peek heap [1] = .ok (.i32 6) := by
  have hrun : ((assign .add).run lastTwo firstTwo).runFrom overlapping =
      (.ok (), { overlapping with heap := ⟨#[⟨.i32, #[.i32 1, .i32 3, .i32 6], by decide⟩]⟩ }) := by
    cbv
  obtain ⟨heap, hafter, hreplaces, -⟩ := replaces_of_run rfl fits_lastTwo fits_firstTwo rfl (by decide) hrun
  obtain rfl := congrArg World.heap hafter
  exact ⟨rfl, fits_lastTwo, fits_firstTwo, rfl, by decide, _, hrun, hreplaces, by cbv, by cbv⟩

/-- As though no element were replaced before all of them have been read. This
    is the reading that fails. -/
def Simultaneous (f : InPlace) : Prop :=
  ∀ (world after : World Unit) (destination source : Value), world.contexts.head? = some .compute →
    destination.Fits world.heap → source.Fits world.heap → destination.isAddressable = true → destination.layout.Injective →
    f.Joins destination source → (f.run destination source).runFrom world = (.ok (), after) →
      ∀ coordinates ∈ Layout.rowMajor destination.layout.extents, destination.peek after.heap coordinates =
        Elementwise.combineWith world.heap f.law destination source coordinates

theorem Simultaneous.peek_lastTwo {f : InPlace} (h : f.Simultaneous) {buffer : HostBuffer}
    (hrun : (f.run lastTwo firstTwo).runFrom overlapping = (.ok (), { overlapping with heap := ⟨#[buffer]⟩ })) :
    lastTwo.peek ⟨#[buffer]⟩ [1] = Elementwise.combineWith overlapping.heap f.law lastTwo firstTwo [1] :=
  h overlapping _ lastTwo firstTwo rfl fits_lastTwo fits_firstTwo rfl (by decide) (joins_of_run hrun) hrun [1] (by decide)

/-- The last two of three numbers do not become their sums with the first two,
    nor copies of them: the number in the middle is read when it has been
    replaced. -/
theorem overlapping_reread : ¬(assign .add).Simultaneous ∧ ¬copy.Simultaneous := by
  constructor
  · intro hclaim
    have hrun : ((assign .add).run lastTwo firstTwo).runFrom overlapping =
        (.ok (), { overlapping with heap := ⟨#[⟨.i32, #[.i32 1, .i32 3, .i32 6], by decide⟩]⟩ }) := by
      cbv
    have hread : Elementwise.combineWith overlapping.heap (assign .add).law lastTwo firstTwo [1] = .ok (.i32 5) := by cbv
    have hwritten : lastTwo.peek ⟨#[⟨.i32, #[.i32 1, .i32 3, .i32 6], by decide⟩]⟩ [1] = .ok (.i32 6) := by cbv
    cases hwritten.symm.trans ((hclaim.peek_lastTwo hrun).trans hread)
  · intro hclaim
    have hrun : (copy.run lastTwo firstTwo).runFrom overlapping =
        (.ok (), { overlapping with heap := ⟨#[⟨.i32, #[.i32 1, .i32 1, .i32 1], by decide⟩]⟩ }) := by
      cbv
    have hread : Elementwise.combineWith overlapping.heap copy.law lastTwo firstTwo [1] = .ok (.i32 2) := by cbv
    have hwritten : lastTwo.peek ⟨#[⟨.i32, #[.i32 1, .i32 1, .i32 1], by decide⟩]⟩ [1] = .ok (.i32 1) := by cbv
    cases hwritten.symm.trans ((hclaim.peek_lastTwo hrun).trans hread)

end InPlace

end StagedArrays
