import StagedArrays.Proofs.Context

namespace StagedArrays

/-- One entering of a context. The number tells it from every other one, also of
    the same context. -/
structure Entry where
  serial : Nat
  context : Context
  deriving DecidableEq

/-- A guard that is not dropped yet, and the entering it came from. A guard by
    itself knows only a depth. -/
structure LiveGuard where
  guard : Guard
  entry : Entry
  deriving DecidableEq

/-- A world, with what is known of the guards in it: which entering put each
    context of the stack there, which guards are still to be dropped, and how
    many contexts have been entered so far. -/
structure Occupancy (σ : Type) where
  world : World σ
  entries : List Entry := []
  live : List LiveGuard := []
  count : Nat := 0

namespace Occupancy

variable {σ : Type} {start s t : Occupancy σ} {held other : LiveGuard}

/-- A context is entered, a guard is dropped, whichever it is and however that
    ends, or something happens that is neither. A guard that is forgotten stays
    among those to be dropped. -/
inductive Step : Occupancy σ → Occupancy σ → Prop
  | enter {s : Occupancy σ} {context : Context} {guard : Guard} {after : World σ}
      (h : (Action.enter context).runFrom s.world = (.ok guard, after)) :
      Step s { world := after, entries := ⟨s.count, context⟩ :: s.entries,
               live := ⟨guard, ⟨s.count, context⟩⟩ :: s.live, count := s.count + 1 }
  | drop {s : Occupancy σ} {held : LiveGuard} {after : World σ} (hlive : held ∈ s.live)
      (h : (Action.leave held.guard).runFrom s.world = (.ok (), after)) :
      Step s { s with world := after, entries := s.entries.tail, live := s.live.erase held }
  | refuse {s : Occupancy σ} {held : LiveGuard} {failure : Failure ValueError} {after : World σ}
      (hlive : held ∈ s.live)
      (h : (Action.leave held.guard).runFrom s.world = (.error failure, after)) :
      Step s { s with world := after, live := s.live.erase held }
  | other {s : Occupancy σ} {after : World σ} (h : s.world.Stays after) : Step s { s with world := after }

/-- What any number of steps leads to, in whatever order guards are dropped. -/
inductive Reaches : Occupancy σ → Occupancy σ → Prop
  | refl (s : Occupancy σ) : Reaches s s
  | step {s t u : Occupancy σ} (hrun : Reaches s t) (hstep : Step t u) : Reaches s u

/-- The context of a guard is where its depth says, counted from the bottom of
    the stack. -/
def Sits (entries : List Entry) (held : LiveGuard) : Prop :=
  ∃ above below, entries = above ++ held.entry :: below ∧ held.guard.depth = below.length + 1

/-- The depth of a guard is at most the height of the stack. Its own entry is
    the one at that height. -/
theorem Sits.depth_le {entries : List Entry} (h : Sits entries held) :
    held.guard.depth ≤ entries.length := by
  obtain ⟨above, below, rfl, hdepth⟩ := h
  rw [hdepth, List.length_append, List.length_cons]
  omega

/-- Who sits at the full depth of the stack is on top of it. There is no room
    above. -/
theorem Sits.exists_cons {entries : List Entry} (h : Sits entries held)
    (hdepth : entries.length = held.guard.depth) :
    ∃ below, entries = held.entry :: below := by
  obtain ⟨above, below, rfl, heq⟩ := h
  rw [heq, List.length_append, List.length_cons] at hdepth
  have hnil : above = [] := List.length_eq_zero_iff.mp (by omega)
  exact ⟨below, by rw [hnil, List.nil_append]⟩

/-- A guard stays where it sits while the stack grows. Depths are counted from
    below. -/
theorem Sits.cons {entries : List Entry} (h : Sits entries held) (entry : Entry) :
    Sits (entry :: entries) held := by
  obtain ⟨above, below, rfl, hdepth⟩ := h
  exact ⟨entry :: above, below, rfl, hdepth⟩

/-- Taking the top off moves nobody who sits below it. Depths are counted from
    the bottom. -/
theorem Sits.tail {entries : List Entry} (h : Sits entries held)
    (hdepth : held.guard.depth ≠ entries.length) : Sits entries.tail held := by
  obtain ⟨above, below, rfl, heq⟩ := h
  cases above with
  | nil => exact (hdepth (by rw [heq, List.nil_append, List.length_cons])).elim
  | cons entry above => exact ⟨above, below, rfl, heq⟩

/-- No two guards have the same depth, and the context each one entered is still
    there, at its depth. -/
structure Placed (s : Occupancy σ) : Prop where
  contexts_eq : s.world.contexts = s.entries.map Entry.context
  serial_lt : ∀ entry ∈ s.entries, entry.serial < s.count
  entries_nodup : (s.entries.map Entry.serial).Nodup
  depths_distinct : s.live.Pairwise fun one another => one.guard.depth ≠ another.guard.depth
  sits : ∀ held ∈ s.live, Sits s.entries held

/-- Dropping a guard takes off the context this guard entered if that is on top,
    and else is refused and changes nothing. -/
def PopsOwn (s : Occupancy σ) (held : LiveGuard) : Prop :=
  (∃ below, s.entries = held.entry :: below ∧
      (Action.leave held.guard).runFrom s.world =
        (.ok (), { s.world with contexts := below.map Entry.context })) ∨
    s.entries.head? ≠ some held.entry ∧
      (Action.leave held.guard).runFrom s.world =
        (.error (.fault (.guardOutOfOrder s.world.contexts.length held.guard.depth)), s.world)

namespace Placed

theorem length_eq (h : s.Placed) : s.world.contexts.length = s.entries.length := by
  rw [h.contexts_eq, List.length_map]

/-- No other guard has the depth of a given one. So the depth alone tells them
    apart. -/
theorem depth_ne_of_mem_erase (h : s.Placed) (hlive : held ∈ s.live) (hother : other ∈ s.live.erase held) :
    other.guard.depth ≠ held.guard.depth := by
  have hperm := List.perm_cons_erase hlive
  have hpairwise := (hperm.pairwise_iff fun hne => hne.symm).mp h.depths_distinct
  exact ((List.pairwise_cons.mp hpairwise).1 other hother).symm

/-- Only who sits at the full depth of the stack is on top of it. Any other
    guard that is dropped is refused. -/
theorem head?_ne_of_depth_lt (h : s.Placed) (hlive : held ∈ s.live)
    (hdepth : held.guard.depth < s.entries.length) : s.entries.head? ≠ some held.entry := by
  obtain ⟨above, below, hentries, heq⟩ := h.sits held hlive
  have hnodup := h.entries_nodup
  rw [hentries] at hdepth hnodup ⊢
  cases above with
  | nil =>
    rw [List.nil_append, List.length_cons, heq] at hdepth
    exact (Nat.lt_irrefl _ hdepth).elim
  | cons entry above =>
    rw [List.cons_append, List.map_cons, List.nodup_cons] at hnodup
    rw [List.cons_append, List.head?_cons]
    rintro ⟨⟩
    exact hnodup.1 (List.mem_map_of_mem (List.mem_append_right _ List.mem_cons_self))

/-- In a stack whose guards are placed, the guard of the entry on top has the
    depth of the whole stack. This is what the assertion of a dropped guard
    compares. -/
theorem depth_eq_of_head (h : s.Placed) (hlive : held ∈ s.live) {below : List Entry}
    (hentries : s.entries = held.entry :: below) : held.guard.depth = s.entries.length := by
  have hle := (h.sits held hlive).depth_le
  rcases Nat.lt_or_eq_of_le hle with hlt | heq
  · exact (h.head?_ne_of_depth_lt hlive hlt (by rw [hentries, List.head?_cons])).elim
  · exact heq

/-- Dropping a live guard takes off its own context or is refused, by comparing
    the depth of the guard with the height of the stack. -/
theorem popsOwn (h : s.Placed) (hlive : held ∈ s.live) : s.PopsOwn held := by
  have hsits := h.sits held hlive
  by_cases hlength : s.world.contexts.length = held.guard.depth
  · obtain ⟨below, hentries⟩ := hsits.exists_cons (h.length_eq.symm.trans hlength)
    refine .inl ⟨below, hentries, ?_⟩
    rw [Action.runFrom_leave_of_length_eq hlength, h.contexts_eq, hentries, List.map_cons, List.tail_cons]
  · have hle := hsits.depth_le
    have hlt : held.guard.depth < s.entries.length := by
      rw [h.length_eq] at hlength
      omega
    exact .inr ⟨h.head?_ne_of_depth_lt hlive hlt, Action.runFrom_leave_of_length_ne hlength⟩

/-- Pushing an entry and dropping a guard both keep the guards placed, in
    whatever order guards are dropped. A drop out of order leaves the stack as
    it is. -/
theorem step (h : s.Placed) (hstep : Step s t) : t.Placed := by
  cases hstep with
  | @enter context guard after hrun =>
    have hguard : (⟨s.world.contexts.length + 1⟩, { s.world with contexts := context :: s.world.contexts }) =
        (guard, after) := by
      cases hrun
      rfl
    cases hguard
    refine ⟨?_, ?_, ?_, ?_, ?_⟩
    · rw [List.map_cons, h.contexts_eq]
    · rintro entry (_ | ⟨_, hmem⟩)
      · exact Nat.lt_succ_self _
      · exact Nat.lt_succ_of_lt (h.serial_lt entry hmem)
    · refine List.nodup_cons.mpr ⟨fun hmem => ?_, h.entries_nodup⟩
      obtain ⟨entry, hentry, hserial⟩ := List.mem_map.mp hmem
      exact Nat.ne_of_lt (h.serial_lt entry hentry) hserial
    · -- the new guard is deeper than every guard there is
      refine List.pairwise_cons.mpr ⟨fun other hother => ?_, h.depths_distinct⟩
      have hle := (h.sits other hother).depth_le
      rw [← h.length_eq] at hle
      exact Nat.ne_of_gt (Nat.lt_succ_of_le hle)
    · rintro held (_ | ⟨_, hmem⟩)
      · exact ⟨[], s.entries, rfl, congrArg (· + 1) h.length_eq⟩
      · exact (h.sits held hmem).cons _
  | @drop held after hlive hrun =>
    rcases h.popsOwn hlive with ⟨below, hentries, heq⟩ | ⟨-, heq⟩
    · have hdepth := h.depth_eq_of_head hlive hentries
      cases heq.symm.trans hrun
      refine ⟨?_, ?_, ?_, ?_, ?_⟩
      · rw [hentries, List.tail_cons]
      · exact fun entry hmem => h.serial_lt entry (List.mem_of_mem_tail hmem)
      · exact h.entries_nodup.sublist ((List.tail_sublist _).map _)
      · exact h.depths_distinct.sublist List.erase_sublist
      · -- whoever else is there has another depth, so is not the one on top
        intro other hother
        refine (h.sits other (List.mem_of_mem_erase hother)).tail ?_
        rw [← hdepth]
        exact h.depth_ne_of_mem_erase hlive hother
    · cases heq.symm.trans hrun
  | @refuse held failure after hlive hrun =>
    rcases h.popsOwn hlive with ⟨below, -, heq⟩ | ⟨-, heq⟩
    · cases heq.symm.trans hrun
    · cases heq.symm.trans hrun
      exact ⟨h.contexts_eq, h.serial_lt, h.entries_nodup, h.depths_distinct.sublist List.erase_sublist,
        fun other hother => h.sits other (List.mem_of_mem_erase hother)⟩
  | other hstays =>
    exact ⟨hstays.trans h.contexts_eq, h.serial_lt, h.entries_nodup, h.depths_distinct, h.sits⟩

/-- Whatever is entered and dropped, guards stay placed. By induction on the
    steps. -/
theorem reaches (h : start.Placed) (hrun : Reaches start s) : s.Placed := by
  induction hrun with
  | refl => exact h
  | step _ hstep ih => exact ih.step hstep

end Placed

/-- Nobody has entered a context yet. Every history of guards begins like
    this. -/
theorem placed_of_contexts_eq_nil {world : World σ} (h : world.contexts = []) :
    ({ world } : Occupancy σ).Placed :=
  ⟨h, fun _ hmem => (List.not_mem_nil hmem).elim, List.nodup_nil, .nil, fun _ hmem => (List.not_mem_nil hmem).elim⟩

end Occupancy

end StagedArrays
