import StagedArrays.Proofs.Graph.Journal
import StagedArrays.Proofs.Graph.Reaction
import StagedArrays.Proofs.Staging.Slots

namespace StagedArrays

open Stateful (Joint)

namespace ActivityM

variable {σ α : Type} {activity after : Activity σ} {a : α}

/-- An action that is noted and succeeds has succeeded on storage. The journal
    plays no part. -/
theorem runFrom_noted_eq_ok {event : Except AllocatorError α → Event} {action : StorageM σ α}
    (h : (noted event action).runFrom activity = (.ok a, after)) :
    action.runFrom activity.storage = (.ok a, after.storage) := by
  rw [runFrom_noted] at h
  rcases hrun : action.runFrom activity.storage with ⟨(cause | fault) | value, storage⟩ <;> rw [hrun] at h <;> cases h
  rfl

/-- An action on the world that succeeds has succeeded there. Allocator and
    journal are unchanged. -/
theorem runFrom_onWorld_eq_ok {action : Action σ α} (h : (onWorld action).runFrom activity = (.ok a, after)) :
    ∃ world, action.runFrom activity.storage.world = (.ok a, world) ∧
      after = ⟨⟨activity.storage.allocator, world⟩, activity.journal⟩ := by
  obtain ⟨⟨allocator, world⟩, journal⟩ := activity
  rw [onWorld, Stateful.runFrom_focus, Prod.mk.injEq] at h
  exact ⟨_, Stateful.runFrom_mapCause_eq_ok.mp (Prod.ext h.1 rfl), by rw [← h.2, Stateful.runFrom_mapCause]⟩

end ActivityM

namespace BinaryNode

variable {σ : Type} {activity after : Activity σ} {storage result : Variable}

/-- Where storage is filled successfully, nothing has been given back. -/
theorem runFrom_filled_eq_ok {fill : Action σ Unit}
    (h : (filled storage fill).runFrom activity = (.ok result, after)) :
    (do ActivityM.onWorld fill; return storage : ActivityM σ Variable).runFrom activity = (.ok result, after) := by
  obtain ⟨outcome, between, hfill, h⟩ := Stateful.runFrom_bind_eq_ok.mp h
  rw [Stateful.runFrom_attempt_eq_ok] at hfill
  rcases outcome with (cause | fault) | ⟨⟩
  · obtain ⟨_, _, -, h⟩ := Stateful.runFrom_bind_eq_ok.mp h
    cases h
  · cases h
  · rw [Stateful.runFrom_bind_of_ok hfill]
    exact h

/-- Where an action has succeeded, what was held is given back after it. -/
theorem runFrom_releasing_eq_ok {held : Variable} {action : ActivityM σ Variable}
    (h : (releasing held action).runFrom activity = (.ok result, after)) :
    (do let result ← action; ActivityM.free held; return result : ActivityM σ Variable).runFrom activity =
      (.ok result, after) := by
  obtain ⟨outcome, between, haction, h⟩ := Stateful.runFrom_bind_eq_ok.mp h
  rw [Stateful.runFrom_attempt_eq_ok] at haction
  rcases outcome with (cause | fault) | found
  · obtain ⟨_, _, -, h⟩ := Stateful.runFrom_bind_eq_ok.mp h
    cases h
  · cases h
  · rw [Stateful.runFrom_bind_of_ok haction]
    exact h

/-- A combination that succeeds has passed the comparison of its operands. -/
theorem runFrom_compute_eq_ok {op : BinaryOp} {lhs rhs : Variable}
    (h : (compute op lhs rhs).runFrom activity = (.ok result, after)) :
    (combined op lhs rhs).runFrom activity = (.ok result, after) := by
  rw [runFrom_compute] at h
  split at h
  · cases h
  · exact h

end BinaryNode

namespace Staging

variable {σ τ : Type} {c : Staging σ τ} {bindings grown : Bindings} {v v' held held' input input' lhs lhs' rhs rhs' : Variable}

/-- The storage of two graphs at work that have asked for the same. -/
def Works (c : Staging σ τ) (bindings : Bindings) (activity : Activity σ) (activity' : Activity τ) : Prop :=
  c.Stores bindings activity.storage activity'.storage

theorem Works.joint_noted {α β : Type} {post : Bindings → α → β → Prop} {action : StorageM σ α} {other : StorageM τ β}
    (h : Joint c.Stores post bindings action other) (event : Except AllocatorError α → Event)
    (event' : Except AllocatorError β → Event) :
    Joint c.Works post bindings (ActivityM.noted event action) (ActivityM.noted event' other) :=
  fun _ _ _ _ _ _ hworks hrun hrun' =>
    h hworks (ActivityM.runFrom_noted_eq_ok hrun) (ActivityM.runFrom_noted_eq_ok hrun')

/-- Whatever runs jointly on the two worlds does so inside two graphs at
    work. -/
theorem Works.joint_onWorld {α β : Type} {post : Bindings → α → β → Prop} {action : Action σ α} {other : Action τ β}
    (h : Joint c.Tracks post bindings action other) :
    Joint c.Works post bindings (ActivityM.onWorld action) (ActivityM.onWorld other) := by
  intro activity activity' a b after after' hworks hrun hrun'
  obtain ⟨world, hworld, rfl⟩ := ActivityM.runFrom_onWorld_eq_ok hrun
  obtain ⟨world', hworld', rfl⟩ := ActivityM.runFrom_onWorld_eq_ok hrun'
  obtain ⟨grown, hgrown, htracks, hpost⟩ := h hworks.tracks hworld hworld'
  exact ⟨grown, hgrown, ⟨htracks, hworks.maxSlots_eq, hworks.slots.imp fun _ _ hslot => hslot.grow hgrown⟩, hpost⟩

/-- Packed storage that is filled alike. -/
theorem joint_fresh (hlike : c.Pairs bindings v v') {fill : Value → Action σ Unit} {fill' : Value → Action τ Unit}
    (hfill : ∀ grown : Bindings, ∀ destination destination', bindings ⊆ grown → grown.Bound destination destination' →
      Joint c.Tracks (fun _ _ _ => True) grown (fill destination) (fill' destination')) :
    Joint c.Works c.Pairs bindings (BinaryNode.fresh v fill) (BinaryNode.fresh v' fill') := by
  have hdtype : v'.dtype = v.dtype := hlike.dtype_eq
  have hlayout : v'.layout = v.layout := hlike.layout_eq
  unfold BinaryNode.fresh
  rw [hdtype, hlayout]
  have hpacked : Joint c.Works (fun _ layout layout' => layout' = layout ∧ layout.Formed) bindings
      (liftM v.layout.contiguous : ActivityM σ Layout) (liftM v.layout.contiguous : ActivityM τ Layout) := by
    refine .lift fun layout layout' hok hok' => ?_
    rw [liftM_fault_eq_ok_iff] at hok hok'
    exact ⟨Except.ok.inj (hok'.symm.trans hok), Layout.formed_of_packed hok⟩
  refine .bind hpacked fun grown layout layout' hgrown hsame => ?_
  obtain ⟨rfl, hformed⟩ := hsame
  refine .bind (Works.joint_noted (joint_allocate v.dtype hformed) _ _) fun grown' storage storage' hgrown' hstorage => ?_
  refine .of_succeeds (.bind (Works.joint_onWorld (hfill grown' _ _ (List.Subset.trans hgrown hgrown') hstorage.toBound))
      fun _ _ _ hgrown'' _ => .pure (hstorage.grow hgrown'')) BinaryNode.runFrom_filled_eq_ok BinaryNode.runFrom_filled_eq_ok

theorem joint_hold (hinput : c.Pairs bindings input input') :
    Joint c.Works c.Pairs bindings (BinaryNode.hold input) (BinaryNode.hold input') := by
  rw [BinaryNode.hold_eq, BinaryNode.hold_eq]
  exact joint_fresh hinput fun _ _ _ hgrown hdestination => joint_copyInto hdestination (hinput.toBound.grow hgrown)

/-- Combining runs jointly: first both sides allocate, then both copy, then both
    update. -/
theorem joint_compute (op : BinaryOp) (hlhs : c.Pairs bindings lhs lhs') (hrhs : c.Pairs bindings rhs rhs') :
    Joint c.Works c.Pairs bindings (BinaryNode.compute op lhs rhs) (BinaryNode.compute op lhs' rhs') := by
  refine .of_succeeds (joint_fresh hlhs fun grown _ _ hgrown hdestination => ?_) BinaryNode.runFrom_compute_eq_ok
    BinaryNode.runFrom_compute_eq_ok
  exact .bind (joint_copyInto hdestination (hlhs.toBound.grow hgrown)) fun _ _ _ hgrown' _ =>
    joint_assignBinary op (hdestination.grow hgrown') (hrhs.toBound.grow (List.Subset.trans hgrown hgrown'))

/-- To give up a held operand runs alike on both sides. The two have the same
    slot. -/
theorem joint_releasing {action : ActivityM σ Variable} {action' : ActivityM τ Variable} (hheld : c.Pairs bindings held held')
    (h : Joint c.Works c.Pairs bindings action action') :
    Joint c.Works c.Pairs bindings (BinaryNode.releasing held action) (BinaryNode.releasing held' action') := by
  refine .of_succeeds (.bind h fun _ result result' hgrown hresult => ?_) BinaryNode.runFrom_releasing_eq_ok
    BinaryNode.runFrom_releasing_eq_ok
  exact .bind (Works.joint_noted (joint_free (hheld.grow hgrown)) _ _) fun _ _ _ hgrown' _ => .pure (hresult.grow hgrown')

/-- So does the whole step. The two results stand for each other. -/
theorem joint_combine (op : BinaryOp) (side : Side) (hheld : c.Pairs bindings held held') (hinput : c.Pairs bindings input input') :
    Joint c.Works c.Pairs bindings (BinaryNode.combine op side held input) (BinaryNode.combine op side held' input') := by
  cases side with
  | lhs => exact joint_releasing hheld (joint_compute op hinput hheld)
  | rhs => exact joint_releasing hheld (joint_compute op hheld hinput)

/-- Nodes that have taken the same operands. -/
inductive PairsNode (c : Staging σ τ) (bindings : Bindings) : Node → Node → Prop
  | literal {v v' : Variable} (h : c.Pairs bindings v v') : PairsNode c bindings (.literal v) (.literal v')
  | waiting (node : BinaryNode) : PairsNode c bindings (.binary { node with held := none }) (.binary { node with held := none })
  | holding (node : BinaryNode) (side : Side) {held held' : Variable} (h : c.Pairs bindings held held') :
    PairsNode c bindings (.binary { node with held := some (side, held) }) (.binary { node with held := some (side, held') })

/-- Nodes that have taken the same operands react alike. -/
inductive PairsReaction (c : Staging σ τ) (bindings : Bindings) : Reaction → Reaction → Prop
  | refuse (cause : GraphError) : PairsReaction c bindings (.refuse cause) (.refuse cause)
  | give {v v' : Variable} (h : c.Pairs bindings v v') : PairsReaction c bindings (.give v) (.give v')
  | hold (node : BinaryNode) (side : Side) {input input' : Variable} (h : c.Pairs bindings input input') :
    PairsReaction c bindings (.hold node side input) (.hold node side input')
  | combine (node : BinaryNode) (side heldSide : Side) {held held' input input' : Variable} (hheld : c.Pairs bindings held held')
    (hinput : c.Pairs bindings input input') :
    PairsReaction c bindings (.combine { node with held := some (heldSide, held) } side held input)
      (.combine { node with held := some (heldSide, held') } side held' input')

/-- Further bindings leave nodes paired that are. -/
theorem PairsNode.grow {node node' : Node} (h : c.PairsNode bindings node node') (hgrown : bindings ⊆ grown) :
    c.PairsNode grown node node' := by
  cases h with
  | literal h => exact .literal (h.grow hgrown)
  | waiting node => exact .waiting node
  | holding node side h => exact .holding node side (h.grow hgrown)

/-- Nodes that are paired react alike to inputs that are. -/
theorem PairsNode.reaction {node node' : Node} (h : c.PairsNode bindings node node') (source : Option NodeId)
    {input input' : Option Variable} (hinput : Option.Rel (c.Pairs bindings) input input') :
    c.PairsReaction bindings (node.reaction source input) (node'.reaction source input') := by
  cases h with
  | literal h =>
    cases hinput with
    | none => exact .give h
    | some => exact .refuse _
  | waiting node =>
    cases hinput with
    | none => cases source <;> exact .refuse _
    | some hinput =>
      cases source with
      | none => exact .refuse _
      | some source =>
        simp only [Node.reaction, BinaryNode.reaction]
        cases BinaryNode.sideOf? { node with held := none } source with
        | none => exact .refuse _
        | some side => exact .hold _ side hinput
  | @holding node heldSide held held' h =>
    cases hinput with
    | none => cases source <;> exact .refuse _
    | some hinput =>
      cases source with
      | none => exact .refuse _
      | some source =>
        have hside : BinaryNode.sideOf? { node with held := some (heldSide, held') } source =
          BinaryNode.sideOf? { node with held := some (heldSide, held) } source := rfl
        simp only [Node.reaction, BinaryNode.reaction, hside]
        cases BinaryNode.sideOf? { node with held := some (heldSide, held) } source with
        | none => exact .refuse _
        | some side =>
          dsimp only
          split
          · exact .refuse _
          · exact .combine node side heldSide h hinput

end Staging

end StagedArrays
