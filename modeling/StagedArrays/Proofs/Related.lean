import Mathlib.Data.List.Forall2

namespace StagedArrays

section Members

variable {α β γ κ : Type} {R : α → β → Prop} {xs : List α} {ys : List β} {x : α}

/-- Each member of the first list is related to one of the second. It stands at
    the same place. -/
theorem exists_of_forall₂_of_mem (h : List.Forall₂ R xs ys) (hmem : x ∈ xs) : ∃ y ∈ ys, R x y := by
  obtain ⟨index, hlt, rfl⟩ := List.getElem_of_mem hmem
  have hlt' : index < ys.length := h.length_eq ▸ hlt
  exact ⟨ys[index], List.getElem_mem hlt', h.get hlt hlt'⟩

/-- What follows for each pair holds of all members of the first list. The
    second list only serves as evidence. -/
theorem forall_of_forall₂ {P : α → Prop} (h : List.Forall₂ R xs ys) (hP : ∀ x y, R x y → P x) : ∀ x ∈ xs, P x := by
  intro x hmem
  obtain ⟨y, -, hxy⟩ := exists_of_forall₂_of_mem h hmem
  exact hP x y hxy

/-- Related lists have related members at each position, or both have none
    there. -/
theorem rel_getElem? (h : List.Forall₂ R xs ys) (index : Nat) : Option.Rel R xs[index]? ys[index]? := by
  induction h generalizing index with
  | nil => simp
  | cons hxy _ ih =>
    cases index with
    | zero => exact .some hxy
    | succ index => exact ih index

/-- Searches for what is related find the same place. The two tests have to
    agree on related members. -/
theorem rel_find?_zipIdx {p : α → Bool} {q : β → Bool} (h : List.Forall₂ R xs ys) (hpq : ∀ x y, R x y → p x = q y)
    (start : Nat) : Option.Rel (fun x y => R x.1 y.1 ∧ x.2 = y.2) ((xs.zipIdx start).find? fun x => p x.1)
      ((ys.zipIdx start).find? fun y => q y.1) := by
  induction h generalizing start with
  | nil => exact .none
  | @cons x y xs ys hxy _ ih =>
    rw [List.zipIdx_cons, List.zipIdx_cons, List.find?_cons, List.find?_cons]
    dsimp only
    rw [← hpq x y hxy]
    cases p x with
    | true => exact .some ⟨hxy, rfl⟩
    | false => exact ih (start + 1)

/-- Changing one position in each of two related lists keeps them related if the
    changes keep the members so. -/
theorem forall₂_modify {f : α → α} {g : β → β} (h : List.Forall₂ R xs ys) (hfg : ∀ x y, R x y → R (f x) (g y))
    (index : Nat) : List.Forall₂ R (xs.modify index f) (ys.modify index g) := by
  induction h generalizing index with
  | nil => simp
  | cons hxy htail ih =>
    cases index with
    | zero => exact .cons (hfg _ _ hxy) htail
    | succ index => exact .cons hxy (ih index)

/-- Related members stand side by side. Inductions over related lists get hold
    of the pair in this way. -/
theorem forall₂_and_mem_zip (h : List.Forall₂ R xs ys) : List.Forall₂ (fun x y => R x y ∧ (x, y) ∈ xs.zip ys) xs ys :=
  List.forall₂_iff_zip.mpr ⟨h.length_eq, fun hmem => ⟨List.forall₂_zip h hmem, hmem⟩⟩

/-- Related lists stay so where the same keys are written before their
    members. -/
theorem forall₂_zip_left (h : List.Forall₂ R xs ys) (keys : List κ) :
    List.Forall₂ (fun pair pair' => pair'.1 = pair.1 ∧ R pair.2 pair'.2) (keys.zip xs) (keys.zip ys) := by
  induction h generalizing keys with
  | nil => simp
  | cons hxy _ ih =>
    cases keys with
    | nil => exact .nil
    | cons key keys => exact .cons ⟨rfl, hxy⟩ (ih keys)

/-- Each member of a list has a partner in a list of the same length. -/
theorem exists_mem_zip (hmem : x ∈ xs) (hlength : ys.length = xs.length) : ∃ y, (x, y) ∈ xs.zip ys := by
  obtain ⟨index, hlt, rfl⟩ := List.getElem_of_mem hmem
  have hlt' : index < ys.length := hlength ▸ hlt
  exact ⟨ys[index], List.mem_iff_getElem?.mpr ⟨index, List.getElem?_zip_eq_some.mpr
    ⟨List.getElem?_eq_getElem hlt, List.getElem?_eq_getElem hlt'⟩⟩⟩

/-- What is related to a member on either side stands side by side, for a member
    of the list in the middle. -/
theorem exists_mem_zip_of_forall₂ {S : β → γ → Prop} {zs : List γ} (h : List.Forall₂ R xs ys) (h' : List.Forall₂ S ys zs)
    {y : β} (hmem : y ∈ ys) : ∃ pair ∈ xs.zip zs, R pair.1 y ∧ S y pair.2 := by
  induction h generalizing zs with
  | nil => cases hmem
  | cons hxy _ ih =>
    cases h' with
    | cons hyz hrest =>
      rcases List.mem_cons.mp hmem with rfl | hmem
      · exact ⟨_, List.mem_cons_self, hxy, hyz⟩
      · obtain ⟨pair, hpair, hpairs⟩ := ih hrest hmem
        exact ⟨pair, List.mem_cons_of_mem _ hpair, hpairs⟩

end Members

section Lookup

variable {κ α β : Type} [DecidableEq κ] {R : α → β → Prop} {xs : List (κ × α)} {ys : List (κ × β)} {key : κ} {x : α}

/-- Association lists with the same keys and related values give related results
    for every key. -/
theorem rel_lookup (h : List.Forall₂ (fun x y => y.1 = x.1 ∧ R x.2 y.2) xs ys) (key : κ) :
    Option.Rel R (xs.lookup key) (ys.lookup key) := by
  induction h with
  | nil => exact .none
  | @cons x y xs ys hxy _ ih =>
    obtain ⟨key', x⟩ := x
    obtain ⟨key'', y⟩ := y
    obtain ⟨hkey, hxy⟩ := hxy
    rw [List.lookup_cons, List.lookup_cons, show key'' = key' from hkey]
    cases key == key' with
    | true => exact .some hxy
    | false => exact ih

/-- Where no key comes twice, every pair is found. A key that came twice would
    hide the later pairs. -/
theorem lookup_eq_some_of_mem (hkeys : (xs.map Prod.fst).Nodup) (hmem : (key, x) ∈ xs) : xs.lookup key = some x := by
  induction xs with
  | nil => cases hmem
  | cons head xs ih =>
    obtain ⟨hnew, hkeys⟩ := List.nodup_cons.mp hkeys
    rw [List.lookup_cons]
    rcases List.mem_cons.mp hmem with rfl | hmem
    · rw [beq_self_eq_true]
    · have hne : key ≠ head.1 := fun heq => hnew (heq ▸ List.mem_map_of_mem hmem)
      rw [beq_false_of_ne hne]
      exact ih hkeys hmem

end Lookup

end StagedArrays
