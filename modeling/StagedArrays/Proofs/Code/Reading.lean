import Mathlib.Data.List.Nodup
import StagedArrays.Code.Document

namespace StagedArrays

/-- What reading yields: exactly `x`, provided that `p` holds, and otherwise
    nothing. -/
def Document.Reads {α : Type} (outcome : Option α) (x : α) (p : Prop) : Prop :=
  ∀ y, outcome = some y ↔ p ∧ y = x

namespace Document

variable {α β : Type} {outcome : Option α} {x : α} {y : β} {p q : Prop}

namespace Reads

theorem eq_some (h : Reads outcome x p) (hp : p) : outcome = some x := (h x).mpr ⟨hp, rfl⟩

theorem eq_some_iff (h : Reads outcome x p) : outcome = some x ↔ p := by simp [h x]

/-- Nothing else is read. So a document stands for one thing or for nothing. -/
theorem eq_none (h : Reads outcome x p) (hne : outcome ≠ some x) : outcome = none := by
  rw [Option.eq_none_iff_forall_ne_some]
  intro y hy
  obtain ⟨-, rfl⟩ := (h y).mp hy
  exact hne hy

theorem congr (h : Reads outcome x p) (hiff : p ↔ q) : Reads outcome x q :=
  fun y => (h y).trans (and_congr_left' hiff)

theorem of_eq_some (h : outcome = some x) : Reads outcome x True := by
  intro y
  rw [h, true_and, Option.some_inj, eq_comm]

theorem pure (x : α) : Reads (some x) x True := of_eq_some rfl

/-- Nothing is read of what is not readable. -/
theorem nothing (hp : ¬p) : Reads none x p := by
  intro y
  simp [hp]

/-- What is read first has to be readable, and then the rest. The conditions of
    the two add up. -/
theorem bind {next : α → Option β} (h : Reads outcome x p) (hnext : Reads (next x) y q) :
    Reads (outcome >>= next) y (p ∧ q) := by
  intro z
  rw [Option.bind_eq_bind, Option.bind_eq_some_iff, and_assoc, ← hnext z]
  constructor
  · rintro ⟨x', hx, hz⟩
    obtain ⟨hp, rfl⟩ := (h x').mp hx
    exact ⟨hp, hz⟩
  · rintro ⟨hp, hz⟩
    exact ⟨x, h.eq_some hp, hz⟩

/-- What is certain to be read does not count. The condition is that of the rest
    alone. -/
theorem after {next : α → Option β} (h : outcome = some x) (hnext : Reads (next x) y q) :
    Reads (outcome >>= next) y q :=
  ((of_eq_some h).bind hnext).congr (iff_of_eq (true_and q))

/-- A check that reports nothing but its own failure reads back as the condition
    it checks. -/
theorem of_guard [Decidable p] : Reads (guard p) () p := by
  by_cases hp : p
  · exact (of_eq_some (if_pos hp)).congr (by simp [hp])
  · rw [guard, if_neg hp]
    exact nothing hp

theorem map (f : α → β) (h : Reads outcome x p) : Reads (outcome.map f) (f x) p := by
  rw [Option.map_eq_bind]
  exact (h.bind (pure (f x))).congr (iff_of_eq (and_true p))

end Reads

/-- Each field of a record of different names is found by its name. -/
theorem field?_eq_some {fields : List (String × Document)} (hnodup : (fields.map Prod.fst).Nodup)
    {field : String × Document} (hmem : field ∈ fields) : field? fields field.1 = some field.2 := by
  rw [field?, Option.map_eq_some_iff]
  obtain ⟨found, hfound⟩ : ∃ found, fields.find? (fun entry => entry.1 == field.1) = some found :=
    Option.isSome_iff_exists.mp (List.find?_isSome.mpr ⟨field, hmem, beq_self_eq_true field.1⟩)
  have hsame : found.1 = field.1 := by simpa using List.find?_some hfound
  exact ⟨found, hfound, congrArg Prod.snd (List.inj_on_of_nodup_map hnodup (List.mem_of_find?_eq_some hfound) hmem hsame)⟩

/-- The contents of a record, written under different names, are found by these
    names. -/
theorem fields?_record {names : List (String × Bool)} {fields : List (String × Document)}
    (hnames : names.map Prod.fst = fields.map Prod.fst) (hnodup : (names.map Prod.fst).Nodup) :
    (record fields).fields? names = some (fields.map Prod.snd) := by
  have hfound : ∀ field ∈ fields, field? fields field.1 = some field.2 :=
    fun field => field?_eq_some (hnames ▸ hnodup)
  change names.mapM _ = _
  generalize field? fields = find at hfound
  clear hnodup
  induction fields generalizing names with
  | nil =>
    obtain rfl := List.map_eq_nil_iff.mp hnames
    rfl
  | cons field rest ih =>
    obtain ⟨⟨name, optional⟩, names, rfl, rfl, hrest⟩ := List.map_eq_cons_iff.mp hnames
    have hfirst : find field.1 = some field.2 := hfound field List.mem_cons_self
    have htail := ih hrest fun other hmem => hfound other (List.mem_cons_of_mem _ hmem)
    rw [List.mapM_cons, htail]
    dsimp only
    rw [hfirst]
    rfl

/-- A number within the bits that are read is read back as itself. Larger ones
    are refused. -/
theorem nat?_ofNat {bits n : Nat} (h : n < 1 <<< bits) : (ofNat n).nat? bits = some n := by
  have hrange : (0 : Int) ≤ n ∧ (n : Int) ≤ ((1 <<< bits : Nat) : Int) - 1 := by omega
  rw [nat?, ofNat, int?, if_pos hrange]
  rfl

/-- A list is read if each of its items is. -/
theorem Reads.list {write : α → Document} {read : Document → Option α} {good : α → Prop} {items : List α}
    (h : ∀ x ∈ items, Reads (read (write x)) x (good x)) :
    Reads ((ofList write items).list? read) items (∀ x ∈ items, good x) := by
  change Reads ((items.map write).mapM read) items _
  induction items with
  | nil => exact (Reads.pure []).congr (by simp)
  | cons item rest ih =>
    obtain ⟨hitem, hrest⟩ := List.forall_mem_cons.mp h
    rw [List.map_cons, List.mapM_cons]
    refine Reads.congr (.bind hitem (.bind (ih hrest) (.pure (item :: rest)))) ?_
    rw [and_true, List.forall_mem_cons]

/-- What is optional is read if it is absent, or else readable. Nothing that is
    written must look as though it were absent. -/
theorem Reads.option {write : α → Document} {read : Document → Option α} {good : α → Prop}
    (hnull : ∀ x, write x ≠ .null) {o : Option α} (h : ∀ x ∈ o, Reads (read (write x)) x (good x)) :
    Reads ((ofOption write o).option? read) o (∀ x ∈ o, good x) := by
  cases o with
  | none => exact (Reads.pure none).congr (by simp)
  | some x =>
    have hread : (ofOption write (some x)).option? read = (read (write x)).map some := by
      rw [ofOption, option?]
      exact hnull x
    rw [hread]
    exact ((h x rfl).map some).congr (by simp)

theorem list?_ofList {write : α → Document} {read : Document → Option α} {items : List α}
    (h : ∀ x ∈ items, read (write x) = some x) : (ofList write items).list? read = some items :=
  (Reads.list fun x hmem => Reads.of_eq_some (h x hmem)).eq_some fun _ _ => trivial

end Document

end StagedArrays
