import Mathlib.Data.List.Forall2
import StagedArrays.Kernel.Interleaved
import StagedArrays.Proofs.Kernel.Dot

namespace StagedArrays

namespace DotArithmetic

variable {α : Type} {arithmetic : DotArithmetic α} {terms : List α} {sum : α}

/-- A sum goes on with one product after another. They are added from the
    left. -/
theorem Sums.addProducts (h : arithmetic.Sums terms sum) (xs ys : List α) :
    arithmetic.Sums (terms ++ arithmetic.products xs ys) (arithmetic.addProducts sum xs ys) := by
  induction xs generalizing terms sum ys with
  | nil => simpa [products, DotArithmetic.addProducts] using h
  | cons x xs ih =>
    cases ys with
    | nil => simpa [products, DotArithmetic.addProducts] using h
    | cons y ys => simpa [products, DotArithmetic.addProducts] using ih (h.term (arithmetic.mul x y)) ys

/-- A sum goes on with one sum after another. -/
theorem Sums.foldl (h : arithmetic.Sums terms sum) {parts : List (List α)} {sums : List α}
    (hparts : List.Forall₂ arithmetic.Sums parts sums) :
    arithmetic.Sums (terms ++ parts.flatten) (sums.foldl arithmetic.add sum) := by
  induction hparts generalizing terms sum with
  | nil => simpa using h
  | cons hpart _ ih => simpa using ih (h.add hpart)

/-- Sums of parts that are added in pairs are sums of the joined parts. This is
    how the partial sums of the lanes come together. -/
theorem Sums.zipWith_add {parts others : List (List α)} {sums totals : List α} (h : List.Forall₂ arithmetic.Sums parts sums)
    (h' : List.Forall₂ arithmetic.Sums others totals) :
    List.Forall₂ arithmetic.Sums (List.zipWith (· ++ ·) parts others) (List.zipWith arithmetic.add sums totals) := by
  induction h generalizing others totals with
  | nil => exact .nil
  | cons hpart _ ih =>
    cases h' with
    | nil => exact .nil
    | cons hother h' => exact .cons (hpart.add hother) (ih h')

/-- Each of several sums goes on with a term of its own. These are the sums that
    are run side by side. -/
theorem Sums.zipWith_term {parts : List (List α)} {sums : List α} (h : List.Forall₂ arithmetic.Sums parts sums)
    (xs : List α) : List.Forall₂ arithmetic.Sums (List.zipWith (· ++ ·) parts (xs.map fun x => [x]))
      (List.zipWith arithmetic.add sums xs) := by
  induction h generalizing xs with
  | nil => exact .nil
  | cons hpart _ ih =>
    cases xs with
    | nil => exact .nil
    | cons x xs => exact .cons (hpart.term x) (ih xs)

theorem forall₂_zeros (count : Nat) :
    List.Forall₂ arithmetic.Sums (List.replicate count []) (List.replicate count arithmetic.zero) := by
  induction count with
  | zero => exact .nil
  | succ count ih => exact .cons .zero ih

/-- Lists put together in pairs have the same members as before. -/
theorem flatten_zipWith_append {parts others : List (List α)} (h : parts.length = others.length) :
    (List.zipWith (· ++ ·) parts others).flatten.Perm (parts.flatten ++ others.flatten) := by
  induction parts generalizing others with
  | nil =>
    obtain rfl : others = [] := List.length_eq_zero_iff.mp h.symm
    rfl
  | cons part parts ih =>
    obtain ⟨other, others, rfl⟩ := List.exists_cons_of_length_eq_add_one h.symm
    simp only [List.zipWith_cons_cons, List.flatten_cons, List.append_assoc]
    refine List.Perm.append_left part ?_
    refine (List.Perm.append_left other (ih (Nat.succ.inj h))).trans ?_
    rw [← List.append_assoc, ← List.append_assoc]
    exact List.perm_append_comm.append_right _

/-- Whole blocks of eight are added to eight sums, the k-th product of each to
    the k-th. -/
theorem exists_laneSums (blocks : Nat) {parts : List (List α)} {lanes xs ys : List α}
    (h : List.Forall₂ arithmetic.Sums parts lanes) (hlanes : lanes.length = 8) (hlength : xs.length = ys.length)
    (hblocks : 8 * blocks ≤ xs.length) :
    ∃ parts', List.Forall₂ arithmetic.Sums parts' (arithmetic.laneSums blocks lanes xs ys).1 ∧ parts'.length = 8 ∧
      (parts'.flatten ++ arithmetic.products (arithmetic.laneSums blocks lanes xs ys).2.1
        (arithmetic.laneSums blocks lanes xs ys).2.2).Perm (parts.flatten ++ arithmetic.products xs ys) := by
  induction blocks generalizing parts lanes xs ys with
  | zero => exact ⟨parts, h, h.length_eq.trans hlanes, .refl _⟩
  | succ blocks ih =>
    have hfirst : (arithmetic.products (xs.take 8) (ys.take 8)).length = 8 := by
      rw [products, List.length_zipWith, List.length_take, List.length_take]
      omega
    have hsplit : arithmetic.products xs ys =
        arithmetic.products (xs.take 8) (ys.take 8) ++ arithmetic.products (xs.drop 8) (ys.drop 8) := by
      rw [products, products, products, ← List.zipWith_append (by simp [hlength]), List.take_append_drop, List.take_append_drop]
    have hnext := Sums.zipWith_term h (arithmetic.products (xs.take 8) (ys.take 8))
    obtain ⟨parts', hparts', hcount, hperm⟩ := @ih _ _ (xs.drop 8) (ys.drop 8) hnext
      (by rw [List.length_zipWith, hlanes, hfirst]; rfl) (by rw [List.length_drop, List.length_drop, hlength])
      (by rw [List.length_drop]; omega)
    refine ⟨parts', hparts', hcount, hperm.trans ?_⟩
    have hsame : parts.length = ((arithmetic.products (xs.take 8) (ys.take 8)).map fun x => [x]).length := by
      rw [List.length_map, hfirst, h.length_eq, hlanes]
    have hone := flatten_zipWith_append hsame
    rw [← List.flatMap_def, List.flatMap_singleton'] at hone
    rw [hsplit, ← List.append_assoc]
    exact hone.append_right _

/-- The faster summation of gapless sequences takes in each product once. -/
theorem sums_packedDot {xs ys : List α} (hlength : xs.length = ys.length) :
    arithmetic.Sums (arithmetic.products xs ys) (arithmetic.packedDot xs ys) := by
  obtain ⟨parts, hparts, hcount, hperm⟩ := exists_laneSums (min xs.length ys.length / 8) (forall₂_zeros 8)
    List.length_replicate hlength (by omega)
  have hpairs := Sums.zipWith_add (List.forall₂_take 4 hparts) (List.forall₂_drop 4 hparts)
  refine .perm (.trans (.append_right _ ?_) hperm) ((Sums.zero.foldl hpairs).addProducts _ _)
  have hsame : (parts.take 4).length = (parts.drop 4).length := by
    rw [List.length_take, List.length_drop, hcount]
    rfl
  have hhalves := flatten_zipWith_append hsame
  rwa [← List.flatten_append, List.take_append_drop] at hhalves

theorem sums_stridedDot (xs ys : List α) : arithmetic.Sums (arithmetic.products xs ys) (arithmetic.stridedDot xs ys) :=
  Sums.zero.addProducts xs ys

end DotArithmetic

namespace ArrayLibrary

/-- A view is granted if it stays inside its slice and the bytes of the slice
    can be counted by a signed word. -/
theorem grantInside_eq_ok {bytes length count increment : Nat} (hbytes : length * bytes < Word.bound / 2)
    (hinside : 0 < count → (count - 1) * increment < length) : grantInside bytes length count increment = .ok () := by
  have hlast : (count - 1) * increment ≤ length := by
    rcases Nat.eq_zero_or_pos count with rfl | hpos
    · rw [Nat.zero_sub, Nat.zero_mul]
      exact Nat.zero_le _
    · exact Nat.le_of_lt (hinside hpos)
  have hmul := Nat.mul_le_mul_right bytes hlast
  have hhalf : Word.bound / 2 = 9223372036854775808 := by decide
  have hmax : Int64.maxValue.toInt = 9223372036854775807 := by decide
  rw [grantInside, if_neg (by rw [hmax, ← Int.natCast_mul]; omega), if_neg]
  rintro ⟨hpos, hle⟩
  exact Nat.lt_irrefl _ (Nat.lt_of_lt_of_le (hinside hpos) hle)

/-- The library with interleaved sums is as documented: either of its summations
    starts from zero and takes in each product once. -/
theorem lawful_interleaved : Lawful where
  grant_eq_ok _ hbytes hinside := grantInside_eq_ok hbytes hinside
  sums_dot arithmetic x y hlength := by
    change arithmetic.Sums _ (if x.Gapless ∧ y.Gapless then _ else _)
    split
    · exact DotArithmetic.sums_packedDot hlength
    · exact DotArithmetic.sums_stridedDot x.elements y.elements

end ArrayLibrary

end StagedArrays
