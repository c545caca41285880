import Mathlib.Algebra.Ring.Nat
import Mathlib.Data.List.Basic

/-!
# Counting over lists

When one element of a list is replaced, the old element takes its share of a count or a sum along
and the new one brings its own (`countP_set_of_getElem?`, `sum_map_set_of_getElem?`), and where both
look alike the list does too (`map_set_of_getElem?`). Looking up all places of a list one after the
other goes through the list (`filterMap_range_getElem?`), also if one goes on after its end.
-/

namespace LoadGenerator

variable {α : Type} {l : List α} {i : Nat} {a b : α}

theorem countP_set_of_getElem? {q : α → Bool} (h : l[i]? = some a) :
    (l.set i b).countP q + (if q a then 1 else 0) = l.countP q + (if q b then 1 else 0) := by
  obtain ⟨hlt, rfl⟩ := List.getElem?_eq_some_iff.1 h
  have hle := List.boole_getElem_le_countP (p := q) (h := hlt)
  rw [List.countP_set hlt]
  omega

theorem sum_map_set_of_getElem? {g : α → Nat} (h : l[i]? = some a) :
    ((l.set i b).map g).sum + g a = (l.map g).sum + g b := by
  induction l generalizing i with
  | nil => simp at h
  | cons x xs ih =>
    cases i with
    | zero =>
      simp only [List.getElem?_cons_zero, Option.some.injEq] at h
      subst h
      simp only [List.set_cons_zero, List.map_cons, List.sum_cons]
      omega
    | succ i =>
      have := ih (by simpa using h)
      simp only [List.set_cons_succ, List.map_cons, List.sum_cons]
      omega

theorem map_set_of_getElem? {β : Type} {g : α → β} (h : l[i]? = some a) (hg : g b = g a) :
    (l.set i b).map g = l.map g := by
  refine List.ext_getElem? fun j => ?_
  rw [List.getElem?_map, List.getElem?_map]
  by_cases hj : j = i
  · subst hj
    rw [List.getElem?_set_self (List.getElem?_eq_some_iff.1 h).1, h, Option.map_some, Option.map_some,
      hg]
  · rw [List.getElem?_set_ne fun he => hj he.symm]

theorem filterMap_range_getElem? {β : Type} (l : List α) (g : α → Option β) :
    ((List.range l.length).filterMap fun i => (l[i]?).bind g) = l.filterMap g := by
  induction l with
  | nil => rfl
  | cons x xs ih =>
    rw [List.length_cons, List.range_succ_eq_map, List.filterMap_cons, List.filterMap_map,
      List.filterMap_cons]
    simp only [List.getElem?_cons_zero, Option.bind_some]
    have htail : List.filterMap ((fun i => ((x :: xs)[i]?).bind g) ∘ Nat.succ)
        (List.range xs.length) = xs.filterMap g := by
      rw [← ih]
      rfl
    rw [htail]

theorem filterMap_range_of_le {β : Type} {g : Nat → Option β} {m n : Nat} (h : m ≤ n)
    (hg : ∀ i, m ≤ i → g i = none) : (List.range n).filterMap g = (List.range m).filterMap g := by
  obtain ⟨k, rfl⟩ := Nat.exists_eq_add_of_le h
  have hnone : ((List.range k).map (m + ·)).filterMap g = [] := by
    rw [List.filterMap_eq_nil_iff]
    intro i hi
    obtain ⟨j, -, rfl⟩ := List.mem_map.1 hi
    exact hg _ (Nat.le_add_right m j)
  rw [List.range_add, List.filterMap_append, hnone, List.append_nil]

end LoadGenerator
