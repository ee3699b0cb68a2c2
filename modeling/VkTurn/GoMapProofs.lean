import Mathlib.Data.List.Basic
import Mathlib.Tactic

/-! # Go maps

    A finite map as the list of its entries, no key twice.  `get` of a missing
    key is `none`, where Go gives the zero value. -/

namespace GoMap

variable {K V : Type} [DecidableEq K]

/-- A `map[K]V`. -/
abbrev Map (K V : Type) := List (K × V)

/-- `m[k]`. -/
def get (m : Map K V) (k : K) : Option V :=
  (m.find? fun e => e.1 = k).map Prod.snd

/-- `delete(m, k)`. -/
def delete (m : Map K V) (k : K) : Map K V := m.filter fun e => e.1 ≠ k

/-- `m[k] = v`. -/
def insert (m : Map K V) (k : K) (v : V) : Map K V := (k, v) :: delete m k

/-- The first entry of a key counts. -/
theorem get_cons (e : K × V) (m : Map K V) (k : K) :
    get (e :: m) k = if e.1 = k then some e.2 else get m k := by
  rw [get, List.find?_cons]
  by_cases h : e.1 = k
  · simp only [h, decide_true, if_true, Option.map_some]
  · simp only [h, decide_false, if_false]
    rfl

/-- A deleted key is missing, the others stay. -/
theorem get_delete (m : Map K V) (k k' : K) :
    get (delete m k) k' = if k' = k then none else get m k' := by
  induction m with
  | nil => simp [delete, get]
  | cons e m ih =>
      rw [delete, List.filter_cons]
      by_cases he : e.1 = k
      · -- the entry goes
        rw [if_neg (by simp [he])]
        by_cases hk : k' = k
        · rw [if_pos hk] at ih ⊢
          exact ih
        · rw [if_neg hk] at ih ⊢
          rw [get_cons, if_neg (fun h => hk (h.symm.trans he))]
          exact ih
      · -- the entry stays
        rw [if_pos (by simp [he]), get_cons]
        by_cases hk : k' = k
        · rw [if_pos hk] at ih ⊢
          rw [if_neg (fun h => he (h.trans hk))]
          exact ih
        · rw [if_neg hk] at ih ⊢
          rw [get_cons]
          by_cases hek : e.1 = k'
          · rw [if_pos hek, if_pos hek]
          · rw [if_neg hek, if_neg hek]
            exact ih

/-- A key that is set has its value, the others keep theirs. -/
theorem get_insert (m : Map K V) (k k' : K) (v : V) :
    get (insert m k v) k' = if k' = k then some v else get m k' := by
  rw [insert, get_cons, get_delete]
  by_cases h : k' = k
  · rw [if_pos h.symm, if_pos h]
  · rw [if_neg (fun e => h e.symm), if_neg h, if_neg h]

/-! ## Entries -/

/-- The keys of a map. -/
def keys (m : Map K V) : List K := m.map Prod.fst

theorem keys_delete_sublist (m : Map K V) (k : K) : (keys (delete m k)).Sublist (keys m) :=
  List.Sublist.map _ List.filter_sublist

theorem not_mem_keys_delete (m : Map K V) (k : K) : k ∉ keys (delete m k) := by
  intro h
  obtain ⟨e, he, hk⟩ := List.mem_map.mp h
  exact of_decide_eq_true (List.mem_filter.mp he).2 hk

theorem delete_of_not_mem {m : Map K V} {k : K} (h : k ∉ keys m) : delete m k = m := by
  refine List.filter_eq_self.mpr ?_
  intro e he
  refine decide_eq_true ?_
  intro hk
  exact h (List.mem_map.mpr ⟨e, he, hk⟩)

theorem keys_nodup_delete {m : Map K V} (h : (keys m).Nodup) (k : K) :
    (keys (delete m k)).Nodup :=
  h.sublist (keys_delete_sublist m k)

/-- No key twice, also after an assignment. -/
theorem keys_nodup_insert {m : Map K V} (h : (keys m).Nodup) (k : K) (v : V) :
    (keys (insert m k v)).Nodup :=
  List.nodup_cons.mpr ⟨not_mem_keys_delete m k, keys_nodup_delete h k⟩

/-- A key without entry. -/
theorem get_eq_none {m : Map K V} {k : K} (h : k ∉ keys m) : get m k = none := by
  induction m with
  | nil => rfl
  | cons e m ih =>
      have hne : e.1 ≠ k := fun hk => h (List.mem_cons.mpr (Or.inl hk.symm))
      rw [get_cons, if_neg hne]
      exact ih fun hk => h (List.mem_cons_of_mem _ hk)

/-- An entry is what its key is bound to. -/
theorem get_of_mem {m : Map K V} (h : (keys m).Nodup) {k : K} {v : V} (hm : (k, v) ∈ m) :
    get m k = some v := by
  induction m with
  | nil => cases hm
  | cons e m ih =>
      obtain ⟨hout, hnodup⟩ := List.nodup_cons.mp h
      rw [get_cons]
      rcases List.mem_cons.mp hm with rfl | hrest
      · rw [if_pos rfl]
      · rw [if_neg, ih hnodup hrest]
        rintro rfl
        exact hout (List.mem_map.mpr ⟨_, hrest, rfl⟩)

/-- Deleting a key takes its value off the sum of the map. -/
theorem sum_delete {m : Map K Int} (h : (keys m).Nodup) (k : K) :
    ((delete m k).map Prod.snd).sum + (get m k).getD 0 = (m.map Prod.snd).sum := by
  induction m with
  | nil => rfl
  | cons e m ih =>
      obtain ⟨hout, hnodup⟩ := List.nodup_cons.mp h
      have ih := ih hnodup
      rw [delete, List.filter_cons, get_cons]
      by_cases he : e.1 = k
      · -- the entry goes, and no other one has its key
        subst he
        rw [get_eq_none hout, Option.getD_none, add_zero] at ih
        rw [if_neg (by simp), if_pos rfl, Option.getD_some, List.map_cons, List.sum_cons]
        rw [delete] at ih
        omega
      · rw [if_pos (by simp [he]), if_neg he, List.map_cons, List.sum_cons, List.map_cons,
          List.sum_cons]
        rw [delete] at ih
        omega

end GoMap
