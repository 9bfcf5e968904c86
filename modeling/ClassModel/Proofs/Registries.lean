import ClassModel.Graph.Registry
import Mathlib.Data.List.Perm.Basic
import Mathlib.Data.List.Pairwise

/-!
# Registries in order

Inserting keeps the names of a registry strictly ascending, so an entry is found under its name
exactly if it is there.
-/

namespace ClassModel.Registry

variable {α : Type}

def Sorted (r : Registry α) : Prop := r.Pairwise fun a b => a.1 < b.1

theorem sorted_nil : Sorted ([] : Registry α) := List.Pairwise.nil

theorem mem_of_get? {name : String} {x : α} : ∀ {r : Registry α}, get? r name = some x → (name, x) ∈ r
  | (k, y) :: rest, h => by
    rw [get?] at h
    split at h
    · rename_i hk; cases h; subst hk; exact List.mem_cons_self
    · exact List.mem_cons_of_mem _ (mem_of_get? h)

theorem get?_of_mem {name : String} {x : α} : ∀ {r : Registry α}, Sorted r → (name, x) ∈ r →
    get? r name = some x
  | (k, y) :: rest, hs, h => by
    obtain ⟨hlt, hrest⟩ := List.pairwise_cons.mp hs
    rw [get?]
    cases h with
    | head => simp
    | tail _ h =>
      have hk : k ≠ name := fun e => String.lt_irrefl k (by simpa [e] using hlt _ h)
      rw [if_neg hk]
      exact get?_of_mem hrest h

theorem get?_eq_none_iff {name : String} : ∀ {r : Registry α}, get? r name = none ↔ ∀ e ∈ r, e.1 ≠ name
  | [] => by simp [get?]
  | (k, y) :: rest => by
    rw [get?, List.forall_mem_cons, ← get?_eq_none_iff (r := rest)]
    by_cases hk : k = name <;> simp [hk]

theorem mem_insert_subset {name : String} {x : α} : ∀ {r : Registry α} {e : String × α},
    e ∈ insert name x r → e = (name, x) ∨ e ∈ r
  | [], e, h => by simpa [insert] using h
  | (k, y) :: rest, e, h => by
    rw [insert] at h
    split at h
    · rcases List.mem_cons.mp h with h | h
      · exact .inl h
      · exact .inr (List.mem_cons_of_mem _ h)
    · split at h
      · exact List.mem_cons.mp h
      · rcases List.mem_cons.mp h with h | h
        · exact .inr (h ▸ List.mem_cons_self)
        · exact (mem_insert_subset h).imp_right (List.mem_cons_of_mem _)

theorem sorted_insert (name : String) (x : α) : ∀ {r : Registry α}, Sorted r → Sorted (insert name x r)
  | [], _ => List.pairwise_singleton _ _
  | (k, y) :: rest, hs => by
    obtain ⟨hlt, hrest⟩ := List.pairwise_cons.mp hs
    rw [insert]
    split
    · rename_i hk
      subst hk
      exact List.pairwise_cons.mpr ⟨hlt, hrest⟩
    · split
      · rename_i hk
        refine List.pairwise_cons.mpr ⟨fun e he => ?_, hs⟩
        rcases List.mem_cons.mp he with rfl | he
        · exact hk
        · exact String.lt_trans hk (hlt e he)
      · rename_i hne hk
        have hkn : k < name := by
          rw [String.not_lt] at hk
          exact Decidable.byContradiction fun h => hne (String.le_antisymm (String.not_lt.mp h) hk)
        refine List.pairwise_cons.mpr ⟨fun e he => ?_, sorted_insert name x hrest⟩
        rcases mem_insert_subset he with rfl | he
        · exact hkn
        · exact hlt e he

theorem insert_perm (name : String) (x : α) : ∀ {r : Registry α}, get? r name = none →
    (insert name x r).Perm ((name, x) :: r)
  | [], _ => .refl _
  | (k, y) :: rest, h => by
    rw [get?] at h
    split at h
    · cases h
    · rename_i hk
      rw [insert, if_neg (Ne.symm hk)]
      split
      · exact .refl _
      · exact ((insert_perm name x h).cons _).trans (.swap _ _ _)

theorem mem_erase {r : Registry α} {name : String} {e : String × α} :
    e ∈ erase r name ↔ e ∈ r ∧ e.1 ≠ name := by
  simp [erase]

theorem get?_erase_of_ne {name other : String} (h : other ≠ name) :
    ∀ {r : Registry α}, get? (erase r name) other = get? r other
  | [] => rfl
  | (k, y) :: rest => by
    by_cases hk : k = name
    · subst hk
      rw [erase, List.filter_cons_of_neg (by simp), get?, if_neg h.symm]
      exact get?_erase_of_ne h
    · rw [erase, List.filter_cons_of_pos (by simpa using hk), get?, get?]
      split
      · rfl
      · exact get?_erase_of_ne h

theorem mem_insertNew {name : String} {x : α} {r : Registry α} {e : String × α}
    (h : e ∈ insertNew name x r) : e = (name, x) ∨ e ∈ r := by
  rw [insertNew] at h
  split at h
  · exact .inr h
  · exact mem_insert_subset h

theorem sorted_insertNew {r : Registry α} (hs : Sorted r) (name : String) (x : α) :
    Sorted (insertNew name x r) := by
  rw [insertNew]
  split
  · exact hs
  · exact sorted_insert name x hs

theorem get?_insertNew_of_some {name other : String} {x y : α} {r : Registry α} (h : get? r other = some y) :
    get? (insertNew name x r) other = some y := by
  rw [insertNew]
  split
  · exact h
  · rename_i hn
    rw [get?_insert_of_ne x (fun e => by subst e; simp [h] at hn), h]

theorem mem_values {r : Registry α} {x : α} : x ∈ values r ↔ ∃ name, (name, x) ∈ r := by
  simp [values]

theorem mem_values_insert {name : String} {x y : α} {r : Registry α} (h : y ∈ values (insert name x r)) :
    y = x ∨ y ∈ values r := by
  obtain ⟨k, hk⟩ := mem_values.mp h
  exact (mem_insert_subset hk).imp (congrArg Prod.snd) fun hk => mem_values.mpr ⟨k, hk⟩

theorem mem_values_insertNew {name : String} {x y : α} {r : Registry α} (h : y ∈ values (insertNew name x r)) :
    y = x ∨ y ∈ values r := by
  obtain ⟨k, hk⟩ := mem_values.mp h
  exact (mem_insertNew hk).imp (congrArg Prod.snd) fun hk => mem_values.mpr ⟨k, hk⟩

theorem get?_insert_of_some {name other : String} {x y : α} {r : Registry α} (hn : get? r name = none)
    (h : get? r other = some y) : get? (insert name x r) other = some y := by
  have hne : other ≠ name := by rintro rfl; rw [hn] at h; cases h
  rw [get?_insert_of_ne x hne, h]

/-- What stands under one name only is listed once. -/
theorem count_values [DecidableEq α] {name : String} {x : α} {r : Registry α} (hs : Sorted r) (hx : (name, x) ∈ r)
    (honly : ∀ e ∈ r, e.2 = x → e.1 = name) : (values r).count x = 1 := by
  induction r with
  | nil => cases hx
  | cons e r ih =>
    obtain ⟨hlt, hrest⟩ := List.pairwise_cons.mp hs
    obtain ⟨he, honly⟩ := List.forall_mem_cons.mp honly
    show (e.2 :: values r).count x = 1
    by_cases hex : e.2 = x
    · have hname := he hex
      have hnone : x ∉ values r := by
        intro hmem
        obtain ⟨k, hk⟩ := mem_values.mp hmem
        have hkn := honly _ hk rfl
        have hless := hlt _ hk
        rw [hname, ← hkn] at hless
        exact String.lt_irrefl _ hless
      rw [hex, List.count_cons_self, List.count_eq_zero_of_not_mem hnone]
    · rcases List.mem_cons.mp hx with rfl | hx
      · exact (hex rfl).elim
      · rw [List.count_cons_of_ne hex]
        exact ih hrest hx honly

/-- Where every entry stands under the name of what it holds, the names are ascending. -/
theorem pairwise_values {r : Registry α} (hs : Sorted r) {nameOf : α → String} (h : ∀ e ∈ r, e.1 = nameOf e.2) :
    ((values r).map nameOf).Pairwise (· < ·) := by
  have hnames : (values r).map nameOf = r.map (·.1) := by
    unfold values
    rw [List.map_map]
    exact List.map_congr_left fun e he => (h e he).symm
  rw [hnames]
  exact List.pairwise_map.mpr hs

end ClassModel.Registry
