import Billing.Keyed
import Mathlib.Data.List.Nodup

set_option autoImplicit false

/-! # Lists with keys

The elements of a list have keys. Where no two of them have the same one, a key has one element at
most: it is the first one that is found, and it is taken out by leaving out what has the key. To put
an element keeps the keys distinct, and what is found under another key is what was found before
(`Keyed.find?_put_of_ne`).
-/

namespace Billing

variable {α : Type} {key : α → String} {xs : List α} {k other : String}

theorem mem_of_find?_key {x : α} (h : (xs.find? fun y => key y == k) = some x) :
    x ∈ xs ∧ key x = k :=
  ⟨List.mem_of_find?_eq_some h, by simpa using List.find?_some h⟩

/-- In a list without repeated keys at most one element has a key. -/
theorem filter_key (h : (xs.map key).Nodup) (k : String) :
    (xs.filter fun x => key x == k) = (xs.find? fun x => key x == k).toList := by
  induction xs with
  | nil => rfl
  | cons x xs ih =>
      rw [List.map_cons, List.nodup_cons] at h
      by_cases hx : key x = k
      · -- the key has been used up by the first element
        have hrest : (xs.filter fun x => key x == k) = [] := by
          rw [List.filter_eq_nil_iff]
          intro y hy heq
          exact h.1 (List.mem_map.2 ⟨y, hy, (beq_iff_eq.1 heq).trans hx.symm⟩)
        simp [hx, hrest]
      · simpa [hx] using ih h.2

theorem find?_key_self (h : (xs.map key).Nodup) {x : α} (hx : x ∈ xs) :
    (xs.find? fun y => key y == key x) = some x := by
  cases hfind : xs.find? fun y => key y == key x with
  | none => exact absurd (beq_self_eq_true (key x)) (List.find?_eq_none.1 hfind x hx)
  | some y =>
      obtain ⟨hy, hkey⟩ := mem_of_find?_key hfind
      rw [List.inj_on_of_nodup_map h hy hx hkey]

/-- What is found under a key is the element that has it. -/
theorem find?_key_eq_some_iff (h : (xs.map key).Nodup) {x : α} :
    (xs.find? fun y => key y == k) = some x ↔ x ∈ xs ∧ key x = k := by
  refine ⟨mem_of_find?_key, ?_⟩
  rintro ⟨hx, rfl⟩
  exact find?_key_self h hx

/-- In a list of pairs, what is found under a key is what is listed with it. -/
theorem find?_pair_eq_some_iff {β : Type} {xs : List (String × β)} (h : (xs.map Prod.fst).Nodup)
    {b : β} : (xs.find? fun e => e.1 == k).map Prod.snd = some b ↔ (k, b) ∈ xs := by
  rw [Option.map_eq_some_iff]
  constructor
  · rintro ⟨e, hfound, rfl⟩
    obtain ⟨he, rfl⟩ := (find?_key_eq_some_iff h).1 hfound
    exact he
  · intro hmem
    exact ⟨(k, b), (find?_key_eq_some_iff h).2 ⟨hmem, rfl⟩, rfl⟩

/-- Elements with distinct keys are erased where they are left out. -/
theorem eraseP_key (h : (xs.map key).Nodup) (k : String) :
    (xs.eraseP fun x => key x == k) = xs.filter fun x => key x != k := by
  induction xs with
  | nil => rfl
  | cons x xs ih =>
      rw [List.map_cons, List.nodup_cons] at h
      by_cases hx : key x = k
      · -- no later element has the key again
        have hrest : (xs.filter fun x => key x != k) = xs := by
          rw [List.filter_eq_self]
          intro y hy
          rw [bne_iff_ne]
          intro heq
          exact h.1 (hx ▸ heq ▸ List.mem_map_of_mem hy)
        simp [hx, hrest]
      · simpa [List.eraseP_cons, hx] using ih h.2

theorem find?_filter_key_self (key : α → String) (k : String) (xs : List α) :
    ((xs.filter fun x => key x != k).find? fun x => key x == k) = none := by
  simp

theorem find?_filter_key_of_ne (h : other ≠ k) :
    ((xs.filter fun x => key x != k).find? fun x => key x == other) =
      xs.find? fun x => key x == other := by
  rw [List.find?_filter]
  refine congrArg xs.find? (funext fun x => ?_)
  by_cases hx : key x = other <;> simp [hx, h]

/-! ## Elements that are put -/

/-- Values stay distinct when an element is put in the place of the one with its key, if no element
with another key has the value of the new one. -/
theorem nodup_map_of_replaced {γ : Type} {value : α → γ} {ys : List α} {new : α}
    (hkeys : (ys.map key).Nodup) (hvalues : (xs.map value).Nodup)
    (hmem : ∀ y ∈ ys, y = new ∨ y ∈ xs)
    (hfree : ∀ x ∈ xs, key x ≠ key new → value x ≠ value new) : (ys.map value).Nodup := by
  -- whatever has the value of the new element has its key too, and is the new element
  have hnew (hin : new ∈ ys) : ∀ x ∈ ys, x ∈ xs → value x = value new → x = new := by
    intro x hx hold heq
    have hkey : key x = key new := by
      by_contra hne
      exact hfree x hold hne heq
    exact List.inj_on_of_nodup_map hkeys hx hin hkey
  refine (List.nodup_map_iff_inj_on (List.Nodup.of_map key hkeys)).2 ?_
  intro x hx y hy heq
  rcases hmem x hx with rfl | hx'
  · rcases hmem y hy with rfl | hy'
    · rfl
    · exact (hnew hx y hy hy' heq.symm).symm
  · rcases hmem y hy with rfl | hy'
    · exact hnew hy x hx hx' heq
    · exact List.inj_on_of_nodup_map hvalues hx' hy' heq

namespace Keyed

variable {new : α}

theorem mem_put {x : α} (h : x ∈ put key new xs) : x = new ∨ x ∈ xs := by
  induction xs with
  | nil => exact .inl (List.mem_singleton.1 h)
  | cons y xs ih =>
      rw [put] at h
      split at h
      · exact (List.mem_cons.1 h).imp_right (List.mem_cons_of_mem _)
      · rcases List.mem_cons.1 h with rfl | h
        · exact .inr List.mem_cons_self
        · exact (ih h).imp_right (List.mem_cons_of_mem _)

/-- Where there is no element with its key, an element goes to the end. -/
theorem put_of_absent (h : ∀ x ∈ xs, key x ≠ key new) : put key new xs = xs ++ [new] := by
  induction xs with
  | nil => rfl
  | cons x xs ih =>
      rw [List.forall_mem_cons] at h
      rw [put, if_neg (by simpa using h.1), ih h.2, List.cons_append]

/-- A key that is already there stays in its place, and a new one comes last. -/
theorem map_key_put (key : α → String) (new : α) (xs : List α) :
    (put key new xs).map key =
      if key new ∈ xs.map key then xs.map key else xs.map key ++ [key new] := by
  induction xs with
  | nil => rfl
  | cons x xs ih =>
      rw [put]
      by_cases h : key x = key new
      · simp [h]
      · have h' : key new ≠ key x := fun heq => h heq.symm
        simp only [beq_iff_eq, h, if_false, List.map_cons, ih, List.mem_cons, h', false_or]
        split <;> simp

theorem nodup_put (new : α) (h : (xs.map key).Nodup) : ((put key new xs).map key).Nodup := by
  rw [map_key_put]
  split
  · exact h
  · rw [List.nodup_append]
    refine ⟨h, List.nodup_singleton _, ?_⟩
    rintro a ha b hb rfl
    obtain rfl := List.mem_singleton.1 hb
    contradiction

theorem find?_put_self (key : α → String) (new : α) (xs : List α) :
    ((put key new xs).find? fun x => key x == key new) = some new := by
  induction xs with
  | nil => simp [put]
  | cons x xs ih =>
      rw [put]
      by_cases h : key x = key new
      · simp [h]
      · simpa [h] using ih

theorem find?_put_of_ne (h : other ≠ key new) (xs : List α) :
    ((put key new xs).find? fun x => key x == other) = xs.find? fun x => key x == other := by
  induction xs with
  | nil => simp [put, h.symm]
  | cons x xs ih =>
      rw [put]
      -- whether the element is replaced, looked for, or neither
      by_cases hx : key x = key new
      · simp [hx, h.symm]
      · by_cases hother : key x = other
        · simp [hother, h]
        · simpa [hx, hother] using ih

end Keyed

end Billing
