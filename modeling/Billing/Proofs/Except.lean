import Mathlib.Data.List.Forall2

set_option autoImplicit false

/-! # Computations that can fail

How a chain of computations that can fail ends: `bind_eq_ok_iff` takes a chain that succeeds apart,
and `mapM_eq_ok_iff` a computation on every element of a list. Two computations with different
results can still end alike, with the same error or without one (`Except.outcome`).
-/

namespace Except

variable {ε α β : Type}

@[simp] theorem ok_bind (a : α) (f : α → Except ε β) : ((.ok a : Except ε α) >>= f) = f a := rfl

@[simp] theorem error_bind (e : ε) (f : α → Except ε β) :
    ((.error e : Except ε α) >>= f) = .error e := rfl

@[simp] theorem pure_eq_ok (a : α) : (pure a : Except ε α) = .ok a := rfl

@[simp] theorem throw_eq_error (e : ε) : (throw e : Except ε α) = .error e := rfl

theorem bind_eq_ok_iff {x : Except ε α} {f : α → Except ε β} {b : β} :
    (x >>= f) = .ok b ↔ ∃ a, x = .ok a ∧ f a = .ok b := by
  cases x <;> simp

theorem map_eq_ok_iff {x : Except ε α} {f : α → β} {b : β} :
    x.map f = .ok b ↔ ∃ a, x = .ok a ∧ f a = b := by
  cases x <;> simp [Except.map]

theorem toOption_eq_none_iff {x : Except ε α} : x.toOption = none ↔ ∃ e, x = .error e := by
  cases x <;> simp [Except.toOption]

theorem toOption_eq_some_iff {x : Except ε α} {a : α} : x.toOption = some a ↔ x = .ok a := by
  cases x <;> simp [Except.toOption]

theorem mapM_eq_ok_iff {f : α → Except ε β} {xs : List α} {ys : List β} :
    xs.mapM f = .ok ys ↔ List.Forall₂ (fun x y => f x = .ok y) xs ys := by
  induction xs generalizing ys with
  | nil => cases ys <;> simp
  | cons x xs ih =>
      rw [List.mapM_cons, bind_eq_ok_iff, List.forall₂_cons_left_iff]
      constructor
      · rintro ⟨y, hy, h⟩
        obtain ⟨ys', hys, rfl⟩ := by simpa [bind_eq_ok_iff] using h
        exact ⟨y, ys', hy, ih.1 hys, rfl⟩
      · rintro ⟨y, ys', hy, hys, rfl⟩
        exact ⟨y, hy, by simp [ih.2 hys]⟩

/-- What is known of each result is known of all of them, in their order. -/
theorem map_eq_of_mapM {γ : Type} {f : α → Except ε β} {g : β → γ} {k : α → γ} {xs : List α}
    {ys : List β} (h : xs.mapM f = .ok ys) (hg : ∀ x y, f x = .ok y → g y = k x) :
    ys.map g = xs.map k := by
  have hall : List.Forall₂ (fun x y => k x = g y) xs ys :=
    (mapM_eq_ok_iff.1 h).imp fun x y hxy => (hg x y hxy).symm
  rw [eq_comm, ← List.forall₂_eq_eq_eq]
  exact List.forall₂_map_left_iff.2 (List.forall₂_map_right_iff.2 hall)

theorem exists_mapM_eq_ok {f : α → Except ε β} {xs : List α} (h : ∀ x ∈ xs, ∃ y, f x = .ok y) :
    ∃ ys, xs.mapM f = .ok ys := by
  induction xs with
  | nil => exact ⟨[], rfl⟩
  | cons x xs ih =>
      obtain ⟨y, hy⟩ := h x List.mem_cons_self
      obtain ⟨ys, hys⟩ := ih fun z hz => h z (List.mem_cons_of_mem _ hz)
      exact ⟨y :: ys, by simp [List.mapM_cons, hy, hys]⟩

theorem exists_mapM_eq_ok_iff {f : α → Except ε β} {xs : List α} :
    (∃ ys, xs.mapM f = .ok ys) ↔ ∀ x ∈ xs, ∃ y, f x = .ok y := by
  refine ⟨fun ⟨ys, h⟩ => ?_, exists_mapM_eq_ok⟩
  have hall : List.Forall₂ (fun x y => (∃ y, f x = .ok y) ∧ f x = .ok y) xs ys :=
    (mapM_eq_ok_iff.1 h).imp fun x y hxy => ⟨⟨y, hxy⟩, hxy⟩
  exact ((List.forall₂_and_left _ _).1 hall).1

/-- What a computation on a list fails with, it fails with on one of the elements. -/
theorem exists_of_mapM_eq_error {f : α → Except ε β} {xs : List α} {e : ε}
    (h : xs.mapM f = .error e) : ∃ x ∈ xs, f x = .error e := by
  induction xs with
  | nil => cases h
  | cons x xs ih =>
      rw [List.mapM_cons] at h
      cases hf : f x with
      | error e' =>
          rw [hf, error_bind] at h
          exact ⟨x, List.mem_cons_self, hf.trans (congrArg _ (Except.error.inj h))⟩
      | ok y =>
          cases hfs : xs.mapM f with
          | error e' =>
              rw [hf, ok_bind, hfs, error_bind] at h
              obtain ⟨z, hz, hfz⟩ := ih (hfs.trans (congrArg _ (Except.error.inj h)))
              exact ⟨z, List.mem_cons_of_mem _ hz, hfz⟩
          | ok ys =>
              rw [hf, ok_bind, hfs] at h
              cases h

/-- An error of one computation on a list is that of another one. On each element, the other one has
it where the first one does, and where the first one succeeds, it succeeds or has it, too. -/
theorem mapM_eq_error {f g : α → Except ε β} {xs : List α} {e : ε}
    (hok : ∀ x ∈ xs, (∃ y, g x = .ok y) → (∃ y, f x = .ok y) ∨ f x = .error e)
    (herror : ∀ x ∈ xs, g x = .error e → f x = .error e) (h : xs.mapM g = .error e) :
    xs.mapM f = .error e := by
  induction xs with
  | nil => cases h
  | cons x xs ih =>
      have hrest := ih (fun y hy => hok y (List.mem_cons_of_mem _ hy))
        fun y hy => herror y (List.mem_cons_of_mem _ hy)
      rw [List.mapM_cons] at h ⊢
      cases hg : g x with
      | error e' =>
          rw [hg, error_bind] at h
          obtain rfl := Except.error.inj h
          rw [herror x List.mem_cons_self hg, error_bind]
      | ok y =>
          have hgs : xs.mapM g = .error e := by
            rw [hg, ok_bind] at h
            cases hgs : xs.mapM g with
            | error e' =>
                rw [hgs, error_bind] at h
                rw [Except.error.inj h]
            | ok ys =>
                rw [hgs] at h
                cases h
          rcases hok x List.mem_cons_self ⟨y, hg⟩ with ⟨z, hf⟩ | hf
          · rw [hf, ok_bind, hrest hgs, error_bind]
          · rw [hf, error_bind]

/-! ## Outcomes -/

/-- How a computation ends, whatever its result is. -/
def outcome (x : Except ε α) : Except ε Unit := x.map fun _ => ()

@[simp] theorem outcome_ok (a : α) : (.ok a : Except ε α).outcome = .ok () := rfl

@[simp] theorem outcome_error (e : ε) : (.error e : Except ε α).outcome = .error e := rfl

@[simp] theorem outcome_map (x : Except ε α) (f : α → β) : (x.map f).outcome = x.outcome := by
  cases x <;> rfl

theorem outcome_eq_ok_iff {x : Except ε α} : x.outcome = .ok () ↔ ∃ a, x = .ok a := by
  cases x <;> simp

/-- What is known to end in one way, whatever comes before it, ends so. -/
theorem outcome_bind {x : Except ε α} {f : α → Except ε β} {u : Except ε Unit}
    (h : ∀ a, (f a).outcome = u) : (x >>= f).outcome = x.outcome >>= fun _ => u := by
  cases x with
  | error e => rfl
  | ok a => exact h a

theorem outcome_bind_const (x : Except ε α) (y : Except ε β) :
    (x.outcome >>= fun _ => y) = x >>= fun _ => y := by
  cases x <;> rfl

theorem outcome_mapM_cons (f : α → Except ε β) (x : α) (xs : List α) :
    ((x :: xs).mapM f).outcome = (f x).outcome >>= fun _ => (xs.mapM f).outcome := by
  rw [List.mapM_cons]
  refine outcome_bind fun y => ?_
  cases xs.mapM f <;> rfl

/-- Two computations on the elements of a list end alike if they do on each element. -/
theorem outcome_mapM_congr {f g : α → Except ε β} {xs : List α}
    (h : ∀ x ∈ xs, (f x).outcome = (g x).outcome) : (xs.mapM f).outcome = (xs.mapM g).outcome := by
  induction xs with
  | nil => rfl
  | cons x xs ih =>
      rw [outcome_mapM_cons, outcome_mapM_cons, h x List.mem_cons_self,
        ih fun y hy => h y (List.mem_cons_of_mem _ hy)]

end Except
