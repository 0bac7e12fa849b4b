import Mathlib.Tactic
import Billing.Text.Layout

set_option autoImplicit false

/-! # Digits in groups of three

A text is cut into groups, the first of one to three characters and the others of three, and a comma
is put before each group but the first (`Text.exists_grouping`). Without the commas it is the text
again (`Text.filter_joined`).
-/

namespace Billing.Text

/-- A first group of one to three characters, and other groups of three. -/
structure Grouping (first : List Char) (rest : List (List Char)) : Prop where
  first_pos : 0 < first.length
  first_le : first.length ≤ 3
  rest_eq : ∀ g ∈ rest, g.length = 3

/-- Groups with a comma before each of them but the first. -/
def joined (first : List Char) (rest : List (List Char)) : List Char :=
  first ++ rest.flatMap (',' :: ·)

variable {first : List Char} {rest : List (List Char)}

theorem length_flatten_of_three (h : ∀ g ∈ rest, g.length = 3) :
    rest.flatten.length = 3 * rest.length := by
  induction rest with
  | nil => rfl
  | cons g rest ih =>
      have hg := h g List.mem_cons_self
      have hrest := ih fun g hg => h g (List.mem_cons_of_mem _ hg)
      rw [List.flatten_cons, List.length_append, List.length_cons, hg, hrest]
      omega

/-- The commas stand between the groups of a text. -/
theorem exists_grouping {ds : List Char} (h : ds ≠ []) :
    ∃ first rest, Grouping first rest ∧ first ++ rest.flatten = ds ∧
      groupThousands ds = joined first rest := by
  fun_induction groupThousands ds with
  | case1 => exact absurd rfl h
  | case2 d => exact ⟨[d], [], ⟨by simp, by simp, by simp⟩, rfl, rfl⟩
  | case3 d e ds hwhole ih =>
      obtain ⟨first, rest, ⟨hpos, hle, hrest⟩, hflat, hjoined⟩ := ih (by simp)
      -- only whole groups follow, so the first of them is whole, too
      have hlength := congrArg List.length hflat
      rw [List.length_append, length_flatten_of_three hrest, List.length_cons] at hlength
      refine ⟨[d], first :: rest, ⟨by simp, by simp, ?_⟩, ?_, ?_⟩
      · exact List.forall_mem_cons.2 ⟨by omega, hrest⟩
      · rw [List.flatten_cons, hflat, List.singleton_append]
      · rw [hjoined]
        simp [joined]
  | case4 d e ds hpart ih =>
      obtain ⟨first, rest, ⟨hpos, hle, hrest⟩, hflat, hjoined⟩ := ih (by simp)
      have hlength := congrArg List.length hflat
      rw [List.length_append, length_flatten_of_three hrest, List.length_cons] at hlength
      refine ⟨d :: first, rest, ⟨by simp, ?_, hrest⟩, ?_, ?_⟩
      · rw [List.length_cons]
        omega
      · rw [List.cons_append, hflat]
      · rw [hjoined, joined, joined, List.cons_append]

/-- Without the commas the groups are what they were cut from. -/
theorem filter_joined (h : ∀ c ∈ first ++ rest.flatten, c ≠ ',') :
    (joined first rest).filter (· ≠ ',') = first ++ rest.flatten := by
  have hkeep : ∀ cs : List Char, (∀ c ∈ cs, c ≠ ',') → cs.filter (· ≠ ',') = cs :=
    fun cs hcs => List.filter_eq_self.2 fun c hc => decide_eq_true (hcs c hc)
  have hrest : (rest.flatMap (',' :: ·)).filter (· ≠ ',') = rest.flatten := by
    have hgroups : ∀ g ∈ rest, ∀ c ∈ g, c ≠ ',' := fun g hg c hc =>
      h c (List.mem_append_right _ (List.mem_flatten.2 ⟨g, hg, hc⟩))
    clear h
    induction rest with
    | nil => rfl
    | cons g rest ih =>
        have hg := hkeep g (hgroups g List.mem_cons_self)
        have hrest := ih fun g hg => hgroups g (List.mem_cons_of_mem _ hg)
        rw [List.flatMap_cons, List.flatten_cons, List.filter_append, hrest]
        simpa using hg
  rw [joined, List.filter_append, hrest, hkeep first fun c hc => h c (List.mem_append_left _ hc)]

end Billing.Text
