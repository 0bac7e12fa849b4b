set_option autoImplicit false

/-! # Lists with keys

A list whose elements have keys can be updated by key: an element that is put takes the place of
the first one with its key.
-/

namespace Billing.Keyed

/-- Puts an element in the place of the first one with its key, or at the end if there is none. -/
def put {α : Type} (key : α → String) (x : α) : List α → List α
  | [] => [x]
  | y :: ys => if key y == key x then x :: ys else y :: put key x ys

end Billing.Keyed
