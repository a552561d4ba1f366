import Parley.Document.Languages

/-!
# Choosing among selectors

Several registrations may name one method; the document decides which of them apply.

- `routed`: all that match, in their order.
- `chosen`: the one that matches most closely; of several the first.

Both take the registrations as they are, with a function that gives the selector of each.
-/

namespace Parley

variable {α : Type}

/-- The items whose selector matches a document. -/
def matching (selector : α → Selector) (d : Document) (items : List α) : List α :=
  items.filter fun x => (selector x).accepts d

/-- The first of the items that match a document with the greatest specificity. `top` is the best
one so far. -/
def closest (selector : α → Selector) (d : Document) : Option (Nat × α) → List α → Option (Nat × α)
  | top, [] => top
  | top, x :: xs =>
    match (selector x).best? d with
    | none => closest selector d top xs
    | some score =>
      match top with
      | none => closest selector d (some (score, x)) xs
      | some (best, y) =>
        if best < score then closest selector d (some (score, x)) xs
        else closest selector d (some (best, y)) xs

/-- The items that apply to the document that params are about. -/
def routed (selector : α → Selector) (ls : Languages) (params : Json) (items : List α) : List α :=
  match ls.identify params with
  | none => []
  | some d => matching selector d items

/-- The item that answers a request about the document that params are about. -/
def chosen (selector : α → Selector) (ls : Languages) (params : Json) (items : List α) :
    Option α :=
  match ls.identify params with
  | none => none
  | some d => (closest selector d none items).map Prod.snd

end Parley
