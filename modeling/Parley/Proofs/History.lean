import Parley.Network.Event

/-!
# The history of one connection

The journal of a network grows at its front. What it says about one connection is read off by
projections, and each of them takes what is new and what was there apart.

- `Event.concerns`: whether an event is about a connection.
- `Journal.isBroken`: whether writing to the stream of a connection ever failed.
- `Journal.accepted_append`, `Journal.written_append`, …: a projection of a journal that has grown.
-/

namespace Parley

/-- Whether an event is about a connection: its messages, its bytes, its end, or the handlers that
serve its messages. -/
def Event.concerns (c : Nat) : Event → Bool
  | .accepted d _ | .received d _ | .wrote d _ | .cut d _ | .broke d | .spawned _ d _
  | .unserved d _ _ _ | .finished _ d _ _ => d = c
  | .stream _ _ | .logged _ | .reported _ | .started _ | .ended _ _ | .dropped _
  | .stranded _ => false

namespace Journal

/-- Whether writing to the stream of a connection ever failed. -/
def isBroken (c : Nat) : Journal → Bool
  | [] => false
  | .broke d :: j => d = c || isBroken c j
  | _ :: j => isBroken c j

/-! ## What is new and what was there -/

/-- The messages accepted later come after those accepted before. -/
theorem accepted_append (c : Nat) (es j : Journal) :
    accepted c (es ++ j) = accepted c j ++ accepted c es := by
  induction es with
  | nil => simp [accepted]
  | cons e es ih =>
    cases e with
    | accepted d m => by_cases h : d = c <;> simp [accepted, h, ih]
    | _ => simpa [accepted] using ih

/-- The messages received later come after those received before. -/
theorem received_append (c : Nat) (es j : Journal) :
    received c (es ++ j) = received c j ++ received c es := by
  induction es with
  | nil => simp [received]
  | cons e es ih =>
    cases e with
    | received d m => by_cases h : d = c <;> simp [received, h, ih]
    | _ => simpa [received] using ih

/-- The bytes written later come after those written before. -/
theorem written_append (c : Nat) (es j : Journal) :
    written c (es ++ j) = written c j ++ written c es := by
  induction es with
  | nil => simp [written]
  | cons e es ih =>
    cases e with
    | wrote d bs => by_cases h : d = c <;> simp [written, h, ih]
    | _ => simpa [written] using ih

/-- Cuts are appended like messages. -/
theorem cuts_append (c : Nat) (es j : Journal) : cuts c (es ++ j) = cuts c j ++ cuts c es := by
  induction es with
  | nil => simp [cuts]
  | cons e es ih =>
    cases e with
    | cut d flush => by_cases h : d = c <;> simp [cuts, h, ih]
    | _ => simpa [cuts] using ih

/-- A connection is broken if it broke before or later. -/
theorem isBroken_append (c : Nat) (es j : Journal) :
    isBroken c (es ++ j) = (isBroken c es || isBroken c j) := by
  induction es with
  | nil => simp [isBroken]
  | cons e es ih =>
    cases e with
    | broke d => simp [isBroken, ih, Bool.or_assoc]
    | _ => simpa [isBroken] using ih

/-! ## Events about something else -/

section elsewhere

variable {c : Nat} {e : Event} (h : e.concerns c = false) (j : Journal)

include h

/-- Events elsewhere accept nothing here. -/
theorem accepted_elsewhere : accepted c (e :: j) = accepted c j := by
  cases e <;> simp_all [accepted, Event.concerns]

/-- Events elsewhere receive nothing here. -/
theorem received_elsewhere : received c (e :: j) = received c j := by
  cases e <;> simp_all [received, Event.concerns]

/-- Events elsewhere write nothing here. -/
theorem written_elsewhere : written c (e :: j) = written c j := by
  cases e <;> simp_all [written, Event.concerns]

/-- Events elsewhere cut nothing here. -/
theorem cuts_elsewhere : cuts c (e :: j) = cuts c j := by
  cases e <;> simp_all [cuts, Event.concerns]

/-- Events elsewhere break nothing here. -/
theorem isBroken_elsewhere : isBroken c (e :: j) = isBroken c j := by
  cases e <;> simp_all [isBroken, Event.concerns]

end elsewhere

section none

variable {c : Nat} {j : Journal} (h : ∀ e ∈ j, e.concerns c = false)

include h

/-- A projection of a journal that says nothing about a connection is that of an empty one. -/
theorem eq_of_elsewhere {α : Type} {f : Journal → α}
    (hf : ∀ {e}, e.concerns c = false → ∀ j, f (e :: j) = f j) : f j = f [] := by
  induction j with
  | nil => rfl
  | cons e j ih =>
    rw [hf (h e List.mem_cons_self)]
    exact ih fun e he => h e (List.mem_cons_of_mem _ he)

/-- A connection that no event concerns has accepted nothing. -/
theorem accepted_eq_nil : accepted c j = [] := eq_of_elsewhere h accepted_elsewhere

/-- It has received nothing. -/
theorem received_eq_nil : received c j = [] := eq_of_elsewhere h received_elsewhere

/-- It has written nothing. -/
theorem written_eq_nil : written c j = [] := eq_of_elsewhere h written_elsewhere

/-- It has not been cut. -/
theorem cuts_eq_nil : cuts c j = [] := eq_of_elsewhere h cuts_elsewhere

/-- It has not been broken. -/
theorem isBroken_eq_false : isBroken c j = false := eq_of_elsewhere h isBroken_elsewhere

end none

end Journal

end Parley
