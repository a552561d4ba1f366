import Parley.Network.Basic

/-!
# Registrations in a network

- `Retraction.chain`: has something done before whatever is done already when a registration is
  taken back.
- `Network.register`: registers a descriptor.
- `Network.unregister`: takes a registration back, which works once.
-/

namespace Parley

namespace Retraction

/-- Has something done when a registration is taken back, before what was to be done so far. Only
the first of them finds nothing there. -/
def chain (actions : Option (List Retraction)) (action : Retraction) : Option (List Retraction) :=
  match actions with
  | none => some [action]
  | some previous => some (action :: previous)

/-- What hooks come to that are added one after the other. -/
def chainAll (hooks : List Retraction) : Option (List Retraction) :=
  hooks.foldl chain none

theorem foldl_chain (previous hooks : List Retraction) :
    hooks.foldl chain (some previous) = some (hooks.reverse ++ previous) := by
  induction hooks generalizing previous with
  | nil => rfl
  | cons hook hooks ih =>
    rw [List.foldl_cons, chain, ih, List.reverse_cons, List.append_assoc]
    rfl

/-- **The hook that was added last comes first**, and without hooks there is nothing to be done. -/
theorem chainAll_eq (hooks : List Retraction) :
    chainAll hooks = if hooks.isEmpty then none else some hooks.reverse := by
  cases hooks with
  | nil => rfl
  | cons hook hooks =>
    rw [chainAll, List.foldl_cons, chain, foldl_chain, List.reverse_cons]
    rfl

/-- What is added behind the hooks is done before all of them. -/
theorem chain_chainAll (hooks : List Retraction) (action : Retraction) :
    chain (chainAll hooks) action = some (action :: hooks.reverse) := by
  rw [chainAll_eq]
  cases hooks <;> rfl

end Retraction

namespace Network

/-- Registers a plain handler at a dispatcher. -/
def handle (w : Network) (d : Nat) (method : String) (h : Handler) : Except CallError Network :=
  match w.dispatchers[d]? with
  | none => .ok w
  | some x => (x.handle method h).map fun x => w.modifyDispatcher d fun _ => x

/-- Registers a descriptor at a dispatcher, and gives the number of the registration. The hooks are
in the order in which they were added, and its removal is added behind them. -/
def register (w : Network) (d : Nat) (descriptor : Descriptor) (hooks : List Retraction) :
    Except CallError (Nat × Network) :=
  let serial := w.registrations.length
  let actions := Retraction.chain (Retraction.chainAll hooks) .remove
  let registration : Registration := ⟨descriptor, d, actions⟩
  match w.dispatchers[d]? with
  | none => .ok (serial, { w with registrations := w.registrations ++ [registration] })
  | some x =>
    (x.register ⟨serial, descriptor⟩).map fun x =>
      (serial, { w.modifyDispatcher d (fun _ => x) with
        registrations := w.registrations ++ [registration] })

/-- Keeps a descriptor that is not registered. Without hooks there is nothing to take back. -/
def keep (w : Network) (d : Nat) (descriptor : Descriptor) (hooks : List Retraction) :
    Nat × Network :=
  (w.registrations.length,
    { w with
      registrations := w.registrations ++ [⟨descriptor, d, Retraction.chainAll hooks⟩] })

/-- Does one thing that taking back the registration with a number asks for. -/
def retract (serial dispatcher : Nat) (w : Network) : Retraction → Network
  | .remove => w.modifyDispatcher dispatcher fun d => if d.gone then d else d.remove serial
  | .hook name counts =>
    let left := counts.bind fun (d, method) =>
      (w.dispatchers[d]?).map fun x => (x.entriesFor method).length
    w.emit (.reported (.hook name left))

/-- Takes a registration back; tells whether it was the first time. -/
def unregister (w : Network) (serial : Nat) : Bool × Network :=
  match w.registrations[serial]? with
  | none => (false, w)
  | some x =>
    match x.actions with
    | none => (false, w)
    | some actions =>
      let w := { w with
        registrations := w.registrations.modify serial fun x => { x with actions := none } }
      (true, actions.foldl (retract serial x.dispatcher) w)

/-- Whether a hook that may still run counts what is left at a dispatcher. -/
def isCounted (w : Network) (d : Nat) : Bool :=
  w.registrations.any fun x => x.actions.any fun actions => actions.any fun
    | .hook _ (some (e, _)) => e = d
    | _ => false

/-- Lets a dispatcher go. It is gone unless a connection or a hook still holds it. -/
def dropDispatcher (w : Network) (d : Nat) : Network :=
  if w.conns.any (·.dispatcher = some d) || w.isCounted d then w
  else w.modifyDispatcher d fun x => { x with gone := true }

/-- Takes back all registrations for a method of a dispatcher. -/
def unregisterAll (w : Network) (d : Nat) (method : String) : Network :=
  let serials := ((w.dispatchers[d]?).map fun x => (x.entriesFor method).map Entry.serial).getD []
  serials.foldl (fun w s => (w.unregister s).2) w

end Network

end Parley
