import Parley.Network.Registry
import Parley.Proofs.Sending

/-!
# Registrations, as moves

Whatever is registered or taken back, no dispatcher is bound to another connection by it, forgets a
request that is being served or a document that is open, or lets a handler for notifications serve
requests.

- `Network.aside_modifyDispatcher`: such a change is a move.
- `Network.aside_handle`, `Network.aside_register`, `Network.aside_unregister`, …: the
  registrations.
-/

namespace Parley

namespace Dispatcher

theorem Keeps.refl (x : Dispatcher) : Keeps x x := ⟨rfl, rfl, rfl, .refl _, id⟩

theorem keeps_handle {x y : Dispatcher} {method : String} {h : Handler}
    (hy : x.handle method h = .ok y) : Keeps x y := by
  -- The kinds of the tables: a handler goes into the table of its own kind.
  have add : ∀ {b : Bool} {ps : List (String × Handler)}, h.kind.isRequest = b →
      (∀ p ∈ ps, p.2.kind.isRequest = b) →
      ∀ p ∈ ps ++ [(method, h)], p.2.kind.isRequest = b := by
    intro b ps hk hps p hp
    rcases List.mem_append.mp hp with hp | hp
    · exact hps p hp
    · obtain rfl := List.mem_singleton.mp hp
      exact hk
  rw [handle] at hy
  split at hy
  · next hk =>
    split at hy
    · cases hy
    · obtain rfl := Except.ok.inj hy
      exact ⟨rfl, rfl, rfl, .refl _, fun ht => ⟨add hk ht.requests, ht.notifications⟩⟩
  · next hk =>
    split at hy
    · cases hy
    · obtain rfl := Except.ok.inj hy
      exact ⟨rfl, rfl, rfl, .refl _,
        fun ht => ⟨ht.requests, add (Bool.eq_false_iff.mpr hk) ht.notifications⟩⟩

theorem register_eq_ok {x y : Dispatcher} {e : Entry} (hy : x.register e = .ok y) :
    y = { x with entries := x.entries ++ [e] } := by
  rw [register] at hy
  split at hy
  · cases hy
  · exact (Except.ok.inj hy).symm

end Dispatcher

namespace Network

variable {w w' : Network} {d : Nat}

/-! ## Dispatchers -/

theorem aside_modifyDispatcher {f : Dispatcher → Dispatcher}
    (hf : ∀ x, w.dispatchers[d]? = some x → x.Keeps (f x)) :
    Aside w (w.modifyDispatcher d f) := by
  refine ⟨?_, rfl, rfl, rfl⟩
  cases hx : w.dispatchers[d]? with
  | none =>
    rw [modifyDispatcher, modify_eq_of_none hx]
    exact .refl w
  | some x =>
    rw [modifyDispatcher, modify_eq_set hx]
    exact .single (.arrange hx (hf x hx))

theorem aside_registrations (rs : List Registration) (h : w.registrations.length ≤ rs.length) :
    Aside w { w with registrations := rs } :=
  ⟨.single (.surroundings w.pipes rs w.openGates w.gateQueue h), rfl, rfl, rfl⟩

/-! ## Registrations -/

theorem aside_handle {method : String} {h : Handler} (hw : w.handle d method h = .ok w') :
    Aside w w' := by
  rw [handle] at hw
  split at hw
  · obtain rfl := Except.ok.inj hw
    exact .refl w
  · next x hx =>
    cases hy : x.handle method h with
    | error e => simp [hy, Except.map] at hw
    | ok y =>
      obtain rfl : w.modifyDispatcher d (fun _ => y) = w' := by simpa [hy, Except.map] using hw
      refine aside_modifyDispatcher fun x' hx' => ?_
      obtain rfl := Option.some.inj (hx.symm.trans hx')
      exact Dispatcher.keeps_handle hy

/-- A descriptor is registered if its key is new for its method. -/
theorem register_of_new {x : Dispatcher} (hx : w.dispatchers[d]? = some x) (descriptor : Descriptor)
    (hooks : List Retraction)
    (hn : ∀ e ∈ x.entries,
      e.descriptor.method ≠ descriptor.method ∨ e.descriptor.key ≠ descriptor.key) :
    w.register d descriptor hooks = .ok (w.registrations.length, { w with
      dispatchers := w.dispatchers.set d
        { x with entries := x.entries ++ [⟨w.registrations.length, descriptor⟩] }
      registrations := w.registrations ++
        [⟨descriptor, d, some (.remove :: hooks.reverse)⟩] }) := by
  have hr : x.register ⟨w.registrations.length, descriptor⟩ =
      .ok { x with entries := x.entries ++ [⟨w.registrations.length, descriptor⟩] } := by
    rw [Dispatcher.register, if_neg]
    rw [Bool.not_eq_true, List.any_eq_false]
    intro e he h
    simp only [Bool.and_eq_true, beq_iff_eq] at h
    exact (hn e he).elim (fun hm => hm h.1) fun hk => hk h.2
  rw [Network.register, hx]
  simp only [hr, Except.map, modifyDispatcher, modify_eq_set hx, Retraction.chain_chainAll]

theorem aside_register {n : Nat} {descriptor : Descriptor} {hooks : List Retraction}
    (hw : w.register d descriptor hooks = .ok (n, w')) : Aside w w' := by
  simp only [register] at hw
  split at hw
  · obtain ⟨-, rfl⟩ := Prod.mk.inj (Except.ok.inj hw)
    exact aside_registrations _ (by simp)
  · next x hx =>
    cases hy : x.register ⟨w.registrations.length, descriptor⟩ with
    | error e => simp [hy, Except.map] at hw
    | ok y =>
      obtain rfl := Dispatcher.register_eq_ok hy
      simp only [hy, Except.map, Except.ok.injEq, Prod.mk.injEq] at hw
      obtain ⟨-, rfl⟩ := hw
      rw [modifyDispatcher, modify_eq_set hx]
      exact ⟨.single (.register descriptor _ hx), rfl, rfl, rfl⟩

theorem aside_retract (serial d : Nat) (w : Network) (a : Retraction) :
    Aside w (retract serial d w a) := by
  cases a with
  | remove =>
    refine aside_modifyDispatcher fun x _ => ?_
    split
    · exact .refl x
    · exact ⟨rfl, rfl, rfl, List.filter_sublist, fun ht => ⟨ht.requests, ht.notifications⟩⟩
  | hook name counts => exact aside_remark w rfl

theorem aside_unregister (w : Network) (serial : Nat) : Aside w (w.unregister serial).2 := by
  rw [unregister]
  split
  · exact .refl w
  · split
    · exact .refl w
    · have hl := List.length_modify (fun x => { x with actions := none }) w.registrations serial
      exact (aside_registrations _ (Nat.le_of_eq hl.symm)).trans
        (Aside.foldl (aside_retract serial _) _ _)

theorem aside_unregisterAll (w : Network) (d : Nat) (method : String) :
    Aside w (w.unregisterAll d method) :=
  Aside.foldl (fun w s => aside_unregister w s) w _

theorem aside_dropDispatcher (w : Network) (d : Nat) : Aside w (w.dropDispatcher d) := by
  rw [dropDispatcher]
  split
  · exact .refl w
  · exact aside_modifyDispatcher fun x _ =>
      ⟨rfl, rfl, rfl, .refl _, fun ht => ⟨ht.requests, ht.notifications⟩⟩

end Network

end Parley
