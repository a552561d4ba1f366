import Parley.Proofs.Dispatchers
import Parley.Proofs.Tables

/-!
# The chronicle of what was registered

What is registered in a network depends on what was asked for about it, by users and by handlers,
and on nothing else. This is written down in the order in which it was asked for, with the answers.

- `Network.Chronicle`: a network has come about by what is written down.
- `Network.Chronicle.run`: every use of a network has such a chronicle, and it holds all that users
  were told.
- `Minutes.standing`: the descriptors that stand by what is written down.
- `Network.Chronicle.since`: what every part of a chronicle keeps.
-/

namespace Parley

/-- What was asked for, with the answers, in order. -/
abbrev Minutes := List (Action × Answer)

namespace Minutes

/-- What a request for a registration, with its answer, makes of the descriptors that stand at a
dispatcher. -/
def post (d : Nat) : List Entry → Action × Answer → List Entry
  | es, (.openDispatcher, .made e) => if e = d then [] else es
  | es, (.register e descriptor _, .made n) => if e = d then es ++ [⟨n, descriptor⟩] else es
  | es, (.unregister n, _) => es.filter fun e => e.serial != n
  | es, _ => es

/-- The descriptors that were registered at a dispatcher since it was made, and were not taken back
since, in the order of their registration. -/
def standing (d : Nat) (ms : Minutes) : List Entry := ms.foldl (post d) []

theorem standing_append (d : Nat) (ms ns : Minutes) :
    standing d (ms ++ ns) = ns.foldl (post d) (standing d ms) :=
  List.foldl_append ..

/-- Whether a registration was taken back here. -/
def IsWithdrawal (m : Action × Answer) : Prop := ∃ n b, m = (.unregister n, .flag b)

end Minutes

namespace Network

/-- What users are told who ask for one thing after the other. -/
def transcript (w : Network) : List Action → Minutes
  | [] => []
  | a :: actions => (a, (w.act a).1) :: transcript (w.act a).2 actions

/-- A network that has come about by what is written down. Whatever happens in between leaves alone
what is registered. -/
inductive Chronicle : Minutes → Network → Prop where
  | fresh : Chronicle [] {}
  | filed {ms : Minutes} {w : Network} (h : Chronicle ms w) {a : Action} (ha : a.isFiling = true) :
      Chronicle (ms ++ [(a, (w.act a).1)]) (w.act a).2
  | idle {ms : Minutes} {w w' : Network} (h : Chronicle ms w) (hw : w'.registry = w.registry) :
      Chronicle ms w'

/-! ## What happens between two actions -/

variable {ms : Minutes} {w w' : Network}

/-- A chronicle goes on up to a network, and only tells that registrations are taken back. -/
def GoesOn (ms : Minutes) (w : Network) : Prop :=
  ∃ ns, Chronicle (ms ++ ns) w ∧ ∀ m ∈ ns, Minutes.IsWithdrawal m

theorem Chronicle.goesOn (h : Chronicle ms w) : GoesOn ms w :=
  ⟨[], by rwa [List.append_nil], fun _ hm => absurd hm List.not_mem_nil⟩

namespace GoesOn

theorem idle (h : GoesOn ms w) (hw : w'.registry = w.registry) : GoesOn ms w' := by
  obtain ⟨ns, hc, hns⟩ := h
  exact ⟨ns, hc.idle hw, hns⟩

theorem unregister (h : GoesOn ms w) (n : Nat) : GoesOn ms (w.unregister n).2 := by
  obtain ⟨ns, hc, hns⟩ := h
  refine ⟨ns ++ [(.unregister n, .flag (w.unregister n).1)], ?_, fun m hm => ?_⟩
  · rw [← List.append_assoc]
    exact hc.filed (a := .unregister n) rfl
  · rcases List.mem_append.mp hm with hm | hm
    · exact hns m hm
    · obtain rfl := List.mem_singleton.mp hm
      exact ⟨n, _, rfl⟩

theorem unregisterAll (h : GoesOn ms w) (d : Nat) (method : String) :
    GoesOn ms (w.unregisterAll d method) := by
  rw [Network.unregisterAll]
  generalize ((w.dispatchers[d]?).map fun x => (x.entriesFor method).map Entry.serial).getD [] = ns
  induction ns generalizing w with
  | nil => exact h
  | cons n ns ih => exact ih (h.unregister n)

theorem takesBack (h : GoesOn ms w) (hw : TakesBack w w') : GoesOn ms w' := by
  rcases hw with hw | ⟨v, d, method, hv, hw⟩
  · exact h.idle hw
  · exact ((h.idle hv).unregisterAll d method).idle hw

end GoesOn

/-- A task may take registrations back when it has its turn, if it is a handler. -/
theorem takesBack_perform (w : Network) (t : Task) : TakesBack w (w.perform t) := by
  cases t with
  | reader c => exact .inl (registry_readLoop w c)
  | writer c => exact .inl (registry_writeLoop c _ w)
  | handler r => exact takesBack_runHandler w r
  | caller k => exact .inl (registry_checkCall w k)

theorem GoesOn.settle (h : GoesOn ms w) (n : Nat) : GoesOn ms (w.settle n) := by
  refine settle_induction (P := GoesOn ms) h (fun {u v} hs hu => ?_) n
  obtain ⟨t, q, -, rfl⟩ := step_eq_some.mp hs
  -- That the task leaves the queue has nothing to do with what is registered.
  exact (hu.idle rfl).takesBack (takesBack_perform _ t)

/-! ## What users ask for -/

/-- An action goes on with the chronicle: if it is about registrations it is written down, else at
most handlers take registrations back. -/
theorem Chronicle.act (h : Chronicle ms w) (a : Action) :
    ∃ ns, Chronicle (ms ++ ns) (w.act a).2 ∧
      ((transcript w [a]).filter (·.1.isFiling)).Sublist ns ∧
      ∀ m ∈ ns, m ∈ transcript w [a] ∨ Minutes.IsWithdrawal m := by
  by_cases ha : a.isFiling = true
  · exact ⟨[(a, (w.act a).1)], h.filed ha, List.filter_sublist, fun m hm => .inl hm⟩
  · -- Nothing is written down but what handlers take back when they have their turns.
    have hon : GoesOn ms (w.act a).2 := by
      by_cases hs : ∃ n, a = .settle n
      · obtain ⟨n, rfl⟩ := hs
        exact h.goesOn.settle n
      · exact h.goesOn.idle (registry_act w (Bool.eq_false_iff.mpr ha) fun n hn => hs ⟨n, hn⟩)
    obtain ⟨ns, hc, hns⟩ := hon
    refine ⟨ns, hc, ?_, fun m hm => .inr (hns m hm)⟩
    simp [transcript, ha]

/-- **Every use of a network has a chronicle.** It holds what users asked for about registrations
and were told, in order, and apart from that only what handlers took back. -/
theorem Chronicle.run (h : Chronicle ms w) (actions : List Action) :
    ∃ ns, Chronicle (ms ++ ns) (run w actions) ∧
      ((transcript w actions).filter (·.1.isFiling)).Sublist ns ∧
      ∀ m ∈ ns, m ∈ transcript w actions ∨ Minutes.IsWithdrawal m := by
  induction actions generalizing ms w with
  | nil =>
    exact ⟨[], by rwa [List.append_nil], .slnil, fun _ hm => absurd hm List.not_mem_nil⟩
  | cons a actions ih =>
    obtain ⟨ns, hc, hsub, hns⟩ := h.act a
    obtain ⟨os, hc', hsub', hos⟩ := ih hc
    have htranscript : transcript w (a :: actions) =
        transcript w [a] ++ transcript (w.act a).2 actions := rfl
    refine ⟨ns ++ os, by rwa [← List.append_assoc], ?_, fun m hm => ?_⟩
    · rw [htranscript, List.filter_append]
      exact hsub.append hsub'
    · rw [htranscript, List.mem_append]
      rcases List.mem_append.mp hm with hm | hm
      · exact (hns m hm).imp_left .inl
      · exact (hos m hm).imp_left .inr

/-- If all that users asked for was about registrations, the chronicle is what they were told. -/
theorem Chronicle.transcript (h : Chronicle ms w) (actions : List Action)
    (ha : ∀ a ∈ actions, a.isFiling = true) :
    Chronicle (ms ++ transcript w actions) (Network.run w actions) := by
  induction actions generalizing ms w with
  | nil => rwa [Network.transcript, List.append_nil]
  | cons a actions ih =>
    obtain ⟨ha, has⟩ := List.forall_mem_cons.mp ha
    rw [Network.transcript, List.append_cons]
    exact ih (h.filed ha) has

/-- What holds after something was written down, and is kept by all that is written down later and
by all that is not, holds of the network that has come about. -/
theorem Chronicle.since {before after : Minutes} {p : Action × Answer}
    {P : Minutes → Network → Prop} (h : Chronicle (before ++ p :: after) w)
    (start : ∀ {v a}, Chronicle before v → a.isFiling = true → p = (a, (v.act a).1) →
      P [] (v.act a).2)
    (filed : ∀ {as v a}, Chronicle (before ++ p :: as) v → a.isFiling = true → P as v →
      P (as ++ [(a, (v.act a).1)]) (v.act a).2)
    (idle : ∀ {as v v'}, v'.registry = v.registry → P as v → P as v') : P after w := by
  generalize hms : before ++ p :: after = ms at h
  induction h generalizing after with
  | fresh => simp at hms
  | @filed ns v hv a ha ih =>
    -- What was written down last is what it all began with, or it came later.
    rcases after.eq_nil_or_concat with rfl | ⟨as, q, rfl⟩
    · obtain ⟨rfl, hp⟩ := List.append_inj' hms rfl
      exact start hv ha (List.singleton_inj.mp hp)
    · rw [List.concat_eq_append] at hms ⊢
      have hms : (before ++ p :: as) ++ [q] = ns ++ [(a, (v.act a).1)] := by simpa using hms
      obtain ⟨rfl, hq⟩ := List.append_inj' hms rfl
      obtain rfl := List.singleton_inj.mp hq
      exact filed hv ha (ih rfl)
  | idle hv hw ih => exact idle hw (ih hms)

end Network

end Parley
