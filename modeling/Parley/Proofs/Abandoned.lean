import Mathlib.Data.Finset.Card
import Mathlib.Data.Finset.Range
import Parley.Proofs.Envelope
import Parley.Proofs.Resolution
import Parley.Proofs.Silence

/-!
# Requests that are given up

A call is abandoned if its time is over, or if whoever waits drops it, while it is pending. Its peer
is told then, and the account of this is kept: the cancellations that a connection has accepted for
an identifier are those that somebody sent on purpose, and one for each call that was abandoned.

Where an identifier was given a second time, the call that has lost it may be dropped; then the
request of the call that has it now is taken back, and that one is ousted. Nothing else counts.

- `Network.abandoned`, `Network.stranded`: the calls of one or the other fate.
- `Journal.Withdrawn`, `Network.Ousted`: how the request of a call is taken back.
- `Network.Accounted`: the account.
- `Network.Accounted.abandons`, `Network.Accounted.ends`: a call that ends keeps the account,
  whether it was pending or not; `Network.Accounted.supplants`: so does one that ousts another.
-/

namespace Parley

/-! ## What is counted -/

/-- Whether a call was given up while it was pending. -/
def Fate.isAbandoned : Fate → Bool
  | .expired | .dropped => true
  | _ => false

/-- Whether an event is the end of a call. -/
def Event.Ends (k : Nat) (e : Event) : Prop :=
  e = .dropped k ∨ ∃ o, e = .ended k o

namespace Journal

/-- How many cancellations of an identifier a connection has accepted. -/
def withdrawals (c : Nat) (id : Id) (j : Journal) : Nat :=
  (j.accepted c).count (cancelMessage id)

/-- How a request is taken back: it was sent before, and its call was pending until its time was
over or it was dropped, right after the cancellation was accepted. -/
def Withdrawn (k c : Nat) (id : Id) (j : Journal) : Prop :=
  ∃ (newer : Journal) (e : Event) (older : Journal) (method : String) (params : Json),
    j = newer ++ e :: .accepted c (cancelMessage id) :: older ∧
    (e = .dropped k ∨ e = .ended k (.error (.timedOut method))) ∧
    older.fate k c id = .pending ∧ .request id method params ∈ older.accepted c

end Journal

namespace Network

/-- The calls over a connection under an identifier with a fate of a kind. -/
def fated (p : Fate → Bool) (w : Network) (c : Nat) (id : Id) : Finset Nat :=
  (Finset.range w.keys.length).filter fun k =>
    w.keys[k]? = some (c, id) ∧ p (w.journal.fate k c id) = true

/-- The calls that were abandoned. -/
def abandoned (w : Network) (c : Nat) (id : Id) : Finset Nat := w.fated Fate.isAbandoned c id

/-- The calls that lost their identifier. -/
def stranded (w : Network) (c : Nat) (id : Id) : Finset Nat :=
  w.fated (fun f => f = .stranded) c id

/-- How a request is taken back in place of another one: its call was pending when a call was
dropped that had the same identifier before. -/
def Ousted (w : Network) (n c : Nat) (id : Id) : Prop :=
  ∃ (newer : Journal) (k : Nat) (older : Journal) (method : String) (params : Json),
    w.journal = newer ++ .dropped k :: .accepted c (cancelMessage id) :: .stranded n :: older ∧
    k ≠ n ∧ w.keys[k]? = some (c, id) ∧
    older.fate n c id = .pending ∧ .request id method params ∈ older.accepted c

/-- The account of a network, with all that somebody sent on purpose. -/
structure Accounted (said : List (Nat × Message)) (w : Network) : Prop where
  balance : ∀ c id, ∃ s ⊆ w.stranded c id, (∀ n ∈ s, w.Ousted n c id) ∧
    w.journal.withdrawals c id =
      said.count (c, cancelMessage id) + (w.abandoned c id).card + s.card
  withdrawn : ∀ {k c id}, k ∈ w.abandoned c id → w.journal.Withdrawn k c id
  unborn : ∀ {k c id}, w.keys.length ≤ k → (w.journal.fate k c id).isAbandoned = false

end Network

/-! ## Cancellations -/

/-- The identifier that a cancellation names is read back from it. -/
theorem cancelMessage_id (id : Id) : ∃ params,
    cancelMessage id = .notification cancelMethod params ∧
      Id.ofJson? (params.index "id") = some id :=
  ⟨_, rfl, Id.ofJson?_eq_some.mpr (Json.index_ofMembers _ _)⟩

/-- A cancellation names one request. -/
theorem cancelMessage_inj {id i : Id} : cancelMessage id = cancelMessage i ↔ id = i := by
  refine ⟨fun h => ?_, fun h => h ▸ rfl⟩
  obtain ⟨ps, hp, hid⟩ := cancelMessage_id id
  obtain ⟨qs, hq, hi⟩ := cancelMessage_id i
  obtain ⟨-, rfl⟩ := Message.notification.inj (hp.symm.trans (h.trans hq))
  exact Option.some.inj (hid.symm.trans hi)

/-! ## Fates -/

namespace Fate

variable {k n c : Nat} {id : Id} {f : Fate} {e : Event}

/-- What is silent abandons no call. -/
theorem isAbandoned_after (h : e.isSilent = true) :
    (f.after k c id e).isAbandoned = f.isAbandoned := by
  cases f with
  | unborn =>
    cases e with
    | started => simp only [after]; split <;> rfl
    | _ => rfl
  | pending =>
    cases e with
    | received d m =>
      cases m with
      | reply r => simp only [after]; split <;> rfl
      | _ => rfl
    | cut | stranded => simp only [after]; split <;> rfl
    | ended | dropped => cases h
    | _ => rfl
  | _ => rfl

/-- The end of a call means something only if it is pending. -/
theorem after_ends (he : e.Ends k) (h : n = k → f.isDecided = true) : f.after n c id e = f := by
  by_cases hn : n = k
  · exact after_of_isDecided (h hn) e
  · rcases he with rfl | ⟨o, rfl⟩ <;> cases f <;> simp [after, Ne.symm hn]

/-- Who gives up a call has decided about it. -/
theorem isDecided_of_isAbandoned (h : f.isAbandoned = true) : f.isDecided = true := by
  cases f <;> first | rfl | cases h

/-- Who is told anything about a call that was given up is told that its time is over. -/
theorem outcome_of_isAbandoned {x : Call} {o : Except CallError Json} (h : f.isAbandoned = true)
    (ho : f.outcome x = some o) : o = .error (.timedOut x.method) := by
  cases f with
  | expired => exact (Option.some.inj ho).symm
  | dropped => cases ho
  | _ => cases h

/-- An end that nothing came before is a call given up, or one whose time is over. -/
theorem isAbandoned_after_ends (he : e.Ends k) : (after k c id .pending e).isAbandoned = true := by
  rcases he with rfl | ⟨o, rfl⟩ <;> simp [after, isAbandoned]

end Fate

namespace Journal

variable {k c d : Nat} {id : Id} {es j : Journal} {m : Message}

/-- Silent events give up nothing. -/
theorem isAbandoned_silent (h : ∀ e ∈ es, e.isSilent = true) :
    (Journal.fate k c id (es ++ j)).isAbandoned = (j.fate k c id).isAbandoned := by
  induction es with
  | nil => rfl
  | cons e es ih =>
    rw [List.cons_append, fate, Fate.isAbandoned_after (h e List.mem_cons_self)]
    exact ih fun e he => h e (List.mem_cons_of_mem _ he)

/-- Nor do they take anything back. -/
theorem withdrawals_silent (h : ∀ e ∈ es, e.isSilent = true) :
    Journal.withdrawals c id (es ++ j) = j.withdrawals c id := by
  induction es with
  | nil => rfl
  | cons e es ih =>
    have ih := ih fun e he => h e (List.mem_cons_of_mem _ he)
    have he := h e List.mem_cons_self
    cases e with
    | accepted d m =>
      cases m with
      | notification => cases he
      | _ =>
        rw [← ih, List.cons_append, withdrawals, accepted]
        split <;> simp [withdrawals, cancelMessage]
    | _ => exact ih

/-- A cancellation that a connection accepts is one more, and no other message is. -/
theorem withdrawals_accepted :
    Journal.withdrawals c id (.accepted d m :: j) =
      j.withdrawals c id + [(d, m)].count (c, cancelMessage id) := by
  rw [withdrawals, accepted]
  by_cases hd : d = c
  · subst hd
    simp [withdrawals, List.count_singleton]
  · simp [withdrawals, hd]

/-- Cancellations of different identifiers are told apart. -/
theorem withdrawals_cancelMessage {i : Id} :
    Journal.withdrawals c id (.accepted d (cancelMessage i) :: j) =
      j.withdrawals c id + if d = c ∧ i = id then 1 else 0 := by
  rw [withdrawals_accepted, List.count_singleton]
  simp [cancelMessage_inj]

/-- The end of a call is no cancellation. -/
theorem withdrawals_ends {e : Event} (he : e.Ends k) :
    Journal.withdrawals c id (e :: j) = j.withdrawals c id := by
  rcases he with rfl | ⟨o, rfl⟩ <;> rfl

/-- A call stays withdrawn, whatever follows. -/
theorem Withdrawn.append (h : j.Withdrawn k c id) (es : Journal) :
    Journal.Withdrawn k c id (es ++ j) := by
  obtain ⟨newer, e, older, method, params, hj, h⟩ := h
  exact ⟨es ++ newer, e, older, method, params, by rw [hj, List.append_assoc], h⟩

end Journal

namespace Network

variable {w w' : Network} {p : Fate → Bool} {k n c : Nat} {id : Id} {said : List (Nat × Message)}

/-- The calls of a connection under an identifier, whose fate is one of some. -/
theorem mem_fated :
    k ∈ w.fated p c id ↔ w.keys[k]? = some (c, id) ∧ p (w.journal.fate k c id) = true := by
  rw [fated, Finset.mem_filter, Finset.mem_range, and_iff_right_iff_imp]
  exact fun h => (List.getElem?_eq_some_iff.mp h.1).1

/-- They are the same as long as their fates are. -/
theorem fated_congr (hk : w'.keys = w.keys)
    (hf : ∀ k, w.keys[k]? = some (c, id) →
      p (w'.journal.fate k c id) = p (w.journal.fate k c id)) :
    w'.fated p c id = w.fated p c id := by
  ext k
  rw [mem_fated, mem_fated, hk, and_congr_right_iff]
  exact fun h => by rw [hf k h]

/-- The calls that lost their identifier to another one. -/
theorem mem_stranded :
    k ∈ w.stranded c id ↔ w.keys[k]? = some (c, id) ∧ w.journal.fate k c id = .stranded := by
  rw [stranded, mem_fated, decide_eq_true_iff]

/-! ## What grows -/

section grow

variable {es : Journal}

/-- Who has lost an identifier does not get it back. -/
theorem stranded_subset (hk : w.keys <+: w'.keys) (hj : w'.journal = es ++ w.journal) :
    w.stranded c id ⊆ w'.stranded c id := by
  intro k hm
  obtain ⟨ks, hks⟩ := hk
  obtain ⟨hkey, hf⟩ := mem_stranded.mp hm
  refine mem_stranded.mpr ⟨?_, ?_⟩
  · rw [← hks]
    exact getElem?_append_of_some hkey ks
  · rw [hj, Journal.fate_of_isDecided (by rw [hf]; rfl), hf]

/-- A call that was ousted stays ousted. -/
theorem Ousted.grow (h : w.Ousted n c id) (hk : w.keys <+: w'.keys)
    (hj : w'.journal = es ++ w.journal) : w'.Ousted n c id := by
  obtain ⟨newer, k, older, method, params, hw, hne, hkey, h⟩ := h
  obtain ⟨ks, hks⟩ := hk
  refine ⟨es ++ newer, k, older, method, params, ?_, hne, ?_, h⟩
  · rw [hj, hw, List.append_assoc]
  · rw [← hks]
    exact getElem?_append_of_some hkey ks

end grow

namespace Accounted

/-! ## What abandons no call -/

/-- No call is abandoned, and no cancellation is accepted but what was said and one for each of some
calls that are ousted. -/
theorem step {said' : List (Nat × Message)} (es : Journal) (h : w.Accounted said)
    (hk : w.keys <+: w'.keys) (hj : w'.journal = es ++ w.journal)
    (hf : ∀ {k c id}, w.keys[k]? = some (c, id) ∨ w.keys.length ≤ k →
      (w'.journal.fate k c id).isAbandoned = (w.journal.fate k c id).isAbandoned)
    (hb : ∀ c id, ∃ t ⊆ w'.stranded c id, Disjoint (w.stranded c id) t ∧
      (∀ n ∈ t, w'.Ousted n c id) ∧
      w'.journal.withdrawals c id + said.count (c, cancelMessage id) =
        w.journal.withdrawals c id + said'.count (c, cancelMessage id) + t.card) :
    w'.Accounted said' := by
  have hsame : ∀ c id, w'.abandoned c id = w.abandoned c id := fun c id => by
    obtain ⟨ks, hks⟩ := hk
    ext k
    rw [abandoned, abandoned, mem_fated, mem_fated, ← hks]
    cases hw : w.keys[k]? with
    | none =>
      -- A call that has just begun is not abandoned.
      have hle := List.getElem?_eq_none_iff.mp hw
      rw [hf (.inr hle), h.unborn hle]
      simp
    | some q =>
      rw [getElem?_append_of_some hw, and_congr_right_iff]
      exact fun hq => by rw [hf (.inl (hw.trans hq))]
  refine ⟨fun c id => ?_, fun hm => ?_, fun hle => ?_⟩
  · obtain ⟨s, hs, ho, hcount⟩ := h.balance c id
    obtain ⟨t, ht, hdisjoint, ho', hcount'⟩ := hb c id
    refine ⟨s ∪ t, Finset.union_subset (hs.trans (stranded_subset hk hj)) ht, fun n hn => ?_, ?_⟩
    · exact (Finset.mem_union.mp hn).elim (fun hn => (ho n hn).grow hk hj) (ho' n)
    · rw [hsame, Finset.card_union_of_disjoint (Finset.disjoint_of_subset_left hs hdisjoint)]
      omega
  · rw [hsame] at hm
    rw [hj]
    exact (h.withdrawn hm).append es
  · have hle' := hk.length_le.trans hle
    rw [hf (.inr hle')]
    exact h.unborn hle'

/-- Nobody is ousted either. -/
theorem plain {said' : List (Nat × Message)} (es : Journal) (h : w.Accounted said)
    (hk : w.keys <+: w'.keys) (hj : w'.journal = es ++ w.journal)
    (hf : ∀ {k c id}, w.keys[k]? = some (c, id) ∨ w.keys.length ≤ k →
      (w'.journal.fate k c id).isAbandoned = (w.journal.fate k c id).isAbandoned)
    (hb : ∀ c id, w'.journal.withdrawals c id + said.count (c, cancelMessage id) =
      w.journal.withdrawals c id + said'.count (c, cancelMessage id)) : w'.Accounted said' :=
  h.step es hk hj hf fun c id =>
    ⟨∅, Finset.empty_subset _, Finset.disjoint_empty_right _, by simp, by simpa using hb c id⟩

/-- What is silent leaves the account as it is. -/
theorem silent (h : w.Accounted said) (hs : Silent w w') : w'.Accounted said := by
  obtain ⟨es, hj, he⟩ := hs.journal
  refine h.plain es hs.keys hj (fun _ => ?_) fun c id => ?_
  · rw [hj]
    exact Journal.isAbandoned_silent he
  · rw [hj, Journal.withdrawals_silent he]

/-- Somebody sends a message on purpose. -/
theorem sends {c : Nat} {m : Message} (h : w.Accounted said) (hk : w'.keys = w.keys)
    (hj : w'.journal = .accepted c m :: w.journal) : w'.Accounted (said ++ [(c, m)]) := by
  refine h.plain [.accepted c m] (hk ▸ List.prefix_rfl) hj (fun _ => ?_) fun d id => ?_
  · rw [hj, Journal.fate, Fate.after_of_not_settles rfl]
  · rw [hj, Journal.withdrawals_accepted, List.count_append]
    omega

/-! ## The end of a call -/

section ends

variable {e : Event}

/-- The end of a call about which something was decided before changes no fate. -/
theorem fate_ends {d : Nat} {i : Id} (es : Journal) (he : e.Ends k)
    (hes : ∀ e ∈ es, e.settles = false) (hkey : w.keys[k]? = some (c, id))
    (hd : (w.journal.fate k c id).isDecided = true)
    (h : w.keys[n]? = some (d, i) ∨ w.keys.length ≤ n) :
    Journal.fate n d i (e :: es ++ w.journal) = w.journal.fate n d i := by
  rw [List.cons_append, Journal.fate, Journal.fate_quiet hes]
  refine Fate.after_ends he ?_
  rintro rfl
  rcases h with h | h
  · obtain ⟨rfl, rfl⟩ := Prod.mk.inj (Option.some.inj (hkey.symm.trans h))
    exact hd
  · cases (List.getElem?_eq_none_iff.mpr h).symm.trans hkey

/-- A call ends about which something was decided before. -/
theorem ends (h : w.Accounted said) (hk : w'.keys = w.keys) (he : e.Ends k)
    (hj : w'.journal = e :: w.journal) (hkey : w.keys[k]? = some (c, id))
    (hd : (w.journal.fate k c id).isDecided = true) : w'.Accounted said := by
  refine h.plain [e] (hk ▸ List.prefix_rfl) hj (fun hn => ?_) fun d i => ?_
  · rw [hj]
    exact congrArg _ (fate_ends [] he (by simp) hkey hd hn)
  · rw [hj, Journal.withdrawals_ends he]

/-- When a call ends that is pending, one more call is abandoned under its identifier, and none
under any other one. -/
theorem card_abandoned_ends (hk : w'.keys = w.keys) (hkey : w.keys[k]? = some (c, id))
    (hp : w.journal.fate k c id = .pending) (he : e.Ends k)
    (hf : ∀ n d i, w'.journal.fate n d i = (w.journal.fate n d i).after n d i e) (d : Nat)
    (i : Id) :
    (w'.abandoned d i).card = (w.abandoned d i).card + if c = d ∧ id = i then 1 else 0 := by
  have hother : ∀ {n d i}, n ≠ k → w'.journal.fate n d i = w.journal.fate n d i := fun hn => by
    rw [hf]
    exact Fate.after_ends he fun h => absurd h hn
  -- The count grows by one for the connection and the identifier of this call, and for no others.
  split
  · next hself =>
    obtain ⟨rfl, rfl⟩ := hself
    have hnew : (w'.journal.fate k c id).isAbandoned = true := by
      rw [hf, hp]
      exact Fate.isAbandoned_after_ends he
    have hnot : k ∉ w.abandoned c id := fun hm => by
      have ha := (mem_fated.mp hm).2
      rw [hp] at ha
      cases ha
    have hinsert : w'.abandoned c id = insert k (w.abandoned c id) := by
      ext n
      rw [Finset.mem_insert, abandoned, abandoned, mem_fated, mem_fated, hk]
      by_cases hn : n = k
      · subst hn
        simp [hkey, hnew]
      · simp [hn, hother hn]
    rw [hinsert, Finset.card_insert_of_notMem hnot]
  · next helse =>
    have hsame : w'.abandoned d i = w.abandoned d i := fated_congr hk fun n hn => by
      rw [hother]
      rintro rfl
      exact helse (Prod.mk.inj (Option.some.inj (hkey.symm.trans hn)))
    rw [hsame, Nat.add_zero]

/-- A call that is pending ends, and its request is taken back. -/
theorem abandons {method : String} {params : Json} (h : w.Accounted said) (hk : w'.keys = w.keys)
    (hkey : w.keys[k]? = some (c, id)) (hp : w.journal.fate k c id = .pending)
    (hr : .request id method params ∈ w.journal.accepted c)
    (he : e = .dropped k ∨ e = .ended k (.error (.timedOut method)))
    (hj : w'.journal = e :: .accepted c (cancelMessage id) :: w.journal) : w'.Accounted said := by
  have hends : e.Ends k := he.imp_right fun h => ⟨_, h⟩
  have hkeys : w.keys <+: w'.keys := hk ▸ List.prefix_rfl
  have hgrown : w'.journal = [e, .accepted c (cancelMessage id)] ++ w.journal := hj
  have hfate : ∀ n d i, w'.journal.fate n d i = (w.journal.fate n d i).after n d i e :=
    -- The cancellation before the end decides nothing.
    fun n d i => by
      rw [hj, Journal.fate, Journal.fate, Fate.after_of_not_settles (f := Journal.fate _ _ _ _) rfl]
  have hother : ∀ {n d i}, n ≠ k → w'.journal.fate n d i = w.journal.fate n d i := fun hn => by
    rw [hfate]
    exact Fate.after_ends hends fun h => absurd h hn
  refine ⟨fun d i => ?_, fun {n d i} hn => ?_, fun {n d i} hn => ?_⟩
  · -- The call is one more that was given up, and the cancellation one more that went out.
    obtain ⟨s, hs, ho, hbalance⟩ := h.balance d i
    refine ⟨s, hs.trans (stranded_subset hkeys hgrown), fun n hn => (ho n hn).grow hkeys hgrown, ?_⟩
    rw [card_abandoned_ends hk hkey hp hends hfate, hj, Journal.withdrawals_ends hends,
      Journal.withdrawals_cancelMessage]
    omega
  · by_cases hne : n = k
    · -- It is the call itself, which the journal tells about last.
      subst hne
      have hn' := (mem_fated.mp hn).1
      rw [hk, hkey] at hn'
      obtain ⟨rfl, rfl⟩ := Prod.mk.inj (Option.some.inj hn')
      exact ⟨[], e, w.journal, method, params, hj, he, hp, hr⟩
    · have hm : n ∈ w.abandoned d i := by
        rw [abandoned, mem_fated] at hn ⊢
        rwa [hk, hother hne] at hn
      rw [hgrown]
      exact (h.withdrawn hm).append _
  · rw [hk] at hn
    rw [hother]
    · exact h.unborn hn
    · rintro rfl
      rw [List.getElem?_eq_none_iff.mpr hn] at hkey
      cases hkey

/-- A call is dropped that has lost its identifier to another one, and the request of the other one
is taken back in its place. -/
theorem supplants {method : String} {params : Json} (h : w.Accounted said) (hk : w'.keys = w.keys)
    (hj : w'.journal = .dropped k :: .accepted c (cancelMessage id) :: .stranded n :: w.journal)
    (hkey : w.keys[k]? = some (c, id)) (hd : (w.journal.fate k c id).isDecided = true)
    (hn : w.keys[n]? = some (c, id)) (hp : w.journal.fate n c id = .pending)
    (hr : .request id method params ∈ w.journal.accepted c) : w'.Accounted said := by
  have hne : k ≠ n := by
    rintro rfl
    rw [hp] at hd
    cases hd
  -- The drop changes nothing: what counts is that the other call has lost the identifier before.
  let u := w.emit (.stranded n)
  have hdu : (u.journal.fate k c id).isDecided = true := by
    show ((w.journal.fate k c id).after k c id (.stranded n)).isDecided = true
    rwa [Fate.after_of_isDecided hd]
  have hfate : ∀ {m d i}, w.keys[m]? = some (d, i) ∨ w.keys.length ≤ m →
      w'.journal.fate m d i = (w.journal.fate m d i).after m d i (.stranded n) := fun hm => by
    rw [hj]
    refine fate_ends (w := u) [.accepted c (cancelMessage id)] (.inl rfl) ?_ hkey hdu hm
    exact List.forall_mem_singleton.mpr rfl
  have hlost : n ∈ w'.stranded c id := by
    refine mem_stranded.mpr ⟨hk ▸ hn, ?_⟩
    rw [hfate (.inl hn), hp, Fate.after, if_pos rfl]
  have hnot : n ∉ w.stranded c id := fun hm => by
    cases hp.symm.trans (mem_stranded.mp hm).2
  have housted : w'.Ousted n c id := ⟨[], k, w.journal, method, params, hj, hne, hk ▸ hkey, hp, hr⟩
  refine h.step [.dropped k, .accepted c (cancelMessage id), .stranded n] (hk ▸ List.prefix_rfl) hj
    (fun hm => ?_) fun d i => ?_
  · rw [hfate hm]
    exact Fate.isAbandoned_after rfl
  · have hcount : w'.journal.withdrawals d i =
        w.journal.withdrawals d i + if c = d ∧ id = i then 1 else 0 := by
      rw [hj, Journal.withdrawals_ends (.inl rfl), Journal.withdrawals_cancelMessage]
      rfl
    by_cases hself : c = d ∧ id = i
    · obtain ⟨rfl, rfl⟩ := hself
      refine ⟨{n}, Finset.singleton_subset_iff.mpr hlost, Finset.disjoint_singleton_right.mpr hnot,
        fun m hm => Finset.mem_singleton.mp hm ▸ housted, ?_⟩
      rw [hcount, if_pos ⟨rfl, rfl⟩, Finset.card_singleton]
      omega
    · refine ⟨∅, Finset.empty_subset _, Finset.disjoint_empty_right _, by simp, ?_⟩
      rw [hcount, if_neg hself, Finset.card_empty]
      omega

end ends

end Accounted

end Network

end Parley
