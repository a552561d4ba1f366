import Parley.Proofs.Running

/-!
# What may become of a dispatcher

Whatever happens in a network, a dispatcher sees little of it: a handler is registered or taken out,
it is bound, a request is taken in or is over, or the peer opens or closes a document. What these
keep holds of every dispatcher.

- `Dispatcher.Change`: what may become of a dispatcher; `Network.Move.dispatcher` says that this is
  all.
- `Network.Path.each_dispatcher`: what every change keeps.
- `Dispatcher.Tabled`, `Dispatcher.Numbered`, `Dispatcher.Keyed`: what holds of every dispatcher.
-/

namespace Parley

namespace Dispatcher

/-- What may become of a dispatcher while the number of registrations grows from `m` to `n`. -/
inductive Change (m n : Nat) (x : Dispatcher) : Dispatcher → Prop where
  | keep {y : Dispatcher} (h : x.Keeps y) : Change m n x y
  /-- A descriptor is registered behind all others, under the next number. -/
  | register (h : m < n) (descriptor : Descriptor) :
      Change m n x { x with entries := x.entries ++ [⟨m, descriptor⟩] }
  | bind (c : Nat) : Change m n x { x with bound := some c }
  | enter (id : Id) (r : Nat) : Change m n x (x.enter id r)
  | leave (id : Id) : Change m n x (x.leave id)
  | heed (k : Message) : Change m n x (x.heed k)

/-- Whether the descriptors stand in the order of their registration, each with a number of its
own. -/
structure Numbered (n : Nat) (x : Dispatcher) : Prop where
  ascending : (x.entries.map Entry.serial).Pairwise (· < ·)
  lt : ∀ e ∈ x.entries, e.serial < n

/-- Whether no identifier stands twice among those of the requests that are being served. -/
def Keyed (x : Dispatcher) : Prop := (x.inflight.map Prod.fst).Nodup

namespace Change

variable {m n : Nat} {x y : Dispatcher}

/-- The tables of plain handlers stay apart. -/
theorem tabled (h : x.Change m n y) (ht : x.Tabled) : y.Tabled := by
  cases h with
  | keep hk => exact hk.tabled ht
  | heed k =>
    rw [heed_eq]
    exact ⟨ht.requests, ht.notifications⟩
  | _ => exact ⟨ht.requests, ht.notifications⟩

/-- What is registered comes after all that was. -/
theorem numbered (h : x.Change m n y) (hmn : m ≤ n) (hx : x.Numbered m) : y.Numbered n := by
  have same : x.Numbered n := ⟨hx.ascending, fun e he => Nat.lt_of_lt_of_le (hx.lt e he) hmn⟩
  cases h with
  | keep hk =>
    exact ⟨hx.ascending.sublist (hk.entries.map Entry.serial),
      fun e he => same.lt e (hk.entries.subset he)⟩
  -- The new serial number is above all that were given out.
  | register hlt descriptor =>
    refine ⟨?_, fun e he => ?_⟩
    · rw [List.map_append, List.pairwise_append]
      refine ⟨hx.ascending, List.pairwise_singleton _ _, fun i hi j hj => ?_⟩
      obtain ⟨e, he, rfl⟩ := List.mem_map.mp hi
      obtain rfl := List.mem_singleton.mp hj
      exact hx.lt e he
    · rcases List.mem_append.mp he with he | he
      · exact same.lt e he
      · obtain rfl := List.mem_singleton.mp he
        exact hlt
  | heed k =>
    rw [heed_eq]
    exact ⟨same.ascending, same.lt⟩
  | _ => exact ⟨same.ascending, same.lt⟩

/-- A request takes the place of one with its identifier. -/
theorem keyed (h : x.Change m n y) (hx : x.Keyed) : y.Keyed := by
  have without : ∀ id : Id, ((x.inflight.filter fun e => e.1 != id).map Prod.fst).Nodup :=
    fun id => hx.sublist (List.filter_sublist.map Prod.fst)
  cases h with
  | keep hk =>
    rw [Keyed, hk.inflight]
    exact hx
  | enter id r =>
    rw [Keyed, Dispatcher.enter, List.map_cons, List.nodup_cons]
    refine ⟨fun hm => ?_, without id⟩
    obtain ⟨e, he, rfl⟩ := List.mem_map.mp hm
    simpa using (List.mem_filter.mp he).2
  | leave id => exact without id
  | heed k =>
    rw [heed_eq]
    exact hx
  | _ => exact hx

end Change

end Dispatcher

namespace Network

variable {w w' : Network}

/-- A move takes no registration back. -/
theorem Move.registrations_le (h : Move w w') :
    w.registrations.length ≤ w'.registrations.length := by
  cases h with
  | surroundings ps rs gs q hr => exact hr
  | register => simp
  | @finish r y outcome =>
    rw [concluded]
    cases y.id <;> exact Nat.le_refl _
  | _ => exact Nat.le_refl _

/-- A dispatcher after a move was there before and has changed, or it was just made. -/
theorem Move.dispatcher (h : Move w w') {d : Nat} {y : Dispatcher}
    (hy : w'.dispatchers[d]? = some y) :
    (∃ x, w.dispatchers[d]? = some x ∧
      x.Change w.registrations.length w'.registrations.length y) ∨ y = {} := by
  have modify : ∀ {e n : Nat} {f : Dispatcher → Dispatcher} {ds : List Dispatcher},
      (∀ x, w.dispatchers[e]? = some x → x.Change w.registrations.length n (f x)) →
      ds = w.dispatchers.modify e f → ds[d]? = some y →
      ∃ x, w.dispatchers[d]? = some x ∧ x.Change w.registrations.length n y := by
    intro e n f ds hf hds hy
    rw [hds] at hy
    obtain ⟨x, hx, rfl⟩ := getElem?_modify_eq_some hy
    refine ⟨x, hx, ?_⟩
    split
    · next he =>
      subst he
      exact hf x hx
    · exact .keep (.refl x)
  have set : ∀ {e n : Nat} {x z : Dispatcher} {ds : List Dispatcher},
      w.dispatchers[e]? = some x → x.Change w.registrations.length n z →
      ds = w.dispatchers.set e z → ds[d]? = some y →
      ∃ x, w.dispatchers[d]? = some x ∧ x.Change w.registrations.length n y := by
    intro e n x z ds hx hc hds
    refine modify (f := fun _ => z) (fun x' hx' => ?_)
      (hds.trans (modify_eq_set hx fun _ => z).symm)
    obtain rfl := Option.some.inj (hx.symm.trans hx')
    exact hc
  -- One case per move that touches a dispatcher; each is one of the changes.
  cases h with
  | openDispatcher =>
    rcases getElem?_append_one hy with hy | ⟨-, rfl⟩
    · exact .inl ⟨y, hy, .keep (.refl y)⟩
    · exact .inr rfl
  | arrange hx hk => exact .inl (set hx (.keep hk) rfl hy)
  | register descriptor r hx => exact .inl (set hx (.register (by simp) descriptor) rfl hy)
  | @connect c x e => exact .inl (modify (fun _ _ => .bind c) rfl hy)
  | @receive c e x m => exact .inl (modify (fun _ _ => .heed m) rfl hy)
  | @serve c x z e id => exact .inl (modify (fun _ _ => .enter id _) rfl hy)
  | @finish r z outcome =>
    rw [concluded] at hy ⊢
    cases hi : z.id with
    | none =>
      rw [hi] at hy
      exact .inl ⟨y, hy, .keep (.refl y)⟩
    | some id =>
      rw [hi] at hy
      exact .inl (modify (fun _ _ => .leave id) rfl hy)
  | _ => exact .inl ⟨y, hy, .keep (.refl y)⟩

/-- What holds of fresh dispatchers and is kept by every change holds of each dispatcher. -/
theorem Path.each_dispatcher {P : Nat → Dispatcher → Prop} (h : Path {} w) (fresh : ∀ n, P n {})
    (change : ∀ {m n x y}, m ≤ n → P m x → x.Change m n y → P n y) :
    ∀ d ∈ w.dispatchers, P w.registrations.length d := by
  refine h.keeps (P := fun w => ∀ d ∈ w.dispatchers, P w.registrations.length d)
    (fun hw hm y hy => ?_) (fun _ hw => hw) (fun hw _ _ _ => hw) (by simp)
  obtain ⟨d, hd⟩ := List.getElem?_of_mem hy
  rcases hm.dispatcher hd with ⟨x, hx, hc⟩ | rfl
  · exact change hm.registrations_le (hw x (List.mem_of_getElem? hx)) hc
  · exact fresh _

theorem Path.numbered (h : Path {} w) : ∀ d ∈ w.dispatchers, d.Numbered w.registrations.length :=
  h.each_dispatcher (fun _ => ⟨List.Pairwise.nil, by simp⟩) fun hmn hx hc => hc.numbered hmn hx

theorem Path.keyed (h : Path {} w) : ∀ d ∈ w.dispatchers, d.Keyed :=
  h.each_dispatcher (P := fun _ d => d.Keyed) (fun _ => List.nodup_nil) fun _ hx hc => hc.keyed hx

end Network

end Parley
