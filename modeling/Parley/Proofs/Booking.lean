import Parley.Proofs.Ledger
import Parley.Proofs.Numbering

/-!
# Calls and tables

The entries of a table are the calls over its connection that wait: an entry is always such a call,
and such a call has its entry. The identifiers of a connection start again after all integers of 64
bits, and no call loses its own to another one before.

- `Network.Booked`: every entry of a table is a call that waits, and identifiers are numbered.
- `Network.Awaited`: every call that waits has its entry.
- `Network.Booked.step`, `Network.Awaited.step`: both are kept.
- `Network.Booked.size_le`: an identifier is given a second time only after all others.
-/

namespace Parley

/-- The connection and the identifier of a call, which never change. -/
def Call.key (x : Call) : Nat × Id := (x.conn, x.id)

/-- What becomes of a call changes neither its connection nor its id. -/
theorem Call.key_resolve (s : CallState) (x : Call) : (x.resolve s).key = x.key := by
  rw [resolve]
  split <;> rfl

namespace Network

variable {w w' : Network} {c : Nat}

/-! ## Identifiers -/

/-- The connections and the identifiers of all calls. -/
def keys (w : Network) : List (Nat × Id) := w.calls.map Call.key

/-- How many calls have begun over a connection. -/
def started (w : Network) (c : Nat) : Nat := w.calls.countP fun x => x.conn = c

/-- The identifiers that a connection has given so far. -/
def given (keys : List (Nat × Id)) (c : Nat) : List Id :=
  (keys.filter fun p => p.1 = c).map Prod.snd

/-- A connection has given out as many ids as it has started calls. -/
theorem length_given (w : Network) (c : Nat) : (given w.keys c).length = w.started c := by
  rw [given, keys, started, List.length_map, List.filter_map, List.length_map,
    List.countP_eq_length_filter]
  rfl

/-- The first `n` identifiers of a connection. -/
def firstIds (n : Nat) : List Id := (List.range n).map fun i => .number (Int64.ofNat i)

/-- Ids are given out in order, each one after all that were given out before. -/
theorem firstIds_succ (n : Nat) : firstIds (n + 1) = firstIds n ++ [.number (Int64.ofNat n)] := by
  rw [firstIds, List.range_succ, List.map_append]
  rfl

/-- They are what a fresh counter gives. -/
theorem firstIds_eq (n : Nat) : firstIds n = (List.range n).map Counter.new.nth := by
  simp [firstIds, Counter.nth, Counter.next, Counter.after, Counter.new]

/-- Ids come back only after all `2 ^ 64` of them have been used. -/
theorem firstIds_nodup {n : Nat} (h : n ≤ Int64.size) : (firstIds n).Nodup := by
  rw [firstIds_eq]
  exact Counter.new.nodup_nth h

/-- Whatever is done to a call, its key stands in the same place of the list. -/
theorem keys_modify (f : Call → Call) (k : Nat) (l : List Call) (hf : ∀ x, (f x).key = x.key) :
    (l.modify k f).map Call.key = l.map Call.key := by
  refine List.ext_getElem? fun i => ?_
  simp only [List.getElem?_map, List.getElem?_modify]
  cases l[i]? with
  | none => rfl
  | some x =>
    by_cases h : k = i
    · simp [h, hf]
    · simp [h]

/-- Resolving calls is nothing to what was given out. -/
theorem keys_resolved (w : Network) (ks : List Nat) (s : CallState) :
    (w.resolved ks s).keys = w.keys := by
  induction ks generalizing w with
  | nil => rfl
  | cons k ks ih =>
    have h1 : (w.resolved [k] s).keys = w.keys := keys_modify _ k _ (Call.key_resolve s)
    exact (ih (w.resolved [k] s)).trans h1

/-- No call changes its connection or its identifier. -/
theorem Deal.keys (h : Deal w w') :
    w'.keys = w.keys ∨ ∃ x l params, w' = w.begun x l params ∧ w'.keys = w.keys ++ [x.key] := by
  cases h with
  | quiet hc => exact .inl (by rw [Network.keys, hc, Network.keys])
  | stray => exact .inl rfl
  | begin hl hs hx => exact .inr ⟨_, _, _, rfl, List.map_append⟩
  | learn => exact .inl (keys_modify _ _ _ fun _ => rfl)
  | lose => exact .inl (keys_modify _ _ _ fun _ => rfl)
  | expire => exact .inl (keys_modify _ _ _ fun _ => rfl)
  | drop => exact .inl (keys_modify _ _ _ fun _ => rfl)
  | remove => exact .inl (keys_modify _ _ _ (Call.key_resolve _))
  | cut => exact .inl (keys_resolved _ _ _)

/-- The number of calls over a connection only grows. -/
theorem Deal.started_le (h : Deal w w') (c : Nat) : w.started c ≤ w'.started c := by
  rw [← length_given, ← length_given]
  rcases h.keys with hk | ⟨x, l, params, -, hk⟩
  · exact Nat.le_of_eq (by rw [hk])
  · rw [hk, given, given, List.filter_append, List.map_append, List.length_append]
    exact Nat.le_add_right _ _

/-! ## Entries -/

/-- An entry stays in the table unless it has the id that leaves. -/
theorem mem_without {id : Id} {p : Id × Nat} {t : List (Id × Nat)} :
    p ∈ Link.without id t ↔ p ∈ t ∧ p.1 ≠ id := by
  simp [Link.without]

/-- What a table is after a call has begun. -/
theorem table_begun {x : Call} {l l' : Link} {params : Json} (hl : w.link? x.conn = some l)
    (hs : l.start w.calls.length x.method params = some (x.id, l')) (d : Nat) :
    (w.begun x l' params).table d =
      if x.conn = d then Link.without x.id (w.table d) ++ [(x.id, w.calls.length)]
      else w.table d := by
  obtain ⟨y, hy, hl⟩ := link?_eq_some.mp hl
  obtain ⟨-, -, rfl⟩ := Link.start_eq_some hs
  rw [table_of_set hy (modify_eq_set hy _)]
  split
  · next h =>
    rw [Connection.table_of_link rfl, ← h, table_of_conn hy, Connection.table_of_link hl]
  · rfl

/-- A call that begins gets the next id of its connection, and only that connection counts on. -/
theorem counter_begun {x : Call} {l l' : Link} {params : Json} (hl : w.link? x.conn = some l)
    (hs : l.start w.calls.length x.method params = some (x.id, l')) :
    x.id = (w.counter x.conn).next.1 ∧ ∀ d, (w.begun x l' params).counter d =
      if x.conn = d then (w.counter d).next.2 else w.counter d := by
  obtain ⟨y, hy, hl⟩ := link?_eq_some.mp hl
  obtain ⟨-, hi, rfl⟩ := Link.start_eq_some hs
  refine ⟨by rw [hi, counter_of_conn hy, Connection.counter_of_link hl], fun d => ?_⟩
  rw [counter_of_set hy (modify_eq_set hy _)]
  split
  · next h =>
    rw [Connection.counter_of_link rfl, ← h, counter_of_conn hy, Connection.counter_of_link hl]
  · rfl

/-- What a table is after the entry of a reply was taken out. -/
theorem table_answered {x : Connection} {l l' : Link} {id : Id} {k : Nat}
    (hx : w.conns[c]? = some x) (hl : x.link = some l) (ha : l.answer id = some (k, l'))
    (hc : w'.conns = w.conns.set c { x with link := some l' }) (d : Nat) :
    w'.table d = if c = d then Link.without id (w.table d) else w.table d := by
  obtain ⟨-, rfl⟩ := Link.answer_eq_some ha
  rw [table_of_set hx hc, Connection.table_of_link rfl]
  split
  · next h => rw [← h, table_of_conn hx, Connection.table_of_link hl]
  · rfl

/-- An answer frees no id. -/
theorem counter_answered {x : Connection} {l l' : Link} {id : Id} {k : Nat}
    (hx : w.conns[c]? = some x) (hl : x.link = some l) (ha : l.answer id = some (k, l'))
    (hc : w'.conns = w.conns.set c { x with link := some l' }) : w'.counter = w.counter := by
  obtain ⟨-, rfl⟩ := Link.answer_eq_some ha
  funext d
  rw [counter_of_set hx hc, Connection.counter_of_link rfl]
  split
  · next h => rw [← h, counter_of_conn hx, Connection.counter_of_link hl]
  · rfl

/-- The table of a connection is empty once its end has begun. -/
theorem table_severed {x : Connection} (hx : w.conns[c]? = some x) (flush : Bool) (d : Nat) :
    (w.severed c x flush).table d = if c = d then [] else w.table d := by
  rw [table_of_set (y := x.cut flush) hx (modify_eq_set hx _)]
  split
  · cases hl : x.link <;> simp [Connection.table, Connection.cut, hl, Link.close]
  · rfl

/-- A cut does not count, nor does it count back. -/
theorem counter_severed {x : Connection} (hx : w.conns[c]? = some x) (flush : Bool) :
    (w.severed c x flush).counter = w.counter := by
  funext d
  rw [counter_of_set (y := x.cut flush) hx (modify_eq_set hx _)]
  split
  · next h =>
    rw [← h, counter_of_conn hx]
    cases hl : x.link <;> simp [Connection.counter, Connection.cut, hl, Link.close]
  · rfl

/-- Every entry of a table is a call that waits, no identifier has two entries, and the identifiers
of each connection are given in order. -/
structure Booked (w : Network) : Prop where
  entry : ∀ {c id k}, (id, k) ∈ w.table c →
    ∃ x : Call, w.calls[k]? = some x ∧ x.conn = c ∧ x.id = id ∧ x.state = .waiting
  nodup : ∀ c, ((w.table c).map Prod.fst).Nodup
  given : ∀ c, given w.keys c = firstIds (w.started c)
  counter : ∀ c, w.counter c = ⟨Int64.ofNat (w.started c)⟩

namespace Booked

/-- The call of an entry that is taken out. -/
theorem removed {x : Connection} {l l' : Link} {id : Id} {k : Nat} (hB : w.Booked)
    (hx : w.conns[c]? = some x) (hl : x.link = some l) (ha : l.answer id = some (k, l')) :
    (id, k) ∈ w.table c ∧
      ∃ y : Call, w.calls[k]? = some y ∧ y.conn = c ∧ y.id = id ∧ y.state = .waiting := by
  obtain ⟨hk, -⟩ := Link.answer_eq_some ha
  have hm : (id, k) ∈ w.table c := by
    obtain ⟨t₁, t₂, hp, -⟩ := List.lookup_eq_some_iff.mp hk
    rw [table_of_conn hx, Connection.table_of_link hl, hp]
    simp
  exact ⟨hm, hB.entry hm⟩

/-- Every deal keeps the ids in order, as long as a call that begins takes the next one. -/
theorem given_step (hB : w.Booked) (h : Deal w w')
    (hn : ∀ x l params, w' = w.begun x l params → x.id = (w.counter x.conn).next.1) (c : Nat) :
    Network.given w'.keys c = firstIds (w'.started c) := by
  rcases h.keys with hk | ⟨x, l, params, hw, hk⟩
  · rw [← length_given, hk, length_given, hB.given]
  · have hi := hn x l params hw
    have hg : Network.given w'.keys c =
        Network.given w.keys c ++ if x.conn = c then [x.id] else [] := by
      rw [hk, Network.given, Network.given, List.filter_append, List.map_append]
      by_cases hc : x.conn = c
      · simp [Call.key, hc]
      · simp [Call.key, hc]
    rw [← length_given, hg, List.length_append, length_given, hB.given]
    by_cases hc : x.conn = c
    · rw [if_pos hc, List.length_singleton, firstIds_succ, hi, hB.counter, hc]
      rfl
    · rw [if_neg hc, List.length_nil, Nat.add_zero, List.append_nil]

/-- What is kept when a call has begun. -/
theorem begun {x : Call} {l l' : Link} {params : Json} (hB : w.Booked)
    (hl : w.link? x.conn = some l) (hs : l.start w.calls.length x.method params = some (x.id, l'))
    (hn : l.pending.lookup x.id = none) (hx : x.state = .waiting)
    (ht : x.deadline = w.deadline x.conn) : (w.begun x l' params).Booked := by
  have htab := table_begun hl hs
  obtain ⟨hi, hcount⟩ := counter_begun hl hs
  have hg := hB.given_step (.begin hl hs hn hx ht) fun y k ps he => by
    have hk : w.calls ++ [y] = w.calls ++ [x] := (congrArg Network.calls he).symm
    obtain rfl : y = x := by simpa using hk
    exact hi
  refine ⟨fun {d id k} hm => ?_, fun d => ?_, hg, fun d => ?_⟩
  · -- Entries: the new one belongs to the call that is appended, the others to calls that stand
    -- where they stood.
    rw [htab] at hm
    split at hm
    · next hd =>
      rcases List.mem_append.mp hm with hm | hm
      · obtain ⟨y, hy, hr⟩ := hB.entry (mem_without.mp hm).1
        exact ⟨y, getElem?_append_of_some hy _, hr⟩
      · obtain ⟨rfl, rfl⟩ := Prod.mk.inj (List.mem_singleton.mp hm)
        exact ⟨x, by simp [Network.begun], hd, rfl, hx⟩
    · obtain ⟨y, hy, hr⟩ := hB.entry hm
      exact ⟨y, getElem?_append_of_some hy _, hr⟩
  · -- No id twice: the entry that had the new id before, if any, has been taken out by the
    -- insertion.
    rw [htab]
    split
    · rw [List.map_append, List.nodup_append]
      refine ⟨(List.filter_sublist.map _).nodup (hB.nodup d), by simp, fun a ha b hb => ?_⟩
      obtain ⟨p, hp, rfl⟩ := List.mem_map.mp ha
      obtain rfl : b = x.id := by simpa using hb
      exact (mem_without.mp hp).2
    · exact hB.nodup d
  · -- The counter: one call more, one id more.
    rw [hcount, hB.counter, ← length_given, ← length_given]
    have hk : (w.begun x l' params).keys = w.keys ++ [x.key] := List.map_append
    rw [hk, Network.given, Network.given, List.filter_append, List.map_append, List.length_append]
    split
    · next hd =>
      simp only [Call.key, hd, decide_true, List.filter_cons_of_pos, List.filter_nil,
        List.map_cons, List.map_nil, List.length_cons, List.length_nil, Counter.next]
      rw [Int64.ofNat_add]
      rfl
    · next hd => simp [Call.key, hd]

/-- Entries may go as long as no call begins and whoever still has an entry still waits. -/
theorem shrink (hB : w.Booked) (hk : w'.keys = w.keys) (hn : w'.counter = w.counter)
    (ht : ∀ d, (w'.table d).Sublist (w.table d))
    (he : ∀ {d id k} {y : Call}, (id, k) ∈ w'.table d → w.calls[k]? = some y → y.conn = d →
      w'.calls[k]? = some y) : w'.Booked := by
  have hst : ∀ d, w'.started d = w.started d := fun d => by
    rw [← length_given, hk, length_given]
  refine ⟨fun {d id k} hm => ?_, fun d => ((ht d).map _).nodup (hB.nodup d), fun d => ?_,
    fun d => ?_⟩
  · obtain ⟨y, hy, hc, hr⟩ := hB.entry ((ht d).subset hm)
    exact ⟨y, he hm hy hc, hc, hr⟩
  · rw [hk, hB.given, hst]
  · rw [hn, hB.counter, hst]

/-- What is kept when nothing happens to calls and tables. -/
theorem quiet (hB : w.Booked) (hc : w'.calls = w.calls)
    (ht : w'.table = w.table ∧ w'.counter = w.counter) : w'.Booked := by
  refine hB.shrink (by rw [Network.keys, hc, Network.keys]) ht.2 (fun d => ?_) fun _ hy _ => ?_
  · exact congrFun ht.1 d ▸ .refl _
  · rwa [hc]

/-- What is kept when the state of a call changes that has no entry any more. -/
theorem change {k : Nat} {f : Call → Call} (hB : w.Booked) (hf : ∀ x, (f x).key = x.key)
    (hc : w'.calls = w.calls.modify k f)
    (ht : ∀ d, (w'.table d).Sublist (w.table d)) (hn : w'.counter = w.counter)
    (hk : ∀ {id d}, (id, k) ∉ w'.table d) : w'.Booked := by
  refine hB.shrink (by rw [Network.keys, hc, keys_modify _ _ _ hf, Network.keys]) hn ht
    fun {d id n y} hm hy _ => ?_
  have hne : k ≠ n := fun h => hk (h ▸ hm)
  rw [hc, List.getElem?_modify, hy]
  simp [hne]

/-- A call that does not wait has no entry. -/
theorem not_mem {k : Nat} {x : Call} (hB : w.Booked) (hk : w.calls[k]? = some x)
    (hx : x.state ≠ .waiting) {id : Id} {d : Nat} : (id, k) ∉ w.table d := by
  intro hm
  obtain ⟨y, hy, -, -, hs⟩ := hB.entry hm
  obtain rfl := Option.some.inj (hk.symm.trans hy)
  exact hx hs

/-- An entry under another identifier, or at another connection, is no entry of a call. -/
theorem not_mem_without {k : Nat} {x : Call} (hB : w.Booked) (hk : w.calls[k]? = some x)
    {id : Id} {d : Nat} :
    (id, k) ∉ if x.conn = d then Link.without x.id (w.table d) else w.table d := by
  intro hm
  split at hm
  · obtain ⟨hm, hne⟩ := mem_without.mp hm
    obtain ⟨y, hy, -, hi, -⟩ := hB.entry hm
    obtain rfl := Option.some.inj (hk.symm.trans hy)
    exact hne hi.symm
  · next hd =>
    obtain ⟨y, hy, hc, -⟩ := hB.entry hm
    obtain rfl := Option.some.inj (hk.symm.trans hy)
    exact hd hc

/-- What is kept when the one who waited for a call that is over is told so. -/
theorem ended {k : Nat} {x : Call} (hB : w.Booked) (hk : w.calls[k]? = some x)
    (hx : x.state ≠ .waiting) (o : Except CallError Json) : (w.endCall k o).Booked :=
  hB.change (f := fun x => { x with state := .ended o }) (fun _ => rfl) rfl (fun _ => .refl _) rfl
    (hB.not_mem hk hx)

/-- What is kept when a call loses its entry, if it has one, and its state changes. -/
theorem strike {k : Nat} {x : Call} {f : Call → Call} (hB : w.Booked) (hk : w.calls[k]? = some x)
    (hf : ∀ x, (f x).key = x.key) (hc : w'.calls = w.calls.modify k f)
    (ht : ∀ d, w'.table d = if x.conn = d then Link.without x.id (w.table d) else w.table d)
    (hn : w'.counter = w.counter) : w'.Booked := by
  refine hB.change hf hc (fun d => ?_) hn fun {id d} => ?_
  · rw [ht]
    split
    · exact List.filter_sublist
    · exact .refl _
  · rw [ht]
    exact hB.not_mem_without hk

/-- What is kept when the end of a connection begins: only its own calls wait no more. -/
theorem severed {x : Connection} (hB : w.Booked) (hx : w.conns[c]? = some x) (flush : Bool) :
    (w.severed c x flush).Booked := by
  refine hB.shrink (keys_resolved _ _ _) (counter_severed hx flush) (fun d => ?_)
    fun {d id k y} hm hy hc => ?_
  · rw [table_severed hx]
    split
    · exact List.nil_sublist _
    · exact .refl _
  · rw [table_severed hx] at hm
    split at hm
    · exact absurd hm List.not_mem_nil
    · next hd =>
      -- A call of another connection has no entry in the table that goes.
      have hw : k ∉ x.waiters := fun hk => by
        rw [← x.map_snd_table, ← table_of_conn hx] at hk
        obtain ⟨p, hp, rfl⟩ := List.mem_map.mp hk
        obtain ⟨y', hy', hc', -⟩ := hB.entry hp
        obtain rfl := Option.some.inj (hy.symm.trans hy')
        exact hd (hc'.symm.trans hc)
      rw [getElem?_severed, hy, Option.map_some, if_neg hw]

/-- The entries are kept by whatever happens. -/
theorem step (hB : w.Booked) (h : Deal w w') : w'.Booked := by
  cases h with
  | quiet hc ht => exact hB.quiet hc ht
  | stray => exact hB.quiet rfl ⟨rfl, rfl⟩
  | begin hl hs hn hx ht => exact hB.begun hl hs hn hx ht
  | learn hk hx => exact hB.ended hk (by simp [hx]) _
  | lose hk hx => exact hB.ended hk (by simp [hx]) _
  | @expire k x hk hx hd ho =>
    exact hB.strike (f := fun x => { x with state := .ended _ }) hk (fun _ => rfl) rfl
      (table_withdraw w x.conn x.id) (counter_withdraw w x.conn x.id)
  | @drop k x hk hx ho =>
    exact hB.strike (f := fun x => { x with state := .dropped }) hk (fun _ => rfl) rfl
      (table_withdraw w x.conn x.id) (counter_withdraw w x.conn x.id)
  | @remove c k x id l l' s e hx hl ha =>
    obtain ⟨-, y, hy, rfl, rfl, -⟩ := hB.removed hx hl ha
    exact hB.strike (f := fun z => z.resolve s) hy (Call.key_resolve s) rfl
      (table_answered hx hl ha rfl) (counter_answered hx hl ha rfl)
  | cut flush hx => exact hB.severed hx flush

end Booked

/-! ## Calls that wait -/

/-- An identifier has one entry at most. -/
theorem Booked.unique (hB : w.Booked) {id : Id} {k n : Nat} (hk : (id, k) ∈ w.table c)
    (hn : (id, n) ∈ w.table c) : k = n :=
  eq_of_nodup_fst (hB.nodup c) hk hn

/-- A call that has its identifier for itself has the only entry under it. -/
theorem Booked.eq_of_owns (hB : w.Booked) {id : Id} {k n : Nat} (ho : w.Owns k c id)
    (hm : (id, n) ∈ w.table c) : k = n := by
  cases hx : w.conns[c]? with
  | none => simp [table, hx] at hm
  | some x =>
    cases hl : x.link with
    | none => simp [table_of_conn hx, Connection.table, hl] at hm
    | some l =>
      have ht : w.table c = l.pending := by rw [table_of_conn hx, Connection.table_of_link hl]
      cases hk : l.pending.lookup id with
      | none =>
        rw [List.lookup_eq_none_iff] at hk
        rw [ht] at hm
        exact absurd (hk _ hm) (by simp)
      | some m =>
        obtain ⟨t₁, t₂, hp, -⟩ := List.lookup_eq_some_iff.mp hk
        have hm' : (id, m) ∈ w.table c := by
          rw [ht, hp]
          simp
        obtain rfl := ho l m (link?_eq_some.mpr ⟨x, hx, hl⟩) hk
        exact hB.unique hm' hm

/-- Every call over a connection that waits has its entry in the table. -/
def Awaited (w : Network) (c : Nat) : Prop :=
  ∀ (k : Nat) (x : Call), w.calls[k]? = some x → x.conn = c → x.state = .waiting →
    (x.id, k) ∈ w.table c

namespace Awaited

/-- A call whose state has changed and that does not wait any more needs no entry. -/
theorem change {k : Nat} (f : Call → Call) (hA : w.Awaited c)
    (hc : w'.calls = w.calls.modify k f) (hf : ∀ x, w.calls[k]? = some x → (f x).state ≠ .waiting)
    (ht : ∀ {n : Nat} {y : Call}, k ≠ n → w.calls[n]? = some y → y.conn = c →
      (y.id, n) ∈ w.table c → (y.id, n) ∈ w'.table c) : w'.Awaited c := by
  intro n y hy hyc hs
  rw [hc] at hy
  obtain ⟨z, hz, he⟩ := getElem?_modify_eq_some hy
  split at he
  · next h =>
    subst h
    rw [he] at hs
    exact absurd hs (hf z hz)
  · next h =>
    subst he
    exact ht h hz hyc (hA n y hz hyc hs)

/-- The entry of another call stays when the entry of a call is taken out. -/
theorem mem_withdraw {k n : Nat} {x y : Call} (hB : w.Booked) (ho : w.Owns k x.conn x.id)
    (hne : k ≠ n) (hm : (y.id, n) ∈ w.table c) :
    (y.id, n) ∈ (w.withdraw x.conn x.id).table c := by
  rw [table_withdraw]
  split
  · next hx =>
    refine mem_without.mpr ⟨hm, fun he => hne (hB.eq_of_owns ho ?_)⟩
    change y.id = x.id at he
    rwa [hx, ← he]
  · exact hm

/-- Calls that wait keep their entries whatever happens. -/
theorem step (hA : w.Awaited c) (hB : w.Booked) (h : Deal w w') : w'.Awaited c := by
  cases h with
  | quiet hc ht =>
    intro k x hk hx hs
    rw [hc] at hk
    rw [ht.1]
    exact hA k x hk hx hs
  | stray => exact hA
  | @begin l l' x params hl hs hn hx ht =>
    intro k y hk hy hw
    rw [table_begun hl hs]
    rcases getElem?_append_one hk with hk | ⟨rfl, rfl⟩
    · split
      · next hd =>
        have hm := hA k y hk hy hw
        -- Nobody waits under the identifier that is given.
        refine List.mem_append_left _ (mem_without.mpr ⟨hm, fun he => ?_⟩)
        change y.id = x.id at he
        obtain ⟨z, hz, hl⟩ := link?_eq_some.mp hl
        rw [← hd, table_of_conn hz, Connection.table_of_link hl, he] at hm
        rw [List.lookup_eq_none_iff] at hn
        exact absurd (hn _ hm) (by simp)
      · exact hA k y hk hy hw
    · rw [if_pos hy]
      exact List.mem_append_right _ (List.mem_singleton.mpr rfl)
  | learn hk hx =>
    exact hA.change (fun x => { x with state := .ended _ }) rfl (by simp) fun _ _ _ hm => hm
  | lose hk hx =>
    exact hA.change (fun x => { x with state := .ended _ }) rfl (by simp) fun _ _ _ hm => hm
  | expire hk hx hd ho =>
    exact hA.change (fun x => { x with state := .ended _ }) rfl (by simp)
      fun hne _ _ hm => mem_withdraw hB ho hne hm
  | drop hk hx ho =>
    exact hA.change (fun x => { x with state := .dropped }) rfl (by simp)
      fun hne _ _ hm => mem_withdraw hB ho hne hm
  | @remove d k x id l l' s e hx hl ha hr =>
    obtain ⟨hm, z, hz, hc, hi, hs⟩ := hB.removed hx hl ha
    refine hA.change (fun y => y.resolve s) rfl (fun y hy => ?_) fun {n y} hne hn hy hm' => ?_
    · obtain rfl := Option.some.inj (hz.symm.trans hy)
      rw [Call.resolve, if_pos (Call.isWaiting_iff.mpr hs)]
      cases hr <;> rintro ⟨⟩
    · rw [table_answered hx hl ha rfl]
      split
      · next hd =>
        subst hd
        refine mem_without.mpr ⟨hm', fun he => hne ?_⟩
        change y.id = id at he
        rw [he] at hm'
        exact hB.unique hm hm'
      · exact hm'
  | @cut d x flush hx =>
    intro k y hk hy hw
    rw [getElem?_severed] at hk
    obtain ⟨z, hz, he⟩ := Option.map_eq_some_iff.mp hk
    split at he
    · -- A call that was resolved does not wait.
      subst he
      rw [Call.resolve] at hw
      split at hw
      · cases hw
      · next hn => exact absurd (Call.isWaiting_iff.mpr hw) hn
    · next hnot =>
      subst he
      have hm := hA k z hz hy hw
      rw [table_severed hx]
      split
      · next hd =>
        subst hd
        rw [table_of_conn hx] at hm
        refine absurd ?_ hnot
        rw [← x.map_snd_table]
        exact List.mem_map_of_mem hm
      · exact hm

end Awaited

/-! ## Identifiers that are given again -/

/-- No two calls over a connection have the same identifier as long as there are enough of them. -/
theorem Booked.apart (hB : w.Booked) (hn : w.started c ≤ Int64.size) {k n : Nat} {x y : Call}
    (hx : w.calls[k]? = some x) (hy : w.calls[n]? = some y) (hxc : x.conn = c) (hyc : y.conn = c)
    (hi : x.id = y.id) : k = n := by
  have hp : w.calls.Pairwise fun x y => x.conn = c → y.conn = c → x.id ≠ y.id := by
    have hd := firstIds_nodup hn
    rw [← hB.given, Network.given, Network.keys, List.Nodup, List.pairwise_map,
      List.pairwise_filter, List.pairwise_map] at hd
    refine hd.imp fun {x y} h hx hy => ?_
    exact h (decide_eq_true hx) (decide_eq_true hy)
  rw [List.pairwise_iff_getElem] at hp
  obtain ⟨hk, rfl⟩ := List.getElem?_eq_some_iff.mp hx
  obtain ⟨hn, rfl⟩ := List.getElem?_eq_some_iff.mp hy
  rcases Nat.lt_trichotomy k n with h | h | h
  · exact absurd hi (hp k n hk hn h hxc hyc)
  · exact h
  · exact absurd hi.symm (hp n k hn hk h hyc hxc)

/-- An identifier is given a second time only when all integers of 64 bits were given. -/
theorem Booked.size_le (hB : w.Booked) {k : Nat} {x : Call} (hx : w.calls[k]? = some x)
    (hr : w.Repeats x.conn k x.id) : Int64.size ≤ w.started x.conn := by
  rcases hr with ⟨l, hl, hi⟩ | ⟨n, y, hne, hy, hyc, hi⟩
  · obtain ⟨z, hz, hl⟩ := link?_eq_some.mp hl
    have hc : x.id = .number (Int64.ofNat (w.started x.conn)) := by
      rw [← hi, ← Connection.counter_of_link hl, ← counter_of_conn hz, hB.counter]
      rfl
    -- The identifier that comes next is among those that were given.
    have hm : x.id ∈ firstIds (w.started x.conn) := by
      rw [← hB.given]
      refine List.mem_map.mpr ⟨x.key, List.mem_filter.mpr ⟨?_, by simp [Call.key]⟩, rfl⟩
      exact List.mem_map_of_mem (List.mem_of_getElem? hx)
    refine Nat.le_of_not_lt fun hlt => ?_
    have hd := firstIds_nodup (Nat.succ_le_of_lt hlt)
    rw [firstIds_succ, List.nodup_append] at hd
    exact hd.2.2 _ hm _ (List.mem_singleton.mpr rfl) hc
  · refine Nat.le_of_not_lt fun hlt => ?_
    exact hne (hB.apart (Nat.le_of_lt hlt) hy hx hyc rfl hi)

end Network

end Parley
