import Parley.Proofs.Channel

/-!
# Messages that the other end refuses

What a connection sends the other one should be able to read. It is, except for one thing: nothing
bounds how deep the values of a message may be nested, but a body that is nested deeper than
`Json.maxDepth` is refused, and the wire object of a message counts as well. A single such message
ends the connection that receives it.

- `Message.nesting`: how deep the body of a message is nested.
- `Frame.feed_wire`: what the frames of some messages come to.
- `Frame.verdict_open_of_isPrefix`, `Frame.verdict_of_deep`: what a reader makes of them.
- `Network.refuses_only_deep`: which messages are refused, and what becomes of a connection.
-/

namespace Parley

/-! ## How deep a body is nested -/

namespace Json

variable {ms ns : List (String × Json)}

theorem depthMembers_insertMember {k : String} (v : Json) (h : ∀ m ∈ ms, m.1 ≠ k) :
    depthMembers (insertMember k v ms) = max v.depth (depthMembers ms) := by
  induction ms with
  | nil => rfl
  | cons m ms ih =>
    obtain ⟨l, w⟩ := m
    obtain ⟨hl, hms⟩ := List.forall_mem_cons.mp h
    rw [insertMember, if_neg (Ne.symm hl)]
    split
    · rfl
    · rw [depthMembers, ih hms, depthMembers, Nat.max_left_comm]

theorem depthMembers_foldl (hns : ns.Pairwise fun m n => m.1 ≠ n.1)
    (h : ∀ n ∈ ns, ∀ m ∈ ms, m.1 ≠ n.1) :
    depthMembers (ns.foldl (fun acc m => insertMember m.1 m.2 acc) ms) =
      max (depthMembers ms) (depthMembers ns) := by
  induction ns generalizing ms with
  | nil => exact (Nat.max_zero _).symm
  | cons n ns ih =>
    obtain ⟨hn, hns⟩ := List.pairwise_cons.mp hns
    obtain ⟨hfirst, hrest⟩ := List.forall_mem_cons.mp h
    have hnew : ∀ o ∈ ns, ∀ m ∈ insertMember n.1 n.2 ms, m.1 ≠ o.1 := by
      intro o ho m hm
      rcases mem_insertMember hm with rfl | hm
      · exact hn o ho
      · exact hrest o ho m hm
    rw [List.foldl_cons, ih hns hnew, depthMembers_insertMember n.2 hfirst, depthMembers,
      Nat.max_comm n.2.depth, Nat.max_assoc]

/-- An object whose keys differ is nested as deep as its members, and once more. -/
theorem depth_ofMembers (h : ms.Pairwise fun m n => m.1 ≠ n.1) :
    (ofMembers ms).depth = depthMembers ms + 1 := by
  rw [ofMembers, depth, depthMembers_foldl h fun _ _ _ hm => absurd hm List.not_mem_nil,
    depthMembers, Nat.zero_max]

theorem depth_ofInt (n : Int) : (ofInt n).depth = 0 := by
  rw [ofInt]
  cases Whole.ofInt? n <;> rfl

end Json

namespace Message

/-- How deep the body of a message is nested. The params and the result of a message stand in its
wire object, and the data of a failure stand in an object inside of it. -/
def nesting : Message → Nat
  | .request _ _ params | .notification _ params => params.depth + 1
  | .reply r =>
    match r.outcome with
    | .ok v => v.depth + 1
    | .error f => f.data.elim 0 Json.depth + 2
  | .unidentified f => f.data.elim 0 Json.depth + 2

theorem depth_idToJson (id : Id) : id.toJson.depth = 0 := by
  cases id with
  | text s => rfl
  | number n => exact Json.depth_ofInt n.toInt

theorem depth_failureToJson (f : Failure) : f.toJson.depth = f.data.elim 0 Json.depth + 1 := by
  have hcode := Json.depth_ofInt f.code.val.toInt
  rw [Failure.toJson_eq, Json.depth, Failure.sorted]
  cases f.data <;> simp [Json.depthMembers, Json.depth, hcode]

theorem depthMembers_paramsMember (params : Json) :
    Json.depthMembers (paramsMember params) = params.depth := by
  rw [paramsMember]
  split
  · next h =>
    rw [h]
    rfl
  · exact Nat.max_zero _

theorem depth_toJson (m : Message) : m.toJson.depth = m.nesting := by
  -- The members of a wire object have different keys.
  have hkeys : (("jsonrpc", .str "2.0") :: m.members).Pairwise fun m n => m.1 ≠ n.1 := by
    cases m with
    | request id method params =>
      by_cases hp : params = .null <;> simp [members, paramsMember, hp]
    | notification method params =>
      by_cases hp : params = .null <;> simp [members, paramsMember, hp]
    | reply r => rcases ho : r.outcome with f | v <;> simp [members, ho]
    | unidentified f => simp [members]
  rw [toJson, Json.depth_ofMembers hkeys]
  cases m with
  | request id method params =>
    simp [members, Json.depthMembers, depthMembers_paramsMember, depth_idToJson, Json.depth,
      nesting]
  | notification method params =>
    simp [members, Json.depthMembers, depthMembers_paramsMember, Json.depth, nesting]
  | reply r =>
    rcases ho : r.outcome with f | v
    · simp [members, Json.depthMembers, depth_idToJson, depth_failureToJson, Json.depth, nesting,
        ho]
    · simp [members, Json.depthMembers, depth_idToJson, Json.depth, nesting, ho]
  | unidentified f =>
    simp [members, Json.depthMembers, depth_failureToJson, Json.depth, nesting]

end Message

/-! ## What a reader makes of frames -/

namespace Frame

open Network (bodyError? messagesIn messagesIn_append map_fst_readMessages verdict verdict_of_ok
  verdict_of_bad)

variable {limit : Nat} {ms : List Message}

/-- The bodies of frames that are not too large are read, whatever they say. -/
theorem readFrames_wire (h : ∀ m ∈ ms, m.toBytes.length < 0x10000000000000000)
    (hlimit : ∀ m ∈ ms, m.toBytes.length ≤ limit) :
    (readFrames limit (wire ms)).1.map Prod.fst = ms.map Message.toBytes ∧
      (readFrames limit (wire ms)).2 = none := by
  induction ms with
  | nil =>
    rw [wire_nil, readFrames_nil]
    exact ⟨rfl, rfl⟩
  | cons m ms ih =>
    obtain ⟨hm, hms⟩ := List.forall_mem_cons.mp h
    obtain ⟨hmlimit, hmslimit⟩ := List.forall_mem_cons.mp hlimit
    obtain ⟨hbodies, hstop⟩ := ih hms hmslimit
    have hframe : nextFrame limit (frame m.toBytes ++ wire ms) = _ := nextFrame_frame hm hmlimit
    rw [wire_cons, Message.frame, readFrames_frame hframe, List.map_cons, List.map_cons, hbodies]
    exact ⟨rfl, hstop⟩

/-- So they are while the stream goes on. -/
theorem feed_wire (h : ∀ m ∈ ms, m.toBytes.length < 0x10000000000000000)
    (hlimit : ∀ m ∈ ms, m.toBytes.length ≤ limit) :
    ∃ t, Intake.start.feed limit (wire ms) = (ms.map Message.toBytes, .ok t) := by
  obtain ⟨hbodies, hstop⟩ := readFrames_wire h hlimit
  have hdrain : Intake.start.drain limit (wire ms) = (ms.map Message.toBytes, none) := by
    rw [drain_start, hbodies, hstop]
  rw [Intake.drain] at hdrain
  rcases hf : Intake.start.feed limit (wire ms) with ⟨bodies, e | t⟩
  · rw [hf] at hdrain
    cases congrArg Prod.snd hdrain
  · refine ⟨t, ?_⟩
    simp only [hf] at hdrain
    cases hfin : t.finish limit with
    | error e =>
      rw [hfin] at hdrain
      cases congrArg Prod.snd hdrain
    | ok o =>
      simp only [hfin] at hdrain
      cases o with
      | none =>
        obtain ⟨rfl, -⟩ := Prod.mk.inj hdrain
        rfl
      | some body =>
        -- Only a frame without a body can end with the stream.
        obtain rfl := Network.finish_eq_some hfin
        obtain ⟨hlast, -⟩ := Prod.mk.inj hdrain
        have hmem : [] ∈ ms.map Message.toBytes := by
          rw [← hlast]
          exact List.mem_append_right _ List.mem_cons_self
        obtain ⟨m, -, hm⟩ := List.mem_map.mp hmem
        exact absurd hm m.toBytes_ne_nil

theorem bodyError?_toBytes {m m' : Message} (h : Message.ofBytes m.toBytes = .ok m') :
    bodyError? m.toBytes = none := by
  rw [bodyError?, h]

/-- Messages that the reader takes are all in their bodies. -/
theorem bodies_of_isReadable (h : ∀ m ∈ ms, m.IsReadable limit) :
    (ms.map Message.toBytes).findSome? bodyError? = none ∧
      messagesIn (ms.map Message.toBytes) = ms.map Message.plain := by
  induction ms with
  | nil => exact ⟨rfl, rfl⟩
  | cons m ms ih =>
    obtain ⟨hm, hms⟩ := List.forall_mem_cons.mp h
    obtain ⟨hgood, hall⟩ := ih hms
    have hbody := Message.ofBytes_shallow hm.exact hm.depth
    constructor
    · rw [List.map_cons, List.findSome?_cons, bodyError?_toBytes hbody]
      exact hgood
    · simp only [List.map_cons, messagesIn, hbody, hall]

/-- As long as a stream goes on, a reader that takes every message goes on as well, wherever what
has arrived is cut off. -/
theorem verdict_open_of_isPrefix (h : ∀ m ∈ ms, m.IsReadable limit) {bs : List UInt8}
    (hbs : bs <+: wire ms) : verdict limit .start bs .open = .goesOn := by
  obtain ⟨more, hwire⟩ := hbs
  obtain ⟨t, hfeed⟩ := feed_wire (fun m hm => (h m hm).word) fun m hm => (h m hm).size
  rw [← hwire] at hfeed
  rcases hf : Intake.start.feed limit bs with ⟨bodies, e | s⟩
  · rw [Intake.feed_append_of_error hf] at hfeed
    cases congrArg Prod.snd hfeed
  · rw [Intake.feed_append_of_ok hf] at hfeed
    obtain ⟨hbodies, -⟩ := Prod.mk.inj hfeed
    have hgood := (bodies_of_isReadable h).1
    rw [← hbodies, List.findSome?_append, Option.or_eq_none_iff] at hgood
    rw [verdict_of_ok hf hgood.1]
    rfl

/-- The first message that is nested too deep is refused, whatever follows it. -/
theorem verdict_of_deep {m : Message} (h : ∀ b ∈ ms, b.IsReadable limit)
    (hx : ∀ v ∈ m.payloads, v.all Json.isExact = true) (hd : Json.maxDepth < m.nesting)
    (hn : m.toBytes.length < 0x10000000000000000) (hlimit : m.toBytes.length ≤ limit)
    {bs : List UInt8} (hbs : wire (ms ++ [m]) <+: bs) :
    (∃ e, e.cause = .tooDeep ∧
      ∀ sequel, verdict limit .start bs sequel = .failed (.badJson e)) ∧
    (readMessages limit bs).1.map Prod.fst = ms.map Message.plain := by
  obtain ⟨more, rfl⟩ := hbs
  obtain ⟨e, he, hcause⟩ := Message.ofBytes_deep hx (by rwa [m.depth_toJson])
  have hsize : ∀ b ∈ ms ++ [m], b.toBytes.length < 0x10000000000000000 ∧
      b.toBytes.length ≤ limit := by
    intro b hb
    rcases List.mem_append.mp hb with hb | hb
    · exact ⟨(h b hb).word, (h b hb).size⟩
    · rw [List.mem_singleton.mp hb]
      exact ⟨hn, hlimit⟩
  -- All frames are read, and the last body is the first one that is no message.
  obtain ⟨t, hfeed⟩ := feed_wire (fun b hb => (hsize b hb).1) fun b hb => (hsize b hb).2
  have hall := Intake.feed_append_of_ok hfeed more
  obtain ⟨hgood, hmessages⟩ := bodies_of_isReadable h
  rw [List.map_append, List.append_assoc] at hall
  constructor
  · refine ⟨e, hcause, fun sequel => verdict_of_bad hall ?_ sequel⟩
    have hbad : bodyError? m.toBytes = some (.badJson e) := by rw [bodyError?, he]
    rw [List.findSome?_append, hgood, Option.none_or, List.map_singleton, List.singleton_append,
      List.findSome?_cons, hbad]
  · have hnone : ∀ rest, messagesIn (m.toBytes :: rest) = [] := by
      intro rest
      simp only [messagesIn, he]
    rw [map_fst_readMessages, hall]
    simp only [List.map_singleton, List.singleton_append]
    rw [messagesIn_append hgood, hmessages, hnone, List.append_nil]

end Frame

/-! ## What becomes of a connection -/

namespace Network

open Parley.Frame

variable {w : Network} {c d : Nat} {q : List Task}

/-- Reading from a pipe never fails. -/
theorem Joined.takeInput_ne_fault (hj : w.Joined c d) (text : String) :
    (w.takeInput d).2.1 ≠ .fault text := by
  obtain ⟨i, o, config, config', hc, hd, -⟩ := hj.tuned
  obtain ⟨p, -, -, -, hwait⟩ := hd.pipe hc
  have hsequel : (w.takeInput d).2.1 = w.pipeSequel o := congrArg Prod.snd hwait
  rw [hsequel, pipeSequel]
  split <;> rintro ⟨⟩

/-- A loop that reads messages that it takes reports no error, unless the stream has ended inside a
frame. -/
theorem Joined.faults_of_isReadable (hj : w.Joined c d) (hd : w.IsConnected d)
    (hq : w.ready = .reader d :: q) (hm : ∀ m ∈ w.journal.accepted c, m.IsReadable (w.limit d)) :
    (Network.run w [.settle 1]).journal.faults = w.journal.faults ∨
      (w.takeInput d).2.1 = .ended ∧
        ∀ n, w.journal.written c ≠ wire ((w.journal.accepted c).take n) := by
  obtain ⟨y, hy, htakes, -⟩ := hj.takesIn
  obtain ⟨-, hfaults, -, -⟩ := htakes.turn hd q hq
  have hwritten : w.journal.written c <+: wire (w.journal.accepted c) :=
    hj.reachable.written_isPrefix c
  rw [limit, hy, Option.elim_some] at hm
  have hopen := verdict_open_of_isPrefix hm hwritten
  -- It depends on what follows the bytes that were written.
  cases hs : (w.takeInput d).2.1 with
  | «open» =>
    rw [hs, hopen] at hfaults
    exact .inl hfaults
  | fault text => exact absurd hs (hj.takeInput_ne_fault text)
  | ended =>
    by_cases hwhole : ∃ n, w.journal.written c = wire ((w.journal.accepted c).take n)
    · obtain ⟨n, hn⟩ := hwhole
      have hread : ∀ m ∈ (w.journal.accepted c).take n,
          m.IsReadable y.config.maxContentLength := fun m hmem => hm m (List.mem_of_mem_take hmem)
      have hstop := (readMessages_wire hread).2
      rw [hs, verdict_ended, hn, hstop] at hfaults
      exact .inl hfaults
    · exact .inr ⟨rfl, fun n hn => hwhole ⟨n, hn⟩⟩

/-- A loop that comes to a message that is nested too deep reports that, and the end of its
connection begins. -/
theorem Joined.turn_of_deep (hj : w.Joined c d) (hd : w.IsConnected d)
    (hq : w.ready = .reader d :: q) {ms : List Message} {m : Message}
    (hms : ∀ b ∈ ms, b.IsReadable (w.limit d))
    (hx : ∀ v ∈ m.payloads, v.all Json.isExact = true) (hdeep : Json.maxDepth < m.nesting)
    (hn : m.toBytes.length < 0x10000000000000000) (hlimit : m.toBytes.length ≤ w.limit d)
    (hwritten : wire (ms ++ [m]) <+: w.journal.written c) :
    let v := Network.run w [.settle 1]
    v.journal.received d = ms.map Message.plain ∧ v.journal.cuts d = [false] ∧
      ∃ e, e.cause = .tooDeep ∧ v.journal.faults = .badJson e :: w.journal.faults := by
  intro v
  obtain ⟨y, hy, htakes, -⟩ := hj.takesIn
  obtain ⟨hrec, hfaults, hcuts, -⟩ := htakes.turn hd q hq
  rw [limit, hy, Option.elim_some] at hms hlimit
  obtain ⟨⟨e, hcause, hverdict⟩, hread⟩ := verdict_of_deep hms hx hdeep hn hlimit hwritten
  rw [hread] at hrec
  rw [hverdict] at hfaults hcuts
  exact ⟨hrec, hcuts, e, hcause, hfaults⟩

/-- **What is sent can be read, unless it is nested too deep.** The body of a message is read back
in its plain form if it is not nested deeper than `Json.maxDepth`, and it is refused if it is. When
two connections are joined, the loop of one of them reports no error about messages of the other one
that are not nested too deep and not too long; an error can then only come from an end of the stream
inside a frame. A message that is nested too deep ends the connection that comes to read it. -/
theorem refuses_only_deep {m : Message} (hx : ∀ v ∈ m.payloads, v.all Json.isExact = true) :
    (m.nesting ≤ Json.maxDepth → Message.ofBytes m.toBytes = .ok m.plain) ∧
    (Json.maxDepth < m.nesting →
      ∃ e, Message.ofBytes m.toBytes = .error (.badJson e) ∧ e.cause = .tooDeep) ∧
    ∀ (w : Network) (c d : Nat) (q : List Task), w.Joined c d → w.IsConnected d →
      w.ready = .reader d :: q →
      let v := run w [.settle 1]
      ((∀ b ∈ w.journal.accepted c, b.IsReadable (w.limit d)) →
        v.journal.faults = w.journal.faults ∨
          (w.takeInput d).2.1 = .ended ∧
            ∀ n, w.journal.written c ≠ wire ((w.journal.accepted c).take n)) ∧
      ∀ before : List Message, (∀ b ∈ before, b.IsReadable (w.limit d)) →
        Json.maxDepth < m.nesting →
        m.toBytes.length < 0x10000000000000000 → m.toBytes.length ≤ w.limit d →
        wire (before ++ [m]) <+: w.journal.written c →
        v.journal.received d = before.map Message.plain ∧ v.journal.cuts d = [false] ∧
          ∃ e, e.cause = .tooDeep ∧ v.journal.faults = .badJson e :: w.journal.faults := by
  refine ⟨?_, ?_, ?_⟩
  · rw [← m.depth_toJson]
    exact Message.ofBytes_shallow hx
  · rw [← m.depth_toJson]
    exact Message.ofBytes_deep hx
  · intro w c d q hj hd hq v
    constructor
    · exact hj.faults_of_isReadable hd hq
    · intro before hbefore hdeep hn hlimit hwritten
      exact hj.turn_of_deep hd hq hbefore hx hdeep hn hlimit hwritten

/-- A notification whose params are 127 arrays inside each other, after one that is read. -/
theorem refuses_only_deep_arrays :
    let params := Nat.repeat (fun v => Json.arr [v]) 127 .null
    let u := run {} [.openPipes 512 {} {}, .openDispatcher, .openDispatcher, .connect 0 0,
      .connect 1 1, .settle 9, .notify (.conn 0) "a" (.ok .null), .settle 1]
    let w := run u [.settle 1, .notify (.conn 0) "b" (.ok params), .settle 1]
    let v := run w [.settle 1]
    Message.ofBytes (Message.notification "a" .null).toBytes = .ok (.notification "a" .null) ∧
      (∃ e, Message.ofBytes (Message.notification "b" params).toBytes = .error (.badJson e) ∧
        e.cause = .tooDeep) ∧
      (run u [.settle 1]).journal.faults = [] ∧
      v.journal.received 1 = [.notification "a" .null] ∧ v.journal.cuts 1 = [false] := by
  intro params u w v
  have hj : u.Joined 0 1 := ⟨[], _, 512, {}, {}, rfl, .inl ⟨rfl, rfl⟩⟩
  obtain ⟨hconnected, hready, hlimit, hsent, hopen, hnone⟩ :
      (u.conns[1]?).map Connection.phase = some .connected ∧ u.ready = [.reader 1] ∧
        u.limit 1 = defaultMaxContentLength ∧
        u.journal.accepted 0 = [.notification "a" .null] ∧ (u.takeInput 1).2.1 = .open ∧
        u.journal.faults = [] := by decide +kernel
  obtain ⟨hconnected', hready', hlimit', hwritten⟩ :
      (w.conns[1]?).map Connection.phase = some .connected ∧ w.ready = [.reader 1] ∧
        w.limit 1 = defaultMaxContentLength ∧
        wire ([.notification "a" .null] ++ [.notification "b" params]) <+:
          w.journal.written 0 := by decide +kernel
  have hread : (Message.notification "a" .null).IsReadable defaultMaxContentLength :=
    ⟨by decide +kernel, by decide +kernel, by decide +kernel, by decide +kernel⟩
  have hexact : ∀ v ∈ (Message.notification "b" params).payloads, v.all Json.isExact = true := by
    decide +kernel
  have hdeep : Json.maxDepth < (Message.notification "b" params).nesting := by decide +kernel
  obtain ⟨hshallow, -, hnet⟩ := refuses_only_deep hread.exact
  obtain ⟨-, hrefused, hnet'⟩ := refuses_only_deep hexact
  obtain ⟨hgood, -⟩ := hnet u 0 1 [] hj (Option.map_eq_some_iff.mp hconnected) hready
  obtain ⟨-, hbad⟩ := hnet' w 0 1 [] (hj.run _) (Option.map_eq_some_iff.mp hconnected') hready'
  have hfaults := hgood (by rw [hsent, hlimit]; exact List.forall_mem_singleton.mpr hread)
  obtain ⟨hrec, hcuts, -⟩ := hbad [.notification "a" .null]
    (by rw [hlimit']; exact List.forall_mem_singleton.mpr hread) hdeep (by decide +kernel)
    (by rw [hlimit']; decide +kernel) hwritten
  refine ⟨hshallow (by decide +kernel), hrefused hdeep, ?_, hrec, hcuts⟩
  rw [hfaults.resolve_right fun h => by cases hopen.symm.trans h.1]
  exact hnone

/-- So a message that was accepted can be one that no reader takes. -/
theorem not_readable_arrays :
    let params := Nat.repeat (fun v => Json.arr [v]) 127 .null
    let m := Message.notification "m" params
    let w := run {} [.openPipes 512 {} {}, .openDispatcher, .openDispatcher, .connect 0 0,
      .connect 1 1, .notify (.conn 0) "m" (.ok params), .settle 99]
    params.all Json.isExact = true ∧ ¬(∃ d, Message.ofBytes m.toBytes = .ok d) ∧
      w.journal.accepted 0 = [m] ∧ w.journal.written 0 = m.frame ∧
      m.toBytes.length ≤ w.limit 1 ∧ w.journal.received 1 = [] ∧ w.journal.cuts 1 = [false] := by
  intro params m w
  refine ⟨by decide +kernel, ?_, by decide +kernel⟩
  rintro ⟨d, hd⟩
  have hnone : (Message.ofBytes m.toBytes).toOption = none := by decide +kernel
  rw [hd] at hnone
  cases hnone

end Network

end Parley
