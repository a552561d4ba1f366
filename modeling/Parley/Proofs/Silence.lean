import Parley.Proofs.Booking
import Parley.Proofs.Sending
import Parley.Proofs.Turns

/-!
# What is done in silence

A notification goes out because somebody sends it, or because a call is given up. Everything else
that a network does is silent: it may wake tasks, take messages in, answer requests, and begin calls
or connections and the end of connections, but it sends no notification, ends no call and gives none
up.

- `Network.Silent`: nothing has happened but what is silent.
- `Network.silent_startCall`, `Network.silent_readLoop`, `Network.silent_writeLoop`, and the others:
  what is silent.
-/

namespace Parley

/-- Whether an event neither sends a notification nor is the end of a call. -/
def Event.isSilent : Event → Bool
  | .accepted _ (.notification _ _) | .ended _ _ | .dropped _ => false
  | _ => true

namespace Network

/-- Nothing has happened but what is silent, and no call has changed its connection or its
identifier. -/
structure Silent (w w' : Network) : Prop where
  journal : ∃ es, w'.journal = es ++ w.journal ∧ ∀ e ∈ es, e.isSilent = true
  keys : w.keys <+: w'.keys

namespace Silent

variable {u v w : Network}

/-- Neither the journal nor a call has changed. -/
theorem of_same (hj : w.journal = v.journal) (hk : w.keys = v.keys) : Silent v w :=
  ⟨⟨[], hj, fun _ he => absurd he List.not_mem_nil⟩, hk ▸ List.prefix_rfl⟩

theorem refl (w : Network) : Silent w w := .of_same rfl rfl

theorem trans (h : Silent u v) (h' : Silent v w) : Silent u w := by
  obtain ⟨es, hj, he⟩ := h.journal
  obtain ⟨fs, hj', hf⟩ := h'.journal
  refine ⟨⟨fs ++ es, by rw [hj', hj, List.append_assoc], fun e hm => ?_⟩, h.keys.trans h'.keys⟩
  exact (List.mem_append.mp hm).elim (hf e) (he e)

theorem same (h : Silent u v) (hj : w.journal = v.journal) (hk : w.keys = v.keys) : Silent u w :=
  h.trans (.of_same hj hk)

/-- Before that, what does not count has changed. -/
theorem after (h : Silent v w) (hj : v.journal = u.journal) (hk : v.keys = u.keys) : Silent u w :=
  (of_same hj hk).trans h

theorem roused (h : Silent u v) (h' : Roused v w) : Silent u w := by
  obtain ⟨q, -, rfl⟩ := h'
  exact h.same rfl rfl

theorem emit (h : Silent u v) {e : Event} (he : e.isSilent = true) : Silent u (v.emit e) :=
  h.trans ⟨⟨[e], rfl, fun _ hm => List.mem_singleton.mp hm ▸ he⟩, List.prefix_rfl⟩

/-- Before that, something silent has happened. -/
theorem behind {e : Event} (h : Silent (v.emit e) w) (he : e.isSilent = true) : Silent v w :=
  ((refl v).emit he).trans h

theorem modifyCall (h : Silent u v) (k : Nat) {f : Call → Call} (hf : ∀ x, (f x).key = x.key) :
    Silent u (v.modifyCall k f) :=
  h.same rfl (keys_modify f k v.calls hf)

theorem foldl {α : Type} {f : Network → α → Network} (hf : ∀ w a, Silent w (f w a)) (l : List α)
    (w : Network) : Silent w (l.foldl f w) := by
  induction l generalizing w with
  | nil => exact .refl w
  | cons a l ih => exact (hf w a).trans (ih _)

end Silent

variable {w w' : Network}

/-! ## What goes out -/

theorem silent_log (w : Network) (l : Log) : Silent w (w.log l) := (Silent.refl w).emit rfl

theorem silent_report (w : Network) (n : Notice) : Silent w (w.report n) := (Silent.refl w).emit rfl

/-- A reply is no notification. -/
theorem silent_reply (w : Network) (c : Nat) (r : Reply) : Silent w (w.reply c r) := by
  rw [reply]
  cases hs : w.sendOn c (.reply r) with
  | none => exact .refl w
  | some w' =>
    obtain ⟨l, -, rfl⟩ := Option.map_eq_some_iff.mp hs
    have hset : Silent w (w.setLink c l) := .of_same rfl rfl
    exact (hset.emit rfl).roused (roused_wakeIdleWriter _ c)

theorem silent_strand (w : Network) (k : Nat) : Silent w (w.strand k) :=
  ((Silent.refl w).modifyCall k (Call.key_resolve _)).emit rfl

/-- A call begins, and possibly takes its identifier from another one. -/
theorem silent_startCall {d k : Nat} {method : String} {params : Json} {shape : Option Json.Shape}
    {waiter : Option Task} (h : w.startCall d method params shape waiter = .ok (k, w')) :
    Silent w w' := by
  rw [startCall] at h
  simp only at h
  split at h
  · cases h
  · next c id former l _ =>
    obtain ⟨-, rfl⟩ := Prod.mk.inj (Except.ok.inj h)
    have queued : ∀ (v : Network) (x : Call) (k : Nat), Silent v
        (((({ v with calls := v.calls ++ [x] } : Network).setLink c l).emit (.started k)).emit
          (.accepted c (.request id method params)) |>.wakeIdleWriter c) := fun v x k => by
      have hcall : Silent v (({ v with calls := v.calls ++ [x] } : Network).setLink c l) :=
        ⟨(Silent.refl v).journal, ⟨[x.key], by simp [keys, setLink, modifyConn]⟩⟩
      exact ((hcall.emit rfl).emit rfl).roused (roused_wakeIdleWriter _ c)
    cases former with
    | none => exact queued _ _ _
    | some n =>
      exact ((silent_strand w n).trans (queued _ _ _)).roused (roused_wakeCall _ n)

theorem silent_resolveCall (w : Network) (k : Nat) (s : CallState) :
    Silent w (w.resolveCall k s) :=
  have hresolved : Silent w (w.resolved [k] s) := .of_same rfl (keys_resolved w [k] s)
  hresolved.roused (roused_resolveCall w k s)

theorem silent_advance (w : Network) (secs : Nat) : Silent w (w.advance secs) := by
  rw [advance]
  exact (Silent.foldl (fun w (e : Nat × Nat) =>
    (Silent.refl w).roused (roused_wakeCall w e.2)) _ _).after rfl rfl

/-! ## Registrations -/

theorem silent_handle {d : Nat} {method : String} {h : Handler}
    (hw : w.handle d method h = .ok w') : Silent w w' := by
  rw [handle] at hw
  split at hw
  · obtain rfl := Except.ok.inj hw
    exact .refl w
  · next x _ =>
    cases hx : x.handle method h with
    | error e => simp [hx, Except.map] at hw
    | ok y =>
      rw [hx] at hw
      obtain rfl := Except.ok.inj hw
      exact .of_same rfl rfl

theorem silent_register {d n : Nat} {descriptor : Descriptor} {hooks : List Retraction}
    (h : w.register d descriptor hooks = .ok (n, w')) : Silent w w' := by
  rw [register] at h
  simp only at h
  split at h
  · obtain ⟨-, rfl⟩ := Prod.mk.inj (Except.ok.inj h)
    exact .of_same rfl rfl
  · next x _ =>
    cases hx : x.register ⟨w.registrations.length, descriptor⟩ with
    | error e => simp [hx, Except.map] at h
    | ok y =>
      rw [hx] at h
      obtain ⟨-, rfl⟩ := Prod.mk.inj (Except.ok.inj h)
      exact .of_same rfl rfl

theorem silent_unregister (w : Network) (serial : Nat) : Silent w (w.unregister serial).2 := by
  have silent_retract : ∀ (d : Nat) (w : Network) (r : Retraction),
      Silent w (retract serial d w r) := fun d w r => by
    cases r with
    | remove => exact .of_same rfl rfl
    | hook name counts => exact (Silent.refl w).emit rfl
  rw [unregister]
  split
  · exact .refl w
  · split
    · exact .refl w
    · exact (Silent.foldl (silent_retract _) _ _).after rfl rfl

theorem silent_unregisterAll (w : Network) (d : Nat) (method : String) :
    Silent w (w.unregisterAll d method) :=
  Silent.foldl silent_unregister _ _

theorem silent_dropDispatcher (w : Network) (d : Nat) : Silent w (w.dropDispatcher d) := by
  rw [dropDispatcher]
  split
  · exact .refl w
  · exact .of_same rfl rfl

/-! ## Runs of handlers -/

theorem silent_spawn (w : Network) (x : Run) : Silent w (w.spawn x) := by
  have hrun : Silent w { w with runs := w.runs ++ [x] } := .of_same rfl rfl
  exact (hrun.emit rfl).roused (roused_wake _ _)

section run

variable (w : Network) (r : Nat) (x : Run)

/-- A run ends, and what it served is answered. -/
theorem silent_finish (outcome : Except Failure Json) : Silent w (w.finish r outcome) := by
  rw [finish]
  split
  · exact .refl w
  · next y _ =>
    have hend : ∀ id : Option Id, Silent w
        ((w.modifyRun r fun x => { x with stage := .finished outcome }).emit
          (.finished r y.conn id outcome)) := fun id =>
      ((Silent.refl _).behind (by rfl)).after rfl rfl
    cases y.id with
    | none => exact hend none
    | some id => exact (hend (some id)).trans ((silent_reply _ _ _).after rfl rfl)

theorem silent_endHanging (answers : Bool) (params : Json) :
    Silent w (w.endHanging r x answers params) :=
  (silent_report w _).trans (silent_finish _ r _)

theorem silent_passGate (params : Json) : Silent w (w.passGate r x params) :=
  (silent_report w _).trans (silent_finish _ r _)

theorem silent_passOn (outcome : Except CallError Json) : Silent w (w.passOn r x outcome) :=
  (silent_report w _).trans (silent_finish _ r _)

theorem silent_hang (answers : Bool) (params : Json) : Silent w (w.hang r x answers params) := by
  rw [hang]
  split
  · exact silent_endHanging w r x answers params
  · exact .of_same rfl rfl

theorem silent_awaitGate (gate : String) (params : Json) :
    Silent w (w.awaitGate r x gate params) := by
  rw [awaitGate]
  split
  · exact silent_passGate w r x params
  · exact .of_same rfl rfl

theorem silent_openGate (gate : String) : Silent w (w.openGate gate) := by
  rw [openGate]
  exact (Silent.foldl (fun w (e : String × Nat) =>
    (Silent.refl w).roused (roused_wake w (.handler e.2))) _ _).after rfl rfl

theorem silent_cancelRun : Silent w (w.cancelRun r) := by
  have hrun : Silent w (w.modifyRun r fun x => { x with cancelled := true }) := .of_same rfl rfl
  rw [cancelRun]
  split
  · exact hrun.roused (roused_wake _ _)
  · exact hrun

end run

/-! ## Messages that come in -/

/-- Whatever a message asks for, no handler has its turn yet. -/
theorem silent_route (w : Network) (c d : Nat) (m : Message) : Silent w (w.route c d m) := by
  cases m with
  | reply r =>
    rw [route, receiveReply]
    split
    · exact silent_log w _
    · exact (silent_resolveCall _ _ _).after rfl rfl
  | unidentified f => exact silent_log w _
  | notification method params =>
    rw [route, receiveNotification]
    split
    · rw [receiveCancel]
      split
      · exact silent_log w _
      · split
        · exact .refl w
        · exact silent_cancelRun w _
    · split
      · exact .refl w
      · exact (Silent.foldl (fun w (_ : Handler) => silent_spawn w _) _ _).after rfl rfl
  | request id method params =>
    rw [route, receiveRequest]
    split
    · exact (silent_reply _ _ _).behind rfl
    · exact (silent_spawn _ _).after rfl rfl

theorem silent_receive (w : Network) (c : Nat) (m : Message) : Silent w (w.receive c m) := by
  rw [receive]
  split
  · exact .refl w
  · exact (silent_route _ c _ m).behind rfl

/-! ## The beginning and the end of connections -/

theorem silent_connect (w : Network) (c d : Nat) : Silent w (w.connect c d).2 := by
  rw [connect]
  split
  · simp only
    split
    · split
      · exact .of_same rfl rfl
      · next v hb =>
        have hv : Silent w v := by
          rw [bind] at hb
          split at hb
          · cases hb
          · obtain rfl := Except.ok.inj hb
            exact .of_same rfl rfl
        have hstart : Silent w (v.modifyConn c fun x => x.start d) := hv.same rfl rfl
        exact (hstart.roused (roused_wake _ (.reader c))).roused (roused_wake _ (.writer c))
    · exact .of_same rfl rfl
  · exact .refl w
  · exact .refl w

theorem silent_closePipe (w : Network) (p : Nat) : Silent w (w.closePipe p) := by
  rw [closePipe]
  split
  · exact .refl w
  · exact (((Silent.refl _).roused (roused_wakeReader _ _)).roused
      (roused_wakeBusyWriter _ _)).after rfl rfl

theorem silent_dropStream (w : Network) (c : Nat) : Silent w (w.dropStream c) := by
  rw [dropStream]
  split
  · exact (silent_closePipe w _).trans (silent_closePipe _ _)
  · exact .refl w

theorem silent_closeIfFinished (w : Network) (c : Nat) : Silent w (w.closeIfFinished c) := by
  rw [closeIfFinished]
  split
  · exact (silent_dropStream _ c).after rfl rfl
  · exact .refl w

theorem silent_stopReading (w : Network) (c : Nat) : Silent w (w.stopReading c) :=
  ((silent_closeIfFinished _ c).behind (by rfl)).after rfl rfl

theorem silent_stopWriting (w : Network) (c : Nat) : Silent w (w.stopWriting c) := by
  rw [stopWriting]
  refine Silent.trans ?_ (((silent_closeIfFinished _ c).behind rfl).behind rfl)
  split
  · exact (silent_closePipe _ _).after rfl rfl
  · exact .of_same rfl rfl

/-- The end of a connection begins. Who waits is told later, by his own task. -/
theorem silent_teardown (w : Network) (c : Nat) (flush : Bool) :
    Silent w (w.teardown c flush) := by
  rw [teardown]
  split
  · exact .refl w
  · next x _ =>
    split
    · have hcut : Silent w ((w.modifyConn c fun x => x.cut flush).emit (.cut c flush)) :=
        ((Silent.refl _).behind (by rfl)).after rfl rfl
      have waken : ∀ u v : Network, Silent u v → Silent u
          (((v.hangingRuns c).foldl (fun w r => w.wake (.handler r)) v).wakeReader c) :=
        fun u v h =>
          (h.trans (Silent.foldl (fun w _ => (Silent.refl w).roused (roused_wake w _)) _ _)).roused
            (roused_wakeReader _ c)
      have resolve : ∀ v : Network,
          Silent v (x.waiters.foldl (fun w k => w.resolveCall k .closed) v) :=
        Silent.foldl (fun w _ => silent_resolveCall w _ _) _
      cases flush with
      | true => exact waken _ _ ((hcut.roused (roused_wakeIdleWriter _ c)).trans (resolve _))
      | false =>
        exact waken _ _ (((hcut.trans (resolve _)).roused (roused_wakeIdleWriter _ c)).roused
          (roused_wakeBusyWriter _ c))
    · exact .refl w

theorem silent_disconnect (w : Network) (c : Nat) (flush : Bool) :
    Silent w (w.disconnect c flush) := by
  rw [disconnect]
  split
  · exact (((silent_dropStream _ c).behind (by rfl)).behind (by rfl)).after rfl rfl
  · exact silent_teardown w c flush

/-! ## The loop that reads -/

theorem silent_takeInput (w : Network) (c : Nat) : Silent w (w.takeInput c).2.2 := by
  rw [takeInput]
  split
  · exact .refl w
  · exact .of_same rfl rfl
  · split
    · exact .refl w
    · simp only
      split
      · exact .refl w
      · exact ((Silent.refl _).roused (roused_wakeBusyWriter _ _)).after rfl rfl

theorem silent_failReading (w : Network) (c : Nat) (e : ReadError) : Silent w (w.failReading c e) :=
  ((silent_log w _).trans (silent_teardown _ c false)).trans (silent_stopReading _ c)

theorem silent_endReading (w : Network) (c : Nat) : Silent w (w.endReading c) :=
  (silent_teardown w c _).trans (silent_stopReading _ c)

/-- The turn of the loop that reads. -/
theorem silent_readLoop (w : Network) (c : Nat) : Silent w (w.readLoop c) := by
  apply readLoop_induction (P := Silent w) (Q := Silent w)
  case receive => exact fun m h => h.trans (silent_receive _ c m)
  case fail => exact fun e h => h.trans (silent_failReading _ c e)
  case done => exact fun h => h.trans (silent_endReading _ c)
  case goOn => exact fun _ h => h.same rfl rfl
  case rest => exact .refl w
  case stop => exact fun _ _ _ _ _ => silent_stopReading w c
  case take => exact fun _ _ _ _ _ => silent_takeInput w c

/-! ## The loop that writes -/

theorem silent_takeOutput (w : Network) (c : Nat) (bs : List UInt8) :
    Silent w (w.takeOutput c bs).2 := by
  rw [takeOutput]
  split
  · exact .refl w
  · exact .of_same rfl rfl
  · split
    · exact .refl w
    · simp only
      split
      · exact .of_same rfl rfl
      · exact ((Silent.refl _).roused (roused_wakeReader _ _)).after rfl rfl

theorem silent_write (w : Network) (c : Nat) (bs : List UInt8) : Silent w (w.write c bs).2 := by
  rw [write]
  refine (silent_takeOutput w c bs).trans ?_
  simp only
  split
  · exact .refl _
  · exact ((Silent.refl _).behind (by rfl)).after rfl rfl

theorem silent_failWriting (w : Network) (c : Nat) (text : String) :
    Silent w (w.failWriting c text) :=
  (((silent_log w _).trans (silent_teardown _ c false)).emit rfl).trans (silent_stopWriting _ c)

theorem silent_writeOn (w : Network) (c : Nat) (rest : List UInt8) :
    Silent w (w.writeOn c rest) := by
  rw [writeOn]
  refine (silent_write w c rest).trans ?_
  simp only
  split
  · exact silent_failWriting _ c _
  · split
    · split
      · exact silent_failWriting _ c _
      · exact .of_same rfl rfl
    · exact .refl _

/-- The turn of the loop that writes. -/
theorem silent_writeLoop (c n : Nat) (w : Network) : Silent w (writeLoop c n w) := by
  apply writeLoop_induction (P := Silent w)
  case abort => exact fun h _ _ _ => h.trans (silent_stopWriting _ c)
  case drain => exact fun h _ _ _ => h.trans ((silent_stopWriting _ c).after rfl rfl)
  case begin => exact fun h _ _ _ _ => h.same rfl rfl
  case goOn => exact fun h _ _ _ => h.trans (silent_writeOn _ c _)
  case h => exact .refl w

end Network

end Parley
