import Parley.Network.Run

/-!
# What a network takes in

Little of what a network does has to do with the bytes that come in. Sending a message, looking
after calls, running handlers and even beginning the end of a connection leave alone what the loops
read and have read.

- `Network.inflow`: everything that has to do with what comes in.
- `Network.inflow_runHandler`, `Network.inflow_teardown`, and the others: what leaves it alone.
- `Network.inflow_receive`: handing a message on adds it to what came in, and does no more.
-/

namespace Parley

/-- Whether an event tells of what came in or went out, or of a loop that failed to read. -/
def Event.isInflow : Event → Bool
  | .received _ _ | .wrote _ _ | .logged (.protocolError _) => true
  | _ => false

/-- A stream, apart from what a script does with what is written. -/
def Stream.mute : Stream → Stream
  | .script input _ => .script input {}
  | .pipes incoming outgoing => .pipes incoming outgoing

/-- What has to do with reading in a connection. -/
structure Intaking where
  config : Config
  reading : Reading
  stream : Stream

def Connection.intaking (x : Connection) : Intaking := ⟨x.config, x.reading, x.stream.mute⟩

/-- What has to do in a network with what comes in. -/
structure Inflow where
  conns : List Intaking
  pipes : List Pipe
  journal : Journal

namespace Network

def inflow (w : Network) : Inflow :=
  ⟨w.conns.map Connection.intaking, w.pipes, w.journal.filter Event.isInflow⟩

/-! ## Small changes -/

section basic

variable (w : Network)

theorem inflow_emit {e : Event} (h : e.isInflow = false) : (w.emit e).inflow = w.inflow := by
  rw [inflow, emit, List.filter_cons_of_neg (ne_true_of_eq_false h)]
  rfl

@[simp] theorem inflow_report (n : Notice) : (w.report n).inflow = w.inflow := inflow_emit w rfl

theorem inflow_log {l : Log} (h : (Event.logged l).isInflow = false) :
    (w.log l).inflow = w.inflow :=
  inflow_emit w h

@[simp] theorem inflow_modifyDispatcher (d : Nat) (f : Dispatcher → Dispatcher) :
    (w.modifyDispatcher d f).inflow = w.inflow := rfl

@[simp] theorem inflow_modifyRun (r : Nat) (f : Run → Run) :
    (w.modifyRun r f).inflow = w.inflow := rfl

@[simp] theorem inflow_modifyCall (k : Nat) (f : Call → Call) :
    (w.modifyCall k f).inflow = w.inflow := rfl

theorem inflow_modifyConn (c : Nat) {f : Connection → Connection}
    (hf : ∀ x, w.conns[c]? = some x → (f x).intaking = x.intaking) :
    (w.modifyConn c f).inflow = w.inflow := by
  have h : (w.conns.modify c f).map Connection.intaking = w.conns.map Connection.intaking := by
    refine List.ext_getElem? fun i => ?_
    simp only [List.getElem?_map, List.getElem?_modify]
    cases hx : w.conns[i]? with
    | none => rfl
    | some x =>
      by_cases hi : c = i
      · subst hi
        simp [hf x hx]
      · simp [hi]
  simp [inflow, modifyConn, h]

@[simp] theorem inflow_setLink (c : Nat) (l : Link) : (w.setLink c l).inflow = w.inflow :=
  inflow_modifyConn w c fun _ _ => rfl

@[simp] theorem inflow_wake (t : Task) : (w.wake t).inflow = w.inflow := by
  rw [wake_eq]
  rfl

@[simp] theorem inflow_wakeCall (k : Nat) : (w.wakeCall k).inflow = w.inflow := by
  rw [wakeCall]
  cases w.calls[k]? <;> simp

@[simp] theorem inflow_wakeReader (c : Nat) : (w.wakeReader c).inflow = w.inflow := by
  rw [wakeReader_eq]
  rfl

@[simp] theorem inflow_wakeIdleWriter (c : Nat) : (w.wakeIdleWriter c).inflow = w.inflow := by
  rw [wakeIdleWriter_eq]
  rfl

@[simp] theorem inflow_wakeBusyWriter (c : Nat) : (w.wakeBusyWriter c).inflow = w.inflow := by
  rw [wakeBusyWriter_eq]
  rfl

theorem inflow_foldl {α : Type} {f : Network → α → Network}
    (hf : ∀ w a, (f w a).inflow = w.inflow) (l : List α) : (l.foldl f w).inflow = w.inflow := by
  induction l generalizing w with
  | nil => rfl
  | cons a l ih => exact (ih _).trans (hf w a)

end basic

variable {w w' : Network}

/-! ## What goes out -/

theorem inflow_sendOn {c : Nat} {m : Message} (h : w.sendOn c m = some w') :
    w'.inflow = w.inflow := by
  obtain ⟨l, -, rfl⟩ := Option.map_eq_some_iff.mp h
  rw [inflow_wakeIdleWriter, inflow_emit _ rfl, inflow_setLink]

@[simp] theorem inflow_sendOn_getD (w : Network) (c : Nat) (m : Message) :
    ((w.sendOn c m).getD w).inflow = w.inflow := by
  cases h : w.sendOn c m with
  | none => rfl
  | some w' => exact inflow_sendOn h

theorem inflow_sendVia {d : Nat} {m : Message} (h : w.sendVia d m = .ok w') :
    w'.inflow = w.inflow := by
  rw [sendVia] at h
  split at h
  · cases h
  · next hs =>
    obtain rfl := Except.ok.inj h
    obtain ⟨c, -, hs⟩ := Option.bind_eq_some_iff.mp hs
    exact inflow_sendOn hs

@[simp] theorem inflow_reply (w : Network) (c : Nat) (r : Reply) :
    (w.reply c r).inflow = w.inflow :=
  inflow_sendOn_getD w c _

@[simp] theorem inflow_strand (w : Network) (k : Nat) : (w.strand k).inflow = w.inflow :=
  inflow_emit _ rfl

@[simp] theorem inflow_endCall (w : Network) (k : Nat) (outcome : Except CallError Json) :
    (w.endCall k outcome).inflow = w.inflow :=
  inflow_emit _ rfl

theorem inflow_startCall {d k : Nat} {method : String} {params : Json} {shape : Option Json.Shape}
    {waiter : Option Task} (h : w.startCall d method params shape waiter = .ok (k, w')) :
    w'.inflow = w.inflow := by
  rw [startCall] at h
  simp only at h
  split at h
  · cases h
  · next former _ _ =>
    obtain ⟨-, rfl⟩ := Prod.mk.inj (Except.ok.inj h)
    -- The call is put beside the others, and does not matter here.
    have queued : ∀ (v : Network) (x : Call) (c k : Nat) (l : Link) (m : Message),
        ((((({ v with calls := v.calls ++ [x] } : Network).setLink c l).emit (.started k)).emit
          (.accepted c m)).wakeIdleWriter c).inflow = v.inflow := by
      intro v x c k l m
      rw [inflow_wakeIdleWriter, inflow_emit _ rfl, inflow_emit _ rfl, inflow_setLink]
      rfl
    cases former with
    | none => exact queued _ _ _ _ _ _
    | some n =>
      exact (inflow_wakeCall _ n).trans ((queued _ _ _ _ _ _).trans (inflow_strand w n))

@[simp] theorem inflow_abandon (w : Network) (k c : Nat) (id : Id) :
    (w.abandon k c id).inflow = w.inflow := by
  rw [abandon]
  split
  · rfl
  · simp only [inflow_sendOn_getD]
    split <;> simp

@[simp] theorem inflow_checkCall (w : Network) (k : Nat) : (w.checkCall k).inflow = w.inflow := by
  rw [checkCall]
  split
  · rfl
  · split
    · simp
    · simp
    · split <;> simp
    · rfl
    · rfl

@[simp] theorem inflow_dropCall (w : Network) (k : Nat) : (w.dropCall k).inflow = w.inflow := by
  have given : ∀ (c : Nat) (id : Id), (((w.abandon k c id).modifyCall k fun x =>
      { x with state := .dropped }).emit (.dropped k)).inflow = w.inflow := fun c id =>
    (inflow_emit _ rfl).trans (inflow_abandon w k c id)
  rw [dropCall]
  split
  · rfl
  · split
    · rfl
    · rfl
    · exact given _ _
    · exact given _ _
    · exact given _ _

@[simp] theorem inflow_resolveCall (w : Network) (k : Nat) (s : CallState) :
    (w.resolveCall k s).inflow = w.inflow := by
  rw [resolveCall]
  split
  · rfl
  · split
    · simp
    · rfl

@[simp] theorem inflow_advance (w : Network) (secs : Nat) : (w.advance secs).inflow = w.inflow := by
  rw [advance, inflow_foldl _ fun w e => inflow_wakeCall w _]
  rfl

/-! ## Registrations -/

theorem inflow_handle {d : Nat} {method : String} {h : Handler}
    (hw : w.handle d method h = .ok w') : w'.inflow = w.inflow := by
  rw [handle] at hw
  split at hw
  · obtain rfl := Except.ok.inj hw
    rfl
  · next x _ =>
    cases hx : x.handle method h with
    | error e =>
      rw [hx] at hw
      cases hw
    | ok y =>
      rw [hx] at hw
      obtain rfl := Except.ok.inj hw
      rfl

theorem inflow_register {d n : Nat} {descriptor : Descriptor} {hooks : List Retraction}
    (h : w.register d descriptor hooks = .ok (n, w')) : w'.inflow = w.inflow := by
  rw [register] at h
  simp only at h
  split at h
  · obtain ⟨-, rfl⟩ := Prod.mk.inj (Except.ok.inj h)
    rfl
  · next x _ =>
    cases hx : x.register ⟨w.registrations.length, descriptor⟩ with
    | error e =>
      rw [hx] at h
      cases h
    | ok y =>
      rw [hx] at h
      obtain ⟨-, rfl⟩ := Prod.mk.inj (Except.ok.inj h)
      rfl

theorem inflow_retract (serial d : Nat) (w : Network) (r : Retraction) :
    (retract serial d w r).inflow = w.inflow := by
  cases r with
  | remove => rfl
  | hook name counts => exact inflow_emit w rfl

@[simp] theorem inflow_unregister (w : Network) (serial : Nat) :
    (w.unregister serial).2.inflow = w.inflow := by
  rw [unregister]
  split
  · rfl
  · split
    · rfl
    · exact inflow_foldl _ (inflow_retract serial _) _

@[simp] theorem inflow_unregisterAll (w : Network) (d : Nat) (method : String) :
    (w.unregisterAll d method).inflow = w.inflow :=
  inflow_foldl _ inflow_unregister _

@[simp] theorem inflow_dropDispatcher (w : Network) (d : Nat) :
    (w.dropDispatcher d).inflow = w.inflow := by
  rw [dropDispatcher]
  split
  · rfl
  · rfl

/-! ## Runs of handlers -/

@[simp] theorem inflow_spawn (w : Network) (x : Run) : (w.spawn x).inflow = w.inflow := by
  rw [spawn, inflow_wake, inflow_emit _ rfl]
  rfl

section run

variable (w : Network) (r : Nat) (x : Run)

@[simp] theorem inflow_finish (outcome : Except Failure Json) :
    (w.finish r outcome).inflow = w.inflow := by
  rw [finish]
  split
  · rfl
  · next y _ =>
    cases y.id with
    | none => exact inflow_emit _ rfl
    | some id =>
      simp only [inflow_reply, inflow_modifyDispatcher]
      exact inflow_emit _ rfl

@[simp] theorem inflow_answer (outcome : Except Failure Json) :
    (w.answer r x outcome).inflow = w.inflow :=
  inflow_finish w r _

@[simp] theorem inflow_endHanging (answers : Bool) (params : Json) :
    (w.endHanging r x answers params).inflow = w.inflow := by
  rw [endHanging, inflow_answer, inflow_report]

@[simp] theorem inflow_passGate (params : Json) : (w.passGate r x params).inflow = w.inflow := by
  rw [passGate, inflow_answer, inflow_report]

@[simp] theorem inflow_passOn (outcome : Except CallError Json) :
    (w.passOn r x outcome).inflow = w.inflow := by
  rw [passOn, inflow_answer, inflow_report]

@[simp] theorem inflow_checkOwnCall (k : Nat) : (w.checkOwnCall r x k).inflow = w.inflow := by
  rw [checkOwnCall]
  split
  · rw [inflow_passOn, inflow_checkCall]
  · rw [inflow_modifyRun, inflow_checkCall]

theorem inflow_opening (h : w.opening x = .ok w') : w'.inflow = w.inflow := by
  rw [opening] at h
  split at h
  · obtain rfl := Except.ok.inj h
    rfl
  · cases h
  · split at h
    · next hs =>
      obtain rfl := Except.ok.inj h
      exact inflow_sendVia hs
    · obtain rfl := Except.ok.inj h
      exact inflow_report w _
  · obtain rfl := Except.ok.inj h
    exact inflow_unregisterAll w _ _

@[simp] theorem inflow_conclude (params : Json) : (w.conclude r x params).inflow = w.inflow := by
  rw [conclude]
  split
  · exact inflow_answer w r x _
  · exact inflow_answer w r x _
  · exact inflow_answer w r x _
  · exact inflow_answer w r x _
  · exact inflow_answer w r x _
  · exact inflow_answer w r x _
  · rw [hang]
    split
    · exact inflow_endHanging w r x _ _
    · rfl
  · rw [awaitGate]
    split
    · exact inflow_passGate w r x _
    · rfl
  · split
    · exact inflow_passOn w r x _
    · next h => rw [inflow_checkOwnCall, inflow_startCall h]

@[simp] theorem inflow_serveNotification (params : Option Json) :
    (w.serveNotification r x params).inflow = w.inflow := by
  rw [serveNotification]
  split
  · next h => rw [inflow_finish, inflow_opening _ x h, inflow_report]
  · rw [inflow_finish, inflow_log _ rfl, inflow_report]

@[simp] theorem inflow_serveRequest (params : Json) :
    (w.serveRequest r x params).inflow = w.inflow := by
  rw [serveRequest]
  split
  · next h => rw [inflow_conclude, inflow_opening _ x h, inflow_report]
  · rw [inflow_answer, inflow_report]

@[simp] theorem inflow_runNotification : (w.runNotification r x).inflow = w.inflow := by
  rw [runNotification]
  split
  · exact inflow_serveNotification w r x _
  · split
    · rw [inflow_finish, inflow_log _ rfl]
    · exact inflow_serveNotification w r x _
  · rw [inflow_finish, inflow_log _ rfl]
  · rw [inflow_finish, inflow_log _ rfl]

@[simp] theorem inflow_runRequest : (w.runRequest r x).inflow = w.inflow := by
  rw [runRequest]
  split
  · split
    · exact inflow_finish w r _
    · exact inflow_serveRequest w r x _
  · split
    · exact inflow_finish w r _
    · exact inflow_serveRequest w r x _
  · exact inflow_finish w r _
  · exact inflow_finish w r _

@[simp] theorem inflow_begin : (w.begin r x).inflow = w.inflow := by
  rw [begin]
  split
  · exact inflow_runRequest w r x
  · exact inflow_runNotification w r x

/-- The turn of a handler. -/
@[simp] theorem inflow_runHandler : (w.runHandler r).inflow = w.inflow := by
  rw [runHandler]
  split
  · rfl
  · next y _ =>
    split
    · exact inflow_begin w r y
    · split
      · split
        · exact inflow_endHanging w r y _ _
        · rfl
      · rfl
    · split
      · exact inflow_passGate w r y _
      · rfl
    · exact inflow_checkOwnCall w r y _
    · rfl

@[simp] theorem inflow_openGate (gate : String) : (w.openGate gate).inflow = w.inflow := by
  rw [openGate]
  exact inflow_foldl _ (fun w e => inflow_wake w _) _

@[simp] theorem inflow_cancelRun : (w.cancelRun r).inflow = w.inflow := by
  rw [cancelRun]
  split
  · rw [inflow_wake, inflow_modifyRun]
  · rfl

end run

/-! ## Messages that are handed on -/

/-- Whatever a message asks for, it is started without reading on. -/
theorem inflow_route (w : Network) (c d : Nat) (m : Message) :
    (w.route c d m).inflow = w.inflow := by
  cases m with
  | reply r =>
    rw [route, receiveReply]
    split
    · exact inflow_log w rfl
    · rw [inflow_resolveCall, inflow_setLink]
  | unidentified f => exact inflow_log w rfl
  | notification method params =>
    rw [route, receiveNotification]
    split
    · rw [receiveCancel]
      split
      · exact inflow_log w rfl
      · split
        · rfl
        · exact inflow_cancelRun w _
    · split
      · rfl
      · rw [inflow_foldl _ fun w h => inflow_spawn w _, inflow_modifyDispatcher]
  | request id method params =>
    rw [route, receiveRequest]
    split
    · rw [inflow_reply, inflow_emit _ rfl]
    · rw [inflow_spawn, inflow_modifyDispatcher]

/-- **Handing a message on** adds it to what came in, and does no more. -/
theorem inflow_receive {c d : Nat} {x : Connection} (hx : w.conns[c]? = some x)
    (hd : x.dispatcher = some d) (m : Message) :
    (w.receive c m).inflow = (w.emit (.received c m)).inflow := by
  rw [receive, hx, Option.bind_some, hd]
  exact inflow_route _ c d m

/-! ## The end of a connection -/

/-- The beginning of an end stops no loop yet. -/
@[simp] theorem inflow_teardown (w : Network) (c : Nat) (flush : Bool) :
    (w.teardown c flush).inflow = w.inflow := by
  have hcut : (w.modifyConn c fun x => x.cut flush).inflow = w.inflow :=
    inflow_modifyConn w c fun _ _ => rfl
  rw [teardown]
  split
  · rfl
  · split
    · simp only [inflow_wakeReader]
      rw [inflow_foldl _ fun w r => inflow_wake w _]
      cases flush with
      | true =>
        rw [if_pos rfl, inflow_foldl _ fun w k => inflow_resolveCall w k _, if_pos rfl,
          inflow_wakeIdleWriter, inflow_emit _ rfl, hcut]
      | false =>
        rw [if_neg Bool.false_ne_true, inflow_wakeBusyWriter, inflow_wakeIdleWriter,
          inflow_foldl _ fun w k => inflow_resolveCall w k _, if_neg Bool.false_ne_true,
          inflow_emit _ rfl, hcut]
    · rfl

/-! ## What users ask for -/

theorem inflow_notify {sender : Sender} {method : String} {params : Except Json.Cause Json}
    (h : w.notify sender method params = .ok w') : w'.inflow = w.inflow := by
  unfold notify at h
  split at h
  · cases h
  · cases h
  · exact inflow_sendVia h

theorem inflow_call {k : Nat} {sender : Sender} {method : String}
    {params : Except Json.Cause Json} {shape : Option Json.Shape}
    (h : w.call sender method params shape = .ok (k, w')) : w'.inflow = w.inflow := by
  cases hd : w.dispatcherOf sender with
  | error e => simp [call, hd] at h
  | ok d =>
    cases params with
    | error cause => simp [call, hd] at h
    | ok params =>
      simp only [call, hd] at h
      cases hs : w.startCall d method params shape none with
      | error e => simp [hs, Except.map] at h
      | ok p =>
        obtain ⟨n, v⟩ := p
        obtain ⟨rfl, rfl⟩ : n = k ∧ v.checkCall n = w' := by simpa [hs, Except.map] using h
        rw [inflow_checkCall, inflow_startCall hs]

end Network

end Parley
