import Parley.Network.Run
import Parley.Proofs.Turns

/-!
# What is registered in a network

Only those who register something or take it back have to do with what is registered. Messages that
go out and come in, calls, and the beginning and the end of connections leave it alone; a handler
may take registrations back, and changes nothing else about them.

- `Network.registry`: everything that has to do with what is registered.
- `Network.registry_readLoop`, `Network.registry_connect`, and the others: what leaves it alone.
- `Network.takesBack_runHandler`: what the turn of a handler may do to it.
-/

namespace Parley

/-- A dispatcher, apart from what it knows about its peer. -/
def Dispatcher.tables (x : Dispatcher) : Dispatcher :=
  { x with languages := [], inflight := [], bound := none }

/-- What has to do in a network with what is registered. -/
structure Registry where
  registrations : List Registration
  dispatchers : List Dispatcher

namespace Network

def registry (w : Network) : Registry := ⟨w.registrations, w.dispatchers.map Dispatcher.tables⟩

/-! ## Small changes -/

section basic

variable (w : Network)

@[simp] theorem registry_emit (e : Event) : (w.emit e).registry = w.registry := rfl

@[simp] theorem registry_log (l : Log) : (w.log l).registry = w.registry := rfl

@[simp] theorem registry_modifyConn (c : Nat) (f : Connection → Connection) :
    (w.modifyConn c f).registry = w.registry := rfl

@[simp] theorem registry_setLink (c : Nat) (l : Link) : (w.setLink c l).registry = w.registry := rfl

@[simp] theorem registry_modifyRun (r : Nat) (f : Run → Run) :
    (w.modifyRun r f).registry = w.registry := rfl

@[simp] theorem registry_modifyCall (k : Nat) (f : Call → Call) :
    (w.modifyCall k f).registry = w.registry := rfl

theorem registry_modifyDispatcher (d : Nat) {f : Dispatcher → Dispatcher}
    (hf : ∀ x, w.dispatchers[d]? = some x → (f x).tables = x.tables) :
    (w.modifyDispatcher d f).registry = w.registry := by
  have h : (w.dispatchers.modify d f).map Dispatcher.tables =
      w.dispatchers.map Dispatcher.tables := by
    refine List.ext_getElem? fun i => ?_
    simp only [List.getElem?_map, List.getElem?_modify]
    cases hx : w.dispatchers[i]? with
    | none => rfl
    | some x =>
      by_cases hi : d = i
      · subst hi
        simp [hf x hx]
      · simp [hi]
  simp [registry, modifyDispatcher, h]

@[simp] theorem registry_wake (t : Task) : (w.wake t).registry = w.registry := by
  rw [wake_eq]
  rfl

@[simp] theorem registry_wakeCall (k : Nat) : (w.wakeCall k).registry = w.registry := by
  rw [wakeCall]
  cases w.calls[k]? <;> simp

@[simp] theorem registry_wakeReader (c : Nat) : (w.wakeReader c).registry = w.registry := by
  rw [wakeReader_eq]
  rfl

@[simp] theorem registry_wakeIdleWriter (c : Nat) :
    (w.wakeIdleWriter c).registry = w.registry := by
  rw [wakeIdleWriter_eq]
  rfl

@[simp] theorem registry_wakeBusyWriter (c : Nat) :
    (w.wakeBusyWriter c).registry = w.registry := by
  rw [wakeBusyWriter_eq]
  rfl

theorem registry_foldl {α : Type} {f : Network → α → Network}
    (hf : ∀ w a, (f w a).registry = w.registry) (l : List α) :
    (l.foldl f w).registry = w.registry := by
  induction l generalizing w with
  | nil => rfl
  | cons a l ih => exact (ih _).trans (hf w a)

end basic

variable {w w' : Network}

/-! ## What goes out -/

theorem registry_sendOn {c : Nat} {m : Message} (h : w.sendOn c m = some w') :
    w'.registry = w.registry := by
  obtain ⟨l, -, rfl⟩ := Option.map_eq_some_iff.mp h
  simp

@[simp] theorem registry_sendOn_getD (w : Network) (c : Nat) (m : Message) :
    ((w.sendOn c m).getD w).registry = w.registry := by
  cases h : w.sendOn c m with
  | none => rfl
  | some w' => exact registry_sendOn h

theorem registry_sendVia {d : Nat} {m : Message} (h : w.sendVia d m = .ok w') :
    w'.registry = w.registry := by
  rw [sendVia] at h
  split at h
  · cases h
  · next hs =>
    obtain rfl := Except.ok.inj h
    obtain ⟨c, -, hs⟩ := Option.bind_eq_some_iff.mp hs
    exact registry_sendOn hs

@[simp] theorem registry_reply (w : Network) (c : Nat) (r : Reply) :
    (w.reply c r).registry = w.registry :=
  registry_sendOn_getD w c _

@[simp] theorem registry_strand (w : Network) (k : Nat) : (w.strand k).registry = w.registry := rfl

@[simp] theorem registry_endCall (w : Network) (k : Nat) (outcome : Except CallError Json) :
    (w.endCall k outcome).registry = w.registry := rfl

theorem registry_startCall {d k : Nat} {method : String} {params : Json}
    {shape : Option Json.Shape} {waiter : Option Task}
    (h : w.startCall d method params shape waiter = .ok (k, w')) : w'.registry = w.registry := by
  rw [startCall] at h
  simp only at h
  split at h
  · cases h
  · next former _ _ =>
    obtain ⟨-, rfl⟩ := Prod.mk.inj (Except.ok.inj h)
    cases former with
    | none => exact registry_wakeIdleWriter _ _
    | some n => exact (registry_wakeCall _ n).trans (registry_wakeIdleWriter _ _)

@[simp] theorem registry_abandon (w : Network) (k c : Nat) (id : Id) :
    (w.abandon k c id).registry = w.registry := by
  rw [abandon]
  split
  · rfl
  · simp only [registry_sendOn_getD]
    split <;> simp

@[simp] theorem registry_checkCall (w : Network) (k : Nat) :
    (w.checkCall k).registry = w.registry := by
  rw [checkCall]
  split
  · rfl
  · split
    · simp
    · simp
    · split <;> simp
    · rfl
    · rfl

@[simp] theorem registry_dropCall (w : Network) (k : Nat) :
    (w.dropCall k).registry = w.registry := by
  rw [dropCall]
  split
  · rfl
  · split <;> simp

@[simp] theorem registry_resolveCall (w : Network) (k : Nat) (s : CallState) :
    (w.resolveCall k s).registry = w.registry := by
  rw [resolveCall]
  split
  · rfl
  · split <;> simp

@[simp] theorem registry_advance (w : Network) (secs : Nat) :
    (w.advance secs).registry = w.registry := by
  rw [advance, registry_foldl _ fun w e => registry_wakeCall w _]
  rfl

/-! ## Runs of handlers -/

@[simp] theorem registry_spawn (w : Network) (x : Run) : (w.spawn x).registry = w.registry :=
  registry_wake _ _

section run

variable (w : Network) (r : Nat) (x : Run)

@[simp] theorem registry_finish (outcome : Except Failure Json) :
    (w.finish r outcome).registry = w.registry := by
  rw [finish]
  split
  · rfl
  · next y _ =>
    cases y.id with
    | none => rfl
    | some id => exact (registry_reply _ _ _).trans (registry_modifyDispatcher _ _ fun _ _ => rfl)

@[simp] theorem registry_answer (outcome : Except Failure Json) :
    (w.answer r x outcome).registry = w.registry :=
  registry_finish w r _

@[simp] theorem registry_endHanging (answers : Bool) (params : Json) :
    (w.endHanging r x answers params).registry = w.registry :=
  registry_answer _ r x _

@[simp] theorem registry_passGate (params : Json) :
    (w.passGate r x params).registry = w.registry :=
  registry_answer _ r x _

@[simp] theorem registry_passOn (outcome : Except CallError Json) :
    (w.passOn r x outcome).registry = w.registry :=
  registry_answer _ r x _

@[simp] theorem registry_checkOwnCall (k : Nat) :
    (w.checkOwnCall r x k).registry = w.registry := by
  rw [checkOwnCall]
  split <;> simp

@[simp] theorem registry_conclude (params : Json) :
    (w.conclude r x params).registry = w.registry := by
  rw [conclude]
  split
  · exact registry_answer w r x _
  · exact registry_answer w r x _
  · exact registry_answer w r x _
  · exact registry_answer w r x _
  · exact registry_answer w r x _
  · exact registry_answer w r x _
  · rw [hang]
    split
    · exact registry_endHanging w r x _ _
    · rfl
  · rw [awaitGate]
    split
    · exact registry_passGate w r x _
    · rfl
  · split
    · exact registry_passOn w r x _
    · next h => rw [registry_checkOwnCall, registry_startCall h]

@[simp] theorem registry_openGate (gate : String) : (w.openGate gate).registry = w.registry := by
  rw [openGate]
  exact registry_foldl _ (fun w e => registry_wake w _) _

@[simp] theorem registry_cancelRun : (w.cancelRun r).registry = w.registry := by
  rw [cancelRun]
  split
  · exact registry_wake _ _
  · rfl

end run

/-- What is registered changes at most by taking back what is registered for a method. -/
def TakesBack (w w' : Network) : Prop :=
  w'.registry = w.registry ∨ ∃ (v : Network) (d : Nat) (method : String),
    v.registry = w.registry ∧ w'.registry = (v.unregisterAll d method).registry

/-- What goes before and what follows need not matter. -/
theorem TakesBack.within {u v : Network} (h : TakesBack v w) (hv : v.registry = u.registry)
    (hw : w'.registry = w.registry) : TakesBack u w' :=
  h.imp (fun h => hw.trans (h.trans hv)) fun ⟨v', d, method, hv', h⟩ =>
    ⟨v', d, method, hv'.trans hv, hw.trans h⟩

section turn

variable (w : Network) (r : Nat) (x : Run)

/-- What a handler does as soon as it is called. -/
theorem takesBack_opening (h : w.opening x = .ok w') : TakesBack w w' := by
  rw [opening] at h
  split at h
  · obtain rfl := Except.ok.inj h
    exact .inl rfl
  · cases h
  · split at h
    · next hs =>
      obtain rfl := Except.ok.inj h
      exact .inl (registry_sendVia hs)
    · obtain rfl := Except.ok.inj h
      exact .inl rfl
  · next method _ =>
    obtain rfl := Except.ok.inj h
    exact .inr ⟨w, _, method, rfl, rfl⟩

theorem takesBack_serveNotification (params : Option Json) :
    TakesBack w (w.serveNotification r x params) := by
  rw [serveNotification]
  split
  · next h => exact (takesBack_opening _ x h).within rfl (registry_finish _ r _)
  · exact .inl (registry_finish _ r _)

theorem takesBack_serveRequest (params : Json) : TakesBack w (w.serveRequest r x params) := by
  rw [serveRequest]
  split
  · next h => exact (takesBack_opening _ x h).within rfl (registry_conclude _ r x _)
  · exact .inl (registry_answer _ r x _)

theorem takesBack_begin : TakesBack w (w.begin r x) := by
  rw [begin]
  split
  · rw [runRequest]
    split
    · split
      · exact .inl (registry_finish w r _)
      · exact takesBack_serveRequest w r x _
    · split
      · exact .inl (registry_finish w r _)
      · exact takesBack_serveRequest w r x _
    · exact .inl (registry_finish w r _)
    · exact .inl (registry_finish w r _)
  · rw [runNotification]
    split
    · exact takesBack_serveNotification w r x _
    · split
      · exact .inl (registry_finish _ r _)
      · exact takesBack_serveNotification w r x _
    · exact .inl (registry_finish _ r _)
    · exact .inl (registry_finish _ r _)

/-- **The turn of a handler** changes what is registered at most by taking some of it back. -/
theorem takesBack_runHandler : TakesBack w (w.runHandler r) := by
  rw [runHandler]
  split
  · exact .inl rfl
  · next y _ =>
    split
    · exact takesBack_begin w r y
    · split
      · split
        · exact .inl (registry_endHanging w r y _ _)
        · exact .inl rfl
      · exact .inl rfl
    · split
      · exact .inl (registry_passGate w r y _)
      · exact .inl rfl
    · exact .inl (registry_checkOwnCall w r y _)
    · exact .inl rfl

end turn

/-! ## Messages that come in -/

/-- Whatever a message asks for, no handler has its turn yet. -/
theorem registry_route (w : Network) (c d : Nat) (m : Message) :
    (w.route c d m).registry = w.registry := by
  cases m with
  | reply r =>
    rw [route, receiveReply]
    split <;> simp
  | unidentified f => rfl
  | notification method params =>
    rw [route, receiveNotification]
    split
    · rw [receiveCancel]
      split
      · rfl
      · split <;> simp
    · split
      · rfl
      · next x hx =>
        rw [registry_foldl _ fun w h => registry_spawn w _]
        refine registry_modifyDispatcher w d fun y hy => ?_
        obtain rfl := Option.some.inj (hx.symm.trans hy)
        rfl
  | request id method params =>
    rw [route, receiveRequest]
    split
    · simp
    · exact (registry_spawn _ _).trans (registry_modifyDispatcher w d fun _ _ => rfl)

@[simp] theorem registry_receive (w : Network) (c : Nat) (m : Message) :
    (w.receive c m).registry = w.registry := by
  rw [receive]
  split
  · rfl
  · exact registry_route _ c _ m

/-! ## The beginning and the end of connections -/

/-- A dispatcher that is bound keeps what is registered with it. -/
@[simp] theorem registry_connect (w : Network) (c d : Nat) :
    (w.connect c d).2.registry = w.registry := by
  rw [connect]
  split
  · simp only
    split
    · split
      · rfl
      · next v hb =>
        rw [bind] at hb
        split at hb
        · cases hb
        · obtain rfl := Except.ok.inj hb
          simp only [registry_wake, registry_modifyConn]
          exact registry_modifyDispatcher _ d fun _ _ => rfl
    · rfl
  · rfl
  · rfl

@[simp] theorem registry_closePipe (w : Network) (p : Nat) :
    (w.closePipe p).registry = w.registry := by
  rw [closePipe]
  split
  · rfl
  · simp only [registry_wakeBusyWriter, registry_wakeReader]
    rfl

@[simp] theorem registry_dropStream (w : Network) (c : Nat) :
    (w.dropStream c).registry = w.registry := by
  rw [dropStream]
  split <;> simp

@[simp] theorem registry_closeIfFinished (w : Network) (c : Nat) :
    (w.closeIfFinished c).registry = w.registry := by
  rw [closeIfFinished]
  split <;> simp

@[simp] theorem registry_stopReading (w : Network) (c : Nat) :
    (w.stopReading c).registry = w.registry :=
  registry_closeIfFinished _ c

@[simp] theorem registry_stopWriting (w : Network) (c : Nat) :
    (w.stopWriting c).registry = w.registry := by
  rw [stopWriting]
  simp only [registry_closeIfFinished, registry_emit]
  split <;> simp

@[simp] theorem registry_teardown (w : Network) (c : Nat) (flush : Bool) :
    (w.teardown c flush).registry = w.registry := by
  rw [teardown]
  split
  · rfl
  · split
    · simp only [registry_wakeReader]
      rw [registry_foldl _ fun w r => registry_wake w _]
      cases flush with
      | true =>
        rw [if_pos rfl, registry_foldl _ fun w k => registry_resolveCall w k _, if_pos rfl,
          registry_wakeIdleWriter, registry_emit, registry_modifyConn]
      | false =>
        rw [if_neg Bool.false_ne_true, registry_wakeBusyWriter, registry_wakeIdleWriter,
          registry_foldl _ fun w k => registry_resolveCall w k _, if_neg Bool.false_ne_true,
          registry_emit, registry_modifyConn]
    · rfl

@[simp] theorem registry_disconnect (w : Network) (c : Nat) (flush : Bool) :
    (w.disconnect c flush).registry = w.registry := by
  rw [disconnect]
  split
  · exact registry_dropStream _ c
  · exact registry_teardown w c flush

/-! ## The loop that reads -/

@[simp] theorem registry_takeInput (w : Network) (c : Nat) :
    (w.takeInput c).2.2.registry = w.registry := by
  rw [takeInput]
  split
  · rfl
  · rfl
  · split
    · rfl
    · simp only
      split
      · rfl
      · exact registry_wakeBusyWriter _ _

@[simp] theorem registry_failReading (w : Network) (c : Nat) (e : ReadError) :
    (w.failReading c e).registry = w.registry := by
  rw [failReading, registry_stopReading, registry_teardown, registry_log]

@[simp] theorem registry_endReading (w : Network) (c : Nat) :
    (w.endReading c).registry = w.registry := by
  rw [endReading, registry_stopReading, registry_teardown]

/-- The turn of the loop that reads. -/
@[simp] theorem registry_readLoop (w : Network) (c : Nat) :
    (w.readLoop c).registry = w.registry := by
  apply readLoop_induction (P := fun v => v.registry = w.registry)
    (Q := fun v => v.registry = w.registry)
  case receive => exact fun m h => (registry_receive _ c m).trans h
  case fail => exact fun e h => (registry_failReading _ c e).trans h
  case done => exact fun h => (registry_endReading _ c).trans h
  case goOn => exact fun _ h => h
  case rest => rfl
  case stop => exact fun _ _ _ _ _ => registry_stopReading w c
  case take => exact fun _ _ _ _ _ => registry_takeInput w c

/-! ## The loop that writes -/

@[simp] theorem registry_takeOutput (w : Network) (c : Nat) (bs : List UInt8) :
    (w.takeOutput c bs).2.registry = w.registry := by
  rw [takeOutput]
  split
  · rfl
  · rfl
  · split
    · rfl
    · simp only
      split
      · rfl
      · exact registry_wakeReader _ _

@[simp] theorem registry_write (w : Network) (c : Nat) (bs : List UInt8) :
    (w.write c bs).2.registry = w.registry := by
  rw [write]
  simp only
  split <;> simp

@[simp] theorem registry_failWriting (w : Network) (c : Nat) (text : String) :
    (w.failWriting c text).registry = w.registry := by
  rw [failWriting, registry_stopWriting, registry_emit, registry_teardown, registry_log]

@[simp] theorem registry_writeOn (w : Network) (c : Nat) (rest : List UInt8) :
    (w.writeOn c rest).registry = w.registry := by
  rw [writeOn]
  simp only
  split
  · simp
  · split
    · split <;> simp
    · simp

/-- The turn of the loop that writes. -/
@[simp] theorem registry_writeLoop (c n : Nat) (w : Network) :
    (writeLoop c n w).registry = w.registry := by
  apply writeLoop_induction (P := fun v => v.registry = w.registry)
  case abort => exact fun h _ _ _ => (registry_stopWriting _ c).trans h
  case drain => exact fun h _ _ _ => (registry_stopWriting _ c).trans h
  case begin => exact fun h _ _ _ _ => h
  case goOn => exact fun h _ _ _ => (registry_writeOn _ c _).trans h
  case h => rfl

/-! ## What users ask for -/

theorem registry_notify {sender : Sender} {method : String} {params : Except Json.Cause Json}
    (h : w.notify sender method params = .ok w') : w'.registry = w.registry := by
  unfold notify at h
  split at h
  · cases h
  · cases h
  · exact registry_sendVia h

theorem registry_call {k : Nat} {sender : Sender} {method : String}
    {params : Except Json.Cause Json} {shape : Option Json.Shape}
    (h : w.call sender method params shape = .ok (k, w')) : w'.registry = w.registry := by
  unfold call at h
  split at h
  · cases h
  · cases h
  · next d params _ =>
    cases hs : w.startCall d method params shape none with
    | error e => simp [hs, Except.map] at h
    | ok p =>
      obtain ⟨n, v⟩ := p
      obtain ⟨-, rfl⟩ : n = k ∧ v.checkCall n = w' := by simpa [hs, Except.map] using h
      rw [registry_checkCall, registry_startCall hs]

theorem registry_attempt {o : Except CallError Network}
    (h : ∀ w', o = .ok w' → w'.registry = w.registry) : (w.attempt o).2.registry = w.registry := by
  cases o with
  | error e => rfl
  | ok v => exact h v rfl

theorem registry_attemptMade {o : Except CallError (Nat × Network)}
    (h : ∀ n w', o = .ok (n, w') → w'.registry = w.registry) :
    (w.attemptMade o).2.registry = w.registry := by
  cases o with
  | error e => rfl
  | ok p => exact h p.1 p.2 rfl

end Network

/-- Whether an action is about what is registered, or makes a dispatcher or lets one go. -/
def Action.isFiling : Action → Bool
  | .openDispatcher | .dropDispatcher _ | .handle _ _ _ | .register _ _ _ | .keep _ _ _
  | .unregister _ => true
  | _ => false

namespace Network

/-- **What users ask for** leaves alone what is registered, unless it is about that or gives tasks
their turns. -/
theorem registry_act (w : Network) {a : Action} (ha : a.isFiling = false)
    (hs : ∀ n, a ≠ .settle n) : (w.act a).2.registry = w.registry := by
  cases a with
  | openScript | openPipes => rfl
  | dropConn c => exact registry_disconnect w c false
  | connect c d => exact registry_connect w c d
  | disconnect c flush => exact registry_disconnect w c flush
  | feed | fault => exact registry_wakeReader _ _
  | setOutput => exact registry_wakeBusyWriter _ _
  | notify => exact registry_attempt fun _ => registry_notify
  | call => exact registry_attemptMade fun _ _ => registry_call
  | dropCall k => exact registry_dropCall w k
  | advance secs => exact registry_advance w secs
  | openGate gate => exact registry_openGate w gate
  | settle n => exact absurd rfl (hs n)
  | _ => cases ha

end Network

end Parley
