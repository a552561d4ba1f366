import Parley.Network.Run
import Parley.Proofs.Looping

/-!
# Runs of a network, as paths

Whatever a user asks for and whichever task has its turn, the network takes a path: a series of
moves, of tasks that are taken out of the queue, and of calls that are given up. What moves keep
holds in every network that any use leads to.

- `Network.moves_act`: an action that gives no task its turn, and gives no call up.
- `Network.path_step`: the turn of a task; `Network.settle_induction`: any number of them.
- `Network.path_act`, `Network.path_run`: an action, and a list of them.
- `Network.Reachable.path`: the path to a network that can be reached.
- `Network.Reachable.induction`: what every action keeps.
- `Network.Reachable.each`, `Network.run_conn`: what every move of a connection keeps.
-/

namespace Parley.Network

variable {w : Network}

/-! ## Tasks -/

/-- The turn of a task is a row of moves. -/
theorem moves_perform (w : Network) (t : Task) : Moves w (w.perform t) := by
  cases t with
  | reader c => exact moves_readLoop w c
  | writer c => exact moves_writeLoop c _ w
  | handler r => exact (inside_runHandler w r).moves
  | caller k => exact moves_checkCall w k

/-- A step takes the first task out of the queue, and then the task has its turn. -/
theorem step_eq_some {w' : Network} : w.step = some w' ↔
    ∃ t q, w.ready = t :: q ∧ ({ w with ready := q } : Network).perform t = w' := by
  rw [step]
  cases w.ready with
  | nil =>
    refine iff_of_false (by rintro ⟨⟩) ?_
    rintro ⟨_, _, h, -⟩
    cases h
  | cons t q =>
    constructor
    · intro h
      exact ⟨t, q, rfl, Option.some.inj h⟩
    · rintro ⟨t, q, h, rfl⟩
      obtain ⟨rfl, rfl⟩ := List.cons.inj h
      rfl

/-- The first task of the queue has the turn. -/
theorem step_of_ready {t : Task} {q : List Task} (h : w.ready = t :: q) :
    w.step = some (({ w with ready := q } : Network).perform t) :=
  step_eq_some.mpr ⟨t, q, h, rfl⟩

/-- One round is the turn of the first task. -/
theorem run_settle_one {t : Task} {q : List Task} (h : w.ready = t :: q) :
    run w [.settle 1] = ({ w with ready := q } : Network).perform t := by
  show settle 1 w = _
  rw [settle, step_of_ready h]
  rfl

/-- A step of the tasks is a path. -/
theorem path_step {w' : Network} (h : w.step = some w') : Path w w' := by
  obtain ⟨t, q, hq, rfl⟩ := step_eq_some.mp h
  exact ((Path.refl w).pop hq).moves (moves_perform _ t)

/-- What every step keeps is kept by any number of steps. -/
theorem settle_induction {P : Network → Prop} (h : P w)
    (next : ∀ {u v : Network}, u.step = some v → P u → P v) (n : Nat) : P (settle n w) := by
  induction n generalizing w with
  | zero => exact h
  | succ n ih =>
    rw [settle]
    split
    · exact h
    · next v hs => exact ih (next hs h)

/-- The rounds of the tasks are a path. -/
theorem path_settle (n : Nat) (w : Network) : Path w (settle n w) :=
  settle_induction (P := Path w) (.refl w) (fun hs h => h.trans (path_step hs)) n

/-! ## Actions -/

/-- What is put into a script is a move at its connection. -/
theorem moves_modifyScript (w : Network) (c : Nat) (f : Input × Output → Input × Output) :
    Moves w (w.modifyScript c f) := by
  cases hx : w.conns[c]? with
  | none =>
    rw [modifyScript, modifyConn, modify_eq_of_none hx]
    exact .refl w
  | some x =>
    refine moves_turn hx ?_
    split
    · exact .stream _
    · exact .stream x.stream

/-- A notification from outside is no more than an aside. -/
theorem aside_notify {w' : Network} {sender : Sender} {method : String}
    {params : Except Json.Cause Json} (h : w.notify sender method params = .ok w') :
    Aside w w' := by
  unfold notify at h
  split at h
  · cases h
  · cases h
  · exact aside_sendVia h

/-- A notification from outside is a row of moves. -/
theorem moves_notify {w' : Network} {sender : Sender} {method : String}
    {params : Except Json.Cause Json} (h : w.notify sender method params = .ok w') :
    Moves w w' :=
  (aside_notify h).moves

/-- An action that may be refused changes nothing then. -/
theorem moves_attempt {o : Except CallError Network} (h : ∀ w', o = .ok w' → Moves w w') :
    Moves w (w.attempt o).2 := by
  cases o with
  | error e => exact .refl w
  | ok w' => exact h w' rfl

/-- An attempt that makes something is a row of moves, if the success is. -/
theorem moves_attemptMade {o : Except CallError (Nat × Network)}
    (h : ∀ n w', o = .ok (n, w') → Moves w w') : Moves w (w.attemptMade o).2 := by
  cases o with
  | error e => exact .refl w
  | ok p => exact h p.1 p.2 rfl

/-- Every action is a series of moves, unless tasks have their turns or a call is given up. -/
theorem moves_act (w : Network) {a : Action} (ha : ∀ n, a ≠ .settle n)
    (hd : ∀ k, a ≠ .dropCall k) : Moves w (w.act a).2 := by
  cases a with
  | openScript config =>
    refine .single (.openConns fun x hx => ?_)
    obtain rfl := List.mem_singleton.mp hx
    exact ⟨_, _, rfl⟩
  | openPipes capacity first second =>
    let p := w.pipes.length
    have hf : ∀ x ∈ [({ config := first, stream := .pipes p (p + 1) } : Connection),
        { config := second, stream := .pipes (p + 1) p }], x.IsFresh := by
      intro x hx
      simp only [List.mem_cons, List.not_mem_nil, or_false] at hx
      rcases hx with rfl | rfl <;> exact ⟨_, _, rfl⟩
    refine (Moves.single (.openConns hf)).tail ?_
    exact .surroundings _ w.registrations w.openGates w.gateQueue (Nat.le_refl _)
  | openDispatcher => exact .single .openDispatcher
  | dropDispatcher d => exact (aside_dropDispatcher w d).moves
  | dropConn c => exact moves_dropConn w c
  | connect c d => exact moves_connect w c d
  | disconnect c flush => exact moves_disconnect w c flush
  | feed c bytes ended =>
    exact (moves_modifyScript w c _).roused (roused_wakeReader _ c)
  | fault c text => exact (moves_modifyScript w c _).roused (roused_wakeReader _ c)
  | setOutput c output =>
    exact (moves_modifyScript w c _).roused (roused_wakeBusyWriter _ c)
  | notify sender method params => exact moves_attempt fun w' h => moves_notify h
  | call sender method params shape => exact moves_attemptMade fun n w' h => moves_call h
  | dropCall k => exact absurd rfl (hd k)
  | advance secs => exact moves_advance w secs
  | openGate gate => exact (inside_openGate w gate).moves
  | handle d method h => exact moves_attempt fun w' h => (aside_handle h).moves
  | register d descriptor hooks => exact moves_attemptMade fun n w' h => (aside_register h).moves
  | keep d descriptor hooks => exact (aside_registrations _ (by simp)).moves
  | unregister serial => exact (aside_unregister w serial).moves
  | settle turns => exact absurd rfl (ha turns)

/-- Every action takes a path. -/
theorem path_act (w : Network) (a : Action) : Path w (w.act a).2 := by
  cases a with
  | settle turns => exact path_settle turns w
  | dropCall k =>
    show Path w (w.dropCall k)
    rcases dropCall_cases w k with h | ⟨u, x, hu, hk, hx, ho, hr⟩
    · rw [h]
      exact .refl w
    · exact ((Path.of_moves hu.moves).drop (hu.call.trans hk) hx ho).moves hr.moves
  | _ => exact .of_moves (moves_act w (by rintro _ ⟨⟩) (by rintro _ ⟨⟩))

/-- Whatever is done, one after the other, is a path. -/
theorem path_run (w : Network) (actions : List Action) : Path w (run w actions) := by
  induction actions generalizing w with
  | nil => exact .refl w
  | cons a actions ih => exact (path_act w a).trans (ih _)

/-! ## Networks that can be reached -/

namespace Reachable

/-- What can be reached is at the end of a path. -/
theorem path (h : Reachable w) : Path {} w := by
  obtain ⟨actions, rfl⟩ := h
  exact path_run {} actions

/-- What is reached from there is reached. -/
theorem run (h : Reachable w) (actions : List Action) : Reachable (run w actions) := by
  obtain ⟨before, rfl⟩ := h
  exact ⟨before ++ actions, (List.foldl_append ..).symm⟩

/-- What holds of a fresh network and is kept by every action holds of each network that can be
reached. -/
theorem induction {P : Network → Prop} (h : Reachable w) (fresh : P {})
    (act : ∀ {v : Network} (a : Action), Reachable v → P v → P (v.act a).2) : P w := by
  obtain ⟨actions, rfl⟩ := h
  suffices hrun : ∀ v : Network, Reachable v → P v → P (Network.run v actions) from
    hrun {} ⟨[], rfl⟩ fresh
  induction actions with
  | nil =>
    intro v _ hv
    exact hv
  | cons a actions ih =>
    intro v hr hv
    exact ih _ (hr.run [a]) (act a hr hv)

/-- Every run has its connection in every network that can be reached. -/
theorem housed (h : Reachable w) : w.Housed := h.path.housed (by simp [Housed])

/-- What holds of fresh connections and is kept by every move of a connection holds of each
connection. -/
theorem each (h : Reachable w) {P : Nat → Connection → Journal → Prop}
    (fresh : ∀ {c x j}, x.IsFresh → (∀ e ∈ j, e.concerns c = false) → P c x j)
    (step : ∀ {c x y es j}, P c x j → ConnMove c x es y → P c y (es ++ j)) : w.Each P :=
  h.path.each fresh step

end Reachable

end Parley.Network
