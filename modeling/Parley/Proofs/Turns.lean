import Parley.Network.Loops

/-!
# What the turns of the two loops keep

The loop that reads takes its input, hands on the messages in it, and goes on or stops. The loop
that writes puts out frame after frame until the stream takes no more or the queue is empty. What
each of these steps keeps is kept by the whole turn, whatever it is: the principles below say so
once, for every property of networks.

- `Network.receiveAll_induction`: the messages that came in one piece.
- `Network.readLoop_induction`: the turn of the loop that reads. While it goes on it keeps a
  property that may be more than what is left of it when it stops.
- `Network.writeLoop_induction`: the turn of the loop that writes.
-/

namespace Parley.Network

variable {w : Network} {c : Nat}

/-! ## Reading -/

/-- The messages in the bodies of frames are handed on, up to the first one that is no message. What
handing on a message keeps is kept by all of that. -/
theorem receiveAll_induction {P : Network → Prop}
    (receive : ∀ {v : Network} (m : Message), P v → P (v.receive c m)) (h : P w)
    (bodies : List (List UInt8)) :
    (∀ w', receiveAll c w bodies = .ok w' → P w') ∧
      ∀ e w', receiveAll c w bodies = .error (e, w') → P w' := by
  induction bodies generalizing w with
  | nil =>
    constructor
    · intro w' hw
      obtain rfl := Except.ok.inj hw
      exact h
    · intro e w' hw
      cases hw
  | cons body bodies ih =>
    rw [receiveAll]
    split
    · -- The body is no message, so everything that came before it is what there is.
      constructor
      · intro w' hw
        cases hw
      · intro e w' hw
        obtain ⟨-, rfl⟩ := Prod.mk.inj (Except.error.inj hw)
        exact h
    · exact ih (receive _ h)

section reading

variable {P Q : Network → Prop} (receive : ∀ {v : Network} (m : Message), P v → P (v.receive c m))
  (fail : ∀ {v : Network} (e : ReadError), P v → Q (v.failReading c e))
  (done : ∀ {v : Network}, P v → Q (v.endReading c))
include receive fail done

/-- At the end of the input the loop fails, or ends, and before that a last message may come. -/
theorem closeIntake_induction (limit : Nat) (s : Frame.Intake) (h : P w) :
    Q (w.closeIntake c limit s) := by
  rw [closeIntake]
  split
  · exact fail _ h
  · exact done h
  · next body _ =>
    obtain ⟨hok, herr⟩ := receiveAll_induction receive h [body]
    split
    · next e w' hw => exact fail _ (herr e w' hw)
    · next w' hw => exact done (hok w' hw)

variable (goOn : ∀ {v : Network} (s : Frame.Intake), P v →
  Q (v.modifyConn c fun x => { x with reading := .running s }))
include goOn

/-- Behind its input the loop goes on, fails or ends. -/
theorem readOn_induction (limit : Nat) (s : Frame.Intake) (h : P (w.takeInput c).2.2) :
    Q (w.readOn c limit s) := by
  rw [readOn]
  simp only
  obtain ⟨hok, herr⟩ := receiveAll_induction receive h (s.feed limit (w.takeInput c).1).1
  split
  · -- A body of the piece is no message: it fails there.
    next e w' hw => exact fail _ (herr e w' hw)
  · -- All of them were received; the end of the input decides.
    next w' hw =>
    have hw' := hok w' hw
    split
    · exact fail _ hw'
    · split
      · exact goOn _ hw'
      · exact closeIntake_induction receive fail done limit _ hw'
      · exact fail _ hw'

/-- **The turn of the loop that reads.** It does nothing, stops at once, or takes its input, and
then keeps `P` as long as messages are handed on and comes to `Q` when it goes on, fails or ends. -/
theorem readLoop_induction (rest : Q w)
    (stop : ∀ x s, w.conns[c]? = some x → x.reading = .running s → x.shutdown = true →
      Q (w.stopReading c))
    (take : ∀ x s, w.conns[c]? = some x → x.reading = .running s → x.shutdown = false →
      P (w.takeInput c).2.2) : Q (w.readLoop c) := by
  rw [readLoop]
  split
  · exact rest
  · next x hx =>
    split
    · next s hs =>
      split
      · next hd => exact stop x s hx hs hd
      · next hd =>
        exact readOn_induction receive fail done goOn _ s (take x s hx hs (by simpa using hd))
    · exact rest
    · exact rest

end reading

/-! ## Writing -/

/-- **The turn of the loop that writes.** An aborted loop stops, and one that finds the mark of the
end stops behind it. Any other begins the next frame, if there is one, or goes on in the midst of
one, again and again. -/
theorem writeLoop_induction {P : Network → Prop}
    (abort : ∀ {v : Network} {x : Connection}, P v → v.conns[c]? = some x → x.aborted = true →
      (x.writing = .idle ∨ ∃ rest, x.writing = .busy rest) → P (v.stopWriting c))
    (drain : ∀ {v : Network} {x : Connection} {l : Link}, P v → v.conns[c]? = some x →
      x.writing = .idle → x.link.bind Link.pop = some (.close, l) →
      P ((v.setLink c l).stopWriting c))
    (begin : ∀ {v : Network} {x : Connection} {m : Message} {l : Link}, P v →
      v.conns[c]? = some x → x.aborted = false → x.writing = .idle →
      x.link.bind Link.pop = some (.message m, l) →
      P (v.modifyConn c fun x => { x with link := some l, writing := .busy m.frame }))
    (goOn : ∀ {v : Network} {x : Connection} {rest : List UInt8}, P v → v.conns[c]? = some x →
      x.aborted = false → x.writing = .busy rest → P (v.writeOn c rest))
    (n : Nat) (h : P w) : P (writeLoop c n w) := by
  induction n generalizing w with
  | zero => exact h
  | succ n ih =>
    rw [writeLoop]
    dsimp only
    split
    · exact h
    · next x hx =>
      split
      · exact h
      · exact h
      · next rest hw =>
        split
        · next ha => exact abort h hx ha (.inr ⟨rest, hw⟩)
        · next ha =>
          have hon := goOn h hx (by simpa using ha) hw
          -- After the frame the loop looks for the next one, unless it stopped inside it.
          split
          · exact ih hon
          · exact hon
      · next hw =>
        split
        · next ha => exact abort h hx ha (.inl hw)
        · next ha =>
          have ha : x.aborted = false := by simpa using ha
          split
          · exact h
          · next l hl => exact drain h hx hw hl
          · next m l hl =>
            have hon := goOn (x := { x with link := some l, writing := .busy m.frame })
              (begin h hx ha hw hl) (by rw [getElem?_modifyConn_self, hx]; rfl) ha rfl
            split
            · exact ih hon
            · exact hon

end Parley.Network
