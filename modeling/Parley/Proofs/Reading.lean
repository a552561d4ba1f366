import Parley.Proofs.Causes
import Parley.Proofs.Pieces

/-!
# What is read of a stream

The loop that reads comes to the same, however the bytes arrive: what it hands on are the messages
of the whole string, and what it comes to at the end of the stream is why the reading of the whole
string ends. Once it has failed, no byte that follows changes anything.

- `messagesIn`: the messages that are handed on for some frames.
- `map_fst_readMessages`, `verdict_ended`: the messages and the end of a whole string.
- `readMessages_append_of_failed`: what follows a failure.
- `verdict_append`: a verdict on bytes that come in pieces.
-/

namespace Parley.Network

open Parley.Frame

/-- The messages in the bodies of frames, up to the first body that is no message. -/
def messagesIn : List (List UInt8) → List Message
  | [] => []
  | body :: bodies =>
    match Message.ofBytes body with
    | .error _ => []
    | .ok m => m :: messagesIn bodies

section bodies

variable {a : List (List UInt8)}

theorem messagesIn_append (h : a.findSome? bodyError? = none) (b : List (List UInt8)) :
    messagesIn (a ++ b) = messagesIn a ++ messagesIn b := by
  induction a with
  | nil => rfl
  | cons body a ih =>
    rw [List.findSome?_cons, bodyError?] at h
    rw [List.cons_append, messagesIn, messagesIn]
    cases hm : Message.ofBytes body with
    | error e =>
      rw [hm] at h
      cases h
    | ok m =>
      rw [hm] at h
      simp only [ih h, List.cons_append]

/-- Nothing is handed on behind a body that is no message. -/
theorem messagesIn_append_of_bad {e : ReadError} (h : a.findSome? bodyError? = some e)
    (b : List (List UInt8)) : messagesIn (a ++ b) = messagesIn a := by
  induction a with
  | nil => cases h
  | cons body a ih =>
    rw [List.findSome?_cons, bodyError?] at h
    rw [List.cons_append, messagesIn, messagesIn]
    cases hm : Message.ofBytes body with
    | error e => rfl
    | ok m =>
      rw [hm] at h
      simp only [ih h]

/-- An empty body is no message. -/
theorem messagesIn_append_empty (a : List (List UInt8)) :
    messagesIn (a ++ [[]]) = messagesIn a := by
  cases h : a.findSome? bodyError? with
  | some e => exact messagesIn_append_of_bad h _
  | none =>
    have hnil : messagesIn [[]] = [] := rfl
    rw [messagesIn_append h, hnil, List.append_nil]

/-- Turning the bodies of frames into messages is what the loop does that reads. -/
theorem decodeAll_ofBytes (stop : Option ReadError) (items : List (List UInt8 × Nat)) :
    (decodeAll Message.ofBytes stop items).1.map Prod.fst = messagesIn (items.map Prod.fst) ∧
      (decodeAll Message.ofBytes stop items).2 =
        ((items.map Prod.fst).findSome? bodyError?).or stop := by
  induction items with
  | nil => exact ⟨rfl, rfl⟩
  | cons item items ih =>
    obtain ⟨body, n⟩ := item
    rw [decodeAll, List.map_cons, messagesIn, List.findSome?_cons, bodyError?]
    cases Message.ofBytes body with
    | error e => exact ⟨rfl, rfl⟩
    | ok m => exact ⟨congrArg (m :: ·) ih.1, ih.2⟩

end bodies

section stream

variable {limit : Nat}

/-- The end of a stream completes no body but an empty one. -/
theorem finish_eq_some {s : Intake} {body : List UInt8} (h : s.finish limit = .ok (some body)) :
    body = [] := by
  cases s with
  | body held missing => cases h
  | header line room seen length =>
    cases line with
    | nil =>
      rw [Intake.finish] at h
      split at h <;> cases h
    | cons b line =>
      rw [Intake.finish] at h
      rcases Intake.endLine_cases limit (line.reverse ++ [b]) length with
        ⟨e, he⟩ | he | ⟨n, he⟩ | ⟨n, he⟩
      · rw [he] at h
        cases h
      · rw [he] at h
        exact (Option.some.inj (Except.ok.inj h)).symm
      · rw [he] at h
        cases h
      · rw [he] at h
        cases h

/-! ## Three ways to a verdict -/

section verdict

variable {s t : Intake} {bs : List UInt8} {bodies : List (List UInt8)}

/-- A body is no message. -/
theorem verdict_of_bad {r : Except ReadError Intake} {e : ReadError}
    (h : s.feed limit bs = (bodies, r)) (hb : bodies.findSome? bodyError? = some e)
    (sequel : Sequel) : verdict limit s bs sequel = .failed e := by
  simp [verdict, h, hb]

/-- A frame is none. -/
theorem verdict_of_error {e : ReadError} (h : s.feed limit bs = (bodies, .error e))
    (hb : bodies.findSome? bodyError? = none) (sequel : Sequel) :
    verdict limit s bs sequel = .failed e := by
  simp [verdict, h, hb]

/-- Every frame that is whole has a message in it. What follows decides. -/
theorem verdict_of_ok (h : s.feed limit bs = (bodies, .ok t))
    (hb : bodies.findSome? bodyError? = none) (sequel : Sequel) :
    verdict limit s bs sequel = verdict limit t [] sequel := by
  simp [verdict, Intake.feed, h, hb]

theorem verdict_nil_ended (t : Intake) :
    verdict limit t [] .ended =
      match t.finish limit with
      | .error e => .failed e
      | .ok none => .ended
      | .ok (some body) => (bodyError? body).elim .ended .failed := rfl

/-- As long as the loop goes on, every frame was whole and every body a message. -/
theorem exists_of_verdict_goesOn {sequel : Sequel} (h : verdict limit s bs sequel = .goesOn) :
    ∃ bodies t, s.feed limit bs = (bodies, .ok t) ∧ bodies.findSome? bodyError? = none := by
  rcases hf : s.feed limit bs with ⟨bodies, e | t⟩
  · cases hb : bodies.findSome? bodyError? with
    | some e' => cases (verdict_of_bad hf hb sequel).symm.trans h
    | none => cases (verdict_of_error hf hb sequel).symm.trans h
  · cases hb : bodies.findSome? bodyError? with
    | some e' => cases (verdict_of_bad hf hb sequel).symm.trans h
    | none => exact ⟨bodies, t, rfl, hb⟩

/-- A fault counts if nothing was wrong before it. -/
theorem verdict_fault (s : Intake) (bs : List UInt8) (text : String) :
    verdict limit s bs (.fault text) =
      if verdict limit s bs .open = .goesOn then .failed (.stream text)
      else verdict limit s bs .open := by
  rcases hf : s.feed limit bs with ⟨bodies, e | t⟩
  · cases hb : bodies.findSome? bodyError? with
    | some e' => simp [verdict_of_bad hf hb]
    | none => simp [verdict_of_error hf hb]
  · cases hb : bodies.findSome? bodyError? with
    | some e' => simp [verdict_of_bad hf hb]
    | none =>
      rw [verdict_of_ok hf hb, verdict_of_ok hf hb]
      rfl

end verdict

/-! ## The whole string -/

/-- The messages of a whole string are those of the frames that the reader finds in it. -/
theorem map_fst_readMessages (limit : Nat) (bs : List UInt8) :
    (readMessages limit bs).1.map Prod.fst = messagesIn (Intake.start.feed limit bs).1 := by
  have h : (readMessages limit bs).1.map Prod.fst = messagesIn (Intake.start.drain limit bs).1 := by
    rw [drain_start]
    exact (decodeAll_ofBytes (readFrames limit bs).2 (readFrames limit bs).1).1
  rw [h, Intake.drain]
  rcases Intake.start.feed limit bs with ⟨bodies, e | t⟩
  · rfl
  · simp only
    cases hf : t.finish limit with
    | error e => rfl
    | ok o =>
      cases o with
      | none => rfl
      | some body =>
        obtain rfl := finish_eq_some hf
        exact messagesIn_append_empty bodies

/-- **What the loop comes to at the end of a stream** is why the reading of the whole string
ends. -/
theorem verdict_ended (limit : Nat) (bs : List UInt8) :
    verdict limit .start bs .ended = (readMessages limit bs).2.elim .ended .failed := by
  have h : (readMessages limit bs).2 = ((Intake.start.drain limit bs).1.findSome? bodyError?).or
      (Intake.start.drain limit bs).2 := by
    rw [drain_start]
    exact (decodeAll_ofBytes (readFrames limit bs).2 (readFrames limit bs).1).2
  rw [h, Intake.drain]
  rcases hf : Intake.start.feed limit bs with ⟨bodies, e | t⟩
  · cases hb : bodies.findSome? bodyError? with
    | some e' => simp [verdict_of_bad hf hb]
    | none => simp [verdict_of_error hf hb]
  · cases hb : bodies.findSome? bodyError? with
    | some e' =>
      rw [verdict_of_bad hf hb]
      simp only
      rcases t.finish limit with e | o | body <;> simp [hb]
    | none =>
      rw [verdict_of_ok hf hb, verdict_nil_ended]
      simp only
      rcases t.finish limit with e | o | body <;> simp [hb]

/-- The error that a failure at the end of a stream reports. -/
theorem readMessages_of_failed {bs : List UInt8} {e : ReadError}
    (h : verdict limit .start bs .ended = .failed e) : (readMessages limit bs).2 = some e := by
  rw [verdict_ended] at h
  cases hs : (readMessages limit bs).2 with
  | none =>
    rw [hs] at h
    cases h
  | some e' =>
    rw [hs] at h
    exact congrArg some (Verdict.failed.inj h)

/-! ## Bytes that come in pieces -/

section pieces

variable {s t : Intake} {a : List UInt8} {bodies : List (List UInt8)}

/-- The verdict on what has arrived since goes for the whole, if all was well so far. -/
theorem verdict_append (h : s.feed limit a = (bodies, .ok t))
    (hgood : bodies.findSome? bodyError? = none) (b : List UInt8) (sequel : Sequel) :
    verdict limit s (a ++ b) sequel = verdict limit t b sequel := by
  rw [verdict, verdict, Intake.feed_append_of_ok h]
  simp only [List.findSome?_append, hgood, Option.none_or]

/-- So do the messages. -/
theorem messagesIn_feed_append (h : s.feed limit a = (bodies, .ok t))
    (hgood : bodies.findSome? bodyError? = none) (b : List UInt8) :
    messagesIn (s.feed limit (a ++ b)).1 = messagesIn bodies ++ messagesIn (t.feed limit b).1 := by
  rw [Intake.feed_append_of_ok h]
  exact messagesIn_append hgood _

/-- No byte behind a failure is looked at. -/
theorem feed_append_of_failed {e : ReadError} (h : verdict limit s a .open = .failed e)
    (b : List UInt8) (sequel : Sequel) :
    messagesIn (s.feed limit (a ++ b)).1 = messagesIn (s.feed limit a).1 ∧
      verdict limit s (a ++ b) sequel = .failed e := by
  rcases hf : s.feed limit a with ⟨bodies, e' | t⟩
  · -- The error counts, unless a body before it is no message.
    have hall := Intake.feed_append_of_error hf b
    refine ⟨by rw [hall], ?_⟩
    cases hb : bodies.findSome? bodyError? with
    | some e' =>
      rw [verdict_of_bad hf hb] at h
      rw [verdict_of_bad hall hb, h]
    | none =>
      rw [verdict_of_error hf hb] at h
      rw [verdict_of_error hall hb, h]
  · have hall := Intake.feed_append_of_ok hf b
    cases hb : bodies.findSome? bodyError? with
    | none =>
      rw [verdict_of_ok hf hb] at h
      cases h
    | some e' =>
      rw [verdict_of_bad hf hb] at h
      have hb' : (bodies ++ (t.feed limit b).1).findSome? bodyError? = some e' := by
        rw [List.findSome?_append, hb, Option.some_or]
      rw [verdict_of_bad hall hb', h, hall]
      exact ⟨messagesIn_append_of_bad hb _, rfl⟩

end pieces

/-- **No byte behind a failure is looked at**: the messages and the error of the whole string stay
what they are. -/
theorem readMessages_append_of_failed {bs : List UInt8} {e : ReadError}
    (h : verdict limit .start bs .open = .failed e) (more : List UInt8) :
    (readMessages limit (bs ++ more)).1.map Prod.fst = (readMessages limit bs).1.map Prod.fst ∧
      (readMessages limit (bs ++ more)).2 = some e := by
  obtain ⟨hm, hv⟩ := feed_append_of_failed h more .ended
  rw [map_fst_readMessages, map_fst_readMessages]
  exact ⟨hm, readMessages_of_failed hv⟩

end stream

end Parley.Network
