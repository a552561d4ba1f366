import Parley.Network.Handling

/-!
# What a run may end with

The body of a handler returns a value, fails, or panics, and what it returned may have no JSON form.
Each of these is one answer. A run that waits keeps what its handler saw, so that its answer is the
one that its handler stands for, however long it waited.

- `BodyOutcome`, `Handler.respond`: what a body comes to, and what is answered for it.
- `Handler.Yields`: what the body of a handler may come to, with the params that it saw.
- `Handler.Says`: what a handler answers to a request, case by case; `Handler.says_respond`.
- `Run.Answers`: the answers that a run may give.
- `Run.MayWait`, `Run.MayEnd`: what its next turn may lead to.
- `Run.Sound`: how far a run is fits its handler; kept by `Run.Sound.wait` and `Run.Sound.finish`.
-/

namespace Parley

/-- What the body of a handler comes to. -/
inductive BodyOutcome where
  | returned (v : Json)
  | failed (f : Failure)
  | panicked (text : String)
  /-- What it returned has no JSON form. -/
  | unserializable
  deriving DecidableEq, Repr

/-- What a body comes to that passes the outcome of a call on. -/
def BodyOutcome.ofCall : Except CallError Json → BodyOutcome
  | .ok v => .returned v
  | .error e => .failed e.toFailure

namespace Handler

/-- What is answered for a handler: the value, which is `null` for a command; the failure, as it is;
or that something went wrong inside. -/
def respond (h : Handler) : BodyOutcome → Except Failure Json
  | .returned v => .ok (if h.kind = .command then .null else v)
  | .failed f => .error f
  | .panicked text => .error (.internal text)
  | .unserializable =>
    if h.kind = .command then .ok .null else .error (badResult Parley.unserializable)

/-- Whether a handler gets beyond its first moment. -/
def Starts (h : Handler) : Prop := ∀ text, h.opening ≠ .panic text

/-- What the body of a handler may come to. -/
inductive Yields (h : Handler) (params : Json) : BodyOutcome → Prop where
  | panicAtOnce {text : String} (ho : h.opening = .panic text) : Yields h params (.panicked text)
  | echo (hs : h.Starts) (ho : h.outcome = .echo) : Yields h params (.returned params)
  | value {v : Json} (hs : h.Starts) (ho : h.outcome = .value v) : Yields h params (.returned v)
  | fail {f : Failure} (hs : h.Starts) (ho : h.outcome = .fail f) : Yields h params (.failed f)
  | panic {text : String} (hs : h.Starts) (ho : h.outcome = .panic text) :
      Yields h params (.panicked text)
  | unserializable (hs : h.Starts) (ho : h.outcome = .unserializable) :
      Yields h params .unserializable
  | wasCancelled (hs : h.Starts) (ho : h.outcome = .wasCancelled) (b : Bool) :
      Yields h params (.returned (.bool b))
  | hang {answers : Bool} (hs : h.Starts) (ho : h.outcome = .hang answers) :
      Yields h params (if answers then .returned params else .failed cancelledFailure)
  | awaitGate {gate : String} (hs : h.Starts) (ho : h.outcome = .awaitGate gate) :
      Yields h params (.returned params)
  | forward {method : String} (hs : h.Starts) (ho : h.outcome = .forward method)
      (outcome : Except CallError Json) : Yields h params (.ofCall outcome)

/-- What a handler for requests answers to one with these params. -/
inductive Says (h : Handler) (params : Json) : Except Failure Json → Prop where
  /-- The params do not fit, and the body is not called. -/
  | undecodable {cause : Json.Cause} (hd : h.payload.ofJson params = .error cause) :
      Says h params
        (.error ⟨.invalidParams, "Failed to deserialize parameters: " ++ cause.message, none⟩)
  /-- The value that the body returned. -/
  | value {seen v : Json} (hk : h.kind = .request) (hd : h.payload.ofJson params = .ok seen)
      (hb : h.Yields seen (.returned v)) : Says h params (.ok v)
  /-- A command says only that it is done. -/
  | done {seen v : Json} (hk : h.kind = .command) (hd : h.payload.ofJson params = .ok seen)
      (hb : h.Yields seen (.returned v)) : Says h params (.ok .null)
  /-- The failure of the body, as it is. -/
  | failed {seen : Json} {f : Failure} (hd : h.payload.ofJson params = .ok seen)
      (hb : h.Yields seen (.failed f)) : Says h params (.error f)
  /-- The body panicked, with this text. -/
  | panicked {seen : Json} {text : String} (hd : h.payload.ofJson params = .ok seen)
      (hb : h.Yields seen (.panicked text)) : Says h params (.error ⟨.internalError, text, none⟩)
  /-- What the body returned has no JSON form. -/
  | unserializable {seen : Json} (hk : h.kind = .request)
      (hd : h.payload.ofJson params = .ok seen) (hb : h.Yields seen .unserializable) :
      Says h params (.error ⟨.internalError,
        "Failed to serialize result: " ++ Parley.unserializable.message, none⟩)
  /-- A command drops what its body returned, so that no JSON form of it is needed. -/
  | drops {seen : Json} (hk : h.kind = .command) (hd : h.payload.ofJson params = .ok seen)
      (hb : h.Yields seen .unserializable) : Says h params (.ok .null)

variable {h : Handler} {params : Json}

/-- What is answered for params that do not fit is what the handler says. -/
theorem says_badParams {cause : Json.Cause} (hd : h.decode params = .error cause) :
    h.Says params (.error (badParams cause)) := .undecodable hd

/-- What is answered for a body that was called is what the handler says. -/
theorem says_respond {seen : Json} {b : BodyOutcome} (hk : h.kind.isRequest = true)
    (hd : h.decode params = .ok seen) (hb : h.Yields seen b) : h.Says params (h.respond b) := by
  -- Only requests and commands are answered; they differ in what they do with a value.
  have hkind : h.kind = .request ∨ h.kind = .command := by
    cases hkind : h.kind with
    | request => exact .inl rfl
    | command => exact .inr rfl
    | _ =>
      rw [hkind] at hk
      cases hk
  -- By what the body comes to.
  cases b with
  | returned v =>
    rcases hkind with hkind | hkind
    · rw [respond, if_neg (by rw [hkind]; rintro ⟨⟩)]
      exact .value hkind hd hb
    · rw [respond, if_pos hkind]
      exact .done hkind hd hb
  | failed f => exact .failed hd hb
  | panicked text => exact .panicked hd hb
  | unserializable =>
    rcases hkind with hkind | hkind
    · rw [respond, if_neg (by rw [hkind]; rintro ⟨⟩)]
      exact .unserializable hkind hd hb
    · rw [respond, if_pos hkind]
      exact .drops hkind hd hb

end Handler

namespace Run

/-- The answers that a run may give: `null` for a notification; for a request that its params do not
fit, or what is answered for what the body came to. -/
inductive Answers (y : Run) : Except Failure Json → Prop where
  | notification (hk : y.handler.kind.isRequest = false) : Answers y (.ok .null)
  | undecodable {cause : Json.Cause} (hk : y.handler.kind.isRequest = true)
      (hd : y.handler.decode y.params = .error cause) : Answers y (.error (badParams cause))
  | body {params : Json} {b : BodyOutcome} (hk : y.handler.kind.isRequest = true)
      (hd : y.handler.decode y.params = .ok params) (hb : y.handler.Yields params b) :
      Answers y (y.handler.respond b)

/-- Whether a handler that serves requests gets to its outcome, with the params that it sees. -/
structure Concludes (y : Run) (params : Json) : Prop where
  kind : y.handler.kind.isRequest = true
  decode : y.handler.decode y.params = .ok params
  starts : y.handler.Starts

/-- How a run that was not called yet may come to wait. -/
inductive MayWait (y : Run) : Stage → Prop where
  | hang {params : Json} {answers : Bool} (h : y.Concludes params)
      (ho : y.handler.outcome = .hang answers) : MayWait y (.hanging params)
  | gate {params : Json} {gate : String} (h : y.Concludes params)
      (ho : y.handler.outcome = .awaitGate gate) : MayWait y (.atGate gate params)
  | call {params : Json} {method : String} (h : y.Concludes params)
      (ho : y.handler.outcome = .forward method) (k : Nat) : MayWait y (.calling k)

/-- What the next turn of a run may end with. -/
inductive MayEnd (y : Run) : Except Failure Json → Prop where
  | fresh {outcome : Except Failure Json} (hs : y.stage = .fresh) (ha : y.Answers outcome) :
      MayEnd y outcome
  | hanging {params : Json} {answers : Bool} (hs : y.stage = .hanging params)
      (ho : y.handler.outcome = .hang answers) :
      MayEnd y (y.handler.respond (if answers then .returned params else .failed cancelledFailure))
  | atGate {gate : String} {params : Json} (hs : y.stage = .atGate gate params) :
      MayEnd y (y.handler.respond (.returned params))
  | calling {k : Nat} (hs : y.stage = .calling k) (outcome : Except CallError Json) :
      MayEnd y (y.handler.respond (.ofCall outcome))

/-- How far a run is fits its handler. -/
def Sound (y : Run) : Prop :=
  match y.stage with
  | .fresh => True
  | .finished outcome => y.Answers outcome
  | s => y.MayWait s

/-! ## What a run is allowed to do depends on its handler and its params -/

section same

variable {y z : Run}

theorem Concludes.same {params : Json} (h : y.Concludes params) (hh : z.handler = y.handler)
    (hp : z.params = y.params) : z.Concludes params :=
  ⟨by rw [hh, h.kind], by rw [hh, hp, h.decode], by rw [hh]; exact h.starts⟩

theorem MayWait.same {s : Stage} (h : y.MayWait s) (hh : z.handler = y.handler)
    (hp : z.params = y.params) : z.MayWait s := by
  cases h with
  | hang h ho => exact .hang (h.same hh hp) (by rw [hh, ho])
  | gate h ho => exact .gate (h.same hh hp) (by rw [hh, ho])
  | call h ho k => exact .call (h.same hh hp) (by rw [hh, ho]) k

theorem Answers.same {outcome : Except Failure Json} (h : y.Answers outcome)
    (hh : z.handler = y.handler) (hp : z.params = y.params) : z.Answers outcome := by
  cases h with
  | notification hk => exact .notification (by rw [hh, hk])
  | undecodable hk hd => exact .undecodable (by rw [hh, hk]) (by rw [hh, hp, hd])
  | body hk hd hb =>
    rw [← hh]
    exact .body (by rw [hh, hk]) (by rw [hh, hp, hd]) (by rw [hh]; exact hb)

end same

namespace Sound

variable {y : Run}

theorem of_fresh (h : y.stage = .fresh) : y.Sound := by
  rw [Sound, h]
  trivial

theorem wait {s : Stage} (h : y.MayWait s) : Sound { y with stage := s } := by
  have hy : MayWait { y with stage := s } s := h.same rfl rfl
  cases h <;> exact hy

/-- A run that is cancelled is as far as it was. -/
theorem cancel (hy : y.Sound) : Sound { y with cancelled := true } := by
  cases hs : y.stage with
  | fresh => exact of_fresh rfl
  | finished outcome =>
    simp only [Sound, hs] at hy ⊢
    exact hy.same rfl rfl
  | _ =>
    simp only [Sound, hs] at hy ⊢
    exact hy.same rfl rfl

/-- Whatever a run ends with is an answer of its handler. -/
theorem answers {outcome : Except Failure Json} (hy : y.Sound) (h : y.MayEnd outcome) :
    y.Answers outcome := by
  cases h with
  | fresh hs ha => exact ha
  | hanging hs ho =>
    rw [Sound, hs] at hy
    cases hy with
    | hang h ho' => exact .body h.kind h.decode (.hang h.starts ho)
  | atGate hs =>
    rw [Sound, hs] at hy
    cases hy with
    | gate h ho => exact .body h.kind h.decode (.awaitGate h.starts ho)
  | calling hs outcome =>
    rw [Sound, hs] at hy
    cases hy with
    | call h ho => exact .body h.kind h.decode (.forward h.starts ho outcome)

theorem finish {outcome : Except Failure Json} (hy : y.Sound) (h : y.MayEnd outcome) :
    Sound { y with stage := .finished outcome } := by
  have ha : Answers { y with stage := .finished outcome } outcome := (hy.answers h).same rfl rfl
  exact ha

end Sound

end Run

end Parley
