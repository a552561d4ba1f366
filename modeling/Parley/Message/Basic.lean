import Parley.Message.Failure
import Parley.Message.Id

/-!
# Messages

What two peers exchange: requests and their replies, notifications, and errors that answer nothing
in particular.

- `Message`, `Reply`: the messages.
- `Message.toJson`: the wire object of a message.
- `Message.writeId`, `Message.readId`: the identifier in it.
- `Message.ofJson`: the message that a wire object is, by the keys that are present.
-/

namespace Parley

/-- The answer to a request. Well-formed replies carry a result or a failure, not both. -/
structure Reply where
  /-- The request that is answered. -/
  id : Id
  result : Option Json
  failure : Option Failure
  deriving DecidableEq, Repr

namespace Reply

/-- A reply with a result. -/
def ok (id : Id) (result : Json) : Reply := ⟨id, some result, none⟩

/-- A reply with a failure. -/
def err (id : Id) (failure : Failure) : Reply := ⟨id, none, some failure⟩

/-- What a reply says: its failure if there is one, else its result, which is `null` if missing. -/
def outcome (r : Reply) : Except Failure Json :=
  match r.failure with
  | some f => .error f
  | none => .ok (r.result.getD .null)

@[simp] theorem outcome_ok (id : Id) (v : Json) : (ok id v).outcome = .ok v := rfl

@[simp] theorem outcome_err (id : Id) (f : Failure) : (err id f).outcome = .error f := rfl

end Reply

/-- A message. -/
inductive Message where
  /-- Expects one reply. -/
  | request (id : Id) (method : String) (params : Json)
  /-- Expects no answer. -/
  | notification (method : String) (params : Json)
  /-- Answers a request. -/
  | reply (r : Reply)
  /-- An error of the peer that it could not assign to a request. -/
  | unidentified (failure : Failure)
  deriving DecidableEq, Repr

namespace Message

/-- The method of a request or a notification. -/
def method? : Message → Option String
  | .request _ m _ | .notification m _ => some m
  | .reply _ | .unidentified _ => none

/-- The member for params, which is left out when they are `null`. -/
def paramsMember (params : Json) : List (String × Json) :=
  if params = .null then [] else [("params", params)]

/-- The identifier in an envelope as a value. -/
def writeId : Id → Json
  | .number n => .num (.whole ⟨n.toInt, (Id.toInt_range n).1, Id.toInt_lt_whole n⟩)
  | .text s => .str s

/-- An envelope names an identifier as everything else does. -/
@[simp] theorem writeId_eq_toJson (id : Id) : writeId id = id.toJson := by
  cases id with
  | number n => exact (Id.toJson_number n).symm
  | text s => rfl

/-- The members of the wire object. -/
def members : Message → List (String × Json)
  | .request id m params => [("id", writeId id), ("method", .str m)] ++ paramsMember params
  | .notification m params => ("method", .str m) :: paramsMember params
  | .reply r =>
    match r.outcome with
    | .error f => [("id", writeId r.id), ("error", f.toJson)]
    | .ok v => [("id", writeId r.id), ("result", v)]
  | .unidentified f => [("id", .null), ("error", f.toJson)]

/-- The wire object of a message. -/
def toJson (m : Message) : Json :=
  .ofMembers (("jsonrpc", .str "2.0") :: m.members)

/-- The body of a message. -/
def toBytes (m : Message) : List UInt8 := m.toJson.bytes

/-- Why an object is no message. -/
inductive Malformed where
  | notObject
  /-- A number that is no integer of 64 bits. -/
  | idNotInteger (n : Json.Number)
  /-- Neither a number nor a text. -/
  | badId (v : Json)
  | methodNotText
  | badFailure (cause : Json.Cause)
  | noMethodNorId
  | resultAndError (id : Id)
  | noResultNorError (id : Id)
  deriving DecidableEq, Repr

/-- The wording. -/
def Malformed.message : Malformed → String
  | .notObject => "message is not a JSON object"
  | .idNotInteger n => "id " ++ String.ofList n.render ++ " is not an integer"
  | .badId v => "invalid id: " ++ v.text
  | .methodNotText => "`method` is not a string"
  | .badFailure cause => "malformed error object: " ++ cause.message
  | .noMethodNorId => "neither `method` nor `id` present"
  | .resultAndError id => "response " ++ id.display ++ " carries both `result` and `error`"
  | .noResultNorError id => "response " ++ id.display ++ " carries neither `result` nor `error`"

/-- The identifier in an envelope. -/
def readId : Json → Except Malformed Id
  | .num (.whole w) =>
    match Id.ofInt? w.val with
    | some n => .ok (.number n)
    | none => .error (.idNotInteger (.whole w))
  | .num n => .error (.idNotInteger n)
  | .str s => .ok (.text s)
  | v => .error (.badId v)

/-- The identifier of an object: none if it is missing or `null`. -/
def readId? : Option Json → Except Malformed (Option Id)
  | none | some .null => .ok none
  | some v => (readId v).map some

/-- The error in an envelope. -/
def readFailure (v : Json) : Except Malformed Failure :=
  match Failure.ofJson v with
  | .ok f => .ok f
  | .error cause => .error (.badFailure cause)

/-- The reply that an object without a method is. -/
def readReply (id : Id) (result error : Option Json) : Except Malformed Message :=
  match result, error with
  | some v, none => .ok (.reply (.ok id v))
  | none, some e => (readFailure e).map fun f => .reply (.err id f)
  | some _, some _ => .error (.resultAndError id)
  | none, none => .error (.noResultNorError id)

/-- The message that a wire object is. A method makes it a request or a notification, whatever else
is there; an error under a `null` identifier, without a result, answers nothing in particular;
anything else has to be a reply. -/
def ofMembers (ms : List (String × Json)) : Except Malformed Message :=
  match readId? (ms.lookup "id") with
  | .error e => .error e
  | .ok id =>
    match ms.lookup "method" with
    | some (.str m) =>
      let params := (ms.lookup "params").getD .null
      match id with
      | some id => .ok (.request id m params)
      | none => .ok (.notification m params)
    | some _ => .error .methodNotText
    | none =>
      match ms.lookup "id", ms.lookup "result", ms.lookup "error", id with
      | some .null, none, some e, _ => (readFailure e).map .unidentified
      | _, _, _, none => .error .noMethodNorId
      | _, result, error, some id => readReply id result error

/-- The message that a JSON value is. -/
def ofJson : Json → Except Malformed Message
  | .obj ms => ofMembers ms
  | _ => .error .notObject

end Message

end Parley
