import Parley.Message.Basic
import Parley.Proofs.Values

/-!
# Messages and their wire objects

A message is read back from its wire object in its plain form: a reply is a result or a failure and
not both, and data of a failure that are `null` are no data. A message that has this form already is
read back as it is.

- `Message.plain`: the form in which a message comes out at the other end.
- `Message.ofJson_toJson`: what is read back from a wire object.
- `Message.all_toJson`: a wire object is exact if what its message carries is.
-/

namespace Parley

/-! ## Failures -/

namespace Json

/-- Members that fit their fields as they are come out as they are. -/
theorem fitMembers_self {fields : List (FieldOf (Json → Except Cause Json))}
    {ms : List (String × Json)}
    (h : ∀ m ∈ ms, ∃ f, fields.find? (·.name == m.1) = some f ∧ f.take m.2 = .ok m.2) :
    fitMembers fields ms = .ok ms := by
  induction ms with
  | nil => rfl
  | cons m ms ih =>
    obtain ⟨f, hf, hm⟩ := h m List.mem_cons_self
    simp only [fitMembers, hf, hm, ih fun n hn => h n (List.mem_cons_of_mem _ hn), Except.map]

theorem index_ofMembers (ms : List (String × Json)) (k : String) :
    (ofMembers ms).index k = (ms.reverse.lookup k).getD .null := by
  rw [ofMembers, index, lookup_foldl_insertMember]
  simp

theorem all_ofInt (n : Int) : (ofInt n).all isExact = true := by
  rw [ofInt]
  cases Whole.ofInt? n <;> rfl

end Json

namespace Failure

/-- The fields of a failure, with the ways to fit their values. -/
def fitters : List (Json.FieldOf (Json → Except Json.Cause Json)) :=
  [⟨"code", .refused, Json.Shape.int32.ofJson⟩, ⟨"message", .refused, Json.Shape.text.ofJson⟩,
    ⟨"data", .filled .null, (Json.Shape.optional .any).ofJson⟩]

/-- The value of a code is an integer of 32 bits. -/
theorem fits_code (c : ErrorCode) :
    ∃ w : Json.Whole, Json.ofInt c.val.toInt = .num (.whole w) ∧
      Json.Shape.int32.ofJson (.num (.whole w)) = .ok (.num (.whole w)) ∧
      ErrorCode.ofInt w.val = c := by
  have hl := c.val.le_toInt
  have hu := c.val.toInt_lt
  have h : -0x8000000000000000 ≤ c.val.toInt ∧ c.val.toInt < 0x10000000000000000 := by omega
  refine ⟨⟨c.val.toInt, h.1, h.2⟩, ?_, if_pos ⟨hl, by show c.val.toInt ≤ 0x7fffffff; omega⟩, ?_⟩
  · rw [Json.ofInt, Json.Whole.ofInt?, dif_pos h]
  · show ErrorCode.mk (Int32.ofInt c.val.toInt) = c
    rw [Int32.ofInt_toInt]

theorem fits_data (d : Json) : (Json.Shape.optional .any).ofJson d = .ok d := by
  cases d <;> rfl

/-- The members of a failure's JSON value, in order. -/
def sorted (f : Failure) : List (String × Json) :=
  [("code", .ofInt f.code.val.toInt)] ++ (f.data.map fun d => ("data", d)).toList ++
    [("message", .str f.message)]

theorem toJson_eq (f : Failure) : f.toJson = .obj f.sorted := by
  obtain ⟨code, message, data⟩ := f
  have h₁ : ¬"message" < "code" := by decide
  have h₂ : ¬"data" < "code" := by decide
  have h₃ : "data" < "message" := by decide
  cases data with
  | none => simp [toJson, fields, sorted, Json.ofMembers, Json.insertMember, h₁]
  | some d => simp [toJson, fields, sorted, Json.ofMembers, Json.insertMember, h₁, h₂, h₃]

/-- The fields of a failure fit their shapes as they are. -/
theorem fitRecord_sorted (f : Failure) :
    Json.fitRecord "ResponseError" fitters (.obj f.sorted) =
      .ok (.ofMembers [("code", .ofInt f.code.val.toInt), ("message", .str f.message),
        ("data", f.data.getD .null)]) := by
  obtain ⟨code, message, data⟩ := f
  obtain ⟨w, hw, hfit, -⟩ := fits_code code
  have htext : Json.Shape.text.ofJson (.str message) = .ok (.str message) := rfl
  have hself : Json.fitMembers fitters (sorted ⟨code, message, data⟩) =
      .ok (sorted ⟨code, message, data⟩) := by
    refine Json.fitMembers_self fun m hm => ?_
    simp only [sorted, List.mem_append, List.mem_singleton, Option.mem_toList] at hm
    rcases hm with (rfl | hm) | rfl
    · exact ⟨_, rfl, by rw [hw]; exact hfit⟩
    · obtain ⟨d, -, rfl⟩ := Option.map_eq_some_iff.mp hm
      exact ⟨_, rfl, fits_data d⟩
    · exact ⟨_, rfl, htext⟩
  rw [Json.fitRecord, hself]
  cases data <;> rfl

/-- A failure without data that are `null`. -/
def plain (f : Failure) : Failure := { f with data := f.data.filter (· ≠ .null) }

theorem plain_of_ne {f : Failure} (h : f.data ≠ some .null) : f.plain = f := by
  obtain ⟨code, message, data⟩ := f
  cases data with
  | none => rfl
  | some d =>
    have hd : d ≠ .null := fun he => h (congrArg some he)
    simp [plain, hd]

/-- A failure is read back from its JSON value. -/
theorem ofJson_toJson (f : Failure) : Failure.ofJson f.toJson = .ok f.plain := by
  rw [toJson_eq]
  show Except.map ofFields (Json.fitRecord "ResponseError" fitters (.obj f.sorted)) = _
  rw [fitRecord_sorted]
  obtain ⟨code, message, data⟩ := f
  obtain ⟨w, hw, -, hcode⟩ := fits_code code
  simp only [Except.map, ofFields, Json.index_ofMembers, hw]
  show Except.ok (Failure.mk (ErrorCode.ofInt w.val) message _) = _
  rw [hcode]
  cases data with
  | none => rfl
  | some d => cases d <;> rfl

end Failure

/-- A reply that is a result or a failure and not both. -/
def Reply.plain (r : Reply) : Reply :=
  match r.outcome with
  | .ok v => .ok r.id v
  | .error f => .err r.id f.plain

/-! ## Identifiers -/

namespace Message

theorem readId?_toJson (id : Id) : readId? (some id.toJson) = .ok (some id) := by
  cases id with
  | text s => rfl
  | number n =>
    rw [Id.toJson_number]
    show Except.map some (readId (.num (.whole _))) = _
    simp only [readId, Id.ofInt?_toInt]
    rfl

/-! ## Messages -/

/-- The failure that a message carries. -/
def failure? : Message → Option Failure
  | .reply r => r.failure
  | .unidentified f => some f
  | .request _ _ _ | .notification _ _ => none

/-- The values that a message carries. -/
def payloads : Message → List Json
  | .request _ _ params | .notification _ params => [params]
  | .reply r => r.result.toList ++ (r.failure.bind Failure.data).toList
  | .unidentified f => f.data.toList

/-- What a message has to be in order to be told from every other one: a reply is a result or a
failure, and data that are `null` are no data. -/
structure IsDefinite (m : Message) : Prop where
  oneOutcome : ∀ r, m = .reply r → r.result.isSome ≠ r.failure.isSome
  data : ∀ f ∈ m.failure?, f.data ≠ some .null

theorem ofMembers_congr {ms ns : List (String × Json)} (h : ∀ k, ms.lookup k = ns.lookup k) :
    ofMembers ms = ofMembers ns := by
  simp only [ofMembers, h]

/-- The wire object says what its members say. -/
theorem ofJson_ofMembers (ms : List (String × Json)) :
    Message.ofJson (.ofMembers ms) = ofMembers ms.reverse := by
  refine ofMembers_congr fun k => ?_
  rw [Json.lookup_foldl_insertMember]
  simp

/-- An error answers the request whose identifier stands beside it. -/
theorem ofMembers_error {v e : Json} {id : Id} (hid : readId? (some v) = .ok (some id)) :
    ofMembers [("error", e), ("id", v), ("jsonrpc", .str "2.0")] = readReply id none (some e) := by
  cases v with
  | null => cases hid
  | bool | num | str | arr | obj => simp [ofMembers, List.lookup_cons, hid]

/-- The form in which a message comes out at the other end. -/
def plain : Message → Message
  | .reply r => .reply r.plain
  | .unidentified f => .unidentified f.plain
  | m => m

theorem plain_of_isDefinite {m : Message} (h : m.IsDefinite) : m.plain = m := by
  cases m with
  | request id method params => rfl
  | notification method params => rfl
  | unidentified f => rw [plain, Failure.plain_of_ne (h.data f rfl)]
  | reply r =>
    obtain ⟨id, result, failure⟩ := r
    have hone := h.oneOutcome _ rfl
    cases failure with
    | none =>
      cases result with
      | none => exact absurd rfl hone
      | some v => rfl
    | some f =>
      cases result with
      | none =>
        have hf : f.plain = f := Failure.plain_of_ne (h.data f rfl)
        rw [plain, Reply.plain]
        simp only [Reply.outcome, hf, Reply.err]
      | some v => exact absurd rfl hone

theorem readFailure_toJson (f : Failure) : readFailure f.toJson = .ok f.plain := by
  rw [readFailure, Failure.ofJson_toJson]

/-- A message is read back from its wire object. -/
theorem ofJson_toJson (m : Message) : Message.ofJson m.toJson = .ok m.plain := by
  rw [toJson, ofJson_ofMembers]
  -- By the form of the message; each is decoded by the members that it has, and that it has no
  -- others.
  cases m with
  | request id method params =>
    have hid := readId?_toJson id
    -- Parameters that are null are left out, and read as null again.
    by_cases hp : params = .null
    · rw [members, paramsMember, if_pos hp, hp]
      simp [ofMembers, List.lookup_cons, hid, plain]
    · rw [members, paramsMember, if_neg hp]
      simp [ofMembers, List.lookup_cons, hid, plain]
  | notification method params =>
    by_cases hp : params = .null
    · rw [members, paramsMember, if_pos hp, hp]
      rfl
    · rw [members, paramsMember, if_neg hp]
      rfl
  | unidentified f =>
    show Except.map _ (readFailure f.toJson) = _
    rw [readFailure_toJson]
    rfl
  | reply r =>
    have hid := readId?_toJson r.id
    rw [members, plain, Reply.plain]
    -- A reply has a result or a failure, never both on the wire.
    cases r.outcome with
    | ok v => simp [ofMembers, List.lookup_cons, hid, readReply]
    | error f =>
      show ofMembers [("error", f.toJson), ("id", writeId r.id), ("jsonrpc", .str "2.0")] = _
      rw [writeId_eq_toJson, ofMembers_error hid, readReply, readFailure_toJson]
      rfl

/-! ## What is written for a message -/

theorem all_idToJson (id : Id) : id.toJson.all Json.isExact = true := by
  cases id with
  | text s => rfl
  | number n => exact Json.all_ofInt n.toInt

theorem all_writeId (id : Id) : (writeId id).all Json.isExact = true :=
  writeId_eq_toJson id ▸ all_idToJson id

theorem all_failureToJson {f : Failure} (h : ∀ v ∈ f.data, v.all Json.isExact = true) :
    f.toJson.all Json.isExact = true := by
  refine Json.all_ofMembers fun m hm => ?_
  simp only [Failure.fields, List.mem_append, List.mem_cons, List.not_mem_nil, or_false,
    Option.mem_toList] at hm
  rcases hm with (rfl | rfl) | hm
  · exact Json.all_ofInt _
  · rfl
  · obtain ⟨d, hd, rfl⟩ := Option.map_eq_some_iff.mp hm
    exact h d hd

/-- A wire object is exact if what its message carries is. -/
theorem all_toJson {m : Message} (h : ∀ v ∈ m.payloads, v.all Json.isExact = true) :
    m.toJson.all Json.isExact = true := by
  have hparams : ∀ {params : Json}, params.all Json.isExact = true →
      ∀ p ∈ paramsMember params, p.2.all Json.isExact = true := by
    intro params hp p hm
    rw [paramsMember] at hm
    split at hm
    · exact absurd hm List.not_mem_nil
    · rw [List.mem_singleton.mp hm]
      exact hp
  refine Json.all_ofMembers (List.forall_mem_cons.mpr ⟨rfl, ?_⟩)
  -- Besides the payloads there are only ids, codes and texts, and these are exact.
  cases m with
  | request id method params =>
    have hp := hparams (h params (List.mem_singleton.mpr rfl))
    exact List.forall_mem_cons.mpr ⟨all_writeId id, List.forall_mem_cons.mpr ⟨rfl, hp⟩⟩
  | notification method params =>
    exact List.forall_mem_cons.mpr ⟨rfl, hparams (h params (List.mem_singleton.mpr rfl))⟩
  | unidentified f =>
    have hf := all_failureToJson fun v hv => h v (Option.mem_toList.mpr hv)
    exact List.forall_mem_cons.mpr ⟨rfl, List.forall_mem_singleton.mpr hf⟩
  | reply r =>
    obtain ⟨id, result, failure⟩ := r
    cases failure with
    | some f =>
      have hf := all_failureToJson (f := f) fun v hv =>
        h v (List.mem_append_right _ (Option.mem_toList.mpr hv))
      exact List.forall_mem_cons.mpr ⟨all_writeId id, List.forall_mem_singleton.mpr hf⟩
    | none =>
      have hv : (result.getD .null).all Json.isExact = true := by
        cases result with
        | none => rfl
        | some v => exact h v (List.mem_append_left _ List.mem_cons_self)
      exact List.forall_mem_cons.mpr ⟨all_writeId id, List.forall_mem_singleton.mpr hv⟩

end Message

end Parley
