import Parley.Proofs.Envelope

/-!
# The values that are messages

A JSON value is a message in one of five ways, and the keys that are present tell them apart. Its
identifier is looked at first, then its method; only without a method does it count whether there
are a result and an error. Every other value is refused, for the first reason in this order.

- `Id.Written`, `Failure.Written`, `Message.Written`: the values that are identifiers, failures and
  messages.
- `Message.Refused`: the values that are no messages, each with the reason.
- `Message.reads_written`: reading accepts exactly the one, and refuses exactly the other.
- `Message.retracts`: what is written is read back in its plain form, and what was read is in that
  form already.
-/

namespace Parley

/-! ## The grammar -/

/-- The values of identifiers: integers of 64 bits, and texts. -/
inductive Id.Written : Json → Id → Prop where
  | number {w : Json.Whole} {n : Int64} (h : w.val = n.toInt) :
      Written (.num (.whole w)) (.number n)
  | text (s : String) : Written (.str s) (.text s)

/-- The values of codes: integers of 32 bits. -/
inductive ErrorCode.Written : Json → ErrorCode → Prop where
  | number {w : Json.Whole} {c : ErrorCode} (h : w.val = c.val.toInt) :
      Written (.num (.whole w)) c

/-- Whether a member fits the field of a failure whose name it has. -/
structure Failure.Fits (m : String × Json) : Prop where
  code : m.1 = "code" → ∃ c, ErrorCode.Written m.2 c
  message : m.1 = "message" → ∃ s, m.2 = .str s

/-- The values of failures. Data that are `null` are none. -/
inductive Failure.Written : Json → Failure → Prop where
  /-- An object. Other keys do not count. Each key is there once, and if it were there twice, both
  members would have to fit. -/
  | object {ms : List (String × Json)} {v : Json} {code : ErrorCode} {message : String}
      (hv : ms.lookup "code" = some v) (hc : ErrorCode.Written v code)
      (hm : ms.lookup "message" = some (.str message)) (hf : ∀ m ∈ ms, Failure.Fits m) :
      Written (.obj ms) ⟨code, message, (ms.lookup "data").filter (· ≠ .null)⟩
  /-- The list of the values, in order. The data may be left out. -/
  | list {v : Json} {code : ErrorCode} {message : String} (data : Option Json)
      (hc : ErrorCode.Written v code) :
      Written (.arr ([v, .str message] ++ data.toList))
        ⟨code, message, data.filter (· ≠ .null)⟩

namespace Message

/-- The identifier of an object: none if it is missing or `null`. -/
inductive Identified (ms : List (String × Json)) : Option Id → Prop where
  | absent (h : ms.lookup "id" = none) : Identified ms none
  | null (h : ms.lookup "id" = some .null) : Identified ms none
  | given {v : Json} {id : Id} (h : ms.lookup "id" = some v) (hv : Id.Written v id) :
      Identified ms (some id)

/-- The values of messages. -/
inductive Written : Json → Message → Prop where
  | request {ms : List (String × Json)} {id : Id} {method : String}
      (hid : Identified ms (some id)) (hm : ms.lookup "method" = some (.str method)) :
      Written (.obj ms) (.request id method ((ms.lookup "params").getD .null))
  | notification {ms : List (String × Json)} {method : String}
      (hid : Identified ms none) (hm : ms.lookup "method" = some (.str method)) :
      Written (.obj ms) (.notification method ((ms.lookup "params").getD .null))
  | result {ms : List (String × Json)} {id : Id} {v : Json}
      (hid : Identified ms (some id)) (hm : ms.lookup "method" = none)
      (hr : ms.lookup "result" = some v) (he : ms.lookup "error" = none) :
      Written (.obj ms) (.reply (.ok id v))
  | error {ms : List (String × Json)} {id : Id} {e : Json} {f : Failure}
      (hid : Identified ms (some id)) (hm : ms.lookup "method" = none)
      (hr : ms.lookup "result" = none) (he : ms.lookup "error" = some e)
      (hf : Failure.Written e f) :
      Written (.obj ms) (.reply (.err id f))
  | unidentified {ms : List (String × Json)} {e : Json} {f : Failure}
      (hid : ms.lookup "id" = some .null) (hm : ms.lookup "method" = none)
      (hr : ms.lookup "result" = none) (he : ms.lookup "error" = some e)
      (hf : Failure.Written e f) :
      Written (.obj ms) (.unidentified f)

/-- The values that are no messages, with the reasons. A bad identifier is found before anything
else, and a bad method before anything that is wrong with a result or an error. -/
inductive Refused : Json → Malformed → Prop where
  | notObject {v : Json} (h : ∀ ms, v ≠ .obj ms) : Refused v .notObject
  | idNotInteger {ms : List (String × Json)} {n : Json.Number}
      (hid : ms.lookup "id" = some (.num n)) (h : ∀ id, ¬Id.Written (.num n) id) :
      Refused (.obj ms) (.idNotInteger n)
  | badId {ms : List (String × Json)} {v : Json} (hid : ms.lookup "id" = some v)
      (hnull : v ≠ .null) (hnum : ∀ n, v ≠ .num n) (htext : ∀ s, v ≠ .str s) :
      Refused (.obj ms) (.badId v)
  | methodNotText {ms : List (String × Json)} {o : Option Id} {v : Json}
      (hid : Identified ms o) (hm : ms.lookup "method" = some v) (h : ∀ s, v ≠ .str s) :
      Refused (.obj ms) .methodNotText
  | badFailure {ms : List (String × Json)} {o : Option Id} {e : Json} {cause : Json.Cause}
      (hid : Identified ms o) (hthere : ms.lookup "id" ≠ none)
      (hm : ms.lookup "method" = none) (hr : ms.lookup "result" = none)
      (he : ms.lookup "error" = some e) (hn : ∀ f, ¬Failure.Written e f)
      (hf : Failure.ofJson e = .error cause) :
      Refused (.obj ms) (.badFailure cause)
  | noMethodNorId {ms : List (String × Json)} (hid : Identified ms none)
      (hm : ms.lookup "method" = none)
      (h : ms.lookup "id" = none ∨ ms.lookup "result" ≠ none ∨ ms.lookup "error" = none) :
      Refused (.obj ms) .noMethodNorId
  | resultAndError {ms : List (String × Json)} {id : Id} {v e : Json}
      (hid : Identified ms (some id)) (hm : ms.lookup "method" = none)
      (hr : ms.lookup "result" = some v) (he : ms.lookup "error" = some e) :
      Refused (.obj ms) (.resultAndError id)
  | noResultNorError {ms : List (String × Json)} {id : Id}
      (hid : Identified ms (some id)) (hm : ms.lookup "method" = none)
      (hr : ms.lookup "result" = none) (he : ms.lookup "error" = none) :
      Refused (.obj ms) (.noResultNorError id)

end Message

/-! ## Identifiers -/

theorem Id.written_iff {v : Json} {id : Id} : Id.Written v id ↔ v = id.toJson := by
  constructor
  · rintro (@⟨⟨_, _, _⟩, n, rfl⟩ | s)
    · exact (Id.toJson_number n).symm
    · rfl
  · rintro rfl
    cases id with
    | text s => exact .text s
    | number n =>
      rw [Id.toJson_number]
      exact .number rfl

namespace Message

variable {ms : List (String × Json)} {o : Option Id}

/-- A number is an identifier if it is an integer in range. -/
theorem readId_num (n : Json.Number) :
    (∃ id, readId (.num n) = .ok id ∧ Id.Written (.num n) id) ∨
      readId (.num n) = .error (.idNotInteger n) ∧ ∀ id, ¬Id.Written (.num n) id := by
  cases n with
  | real x =>
    refine .inr ⟨rfl, ?_⟩
    rintro _ ⟨⟩
  | whole w =>
    cases h : Id.ofInt? w.val with
    | some n =>
      exact .inl ⟨.number n, by simp only [readId, h], .number (Id.toInt_of_ofInt? h).symm⟩
    | none =>
      refine .inr ⟨by simp only [readId, h], ?_⟩
      rintro _ ⟨hn⟩
      rw [hn, Id.ofInt?_toInt] at h
      cases h

theorem Identified.readId? (h : Identified ms o) : readId? (ms.lookup "id") = .ok o := by
  cases h with
  | absent h | null h =>
    rw [h]
    rfl
  | given h hv =>
    rw [h, Id.written_iff.mp hv]
    exact readId?_toJson _

/-- An object has an identifier or none, or it is refused for what stands there. -/
theorem identified_or_refused (ms : List (String × Json)) :
    (∃ o, Identified ms o) ∨
      ∃ e, readId? (ms.lookup "id") = .error e ∧ Refused (.obj ms) e := by
  cases h : ms.lookup "id" with
  | none => exact .inl ⟨_, .absent h⟩
  | some v =>
    cases v with
    | null => exact .inl ⟨_, .null h⟩
    | str s => exact .inl ⟨_, .given h (.text s)⟩
    | num n =>
      rcases readId_num n with ⟨id, -, hv⟩ | ⟨he, hn⟩
      · exact .inl ⟨_, .given h hv⟩
      · exact .inr ⟨_, by rw [readId?, he]; rfl; rintro ⟨⟩, .idNotInteger h hn⟩
    | bool | arr | obj => exact .inr ⟨_, rfl, .badId h (by simp) (by simp) (by simp)⟩

end Message

/-! ## Failures -/

namespace Json

/-- Leaving members out does not change what stands under the keys that stay. -/
theorem lookup_filter {p : String × Json → Bool} {k : String} (hp : ∀ v, p (k, v) = true)
    (ms : List (String × Json)) : (ms.filter p).lookup k = ms.lookup k := by
  induction ms with
  | nil => rfl
  | cons m ms ih =>
    obtain ⟨l, v⟩ := m
    by_cases hk : k = l
    · subst hk
      rw [List.filter_cons_of_pos (hp v), List.lookup_cons_self, List.lookup_cons_self]
    · rw [List.lookup_cons, beq_false_of_ne hk, ← ih]
      cases hl : p (l, v) with
      | true => rw [List.filter_cons_of_pos hl, List.lookup_cons, beq_false_of_ne hk]
      | false => rw [List.filter_cons_of_neg (by simp [hl])]

section fitMembers

variable {fields : List (FieldOf (Json → Except Cause Json))} {ms ns : List (String × Json)}

/-- Of members that fit their fields as they are, those without a field are left out. -/
theorem fitMembers_of_fits (h : ∀ m ∈ ms, ∀ f, fields.find? (·.name == m.1) = some f →
    f.take m.2 = .ok m.2) :
    fitMembers fields ms = .ok (ms.filter fun m => (fields.find? (·.name == m.1)).isSome) := by
  induction ms with
  | nil => rfl
  | cons m ms ih =>
    obtain ⟨hm, hms⟩ := List.forall_mem_cons.mp h
    rw [fitMembers, ih hms]
    cases hf : fields.find? (·.name == m.1) with
    | none => rw [List.filter_cons_of_neg (by simp [hf])]
    | some f =>
      simp only [hm f hf]
      rw [List.filter_cons_of_pos (by simp [hf])]
      rfl

/-- Members that are accepted fit their fields. -/
theorem fits_of_fitMembers (h : fitMembers fields ms = .ok ns) :
    ∀ m ∈ ms, ∀ f, fields.find? (·.name == m.1) = some f → ∃ v, f.take m.2 = .ok v := by
  induction ms generalizing ns with
  | nil => simp
  | cons m ms ih =>
    rw [fitMembers] at h
    refine List.forall_mem_cons.mpr ⟨fun f hf => ?_, ?_⟩
    · rw [hf] at h
      cases hv : f.take m.2 with
      | ok v => exact ⟨v, rfl⟩
      | error e => simp [hv] at h
    · split at h
      · exact ih h
      · split at h
        · cases h
        · cases hms : fitMembers fields ms with
          | ok seen => exact ih hms
          | error e => simp [hms, Except.map] at h

end fitMembers

end Json

namespace ErrorCode

theorem ofJson_of_written {v : Json} {code : ErrorCode} (h : Written v code) :
    Json.Shape.int32.ofJson v = .ok v := by
  obtain @⟨w, _, h⟩ := h
  have hl := code.val.le_toInt
  have hu := code.val.toInt_lt
  exact if_pos ⟨by omega, by omega⟩

theorem written_of_ofJson {v u : Json} (h : Json.Shape.int32.ofJson v = .ok u) :
    ∃ code, Written v code := by
  cases v with
  | num n =>
    cases n with
    | real x => cases h
    | whole w =>
      by_cases hw : -0x80000000 ≤ w.val ∧ w.val ≤ 0x7fffffff
      · refine ⟨.ofInt w.val, .number ?_⟩
        exact (Int32.toInt_ofInt_of_le (by omega) (by omega)).symm
      · cases (if_neg hw).symm.trans h
  | _ => cases h

end ErrorCode

namespace Failure

variable {ms : List (String × Json)} {v : Json} {code : ErrorCode} {message : String}

/-- The failure of fields that fit. -/
theorem ofFields_written (hc : ErrorCode.Written v code) (data : Option Json) :
    ofFields (.ofMembers [("code", v), ("message", .str message), ("data", data.getD .null)]) =
      ⟨code, message, data.filter (· ≠ .null)⟩ := by
  obtain @⟨w, _, h⟩ := hc
  have hcode : ErrorCode.ofInt w.val = code := by
    rw [h, ErrorCode.ofInt, Int32.ofInt_toInt]
  simp only [ofFields, Json.index_ofMembers]
  show Failure.mk (ErrorCode.ofInt w.val) message _ = _
  rw [hcode]
  cases data with
  | none => rfl
  | some d => cases d <;> rfl

/-- The fields that an object gives, if it gives the ones that have to be there. -/
theorem fillFields_fitters (ms : List (String × Json)) :
    Json.fillFields ms fitters =
      match ms.lookup "code", ms.lookup "message" with
      | none, _ => .error (.missingField "code")
      | some _, none => .error (.missingField "message")
      | some c, some m =>
        .ok [("code", c), ("message", m), ("data", (ms.lookup "data").getD .null)] := by
  simp only [fitters, Json.fillFields]
  cases ms.lookup "code" <;> cases ms.lookup "message" <;> cases ms.lookup "data" <;> rfl

/-- A member that fits is taken as it is. -/
theorem Fits.take {m : String × Json} (h : Fits m)
    (f : Json.FieldOf (Json → Except Json.Cause Json))
    (hf : fitters.find? (·.name == m.1) = some f) : f.take m.2 = .ok m.2 := by
  have hmem := List.mem_of_find?_eq_some hf
  have hname : f.name = m.1 := by simpa using List.find?_some hf
  simp only [fitters, List.mem_cons, List.not_mem_nil, or_false] at hmem
  rcases hmem with rfl | rfl | rfl
  · obtain ⟨c, hc⟩ := h.code hname.symm
    exact ErrorCode.ofJson_of_written hc
  · obtain ⟨s, hs⟩ := h.message hname.symm
    rw [hs]
    rfl
  · exact fits_data m.2

/-- A member that is taken fits. -/
theorem fits_of_take {m : String × Json} (h : ∀ f, fitters.find? (·.name == m.1) = some f →
    ∃ v, f.take m.2 = .ok v) : Fits m := by
  obtain ⟨k, v⟩ := m
  constructor
  · rintro rfl
    obtain ⟨u, hu⟩ := h ⟨"code", .refused, Json.Shape.int32.ofJson⟩ rfl
    exact ErrorCode.written_of_ofJson hu
  · rintro rfl
    obtain ⟨u, hu⟩ := h ⟨"message", .refused, Json.Shape.text.ofJson⟩ rfl
    cases v with
    | str s => exact ⟨s, rfl⟩
    | _ => cases hu

theorem ofJson_obj (ms : List (String × Json)) :
    ofJson (.obj ms) = (Json.fitRecord "ResponseError" fitters (.obj ms)).map ofFields := rfl

theorem ofJson_arr (vs : List Json) :
    ofJson (.arr vs) = (Json.fitRecord "ResponseError" fitters (.arr vs)).map ofFields := rfl

/-- The members that have a field. -/
theorem lookup_fitters {k : String} (hk : (fitters.find? (·.name == k)).isSome = true)
    (ms : List (String × Json)) :
    (ms.filter fun m => (fitters.find? (·.name == m.1)).isSome).lookup k = ms.lookup k :=
  Json.lookup_filter (fun _ => hk) ms

/-- The value of a failure is read. -/
theorem ofJson_of_written {f : Failure} (h : Written v f) : ofJson v = .ok f := by
  cases h with
  | @object ms v code message hv hc hm hf =>
    -- Every member fits, so the record is put together out of those that are there.
    have hfit := Json.fitMembers_of_fits fun m hm => (hf m hm).take
    rw [ofJson_obj, Json.fitRecord, hfit]
    simp only [fillFields_fitters]
    rw [lookup_fitters rfl, lookup_fitters rfl, lookup_fitters rfl, hv, hm]
    exact congrArg Except.ok (ofFields_written hc _)
  -- A list has its fields by position, the last of which may be missing.
  | @list v code message data hc =>
    have hcode := ErrorCode.ofJson_of_written hc
    have htext : Json.Shape.text.ofJson (.str message) = .ok (.str message) := rfl
    have hfit : Json.fitRecord "ResponseError" fitters (.arr ([v, .str message] ++ data.toList)) =
        .ok (.ofMembers [("code", v), ("message", .str message), ("data", data.getD .null)]) := by
      cases data with
      | none => simp [Json.fitRecord, Json.fitPositional, fitters, hcode, htext, Json.Absent.inList,
          Except.map]
      | some d => simp [Json.fitRecord, Json.fitPositional, fitters, hcode, htext, fits_data,
          Except.map]
    rw [ofJson_arr, hfit]
    exact congrArg Except.ok (ofFields_written hc data)

/-- A list whose values fit has a code and a text in front. -/
theorem fitPositional_fitters {expected : String} {vs : List Json} {ms : List (String × Json)}
    (h : Json.fitPositional expected 0 fitters vs = .ok ms) :
    ∃ (v : Json) (code : ErrorCode) (message : String) (rest : List Json),
      vs = v :: .str message :: rest ∧ ErrorCode.Written v code := by
  match vs with
  | [] => cases h
  | v :: vs =>
    simp only [fitters, Json.fitPositional] at h
    cases hv : Json.Shape.int32.ofJson v with
    | error e => simp [hv] at h
    | ok c =>
      obtain ⟨code, hc⟩ := ErrorCode.written_of_ofJson hv
      rw [hv] at h
      match vs with
      | [] => cases h
      | .str message :: rest => exact ⟨v, code, message, rest, rfl, hc⟩
      | .null :: _ | .bool _ :: _ | .num _ :: _ | .arr _ :: _ | .obj _ :: _ => cases h

/-- A value that is read is that of a failure. -/
theorem exists_written {f : Failure} (h : ofJson v = .ok f) : ∃ f, Written v f := by
  cases v with
  | obj ms =>
    rw [ofJson_obj, Json.fitRecord] at h
    cases hfit : Json.fitMembers fitters ms with
    | error e => simp [hfit, Except.map] at h
    | ok seen =>
      -- The other way round: what was accepted has fitted, member by member.
      have hf := fun m hm => fits_of_take (Json.fits_of_fitMembers hfit m hm)
      have there : ∀ {k v}, ms.lookup k = some v → Fits (k, v) := fun hk => by
        obtain ⟨l, l', hl, -⟩ := List.lookup_eq_some_iff.mp hk
        exact hf _ (by simp [hl])
      have hseen := Json.fitMembers_of_fits fun m hm => (hf m hm).take
      simp only [hseen, fillFields_fitters] at h
      rw [lookup_fitters rfl, lookup_fitters rfl, lookup_fitters rfl] at h
      cases hv : ms.lookup "code" with
      | none => simp [hv, Except.map] at h
      | some v =>
        cases hm : ms.lookup "message" with
        | none => simp [hv, hm, Except.map] at h
        | some m =>
          obtain ⟨code, hc⟩ := (there hv).code rfl
          obtain ⟨message, rfl⟩ := (there hm).message rfl
          exact ⟨_, .object hv hc hm hf⟩
  | arr vs =>
    rw [ofJson_arr] at h
    cases hfit : Json.fitRecord "ResponseError" fitters (.arr vs) with
    | error e => simp [hfit, Except.map] at h
    | ok u =>
      rw [Json.fitRecord] at hfit
      split at hfit
      · cases hfit
      · next hms =>
        obtain ⟨v, code, message, rest, rfl, hc⟩ := fitPositional_fitters hms
        split at hfit
        · cases hfit
        · next hlen =>
          rcases rest with _ | ⟨d, _ | ⟨e, es⟩⟩
          · exact ⟨_, .list none hc⟩
          · exact ⟨_, .list (some d) hc⟩
          · simp [fitters] at hlen
  | _ => cases h

/-- **Reading a failure** accepts the values of failures, and no others. -/
theorem ofJson_eq_ok {f : Failure} : ofJson v = .ok f ↔ Written v f := by
  refine ⟨fun h => ?_, ofJson_of_written⟩
  obtain ⟨g, hg⟩ := exists_written h
  obtain rfl := Except.ok.inj (h.symm.trans (ofJson_of_written hg))
  exact hg

theorem Written.data_ne_null {f : Failure} (h : Written v f) : f.data ≠ some .null := by
  cases h <;> simp [Option.filter_eq_some_iff]

end Failure

/-! ## Messages -/

namespace Message

variable {v : Json} {m : Message} {e : Malformed}

theorem readFailure_of_written {f : Failure} (h : Failure.Written v f) : readFailure v = .ok f := by
  rw [readFailure, Failure.ofJson_eq_ok.mpr h]

/-- Without a method, an object with an identifier has to be a reply. -/
theorem ofMembers_reply {id : Id} (hid : Identified ms (some id))
    (hm : ms.lookup "method" = none) :
    ofMembers ms = readReply id (ms.lookup "result") (ms.lookup "error") := by
  simp only [ofMembers, hid.readId?, hm]
  cases hid with
  | given h hv =>
    rw [h]
    cases hv <;> rfl

/-- Under a `null` identifier, and without a result, an error may stand alone. -/
theorem ofMembers_unidentified {e : Json} (hid : ms.lookup "id" = some .null)
    (hm : ms.lookup "method" = none) (hr : ms.lookup "result" = none)
    (he : ms.lookup "error" = some e) : ofMembers ms = (readFailure e).map .unidentified := by
  simp only [ofMembers, (Identified.null hid).readId?, hm]
  rw [hid, hr, he]

/-- Nothing else is without a method and an identifier. -/
theorem ofMembers_unnamed (hid : Identified ms none) (hm : ms.lookup "method" = none)
    (h : ms.lookup "id" = none ∨ ms.lookup "result" ≠ none ∨ ms.lookup "error" = none) :
    ofMembers ms = .error .noMethodNorId := by
  simp only [ofMembers, hid.readId?, hm]
  split
  · next hid' hr he =>
    rw [hid', hr, he] at h
    simp at h
  · rfl
  · next h _ => cases h

/-- The value of a message is read. -/
theorem ofJson_of_written (h : Written v m) : Message.ofJson v = .ok m := by
  cases h with
  | request hid hm | notification hid hm => simp only [Message.ofJson, ofMembers, hid.readId?, hm]
  | result hid hm hr he => rw [Message.ofJson, ofMembers_reply hid hm, hr, he, readReply]
  | error hid hm hr he hf =>
    rw [Message.ofJson, ofMembers_reply hid hm, hr, he, readReply, readFailure_of_written hf]
    rfl
  | unidentified hid hm hr he hf =>
    rw [Message.ofJson, ofMembers_unidentified hid hm hr he, readFailure_of_written hf]
    rfl

/-- A value that is no message is refused. -/
theorem ofJson_of_refused (h : Refused v e) : Message.ofJson v = .error e := by
  cases h with
  | notObject h =>
    cases v with
    | obj ms => exact absurd rfl (h ms)
    | _ => rfl
  | @idNotInteger ms n hid h =>
    rcases readId_num n with ⟨id, -, hv⟩ | ⟨he, -⟩
    · exact absurd hv (h id)
    · simp only [Message.ofJson, ofMembers, hid, readId?, he, Except.map]
  | @badId ms v hid hnull hnum htext =>
    cases v with
    | null => exact absurd rfl hnull
    | num n => exact absurd rfl (hnum n)
    | str s => exact absurd rfl (htext s)
    | bool | arr | obj => simp only [Message.ofJson, ofMembers, hid, readId?, readId, Except.map]
  | @methodNotText ms o v hid hm h =>
    cases v with
    | str s => exact absurd rfl (h s)
    | _ => simp only [Message.ofJson, ofMembers, hid.readId?, hm]
  | @badFailure ms o e cause hid hthere hm hr he hn hf =>
    have hf : readFailure e = .error (.badFailure cause) := by rw [readFailure, hf]
    cases hid with
    | absent h => exact absurd h hthere
    | null h =>
      rw [Message.ofJson, ofMembers_unidentified h hm hr he, hf]
      rfl
    | given h hv =>
      rw [Message.ofJson, ofMembers_reply (.given h hv) hm, hr, he, readReply, hf]
      rfl
  | noMethodNorId hid hm h => exact ofMembers_unnamed hid hm h
  | resultAndError hid hm hr he | noResultNorError hid hm hr he =>
    rw [Message.ofJson, ofMembers_reply hid hm, hr, he, readReply]

/-- An error that stands alone is that of a message, or it is refused. -/
theorem written_or_refused_error {e : Json} (hid : Identified ms o) (hthere : ms.lookup "id" ≠ none)
    (hm : ms.lookup "method" = none) (hr : ms.lookup "result" = none)
    (he : ms.lookup "error" = some e) :
    (∃ m, Written (.obj ms) m) ∨ ∃ e, Refused (.obj ms) e := by
  cases hf : Failure.ofJson e with
  | error cause =>
    refine .inr ⟨_, .badFailure hid hthere hm hr he (fun f hw => ?_) hf⟩
    cases hf.symm.trans (Failure.ofJson_of_written hw)
  | ok f =>
    have hf := Failure.ofJson_eq_ok.mp hf
    cases hid with
    | absent h => exact absurd h hthere
    | null h => exact .inl ⟨_, .unidentified h hm hr he hf⟩
    | given h hv => exact .inl ⟨_, .error (.given h hv) hm hr he hf⟩

/-- Every value is that of a message, or it is refused. -/
theorem written_or_refused (v : Json) : (∃ m, Written v m) ∨ ∃ e, Refused v e := by
  cases v with
  | obj ms =>
    rcases identified_or_refused ms with ⟨o, hid⟩ | ⟨e, -, he⟩
    · cases hm : ms.lookup "method" with
      | some v =>
        cases v with
        | str method =>
          cases o with
          | some id => exact .inl ⟨_, .request hid hm⟩
          | none => exact .inl ⟨_, .notification hid hm⟩
        | _ => exact .inr ⟨_, .methodNotText hid hm (by simp)⟩
      | none =>
        cases hr : ms.lookup "result" with
        | none =>
          cases he : ms.lookup "error" with
          | none =>
            cases o with
            | some id => exact .inr ⟨_, .noResultNorError hid hm hr he⟩
            | none => exact .inr ⟨_, .noMethodNorId hid hm (.inr (.inr he))⟩
          | some e =>
            by_cases hthere : ms.lookup "id" = none
            · exact .inr ⟨_, .noMethodNorId (.absent hthere) hm (.inl hthere)⟩
            · exact written_or_refused_error hid hthere hm hr he
        | some v =>
          cases o with
          | none => exact .inr ⟨_, .noMethodNorId hid hm (.inr (.inl (by simp [hr])))⟩
          | some id =>
            cases he : ms.lookup "error" with
            | none => exact .inl ⟨_, .result hid hm hr he⟩
            | some e => exact .inr ⟨_, .resultAndError hid hm hr he⟩
    · exact .inr ⟨e, he⟩
  | _ => exact .inr ⟨_, .notObject (by simp)⟩

/-- What is read is the value of the message. -/
theorem written_of_ofJson (h : Message.ofJson v = .ok m) : Written v m := by
  rcases written_or_refused v with ⟨n, hn⟩ | ⟨e, he⟩
  · obtain rfl := Except.ok.inj ((ofJson_of_written hn).symm.trans h)
    exact hn
  · cases (ofJson_of_refused he).symm.trans h

/-- What is not read is refused by the grammar, for the same reason. -/
theorem refused_of_ofJson (h : Message.ofJson v = .error e) : Refused v e := by
  rcases written_or_refused v with ⟨n, hn⟩ | ⟨e', he⟩
  · cases (ofJson_of_written hn).symm.trans h
  · obtain rfl := Except.error.inj ((ofJson_of_refused he).symm.trans h)
    exact he

/-- **The grammar of messages.** A value is read as a message exactly if the grammar says so, and
every other value is refused for the reason that the grammar gives. -/
theorem reads_written (v : Json) :
    (∀ m, Message.ofJson v = .ok m ↔ Written v m) ∧
      ∀ e, Message.ofJson v = .error e ↔ Refused v e :=
  ⟨fun _ => ⟨written_of_ofJson, ofJson_of_written⟩,
    fun _ => ⟨refused_of_ofJson, ofJson_of_refused⟩⟩

/-! ## Writing and reading -/

/-- What is read can be told from every other message. -/
theorem isDefinite_of_written (h : Written v m) : m.IsDefinite := by
  cases h with
  | request | notification => exact ⟨by simp, by simp [failure?]⟩
  | result => exact ⟨by simp [Reply.ok], by simp [failure?, Reply.ok]⟩
  | error hid hm hr he hf =>
    exact ⟨by simp [Reply.err], by simpa [failure?, Reply.err] using hf.data_ne_null⟩
  | unidentified hid hm hr he hf => exact ⟨by simp, by simpa [failure?] using hf.data_ne_null⟩

/-- **Writing and reading.** Every message, whatever it carries, is read back from its wire object
in its plain form, which is the message itself exactly if that can be told from every other one.
What was read can be, so writing and reading it again changes nothing. -/
theorem retracts :
    (∀ m : Message, Message.ofJson m.toJson = .ok m.plain) ∧
      (∀ m : Message, Message.ofJson m.toJson = .ok m ↔ m.IsDefinite) ∧
      ∀ v m, Message.ofJson v = .ok m → m.IsDefinite ∧ Message.ofJson m.toJson = .ok m := by
  have again : ∀ m : Message, m.IsDefinite → Message.ofJson m.toJson = .ok m := fun m h => by
    rw [ofJson_toJson, plain_of_isDefinite h]
  refine ⟨ofJson_toJson, fun m => ⟨fun h => ?_, again m⟩, fun v m h => ?_⟩
  · exact isDefinite_of_written (written_of_ofJson h)
  · have hm := isDefinite_of_written (written_of_ofJson h)
    exact ⟨hm, again m hm⟩

/-- The failure is written as a list, with data that are `null`. -/
theorem retracts_list :
    let v := Json.ofMembers [("id", .str "a"),
      ("error", .arr [.ofInt (-32600), .str "no", .null])]
    let m := Message.reply (.err (.text "a") ⟨.invalidRequest, "no", none⟩)
    Message.ofJson v = .ok m ∧ m.IsDefinite ∧ Message.ofJson m.toJson = .ok m := by
  intro v m
  have h : Message.ofJson v = .ok m := ofJson_of_written
    (.error (.given rfl (.text "a")) rfl rfl rfl (.list (some .null) (.number rfl)))
  exact ⟨h, retracts.2.2 v m h⟩

end Message

end Parley
