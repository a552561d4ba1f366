import Parley.Network.Incoming
import Parley.Proofs.Grammar

/-!
# Identifiers in envelopes and in cancellations

An identifier travels in two places: beside the method of a request, and in the params of the
notification that cancels the request. Each place has its own way to write and to read it. If the
two ways differed on any value, a cancellation would get lost without a sound.

- `Message.readId_eq_ok`, `Id.ofJson?_eq_some`: each way reads one value for an identifier.
- `Id.exists_toJson_iff`: which values these are.
- `Id.travels_alike`: **both ways read and write the same**.
-/

namespace Parley

/-! ## Which values are identifiers -/

/-- An envelope takes one value for an identifier, and no other one. -/
theorem Message.readId_eq_ok {v : Json} {id : Id} : readId v = .ok id ↔ v = id.toJson := by
  constructor
  · intro h
    -- Numbers and texts only; a number has to be in range.
    cases v with
    | null => cases h
    | bool b => cases h
    | arr vs => cases h
    | obj ms => cases h
    | str s =>
      obtain rfl := Except.ok.inj h
      rfl
    | num n =>
      rcases readId_num n with ⟨i, hi, hv⟩ | ⟨he, -⟩
      · obtain rfl := Except.ok.inj (hi.symm.trans h)
        exact Id.written_iff.mp hv
      · rw [he] at h
        cases h
  · rintro rfl
    cases id with
    | text s => rfl
    | number n =>
      rw [Id.toJson_number]
      simp only [readId, Id.ofInt?_toInt]

namespace Id

/-- An identifier is an integer of 64 bits or a text. -/
theorem exists_toJson_iff {v : Json} : (∃ id : Id, v = id.toJson) ↔
    (∃ w : Json.Whole, v = .num (.whole w) ∧ w.val < 0x8000000000000000) ∨ ∃ s, v = .str s := by
  constructor
  · rintro ⟨id, rfl⟩
    cases id with
    | text s => exact .inr ⟨s, rfl⟩
    | number n => exact .inl ⟨_, toJson_number n, n.toInt_lt⟩
  · rintro (⟨w, rfl, hw⟩ | ⟨s, rfl⟩)
    · have hn := Int64.toInt_ofInt_of_le w.lower hw
      refine ⟨.number (Int64.ofInt w.val), ?_⟩
      rw [toJson_number]
      simp only [hn]
    · exact ⟨.text s, rfl⟩

theorem toJson_inj {id i : Id} : id.toJson = i.toJson ↔ id = i := by
  constructor
  · intro h
    have hid := ofJson?_eq_some.mpr h
    rw [ofJson?_eq_some.mpr rfl] at hid
    exact Option.some.inj hid
  · rintro rfl
    rfl

/-- The number 1 is not the text "1". -/
example : (number 1).toJson ≠ (text "1").toJson := by decide

end Id

/-! ## The two places -/

/-- The identifier of a request stands in its wire object under the key of identifiers. -/
theorem Message.index_request (id : Id) (method : String) (params : Json) :
    (Message.request id method params).toJson.index "id" = writeId id := by
  rw [toJson, Json.index_ofMembers, members, paramsMember]
  split <;> simp [List.lookup_cons]

/-- The identifier of a reply stands there too. -/
theorem Message.index_reply (r : Reply) : (Message.reply r).toJson.index "id" = writeId r.id := by
  rw [toJson, Json.index_ofMembers, members]
  cases r.outcome <;> simp [List.lookup_cons]

/-- **Identifiers travel alike in envelopes and in cancellations.** What an envelope takes for an
identifier, a cancellation takes for the same one, and both refuse the same values: all but the
integers of 64 bits, signed, and texts. A request, its reply and its cancellation name an identifier
by the same value, both read it back from there, and different identifiers have different values. -/
theorem Id.travels_alike :
    (∀ v id, Message.readId v = .ok id ↔ Id.ofJson? v = some id) ∧
    (∀ v, (∃ id, Id.ofJson? v = some id) ↔
      (∃ w : Json.Whole, v = .num (.whole w) ∧ w.val < 0x8000000000000000) ∨ ∃ s, v = .str s) ∧
    (∀ id : Id, Message.writeId id = id.toJson ∧ Message.readId (Message.writeId id) = .ok id ∧
      Id.ofJson? id.toJson = some id) ∧
    (∀ id i : Id, id.toJson = i.toJson ↔ id = i) ∧
    (∀ id method params,
      (Message.request id method params).toJson.index "id" = Message.writeId id) ∧
    (∀ r : Reply, (Message.reply r).toJson.index "id" = Message.writeId r.id) ∧
    ∀ id, ∃ params, cancelMessage id = .notification cancelMethod params ∧
      params.index "id" = id.toJson := by
  refine ⟨fun v id => ?_, fun v => ?_, fun id => ⟨?_, ?_, ?_⟩, fun _ _ => toJson_inj,
    Message.index_request, Message.index_reply, fun id => ⟨_, rfl, ?_⟩⟩
  · rw [Message.readId_eq_ok, ofJson?_eq_some]
  · simp only [ofJson?_eq_some]
    exact exists_toJson_iff
  · exact Message.writeId_eq_toJson id
  · rw [Message.writeId_eq_toJson, Message.readId_eq_ok]
  · exact ofJson?_eq_some.mpr rfl
  · exact Json.index_ofMembers _ _

end Parley
