import Parley.Json.Parser
import Parley.Json.Printer
import Parley.Json.Skip

/-!
# Values of an expected shape

A `Shape` says what a value should be: an integer in a range, a record with certain fields, and so
on. A value that fits is put into a canonical form: a record, which may also be written as the list
of its fields, becomes an object with all its fields; fields that the shape does not name are left
out.

- `Shape.ofJson`: fits a value into a shape.
- `Shape.ofBytes`: reads a text in a shape, so that of two faults the one that stands first in the
  text is reported, with its place.
-/

namespace Parley.Json

/-- What a field may be when it is not there. -/
inductive Absent where
  /-- The field has to be there. -/
  | refused
  /-- It may be missing from an object, and then is `null`. -/
  | nullInObject
  /-- It may be missing from an object and from a list, and then is the given value. -/
  | filled (v : Json)

/-- What a value should be. -/
inductive Shape where
  /-- Any value. -/
  | any
  /-- An integer in a range; the name is that of the range. -/
  | int (name : String) (least greatest : Int)
  | bool
  | text
  /-- Only `null`. -/
  | unit
  /-- A value of the shape, or `null`. -/
  | optional (shape : Shape)
  /-- A list of values of one shape. -/
  | list (shape : Shape)
  /-- An object with any keys and with values of one shape. -/
  | table (shape : Shape)
  /-- An object with the given fields, or the list of their values. -/
  | record (name : String) (fields : List (String × Absent × Shape))

/-- The signed integers of 32 bits. -/
def Shape.int32 : Shape := .int "i32" (-0x80000000) 0x7fffffff

/-- The signed integers of 64 bits. -/
def Shape.int64 : Shape := .int "i64" (-0x8000000000000000) 0x7fffffffffffffff

/-- The unsigned integers of 8 bits. -/
def Shape.nat8 : Shape := .int "u8" 0 0xff

/-- The unsigned integers of 32 bits. -/
def Shape.nat32 : Shape := .int "u32" 0 0xffffffff

/-- The unsigned integers of 64 bits. -/
def Shape.nat64 : Shape := .int "u64" 0 0xffffffffffffffff

/-- The unsigned integers of a machine word, which has 64 bits. -/
def Shape.natWord : Shape := .int "usize" 0 0xffffffffffffffff

/-- What a refused value is reported as. -/
def Found.ofJson : Json → Found
  | .null => .null
  | .bool b => .bool b
  | .num n => .number n
  | .str s => .text s
  | .arr _ => .list
  | .obj _ => .object

/-- What a shape is called in a report. -/
def Shape.expected : Shape → String
  | .any => "any value"
  | .int name _ _ => name
  | .bool => "a boolean"
  | .text => "a string"
  | .unit => "unit"
  | .optional _ => "option"
  | .list _ => "a sequence"
  | .table _ => "a map"
  | .record name _ => "struct " ++ name

/-- What a list of the wrong length should have been. -/
def recordLength (name : String) (count : Nat) : String :=
  "struct " ++ name ++ " with " ++ toString count ++ if count = 1 then " element" else " elements"

/-- Whether a number is an integer of a range. -/
def fitInt (name : String) (least greatest : Int) (n : Number) : Except Cause Json :=
  match n with
  | .whole w =>
    if least ≤ w.val ∧ w.val ≤ greatest then .ok (.num n)
    else .error (.wrongValue (.number n) name)
  | .real _ => .error (.wrongType (.number n) name)

/-- A field of a record, with the way to take its value from a source `σ`. -/
structure FieldOf (σ : Type) where
  name : String
  absent : Absent
  take : σ

/-- The value of a field that an object lacks. -/
def Absent.inObject (name : String) : Absent → Except Cause Json
  | .refused => .error (.missingField name)
  | .nullInObject => .ok .null
  | .filled v => .ok v

/-- The value of the field that a list of `index` values lacks. -/
def Absent.inList (index : Nat) (expected : String) : Absent → Except Cause Json
  | .filled v => .ok v
  | _ => .error (.wrongLength index expected)

/-- Completes the fields that an object has given values to. -/
def fillFields {σ : Type} (seen : List (String × Json)) :
    List (FieldOf σ) → Except Cause (List (String × Json))
  | [] => .ok []
  | f :: fs =>
    match (seen.lookup f.name).elim (f.absent.inObject f.name) Except.ok with
    | .error e => .error e
    | .ok v => (fillFields seen fs).map ((f.name, v) :: ·)

/-! ## Fitting a value -/

/-- Fits the items of a list. -/
def fitItems (fit : Json → Except Cause Json) : List Json → Except Cause (List Json)
  | [] => .ok []
  | v :: vs =>
    match fit v with
    | .error e => .error e
    | .ok v => (fitItems fit vs).map (v :: ·)

/-- Fits the values of an object. -/
def fitValues (fit : Json → Except Cause Json) :
    List (String × Json) → Except Cause (List (String × Json))
  | [] => .ok []
  | (k, v) :: ms =>
    match fit v with
    | .error e => .error e
    | .ok v => (fitValues fit ms).map ((k, v) :: ·)

/-- Fits the members of an object that are fields of a record. -/
def fitMembers (fields : List (FieldOf (Json → Except Cause Json))) :
    List (String × Json) → Except Cause (List (String × Json))
  | [] => .ok []
  | (k, v) :: ms =>
    match fields.find? (·.name == k) with
    | none => fitMembers fields ms
    | some f =>
      match f.take v with
      | .error e => .error e
      | .ok v => (fitMembers fields ms).map ((k, v) :: ·)

/-- Fits the items of a list that stands for a record, from field number `index` on. -/
def fitPositional (expected : String) : Nat → List (FieldOf (Json → Except Cause Json)) →
    List Json → Except Cause (List (String × Json))
  | _, [], _ => .ok []
  | index, f :: fs, [] =>
    match f.absent.inList index expected with
    | .error e => .error e
    | .ok v => (fitPositional expected (index + 1) fs []).map ((f.name, v) :: ·)
  | index, f :: fs, v :: vs =>
    match f.take v with
    | .error e => .error e
    | .ok v => (fitPositional expected (index + 1) fs vs).map ((f.name, v) :: ·)

/-- Fits a value into a record. -/
def fitRecord (name : String) (fields : List (FieldOf (Json → Except Cause Json))) :
    Json → Except Cause Json
  | .obj ms =>
    match fitMembers fields ms with
    | .error e => .error e
    | .ok seen => (fillFields seen fields).map ofMembers
  | .arr vs =>
    match fitPositional (recordLength name fields.length) 0 fields vs with
    | .error e => .error e
    | .ok ms =>
      if fields.length < vs.length then
        .error (.wrongLength vs.length "fewer elements in array")
      else .ok (ofMembers ms)
  | v => .error (.wrongType (Found.ofJson v) ("struct " ++ name))

mutual

/-- Fits a value into a shape. -/
def Shape.ofJson : Shape → Json → Except Cause Json
  | .any, v => .ok v
  | .int name least greatest, .num n => fitInt name least greatest n
  | .bool, .bool b => .ok (.bool b)
  | .text, .str s => .ok (.str s)
  | .unit, .null => .ok .null
  | .optional _, .null => .ok .null
  | .optional shape, v => shape.ofJson v
  | .list shape, .arr vs => (fitItems shape.ofJson vs).map .arr
  | .table shape, .obj ms => (fitValues shape.ofJson ms).map .obj
  | .record name fields, v => fitRecord name (Shape.fieldsOfJson fields) v
  | shape, v => .error (.wrongType (Found.ofJson v) shape.expected)

/-- The fields of a record, with the ways to fit their values. -/
def Shape.fieldsOfJson :
    List (String × Absent × Shape) → List (FieldOf (Json → Except Cause Json))
  | [] => []
  | (name, absent, shape) :: fs => ⟨name, absent, shape.ofJson⟩ :: Shape.fieldsOfJson fs

end

/-! ## Reading a text -/

/-- Reads a value of some shape, with the brackets that may still be opened. -/
abbrev Reader := Nat → Cursor → Except Error (Json × Cursor)

/-- Reads a value that is neither a list nor an object and that `accept` takes. Of a list or an
object only the bracket is looked at, and refused. -/
def readScalar (expected : String) (accept : Json → Except Cause Json) (c : Cursor) :
    Except Error (Json × Cursor) :=
  let c := c.skipBlanks
  if c.rest.head? = some 0x5B then .error (c.fault (.wrongType .list expected))
  else if c.rest.head? = some 0x7B then .error (c.fault (.wrongType .object expected))
  else
    match readValue c.fuel 0 c with
    | .error e => .error e
    | .ok (v, c) =>
      match accept v with
      | .error cause => .error (c.fault cause)
      | .ok v => .ok (v, c)

/-- Reads a value where one of another kind is expected. -/
def readUnexpected (expected : String) (c : Cursor) : Except Error (Json × Cursor) :=
  readScalar expected (fun v => .error (.wrongType (Found.ofJson v) expected)) c

/-- Reads the items of a list. -/
def readItemsWith (read : Reader) : Nat → Nat → Bool → Cursor → Except Error (List Json × Cursor)
  | 0, _, _, c => .error (c.faultNext .endInList)
  | fuel + 1, depth, first, c =>
    match nextItem first c with
    | .error e => .error e
    | .ok (false, c) => .ok ([], c)
    | .ok (true, c) =>
      match read depth c with
      | .error e => .error e
      | .ok (v, c) => (readItemsWith read fuel depth false c).map fun (vs, c) => (v :: vs, c)

/-- Reads the members of an object. -/
def readTableWith (read : Reader) :
    Nat → Nat → Bool → Cursor → Except Error (List (String × Json) × Cursor)
  | 0, _, _, c => .error (c.faultNext .endInObject)
  | fuel + 1, depth, first, c =>
    match nextMember first c with
    | .error e => .error e
    | .ok (false, c) => .ok ([], c)
    | .ok (true, c) =>
      match readKey c with
      | .error e => .error e
      | .ok (k, c) =>
        match readColon c with
        | .error e => .error e
        | .ok c =>
          match read depth c with
          | .error e => .error e
          | .ok (v, c) =>
            (readTableWith read fuel depth false c).map fun (ms, c) => ((k, v) :: ms, c)

/-- The place of a fault that is noticed inside an object: the closing brace counts as read if it
is what comes next. -/
def Cursor.afterObject (c : Cursor) : Cursor :=
  let c := c.skipBlanks
  if c.rest.head? = some 0x7D then c.bump else c

/-- Reads the members of an object that are fields of a record; others are passed over. -/
def readFields (fields : List (FieldOf Reader)) :
    Nat → Nat → Bool → List (String × Json) → Cursor →
    Except Error (List (String × Json) × Cursor)
  | 0, _, _, _, c => .error (c.faultNext .endInObject)
  | fuel + 1, depth, first, seen, c =>
    match nextMember first c with
    | .error e => .error e
    | .ok (false, c) => .ok (seen, c)
    | .ok (true, c) =>
      match readKey c with
      | .error e => .error e
      | .ok (k, c) =>
        match fields.find? (·.name == k) with
        | none =>
          match readColon c with
          | .error e => .error e
          | .ok c =>
            match skipValue c with
            | .error e => .error e
            | .ok c => readFields fields fuel depth false seen c
        | some f =>
          if (seen.lookup k).isSome then .error (c.afterObject.fault (.duplicateField k))
          else
            match readColon c with
            | .error e => .error e
            | .ok c =>
              match f.take depth c with
              | .error e => .error e
              | .ok (v, c) => readFields fields fuel depth false (seen ++ [(k, v)]) c

/-- Reads the items of a list that stands for a record, from field number `index` on. -/
def readPositional (expected : String) (depth : Nat) :
    Nat → List (FieldOf Reader) → Cursor → Except Error (List (String × Json) × Cursor)
  | _, [], c => (closeList c).map fun c => ([], c)
  | index, f :: fs, c =>
    match nextItem (index == 0) c with
    | .error e => .error e
    | .ok (false, c) =>
      let rest := fitPositional expected index
        ((f :: fs).map fun f => ⟨f.name, f.absent, .ok⟩) []
      match rest with
      | .error cause => .error (c.fault cause)
      | .ok ms => .ok (ms, c)
    | .ok (true, c) =>
      match f.take depth c with
      | .error e => .error e
      | .ok (v, c) =>
        (readPositional expected depth (index + 1) fs c).map fun (ms, c) => ((f.name, v) :: ms, c)

/-- Reads a record. -/
def readRecord (name : String) (fields : List (FieldOf Reader)) : Reader :=
  fun depth c =>
    let c := c.skipBlanks
    match c.rest with
    | [] => .error (c.faultNext .endInValue)
    | b :: _ =>
      if b = 0x5B then
        match depth with
        | 0 => .error (c.faultNext .tooDeep)
        | depth + 1 =>
          (readPositional (recordLength name fields.length) depth 0 fields c.bump).map
            fun (ms, c) => (ofMembers ms, c)
      else if b = 0x7B then
        match depth with
        | 0 => .error (c.faultNext .tooDeep)
        | depth + 1 =>
          match readFields fields c.fuel depth true [] c.bump with
          | .error e => .error e
          | .ok (seen, c) =>
            match fillFields seen fields with
            | .error cause => .error (c.fault cause)
            | .ok ms => .ok (ofMembers ms, c)
      else readUnexpected ("struct " ++ name) c

/-- Reads the contents of a bracket that has to be the next byte. -/
def readBracket (opening : UInt8) (expected : String)
    (inside : Nat → Cursor → Except Error (Json × Cursor)) : Reader :=
  fun depth c =>
    let c := c.skipBlanks
    if c.rest.head? = some opening then
      match depth with
      | 0 => .error (c.faultNext .tooDeep)
      | depth + 1 => inside depth c.bump
    else readUnexpected expected c

mutual

/-- Reads a value of a shape. -/
def Shape.reader : Shape → Reader
  | .any => fun depth c => readValue c.fuel depth c
  | .int name least greatest =>
    fun _ => readScalar name ((Shape.int name least greatest).ofJson)
  | .bool => fun _ => readScalar "a boolean" Shape.bool.ofJson
  | .text => fun _ => readScalar "a string" Shape.text.ofJson
  | .unit => fun _ => readScalar "unit" Shape.unit.ofJson
  | .optional shape =>
    let read := shape.reader
    fun depth c =>
      let c := c.skipBlanks
      if c.rest.head? = some 0x6E then
        (readWord [0x75, 0x6C, 0x6C] c.bump).map fun c => (.null, c)
      else read depth c
  | .list shape =>
    let read := shape.reader
    readBracket 0x5B "a sequence" fun depth c =>
      (readItemsWith read c.fuel depth true c).map fun (vs, c) => (.arr vs, c)
  | .table shape =>
    let read := shape.reader
    readBracket 0x7B "a map" fun depth c =>
      (readTableWith read c.fuel depth true c).map fun (ms, c) => (ofMembers ms, c)
  | .record name fields => readRecord name (Shape.fieldReaders fields)

/-- The fields of a record, with the ways to read their values. -/
def Shape.fieldReaders : List (String × Absent × Shape) → List (FieldOf Reader)
  | [] => []
  | (name, absent, shape) :: fs => ⟨name, absent, shape.reader⟩ :: Shape.fieldReaders fs

end

/-- Reads a whole text in a shape. -/
def Shape.ofBytes (shape : Shape) (bs : List UInt8) : Except Error Json :=
  match shape.reader maxDepth (Cursor.ofBytes bs) with
  | .error e => .error e
  | .ok (v, c) => (closeText c).map fun _ => v

end Parley.Json
