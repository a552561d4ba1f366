import Parley.Document.Selector

/-!
# The languages of open documents

Only the notification that opens a document says its language; later ones name the document by its
URI alone. So the language is remembered until the document is closed.

- `Languages.get?`: the language of a document.
- `Languages.opened`, `Languages.closed`: what the two notifications change.
- `Languages.identify`: the document that params are about.
-/

namespace Parley

/-- The documents that are open, with their languages. -/
abbrev Languages := List (Uri × String)

/-- The method that opens a document. -/
def didOpen : String := "textDocument/didOpen"

/-- The method that closes a document. -/
def didClose : String := "textDocument/didClose"

/-- The URI that a JSON value is. -/
def Uri.ofJson? (v : Json) : Option Uri :=
  match v.asText? with
  | none => none
  | some s => (Uri.parse s).toOption

namespace Languages

/-- The language of a document. -/
def get? (ls : Languages) (u : Uri) : Option String :=
  ls.lookup u

/-- Forgets a document. -/
def erase (ls : Languages) (u : Uri) : Languages :=
  ls.filter fun e => e.1 != u

/-- Remembers the language of a document. -/
def insert (ls : Languages) (u : Uri) (language : String) : Languages :=
  (u, language) :: ls.erase u

/-- What a notification opens. -/
def opened (ls : Languages) (method : String) (params : Json) : Languages :=
  if method = didOpen then
    let item := params.index "textDocument"
    match Uri.ofJson? (item.index "uri"), (item.index "languageId").asText? with
    | some u, some language => ls.insert u language
    | _, _ => ls
  else ls

/-- What a notification closes. -/
def closed (ls : Languages) (method : String) (params : Json) : Languages :=
  if method = didClose then
    match Uri.ofJson? ((params.index "textDocument").index "uri") with
    | some u => ls.erase u
    | none => ls
  else ls

/-- The document that params are about: its URI stands in the member for a text document or at the
top. A language in the params counts before one that is remembered. -/
def identify (ls : Languages) (params : Json) : Option Document :=
  let item := params.index "textDocument"
  match (Uri.ofJson? (item.index "uri")).or (Uri.ofJson? (params.index "uri")) with
  | none => none
  | some u => some ⟨u, (item.index "languageId").asText?.or (ls.get? u)⟩

theorem get?_insert_self (ls : Languages) (u : Uri) (l : String) :
    (ls.insert u l).get? u = some l :=
  List.lookup_cons_self

theorem get?_erase_self (ls : Languages) (u : Uri) : (ls.erase u).get? u = none := by
  rw [get?, erase, List.lookup_eq_none_iff]
  intro e he
  have h := (List.mem_filter.mp he).2
  rw [bne_iff_ne] at h
  exact bne_iff_ne.mpr (Ne.symm h)

theorem get?_erase_ne (ls : Languages) {u v : Uri} (h : v ≠ u) :
    (ls.erase u).get? v = ls.get? v := by
  induction ls with
  | nil => rfl
  | cons e ls ih =>
    obtain ⟨w, l⟩ := e
    simp only [get?, erase] at ih ⊢
    rw [List.filter_cons]
    split
    · rw [List.lookup_cons, List.lookup_cons, ih]
    · rename_i hw
      have : w = u := by simpa using hw
      rw [ih, List.lookup_cons, this, beq_false_of_ne h]

theorem get?_insert_ne (ls : Languages) {u v : Uri} (l : String) (h : v ≠ u) :
    (ls.insert u l).get? v = ls.get? v := by
  rw [← get?_erase_ne ls h, get?, insert, List.lookup_cons, beq_false_of_ne h]
  rfl

end Languages

end Parley
