import Parley.Glob.Basic
import Parley.Json.Shape
import Parley.Uri.Parse

/-!
# Document selectors

A filter names any of the scheme of a document's URI, its language and a glob over its path; what
it does not name may be anything. A selector is a list of filters, of which one has to match.

- `Filter.accepts`, `Selector.accepts`: which documents match.
- `Filter.specificity`, `Selector.best?`: how closely they match.
- `Filter.ofParts`, `Selector.ofBytes`: filters from texts.
-/

namespace Parley

/-- What is known of a document. -/
structure Document where
  uri : Uri
  /-- The language, if anybody said which. -/
  language : Option String := none
  deriving DecidableEq, Repr

/-- A filter. -/
structure Filter where
  scheme : Option String := none
  language : Option String := none
  glob : Option Glob := none
  deriving DecidableEq, Repr

/-- Filters of which one has to match. -/
abbrev Selector := List Filter

/-- A glob that is none. -/
structure BadGlob where
  source : String
  error : Glob.GlobError
  deriving DecidableEq, Repr

/-- The wording. -/
def BadGlob.message (b : BadGlob) : String := b.error.message b.source

namespace Filter

/-- The filter with the given parts. -/
def ofParts (scheme language glob : Option String) : Except BadGlob Filter :=
  match glob with
  | none => .ok ⟨scheme, language, none⟩
  | some source =>
    match Glob.ofText source with
    | .error e => .error ⟨source, e⟩
    | .ok g => .ok ⟨scheme, language, some g⟩

/-- Whether a document has the scheme that is named; its case does not matter. -/
def acceptsScheme (f : Filter) (d : Document) : Bool :=
  match f.scheme with
  | none => true
  | some s => Text.sameIgnoringCase s.toList d.uri.scheme

/-- Whether a document is known to have the language that is named. -/
def acceptsLanguage (f : Filter) (d : Document) : Bool :=
  match f.language with
  | none => true
  | some l => d.language == some l

/-- Whether the path of a document matches the glob. -/
def acceptsPath (f : Filter) (d : Document) : Bool :=
  match f.glob with
  | none => true
  | some g => g.accepts d.uri.matchPath

/-- Whether a document matches. -/
def accepts (f : Filter) (d : Document) : Bool :=
  f.acceptsScheme d && f.acceptsLanguage d && f.acceptsPath d

/-- The number of things that a filter names. -/
def specificity (f : Filter) : Nat :=
  f.scheme.isSome.toNat + f.language.isSome.toNat + f.glob.isSome.toNat

/-- An optional text in a description. -/
def describeText : Option String → String
  | none => "None"
  | some s => "Some(" ++ Text.quote s.toList ++ ")"

/-- A filter for a reader. -/
def describe (f : Filter) : String :=
  "DocumentFilter \x7b scheme: " ++ describeText f.scheme
    ++ ", language: " ++ describeText f.language
    ++ ", pattern: " ++ (match f.glob with
      | none => "None"
      | some g => "Some(Pattern(" ++ Text.quote g.source.toList ++ "))")
    ++ " \x7d"

/-- The fields of a filter as a JSON value. -/
def shape : Json.Shape :=
  .record "DocumentFilter"
    [("language", .nullInObject, .optional .text), ("scheme", .nullInObject, .optional .text),
      ("pattern", .nullInObject, .optional .text)]

/-- The filter with the fields of a value. -/
def ofFields (v : Json) : Except BadGlob Filter :=
  ofParts (v.index "scheme").asText? (v.index "language").asText? (v.index "pattern").asText?

end Filter

namespace Selector

/-- Whether a document matches one of the filters. -/
def accepts (s : Selector) (d : Document) : Bool :=
  s.any (·.accepts d)

/-- The greatest specificity of a filter that a document matches. -/
def best? (s : Selector) (d : Document) : Option Nat :=
  ((s.filter (·.accepts d)).map Filter.specificity).max?

/-- The selector of one glob. -/
def ofGlob (source : String) : Except BadGlob Selector :=
  (Filter.ofParts none none (some source)).map ([·])

/-- The selector of one language. -/
def ofLanguage (language : String) : Selector := [{ language := some language }]

/-- The selector of one scheme. -/
def ofScheme (scheme : String) : Selector := [{ scheme := some scheme }]

/-- The filters with the given parts, up to the first bad glob. -/
def ofParts : List (Option String × Option String × Option String) → Except BadGlob Selector
  | [] => .ok []
  | (scheme, language, glob) :: rest =>
    match Filter.ofParts scheme language glob with
    | .error e => .error e
    | .ok f => (ofParts rest).map (f :: ·)

/-- The filters with the fields of values, up to the first bad glob. -/
def ofItems : List Json → Except BadGlob Selector
  | [] => .ok []
  | v :: vs =>
    match Filter.ofFields v with
    | .error e => .error e
    | .ok f => (ofItems vs).map (f :: ·)

/-- Reads a selector from JSON text. -/
def ofBytes (bs : List UInt8) : Except Json.Error (Except BadGlob Selector) :=
  ((Json.Shape.list Filter.shape).ofBytes bs).map fun
    | .arr vs => ofItems vs
    | _ => .ok []

end Selector

end Parley
