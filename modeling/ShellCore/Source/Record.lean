import ShellCore.Json.Basic
import ShellCore.Source.Basic
import ShellCore.Status

namespace ShellCore

/-!
# Records as JSON

Each record is an object of its fields, and is also read from an array of all of
them in order. Unknown fields are ignored; a missing one is refused. A choice
without content is its name, or an object that gives the name a null content. The
kind of a provenance stands among its fields.
-/

namespace Json

/-- The content of the listed fields, from an object or from an array in the same order. -/
def recordFields?
    (names : List String) :
    Json →
    Option (List Json)
  | .object fields => names.mapM fun name => findField? name fields
  | .array items => if items.length = names.length then some items else none
  | _ => none

/-- The name that a choice without content carries. -/
def choiceName? :
    Json →
    Option String
  | .string name => some name
  | .object [(name, .null)] => some name
  | _ => none

end Json

namespace SpanId

def toJson
    (span : SpanId) :
    Json :=
  .ofNat span.index

def ofJson?
    (document : Json) :
    Option SpanId :=
  document.word32?.map SpanId.mk

end SpanId

namespace LineId

def toJson
    (line : LineId) :
    Json :=
  .ofNat line.index

def ofJson?
    (document : Json) :
    Option LineId :=
  document.word32?.map LineId.mk

end LineId

namespace SourceId

def toJson
    (source : SourceId) :
    Json :=
  .ofNat source.index

def ofJson?
    (document : Json) :
    Option SourceId :=
  document.word32?.map SourceId.mk

end SourceId

namespace Provenance

/-- The name of a provenance's kind. -/
def kindName :
    Provenance →
    String
  | .interactive => "interactive"
  | .commandFlag => "command_flag"
  | .stdin => "stdin"
  | .mainFile _ => "main_file"
  | .sourcedFile _ _ => "sourced_file"
  | .eval _ => "eval"
  | .aliasBody _ _ => "alias"
  | .synthetic _ => "synthetic"

/-- The fields of a provenance next to its kind. -/
def contentFields :
    Provenance →
    List (String × Json)
  | .interactive => []
  | .commandFlag => []
  | .stdin => []
  | .mainFile path => [("path", .string path)]
  | .sourcedFile path origin => [("path", .string path), ("origin", origin.toJson)]
  | .eval origin => [("origin", origin.toJson)]
  | .aliasBody name origin => [("name", .string name), ("origin", origin.toJson)]
  | .synthetic label => [("label", .string label)]

/-- The document of a provenance. -/
def toJson
    (provenance : Provenance) :
    Json :=
  .ofFields (("kind", .string provenance.kindName) :: provenance.contentFields)

/-- A provenance without content, which an object may give more fields but an array no items. -/
def ofNoContent?
    (provenance : Provenance) :
    Json →
    Option Provenance
  | .array (_ :: _) => none
  | _ => some provenance

/-- The provenance of a kind whose content is read from a document. -/
def ofContent?
    (kind : String)
    (content : Json) :
    Option Provenance :=
  match kind with
  | "interactive" => ofNoContent? .interactive content
  | "command_flag" => ofNoContent? .commandFlag content
  | "stdin" => ofNoContent? .stdin content
  | "main_file" => do
      let [path] ← content.recordFields? ["path"] | none
      some (.mainFile (← path.string?))
  | "sourced_file" => do
      let [path, origin] ← content.recordFields? ["path", "origin"] | none
      some (.sourcedFile (← path.string?) (← SpanId.ofJson? origin))
  | "eval" => do
      let [origin] ← content.recordFields? ["origin"] | none
      some (.eval (← SpanId.ofJson? origin))
  | "alias" => do
      let [name, origin] ← content.recordFields? ["name", "origin"] | none
      some (.aliasBody (← name.string?) (← SpanId.ofJson? origin))
  | "synthetic" => do
      let [label] ← content.recordFields? ["label"] | none
      some (.synthetic (← label.string?))
  | _ => none

/-- The provenance of a document: its kind is a field, or the first item of an array. -/
def ofJson? :
    Json →
    Option Provenance
  | .object fields => do
      let kind ← (Json.findField? "kind" fields).bind Json.string?
      ofContent? kind (.object (fields.filter fun field => field.1 ≠ "kind"))
  | .array (kind :: content) => do
      ofContent? (← kind.string?) (.array content)
  | _ => none

end Provenance

namespace ControlKeyword

/-- The document of a keyword. -/
def toJson
    (keyword : ControlKeyword) :
    Json :=
  .string keyword.word

/-- The keyword of a document. -/
def ofJson?
    (document : Json) :
    Option ControlKeyword :=
  document.choiceName?.bind ofWord?

end ControlKeyword

namespace TokenKind

/-- The document of a token kind. -/
def toJson :
    TokenKind →
    Json
  | .word => .string "word"
  | .quoted => .string "quoted"
  | .quotedPart => .string "quoted_part"
  | .operator => .string "operator"
  | .redirect => .string "redirect"
  | .leftBrace => .string "l_brace"
  | .rightBrace => .string "r_brace"
  | .comment => .string "comment"
  | .newline => .string "newline"
  | .control keyword => .ofFields [("control_flow", keyword.toJson)]
  | .unknown => .string "unknown"

/-- The token kind without content of a name. -/
def ofName? :
    String →
    Option TokenKind
  | "word" => some .word
  | "quoted" => some .quoted
  | "quoted_part" => some .quotedPart
  | "operator" => some .operator
  | "redirect" => some .redirect
  | "l_brace" => some .leftBrace
  | "r_brace" => some .rightBrace
  | "comment" => some .comment
  | "newline" => some .newline
  | "unknown" => some .unknown
  | _ => none

/-- The token kind of a document. -/
def ofJson? :
    Json →
    Option TokenKind
  | .object [("control_flow", keyword)] => (ControlKeyword.ofJson? keyword).map .control
  | document => document.choiceName?.bind ofName?

end TokenKind

namespace Token

/-- The document of a token. -/
def toJson
    (token : Token) :
    Json :=
  .ofFields [("kind", token.kind.toJson), ("col", .ofNat token.column.toNat),
    ("length", .ofNat token.length.toNat), ("line_id", token.line.toJson),
    ("span_id", token.span.toJson), ("text", .string token.text)]

/-- The token of a document. -/
def ofJson?
    (document : Json) :
    Option Token := do
  let [kind, column, length, line, span, text] ←
    document.recordFields? ["kind", "col", "length", "line_id", "span_id", "text"] | none
  some {
    kind := ← TokenKind.ofJson? kind
    column := ← column.word32?
    length := ← length.word32?
    line := ← LineId.ofJson? line
    span := ← SpanId.ofJson? span
    text := ← text.string?
  }

end Token

namespace SourceLine

/-- The document of a line. -/
def toJson
    (line : SourceLine) :
    Json :=
  .ofFields [("line_id", line.line.toJson), ("line_number", .ofNat line.number.toNat),
    ("text", .string line.text), ("source", line.source.toJson)]

/-- The line of a document. -/
def ofJson?
    (document : Json) :
    Option SourceLine := do
  let [line, number, text, source] ←
    document.recordFields? ["line_id", "line_number", "text", "source"] | none
  some {
    line := ← LineId.ofJson? line
    number := ← number.word32?
    text := ← text.string?
    source := ← SourceId.ofJson? source
  }

end SourceLine

namespace StatusArray

/-- The document of statuses. -/
def toJson
    (statuses : StatusArray) :
    Json :=
  .ofFields [("codes", .array (statuses.codes.map fun code => .ofInt code.toInt)),
    ("locations", .array (statuses.locations.map SpanId.toJson))]

/-- The statuses of a document. -/
def ofJson?
    (document : Json) :
    Option StatusArray := do
  let [codes, locations] ← document.recordFields? ["codes", "locations"] | none
  some {
    codes := ← codes.listOf? Json.int32?
    locations := ← locations.listOf? SpanId.ofJson?
  }

end StatusArray

namespace CommandStatus

/-- The document of a command's statuses. -/
def toJson
    (statuses : CommandStatus) :
    Json :=
  .ofFields [("pipe_status", .array (statuses.stages.map fun code => .ofInt code.toInt)),
    ("negated", .bool statuses.negated)]

/-- The command's statuses of a document. -/
def ofJson?
    (document : Json) :
    Option CommandStatus := do
  let [stages, negated] ← document.recordFields? ["pipe_status", "negated"] | none
  some {
    stages := ← stages.listOf? Json.int32?
    negated := ← negated.bool?
  }

end CommandStatus

end ShellCore
