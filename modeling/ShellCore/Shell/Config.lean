import ShellCore.Source.Record

namespace ShellCore

/-!
# Configuration

A configuration names a shell, its root source and what it does after each
statement. It is read and written as a record; only the limit of the log of
saved lines may be absent.
-/

/-- How a shell is set up. -/
structure Config where
  name : String
  /-- The root source. -/
  provenance : Provenance
  /-- Clear the window of lines after each statement. -/
  discardAfterStatement : Bool
  /-- The size of the log of saved lines past which a shell warns. -/
  savedLinesSoftLimit : Option UInt64
  /-- Start with tracing on. -/
  xtrace : Bool
  /-- The prompt template in front of traced lines. -/
  ps4 : String
  deriving Repr, DecidableEq

namespace Config

/-- A shell that reads standard input. -/
def standard : Config where
  name := "default"
  provenance := .stdin
  discardAfterStatement := false
  savedLinesSoftLimit := none
  xtrace := false
  ps4 := "+ "

instance : Inhabited Config where
  default := standard

/-- An interactive shell, which keeps its window short however long it runs. -/
def interactive : Config :=
  { standard with
    name := "interactive"
    provenance := .interactive
    discardAfterStatement := true
    savedLinesSoftLimit := some 10000 }

/-- A shell that runs a script file. -/
def script
    (path : String) :
    Config :=
  { standard with
    name := path
    provenance := .mainFile path }

/-- A shell for one evaluation. -/
def transient : Config :=
  { standard with
    name := "transient"
    provenance := .synthetic "transient" }

/-- The document of a configuration. -/
def toJson
    (config : Config) :
    Json :=
  .ofFields [("name", .string config.name), ("provenance", config.provenance.toJson),
    ("discard_after_statement", .bool config.discardAfterStatement),
    ("saved_lines_soft_limit",
      .ofOption (fun limit => .ofNat limit.toNat) config.savedLinesSoftLimit),
    ("xtrace", .bool config.xtrace), ("ps4", .string config.ps4)]

/-- The limit of a document, which null leaves open. -/
def limitOfJson? :
    Json →
    Option (Option UInt64)
  | .null => some none
  | document => document.word64?.map some

/-- Give an object without a limit an open one. -/
def withLimit :
    Json →
    Json
  | .object fields =>
      if (Json.findField? "saved_lines_soft_limit" fields).isSome then
        .object fields
      else
        .object (("saved_lines_soft_limit", .null) :: fields)
  | document => document

/-- The configuration of a document. -/
def ofJson?
    (document : Json) :
    Option Config := do
  let [name, provenance, discard, limit, xtrace, ps4] ←
    (withLimit document).recordFields? ["name", "provenance", "discard_after_statement",
      "saved_lines_soft_limit", "xtrace", "ps4"] | none
  some {
    name := ← name.string?
    provenance := ← Provenance.ofJson? provenance
    discardAfterStatement := ← discard.bool?
    savedLinesSoftLimit := ← limitOfJson? limit
    xtrace := ← xtrace.bool?
    ps4 := ← ps4.string?
  }

end Config

end ShellCore
