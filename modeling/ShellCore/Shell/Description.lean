import ShellCore.Shell.Basic

namespace ShellCore

/-!
# Descriptions of shells

A description shows the configuration of a shell and the sizes of its arena, for
the eyes of a developer. Texts stand between double quotes there.
-/

namespace Description

/-- A character between double quotes. -/
def quoteChar
    (character : Char) :
    List Char :=
  if character = '"' then ['\\', '"']
  else if character = '\\' then ['\\', '\\']
  else if character = '\n' then ['\\', 'n']
  else if character = '\r' then ['\\', 'r']
  else if character = '\t' then ['\\', 't']
  else [character]

/-- A text between double quotes. -/
def quoted
    (text : String) :
    String :=
  String.ofList ('"' :: (text.toList.flatMap quoteChar ++ ['"']))

/-- A truth value. -/
def truth
    (value : Bool) :
    String :=
  if value then "true" else "false"

/-- A record with named fields; one that shows only some of them ends with two dots. -/
def record
    (name : String)
    (fields : List (String × String))
    (partly : Bool) :
    String :=
  let shown := fields.map fun field => field.1 ++ ": " ++ field.2
  let all := if partly then shown ++ [".."] else shown
  name ++ " \x7b " ++ ", ".intercalate all ++ " \x7d"

/-- A token handle. -/
def span
    (span : SpanId) :
    String :=
  "SpanId(" ++ toString span.index ++ ")"

/-- A provenance. -/
def provenance :
    Provenance →
    String
  | .interactive => "Interactive"
  | .commandFlag => "CommandFlag"
  | .stdin => "Stdin"
  | .mainFile path => record "MainFile" [("path", quoted path)] false
  | .sourcedFile path origin =>
      record "SourcedFile" [("path", quoted path), ("origin", span origin)] false
  | .eval origin => record "Eval" [("origin", span origin)] false
  | .aliasBody name origin =>
      record "Alias" [("name", quoted name), ("origin", span origin)] false
  | .synthetic label => record "Synthetic" [("label", quoted label)] false

/-- A limit. -/
def limit :
    Option UInt64 →
    String
  | none => "None"
  | some limit => "Some(" ++ toString limit.toNat ++ ")"

/-- A configuration. -/
def config
    (config : Config) :
    String :=
  record "KernelConfig" [("name", quoted config.name),
    ("provenance", provenance config.provenance),
    ("discard_after_statement", truth config.discardAfterStatement),
    ("saved_lines_soft_limit", limit config.savedLinesSoftLimit),
    ("xtrace", truth config.xtrace), ("ps4", quoted config.ps4)] false

/-- The sizes of an arena. -/
def stats
    (stats : ArenaStats) :
    String :=
  record "ArenaStats" [("lines", toString stats.lines), ("tokens", toString stats.tokens),
    ("active", toString stats.active), ("saved", toString stats.saved),
    ("sources", toString stats.sources)] false

end Description

namespace Scope

/-- The description of an evaluator set over the scope. -/
def describeSet
    (scope : Scope) :
    String :=
  Description.record "Evaluators" [("scope_depth", toString scope.depth)] true

end Scope

namespace Shell

/-- The description of a shell. -/
def describe
    (shell : Shell) :
    String :=
  Description.record "Kernel" [("config", Description.config shell.config),
    ("arena", Description.stats shell.arena.stats)] true

end Shell

end ShellCore
