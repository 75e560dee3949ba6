import ShellCore.Evaluation.Machine

namespace ShellCore.Guard

/-!
# Guards

A guard acquires something from the host, runs a computation and releases what
it acquired. The computation yields its end as a value, be it an answer, an
error or an interruption, so there is no end that skips the release.
-/

/-- Open a process substitution frame. -/
def pushProcessSub : Run Unit :=
  Run.onHost () fun host => ((), host.pushProcessSub)

/-- Close the innermost process substitution frame and yield its statuses. -/
def popProcessSub : Run StatusArray :=
  Run.onHost .empty fun host => host.popProcessSub

/-- Apply redirections, and tell whether they hold. -/
def pushRedirects
    (redirections : List Redirection) :
    Run Bool :=
  Run.onHost true fun host => host.pushRedirects redirections

/-- Undo redirections. -/
def popRedirects
    (count : Nat) :
    Run Unit :=
  Run.onHost () fun host => ((), host.popRedirects count)

/-- Flush the output, and tell whether that succeeded. -/
def flush : Run Bool :=
  Run.onHost true fun host => host.flush

/-- Run inside a process substitution frame, and yield its statuses too. -/
def withProcessSubs
    (computation : Run α) :
    Run (StatusArray × α) := do
  pushProcessSub
  let result ← computation
  let statuses ← popProcessSub
  return (statuses, result)

/-- Run under redirections; if they fail there is nothing to run and to undo. -/
def withRedirects
    (redirections : List Redirection)
    (computation : Run α) :
    Run (Option α) := do
  if ← pushRedirects redirections then
    let result ← computation
    popRedirects redirections.length
    return some result
  else
    return none

/-- Run, and flush the output at the end; whether flushing succeeds is not asked. -/
def withFlush
    (computation : Run α) :
    Run α := do
  let result ← computation
  let _ ← flush
  return result

end ShellCore.Guard
