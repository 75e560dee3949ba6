import ShellCore.Evaluation.Prompt

namespace ShellCore.Trace

/-!
# Traces

While tracing is on, every simple command and every control signal leaves a line
behind: a prompt, and the command in a form that a shell reads back.
-/

/-- Whether a character needs no quotes. -/
def isPlain
    (character : Char) :
    Bool :=
  character.isAlphanum || character ∈ ['-', '_', '.', '/', '=', ':', ',', '+', '@', '%']

/-- The characters that stand for a character between single quotes. -/
def quoteChar
    (character : Char) :
    List Char :=
  if character = '\'' then ['\'', '\\', '\'', '\''] else [character]

/-- An argument, between single quotes unless all of it is plain. -/
def quoteChars
    (argument : List Char) :
    List Char :=
  if !argument.isEmpty && argument.all isPlain then
    argument
  else
    '\'' :: (argument.flatMap quoteChar ++ ['\''])

/-- An argument in a form that a shell reads back. -/
def quote
    (argument : String) :
    String :=
  String.ofList (quoteChars argument.toList)

/-- The line of a command. -/
def commandLine
    (argv : List String) :
    String :=
  " ".intercalate (argv.map quote)

/-- Trace a text behind its prompt. -/
def emit
    (env : Env)
    (text : String) :
    Eval Unit := do
  Eval.require env .tracerToWord
  Eval.require env .wordToPrompt
  let lead ← Prompt.expand env env.setup.ps4
  modify fun machine => { machine with trace := machine.trace ++ [lead ++ text] }

/-- Trace a text if tracing is on. -/
def emitIfOn
    (env : Env)
    (text : String) :
    Eval Unit := do
  if (← Eval.scope).xtrace then
    emit env text

/-- Trace a simple command. -/
def onCommand
    (env : Env)
    (argv : List String) :
    Eval Unit :=
  emitIfOn env (commandLine argv)

/-- Trace a control signal. -/
def onSignal
    (env : Env)
    (signal : ControlSignal) :
    Eval Unit :=
  emitIfOn env signal.display

end ShellCore.Trace
