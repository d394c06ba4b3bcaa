/-! # The command line

What a run is asked for. Arguments are read from left to right, and the first that is wrong, or
that asks for help or for the version, settles the whole.

* `-c` and `--config` take a path, which may stand behind the letter, behind `=` or in the next
  argument.
* `-d` and `--debug` count, and letters may share one dash.
* One argument without a dash names the trace; behind `--` every argument is of that kind.
-/

namespace EventBridge.Cli

/-- What a run works on. -/
structure Options where
  config : String
  /-- The trace; `none` for standard input. -/
  trace : Option String
  /-- How often more output was asked for. -/
  debug : Nat
  deriving DecidableEq, Repr

/-- What the arguments ask for. -/
inductive Command where
  | replay (options : Options)
  | help
  | version
  /-- They are wrong; the text says why. -/
  | invalid (reason : String)
  deriving DecidableEq, Repr

/-- The configuration without `-c`. -/
def defaultConfig : String := "cybermon.toml"

/-- What has been read so far. -/
structure Progress where
  config : Option String
  trace : Option String
  debug : Nat
  /-- Whether the next argument is the path of `-c`. -/
  awaiting : Bool
  /-- Whether dashes mean nothing any more. -/
  plain : Bool
  deriving DecidableEq, Repr

/-- Before the first argument. -/
def Progress.start : Progress := ⟨none, none, 0, false, false⟩

/-- A step of reading: it goes on, or what is asked for is settled. -/
abbrev Step := Except Command Progress

/-- Ends the reading with a complaint. -/
def invalid (reason : String) : Step := .error (.invalid reason)

/-- Takes the path of `-c`. -/
def takeConfig (p : Progress) (path : String) : Step :=
  if p.config.isSome then invalid "the argument '--config <CONFIG>' cannot be used multiple times"
  else if path.isEmpty then
    invalid "a value is required for '--config <CONFIG>' but none was supplied"
  else .ok { p with config := some path, awaiting := false }

/-- Takes the path of the trace. -/
def takeTrace (p : Progress) (path : String) : Step :=
  if p.trace.isSome then invalid ("unexpected argument '" ++ path ++ "' found")
  else if path.isEmpty then invalid "a value is required for '[TRACE]' but none was supplied"
  else .ok { p with trace := some path }

/-- Reads letters behind one dash. -/
def readLetters (p : Progress) : List Char → Step
  | [] => .ok p
  | c :: rest =>
    if c = 'd' then readLetters { p with debug := p.debug + 1 } rest
    else if c = 'h' then .error .help
    else if c = 'V' then .error .version
    else if c = 'c' then
      match rest with
      | [] => .ok { p with awaiting := true }
      | '=' :: path => takeConfig p (String.ofList path)
      | path => takeConfig p (String.ofList path)
    else invalid ("unexpected argument '-" ++ String.singleton c ++ "' found")

/-- Reads a word behind two dashes. -/
def readWord (p : Progress) (word : List Char) : Step :=
  let (name, value) := word.span (· != '=')
  let name := String.ofList name
  match name, value with
  | "config", [] => .ok { p with awaiting := true }
  | "config", _ :: path => takeConfig p (String.ofList path)
  | "debug", [] => .ok { p with debug := p.debug + 1 }
  | "help", [] => .error .help
  | "version", [] => .error .version
  | _, _ => invalid ("unexpected argument '--" ++ name ++ "' found")

/-- Reads one argument. -/
def readArgument (p : Progress) (argument : String) : Step :=
  let cs := argument.toList
  let dashed := cs.head? = some '-' ∧ cs ≠ ['-']
  if p.awaiting then
    if dashed then invalid "a value is required for '--config <CONFIG>' but none was supplied"
    else takeConfig p argument
  else if p.plain ∨ ¬ dashed then takeTrace p argument
  else match cs with
    | ['-', '-'] => .ok { p with plain := true }
    | '-' :: '-' :: word => readWord p word
    | _ => readLetters p (cs.drop 1)

/-- What the arguments of a run ask for. -/
def Command.ofArguments (arguments : List String) : Command :=
  match arguments.foldlM readArgument Progress.start with
  | .error command => command
  | .ok p =>
    if p.awaiting then
      .invalid "a value is required for '--config <CONFIG>' but none was supplied"
    else .replay ⟨p.config.getD defaultConfig, p.trace, p.debug⟩

end EventBridge.Cli
