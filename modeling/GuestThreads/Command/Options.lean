import GuestThreads.Text.Literal

/-!
# Command-line options

An option starts with one or two dashes and takes its value behind an equals sign or from the next
argument; a switch needs none. Two dashes alone, or an argument that is no option, end the options.
-/

namespace GuestThreads.Command

structure Options where
  wasm : String := ""
  config : String := ""
  threads : Int := 1
  closure : String := "0"
  json : Bool := false
  logLevel : String := ""
  interactive : Bool := false
deriving DecidableEq, Repr

/-- Why a value does not suit its option. -/
inductive ValueError where
  | malformed
  | outOfRange
deriving DecidableEq, Repr

def ValueError.message : ValueError → String
  | .malformed => "parse error"
  | .outOfRange => "value out of range"

inductive OptionError where
  | help
  | malformed (argument : String)
  | undefined (name : String)
  | noValue (name : String)
  | badValue (name value : String) (reason : ValueError)
  | badSwitch (name value : String) (reason : ValueError)
deriving DecidableEq, Repr

/-- What an option does with its value. -/
inductive Setter where
  | switch (set : Options → Bool → Options)
  | text (set : Options → String → Options)
  | number (set : Options → Int → Options)

/-- The options by name, in the order of their names. -/
def setters : List (String × Setter) := [
  ("closure", .text fun o v => { o with closure := v }),
  ("config", .text fun o v => { o with config := v }),
  ("i", .switch fun o v => { o with interactive := v }),
  ("json", .switch fun o v => { o with json := v }),
  ("log-level", .text fun o v => { o with logLevel := v }),
  ("threads", .number fun o v => { o with threads := v }),
  ("wasm", .text fun o v => { o with wasm := v })]

def parseSwitch (v : String) : Except ValueError Bool :=
  if ["1", "t", "T", "TRUE", "true", "True"].contains v then .ok true
  else if ["0", "f", "F", "FALSE", "false", "False"].contains v then .ok false
  else .error .malformed

def parseNumber (v : String) : Except ValueError Int :=
  match Text.parseSigned v.toList with
  | .ok n => .ok n
  | .error .syntaxError => .error .malformed
  | .error .outOfRange => .error .outOfRange

/-- The name in an option without its dashes, and the value behind an equals sign. -/
def splitOption (body : List Char) : String × Option String :=
  match body with
  | [] => ("", none)
  | first :: rest =>
    let name := first :: rest.takeWhile (· ≠ '=')
    match body.drop name.length with
    | [] => (String.ofList name, none)
    | _ :: value => (String.ofList name, some (String.ofList value))

/-- The part of an argument behind its dashes, if it is an option. -/
def optionBody (argument : String) : Option (List Char) :=
  match argument.toList with
  | '-' :: '-' :: body => some body
  | '-' :: c :: body => some (c :: body)
  | _ => none

/-- Apply an option that takes a value. -/
def Options.assign (o : Options) (name value : String) (s : Setter) : Except OptionError Options :=
  match s with
  | .switch set =>
    match parseSwitch value with
    | .ok b => .ok (set o b)
    | .error e => .error (.badSwitch name value e)
  | .text set => .ok (set o value)
  | .number set =>
    match parseNumber value with
    | .ok n => .ok (set o n)
    | .error e => .error (.badValue name value e)

/-- Read options until they end. -/
def Options.read : List String → Options → Except OptionError Options
  | [], o => .ok o
  | argument :: rest, o =>
    match optionBody argument with
    | none => .ok o
    | some [] => .ok o
    | some body =>
      if body.head? = some '-' || body.head? = some '=' then .error (.malformed argument)
      else
        let (name, value) := splitOption body
        match setters.lookup name, value with
        | none, _ => .error (if name = "help" ∨ name = "h" then .help else .undefined name)
        | some s, some v => do read rest (← o.assign name v s)
        | some (.switch set), none => read rest (set o true)
        | some s, none =>
          match rest with
          | [] => .error (.noValue name)
          | v :: rest => do read rest (← o.assign name v s)

def Options.parse (arguments : List String) : Except OptionError Options :=
  Options.read arguments {}

/-- The list of options. -/
def optionHelp : List String := [
  "Usage of run:",
  "  -closure string",
  "    \tEntrypoint closure pointers (comma-separated, last one repeats) (default \"0\")",
  "  -config string",
  "    \tYAML config file (optional)",
  "  -i\tInteractive signal monitor (TUI)",
  "  -json",
  "    \tPrint signals as JSON lines",
  "  -log-level string",
  "    \tOverride log level (debug, info, warn, error)",
  "  -threads int",
  "    \tNumber of threads to spawn (default 1)",
  "  -wasm string",
  "    \tPath to threaded wasm module"]

namespace OptionError

/-- What is printed about wrong options: the fault, unless help was asked for, and the options. -/
def lines (e : OptionError) : List String :=
  (match e with
  | .help => []
  | .malformed argument => ["bad flag syntax: " ++ argument]
  | .undefined name => ["flag provided but not defined: -" ++ name]
  | .noValue name => ["flag needs an argument: -" ++ name]
  | .badValue name value reason =>
    ["invalid value " ++ Text.quoted value ++ " for flag -" ++ name ++ ": " ++ reason.message]
  | .badSwitch name value reason =>
    ["invalid boolean value " ++ Text.quoted value ++ " for -" ++ name ++ ": " ++ reason.message])
    ++ optionHelp

def exitCode : OptionError → Nat
  | .help => 0
  | _ => 2

end OptionError

end GuestThreads.Command
