import TestRig.Config.Discovery
import TestRig.Config.OverrideSpec
import TestRig.Factory.Listing
import TestRig.Loopback.Bench

/-!
# Arguments

A command line consists of commands, each with its options. An option has a value, which stands
behind it or behind an equals sign, or is a flag. A value is looked at when the next option begins
or when its command ends, and a command ends behind those that follow it; of two faults the one that
is found first is told.

The level of the log and the request for the version, which any command takes, are no options here,
and a call without a command, which does nothing but say so, is refused like one that is wrong.
-/

namespace TestRig.CommandLine

/-- Why a command line is refused, or why help is shown instead. -/
inductive UsageError where
  | help
  /-- No command is given, and no option either. -/
  | helpOnMissingCommand
  | missingCommand
  | unknownCommand
  | unknownArgument
  /-- A value is missing, empty or none of those that are possible. -/
  | invalidValue
  /-- A value has not the form that is asked for. -/
  | malformedValue
  /-- An option that stands once only is repeated. -/
  | repeated
  /-- A flag has a value. -/
  | needlessValue
  deriving DecidableEq, Repr

/-- The name of the kind of a refusal. -/
def UsageError.kind : UsageError → String
  | help => "DisplayHelp"
  | helpOnMissingCommand => "DisplayHelpOnMissingArgumentOrSubcommand"
  | missingCommand => "MissingSubcommand"
  | unknownCommand => "InvalidSubcommand"
  | unknownArgument => "UnknownArgument"
  | invalidValue => "InvalidValue"
  | malformedValue => "ValueValidation"
  | repeated => "ArgumentConflict"
  | needlessValue => "TooManyValues"

/-- The wording of a refusal. -/
def UsageError.message : UsageError → String
  | help | helpOnMissingCommand =>
    "tbrun [-c FILE] run | factory | config show | config validate | config generate"
  | missingCommand => "a command is missing"
  | unknownCommand => "there is no such command"
  | unknownArgument => "there is no such argument"
  | invalidValue => "a value is missing or none of those that are possible"
  | malformedValue => "a value has not the form that is asked for"
  | repeated => "an option is repeated"
  | needlessValue => "a flag has a value"

/-- Whether help was asked for. -/
def UsageError.isHelp : UsageError → Bool
  | help => true
  | _ => false

/-! ## What may stand on a command line -/

/-- Options and positional arguments. -/
inductive Parameter where
  | config
  | test
  | typeOverride
  | instOverride
  | timeout
  | trace
  | printFactory
  | json
  | debug
  | path
  | scope
  | paths
  | file
  | output
  deriving DecidableEq, Repr

namespace Parameter

/-- The name behind two dashes. -/
def long : Parameter → String
  | config => "config"
  | test => "test"
  | typeOverride => "type-override"
  | instOverride => "inst-override"
  | timeout => "timeout-ms"
  | trace => "trace"
  | printFactory => "print-factory"
  | json => "json"
  | debug => "debug"
  | path => "path"
  | scope => "scope"
  | paths => "paths"
  | file => "file"
  | output => "output"

/-- The letter behind one dash. -/
def short? : Parameter → Option Char
  | config => some 'c'
  | output => some 'o'
  | _ => none

/-- Whether it has no value. -/
def isFlag : Parameter → Bool
  | trace | printFactory | json | paths => true
  | _ => false

/-- Whether it may stand more than once. -/
def isRepeatable : Parameter → Bool
  | typeOverride | instOverride => true
  | _ => false

/-- The limit of a number of milliseconds. -/
def timeoutLimit : Nat := Nat.pow 2 64

/-- The number of milliseconds that a value writes. -/
def millisOfValue? (v : String) : Option Nat :=
  (Yaml.natOfDigits? 10 (Yaml.dropSign ['+'] v.toList)).filter (· < timeoutLimit)

/-- The scopes of listings with their names. -/
def scopes : List (String × Scope) :=
  [("overrides", .overrides), ("user", .user), ("all", .all)]

/-- What is wrong with a value. -/
def error? (p : Parameter) (v : String) : Option UsageError :=
  match p with
  | config | file | output => if v.isEmpty then some .invalidValue else none
  | scope => if (scopes.lookup v).isNone then some .invalidValue else none
  | timeout => if (millisOfValue? v).isNone then some .malformedValue else none
  | typeOverride => if (TypeOverride.ofLine v).toOption.isNone then some .malformedValue else none
  | instOverride => if (InstOverride.ofLine v).toOption.isNone then some .malformedValue else none
  | _ => none

end Parameter

/-- A command that has been read so far. -/
inductive Level where
  | top
  | run
  | factory
  | config
  | configShow
  | configValidate
  | configGenerate
  deriving DecidableEq, Repr

namespace Level

/-- The commands that may follow. -/
def commands : Level → List (String × Level)
  | top => [("run", run), ("factory", factory), ("config", config)]
  | config =>
    [("show", configShow), ("validate", configValidate), ("generate", configGenerate)]
  | _ => []

/-- Whether a word stands for a command that may follow. Where commands may follow, so may the word
that asks for help on them. -/
def hasCommand (l : Level) (a : String) : Bool :=
  (l.commands.lookup a).isSome || (a == "help" && !l.commands.isEmpty)

/-- The options of a command. The configuration may be given everywhere. -/
def options : Level → List Parameter
  | run => [.config, .test, .typeOverride, .instOverride, .timeout, .trace, .printFactory, .json]
  | factory => [.config, .debug, .path, .scope, .typeOverride, .instOverride]
  | configShow => [.config, .paths]
  | configGenerate => [.config, .output]
  | _ => [.config]

/-- The argument of a command that is no option. -/
def positional? : Level → Option Parameter
  | configValidate => some .file
  | _ => none

/-- The option of a name. -/
def ofLong? (l : Level) (name : String) : Option Parameter :=
  l.options.find? fun p => p.long == name

/-- The option of a letter. -/
def ofShort? (l : Level) (c : Char) : Option Parameter :=
  l.options.find? fun p => p.short? == some c

end Level

/-! ## Reading -/

/-- An option whose value was not looked at yet: it may still be missing. -/
structure Pending where
  parameter : Parameter
  value : Option String := none
  deriving DecidableEq, Repr

/-- What has been read of one command. -/
structure Reading where
  level : Level := .top
  /-- The parameters with their values, in order. -/
  found : List (Parameter × String) := []
  pending : Option Pending := none
  /-- Whether options have ended. -/
  isTrailing : Bool := false
  deriving Repr

namespace Reading

/-- Take a parameter with its value. -/
def take (r : Reading) (p : Parameter) (v : String) : Except UsageError Reading :=
  if !p.isRepeatable && r.found.any (·.1 == p) then .error .repeated
  else
    match p.error? v with
    | some e => .error e
    | none => .ok { r with found := r.found ++ [(p, v)] }

/-- Look at the value that was not looked at yet. -/
def resolve (r : Reading) : Except UsageError Reading :=
  match r.pending with
  | none => .ok r
  | some ⟨p, some v⟩ => { r with pending := none }.take p v
  | some ⟨_, none⟩ => .error .invalidValue

/-- Whether a value is expected next. -/
def expectsValue (r : Reading) : Bool := r.pending.any (·.value.isNone)

/-- Take an option with the value that is attached to it, if one is. -/
def takeOption (r : Reading) (p : Parameter) (attached : Option String) :
    Except UsageError Reading := do
  if p.isFlag then
    if attached.isSome then throw .needlessValue
    (← r.resolve).take p ""
  else
    let r ← r.resolve
    match attached with
    | some v => r.take p v
    | none => return { r with pending := some ⟨p, none⟩ }

/-- Take an option that is given by its name. -/
def takeLong (r : Reading) (text : List Char) : Except UsageError Reading :=
  let (name, attached) := match Text.splitFirst? '=' text with
    | some (name, v) => (String.ofList name, some (String.ofList v))
    | none => (String.ofList text, none)
  if name == "help" then
    if attached.isSome then .error .needlessValue else r.resolve.bind fun _ => .error .help
  else
    match r.level.ofLong? name with
    | some p => r.takeOption p attached
    | none => .error .unknownArgument

/-- Take options that are given by letters. What follows an option with a value is its value. -/
def takeShort (r : Reading) : List Char → Except UsageError Reading
  | [] => .ok r
  | c :: cs =>
    if c == 'h' then r.resolve.bind fun _ => .error .help
    else
      match r.level.ofShort? c with
      | none => .error .unknownArgument
      | some p =>
        if p.isFlag then (r.takeOption p none).bind fun r => takeShort r cs
        else
          r.takeOption p (match cs with
            | [] => none
            | '=' :: v => some (String.ofList v)
            | v => some (String.ofList v))

/-- Why an argument that nothing is known of is refused. -/
def refusal (r : Reading) (a : String) : UsageError :=
  if r.level.commands.isEmpty then .unknownArgument
  else if r.isTrailing && r.level.hasCommand a then .unknownArgument
  else .unknownCommand

/-- Take an argument that is no option. -/
def takePositional (r : Reading) (a : String) : Except UsageError Reading :=
  match r.level.positional? with
  | some p =>
    if r.found.any (·.1 == p) || r.pending.any (·.parameter == p) then .error (r.refusal a)
    else r.resolve.map fun r => { r with pending := some ⟨p, some a⟩ }
  | none => .error (r.refusal a)

/-- Look for the command that help is asked for. There is help on help too. -/
def helpOn (l : Level) : List String → UsageError
  | [] => .help
  | a :: rest =>
    match l.commands.lookup a with
    | some l => helpOn l rest
    | none => if l.hasCommand a && rest.isEmpty then .help else .unknownCommand

/-- The command that an argument begins, if it does. -/
def command? (r : Reading) (a : String) : Option Level :=
  if r.isTrailing || r.expectsValue then none else r.level.commands.lookup a

/-- Take the next argument, which begins no command; those behind it are given too. -/
def next (r : Reading) (a : String) (rest : List String) : Except UsageError Reading :=
  if r.isTrailing then r.takePositional a
  else if !r.expectsValue && r.level.hasCommand a then .error (helpOn r.level rest)
  else
    match a.toList with
    | ['-', '-'] => .ok { r with isTrailing := true }
    | '-' :: '-' :: text => r.takeLong text
    | '-' :: c :: cs => r.takeShort (c :: cs)
    | _ =>
      match r.pending with
      | some ⟨p, none⟩ => .ok { r with pending := some ⟨p, some a⟩ }
      | _ => r.takePositional a

/-- End the command line. -/
def finish (r : Reading) : Except UsageError Reading :=
  r.resolve.bind fun r =>
    if r.level.commands.isEmpty then .ok r
    else if r.found.isEmpty then .error .helpOnMissingCommand
    else .error .missingCommand

/-- Read arguments in order. The commands before are given, the innermost first; their values are
looked at when those of the commands behind them are known to be right. Gives what was read of all
commands, the innermost first. -/
def readAll : List String → List Reading → Reading → Except UsageError (List Reading)
  | [], outer, r => return (← r.finish) :: (← outer.mapM resolve)
  | a :: rest, outer, r =>
    match r.command? a with
    | some l => readAll rest (r :: outer) { level := l }
    | none => (r.next a rest).bind (readAll rest outer)

/-- The value of a parameter. -/
def value? (r : Reading) (p : Parameter) : Option String := r.found.lookup p

/-- The values of a parameter. -/
def values (r : Reading) (p : Parameter) : List String :=
  (r.found.filter (·.1 == p)).map (·.2)

/-- Whether a flag is set. -/
def isSet (r : Reading) (p : Parameter) : Bool := (r.value? p).isSome

end Reading

/-! ## Commands -/

/-- Overrides that a command line adds to the configuration. -/
structure AddedOverrides where
  types : List TypeOverride := []
  insts : List InstOverride := []
  deriving DecidableEq, Repr, Inhabited

/-- How a test is to be run. -/
structure RunOptions where
  test : String
  overrides : AddedOverrides := {}
  timeout : Option Duration := none
  trace : Bool := false
  printFactory : Bool := false
  json : Bool := false
  deriving DecidableEq, Repr

/-- What is to be told about the factory. -/
structure FactoryOptions where
  /-- The type whose resolution is explained. -/
  debug : Option String := none
  /-- The instance path of the explained request. -/
  path : String
  scope : Scope := .user
  overrides : AddedOverrides := {}
  deriving DecidableEq, Repr

/-- What is to be done. -/
inductive Command where
  | run (o : RunOptions)
  | factory (o : FactoryOptions)
  | show (paths : Bool)
  | validate (file : Option String)
  | generate (output : String)
  deriving DecidableEq, Repr

/-- A command line that was understood. -/
structure Invocation where
  command : Command
  config : Option String := none
  deriving DecidableEq, Repr

/-- The instance path of an explained request if no other is given. -/
def defaultPath : String := "tb_test_top.env.driver"

namespace Invocation

/-- The overrides that were read. -/
def overridesOf (r : Reading) : AddedOverrides :=
  { types := (r.values .typeOverride).filterMap fun v => (TypeOverride.ofLine v).toOption
    insts := (r.values .instOverride).filterMap fun v => (InstOverride.ofLine v).toOption }

/-- What was read of a command, as a command. -/
def commandOf? (r : Reading) : Option Command :=
  match r.level with
  | .run => some (.run {
      test := (r.value? .test).getD Loopback.defaultTest
      overrides := overridesOf r
      timeout := ((r.value? .timeout).bind Parameter.millisOfValue?).map Duration.ofMillis
      trace := r.isSet .trace
      printFactory := r.isSet .printFactory
      json := r.isSet .json })
  | .factory => some (.factory {
      debug := r.value? .debug
      path := (r.value? .path).getD defaultPath
      scope := ((r.value? .scope).bind fun v => Parameter.scopes.lookup v).getD .user
      overrides := overridesOf r })
  | .configShow => some (.show (r.isSet .paths))
  | .configValidate => some (.validate (r.value? .file))
  | .configGenerate => some (.generate ((r.value? .output).getD Config.localPath))
  | .top | .config => none

/-- Read a command line. The configuration may be given to every command on the way; the last one
counts. -/
def ofArguments (args : List String) : Except UsageError Invocation := do
  let readings ← Reading.readAll args [] {}
  match readings.head?.bind commandOf? with
  | some command => return { command, config := readings.findSome? (·.value? .config) }
  | none => throw .missingCommand

end Invocation

end TestRig.CommandLine
