import CertGate.Environment

namespace CertGate

inductive Command where
  | serve
  | checkConfig
  deriving DecidableEq

structure CommandLine where
  config : Option String
  port : Option UInt16
  host : Option String
  logLevel : String
  logFormat : Option String
  /-- To serve is what is done without a command. -/
  command : Option Command
  deriving DecidableEq

namespace CommandLine

inductive Stop where
  | help
  | version
  | unknownCommand
  | unknownArgument
  | missingValue
  | badValue
  | needlessValue
  | repeated
  deriving DecidableEq

/-- To have asked for help or for the version is no failure. -/
def Stop.exitCode : Stop → Nat
  | help | version => 0
  | _ => 2

inductive Setting where
  | config
  | port
  | host
  | logLevel
  | logFormat
  deriving DecidableEq

namespace Setting

def all : List Setting := [config, port, host, logLevel, logFormat]

def isGlobal : Setting → Bool
  | config | logLevel | logFormat => true
  | port | host => false

def long : Setting → String
  | config => "config"
  | port => "port"
  | host => "host"
  | logLevel => "log-level"
  | logFormat => "log-format"

def short? : Setting → Option Char
  | config => some 'c'
  | port => some 'p'
  | host | logLevel | logFormat => none

def envName : Setting → String
  | config => "AUTHN_GATEWAY_CONFIG"
  | port => "AUTHN_GATEWAY_PORT"
  | host => "AUTHN_GATEWAY_HOST"
  | logLevel => "AUTHN_GATEWAY_LOG_LEVEL"
  | logFormat => "AUTHN_GATEWAY_LOG_FORMAT"

end Setting

def port? (s : String) : Option UInt16 :=
  let (negative, ds) :=
    match s.toList with
    | '-' :: ds => (true, ds)
    | '+' :: ds => (false, ds)
    | ds => (false, ds)
  let n := ds.foldl (fun n c ↦ n * 10 + (c.toNat - 48)) 0
  if ds = [] ∨ !ds.all Char.isDigit ∨ 65535 < n ∨ (negative ∧ n ≠ 0) then none
  else some (UInt16.ofNat n)

def Setting.check (s : Setting) (value : String) : Except Stop Unit :=
  match s with
  | config => if value = "" then throw .missingValue else pure ()
  | port => if (port? value).isNone then throw .badValue else pure ()
  | host | logLevel | logFormat => pure ()

inductive Name where
  | setting (s : Setting)
  | help
  | version

inductive Level where
  | main
  | command

namespace Level

def settings : Level → List Setting
  | main => Setting.all
  | command => Setting.all.filter Setting.isGlobal

def long? (l : Level) (name : String) : Option Name :=
  match l, name with
  | _, "help" => some .help
  | main, "version" => some .version
  | l, name => (l.settings.find? (·.long == name)).map .setting

def short? (l : Level) (c : Char) : Option Name :=
  match l, c with
  | _, 'h' => some .help
  | main, 'V' => some .version
  | l, c => (l.settings.find? (·.short? == some c)).map .setting

end Level

/-- The settings given at one level, and the last one if its value is yet to be looked at. -/
structure Given where
  values : List (Setting × String) := []
  pending : Option (Setting × Option String) := none

namespace Given

def get? (g : Given) (s : Setting) : Option String := g.values.lookup s

def put (g : Given) (s : Setting) (value : String) : Except Stop Given := do
  if (g.get? s).isSome then throw .repeated
  s.check value
  return { g with values := g.values ++ [(s, value)] }

def settle (g : Given) : Except Stop Given :=
  match g.pending with
  | none => pure g
  | some (_, none) => throw .missingValue
  | some (s, some value) => { g with pending := none }.put s value

def start (g : Given) (s : Setting) (attached : Option String) : Except Stop Given := do
  let g ← g.settle
  match attached with
  | some value => g.put s value
  | none => return { g with pending := some (s, none) }

/-- Checks what variables say on the settings of a level that are not given there. -/
def checkVariables (g : Given) (l : Level) (e : Environment) : Except Stop Unit :=
  l.settings.forM fun s ↦
    match g.get? s, e.get? s.envName with
    | none, some value => s.check value
    | _, _ => pure ()

def flag {α : Type} (g : Given) (reason : Stop) : Except Stop α := do
  let _ ← g.settle
  throw reason

def long (g : Given) (l : Level) (name : String) (attached : Option String) : Except Stop Given :=
  match l.long? name, attached with
  | none, _ => throw .unknownArgument
  | some (.setting s), attached => g.start s attached
  | some _, some _ => throw .needlessValue
  | some .help, none => g.flag .help
  | some .version, none => g.flag .version

def short (g : Given) (l : Level) : List Char → Except Stop Given
  | [] => pure g
  | c :: cs =>
    match l.short? c with
    | none => throw .unknownArgument
    | some .help => g.flag .help
    | some .version => g.flag .version
    | some (.setting s) =>
      g.start s (
        match cs with
        | [] => none
        | '=' :: value => some (String.ofList value)
        | value => some (String.ofList value))

end Given

inductive Argument where
  | separator
  | long (name : String) (attached : Option String)
  | short (letters : List Char)
  | word (text : String)

/-- A lone dash is a word, and two dashes alone are a separator. -/
def Argument.ofText (text : String) : Argument :=
  match text.toList with
  | ['-', '-'] => separator
  | '-' :: '-' :: cs =>
    let name := String.ofList (cs.takeWhile (· ≠ '='))
    match cs.dropWhile (· ≠ '=') with
    | [] => long name none
    | _ :: value => long name (some (String.ofList value))
  | '-' :: c :: cs => short (c :: cs)
  | _ => word text

def commands : List (String × Command) := [("serve", .serve), ("check-config", .checkConfig)]

def isCommandName (name : String) : Bool := name == "help" || (commands.lookup name).isSome

def helpOn : List String → Stop
  | [] => .help
  | [name] => if isCommandName name then .help else .unknownCommand
  | _ => .unknownCommand

def behindSeparator (l : Level) (g : Given) : List String → Except Stop Given
  | [] => pure g
  | name :: _ =>
    match l with
    | .main => throw (if isCommandName name then .unknownArgument else .unknownCommand)
    | .command => throw .unknownArgument

def read (l : Level) (g : Given) : List String → Except Stop (Given × Option (Command × List String))
  | [] => pure (g, none)
  | text :: rest =>
    match Argument.ofText text with
    | .separator => (behindSeparator l g rest).map (·, none)
    | .long name attached => do read l (← g.long l name attached) rest
    | .short letters => do read l (← g.short l letters) rest
    | .word word =>
      match g.pending, l with
      | some (s, none), _ => read l { g with pending := some (s, some word) } rest
      | _, .command => throw .unknownArgument
      | _, .main =>
        match word, commands.lookup word with
        | "help", _ => throw (helpOn rest)
        | _, some c => pure (g, some (c, rest))
        | _, none => throw .unknownCommand

def behind (command : Option (Command × List String)) (e : Environment) : Except Stop Given :=
  match command with
  | none => pure {}
  | some (_, rest) => do
    let g ← (← read .command {} rest).1.settle
    g.checkVariables .command e
    return g

/-- The command line without the name of the program. What stands behind the command counts more
than what stands in front of it, and both more than a variable. -/
def parse (arguments : List String) (e : Environment) : Except Stop CommandLine := do
  let (front, command) ← read .main {} arguments
  let back ← behind command e
  let front ← front.settle
  front.checkVariables .main e
  let given (s : Setting) : Option String := back.get? s <|> front.get? s <|> e.get? s.envName
  return {
    config := given .config
    port := given .port >>= port?
    host := given .host
    logLevel := (given .logLevel).getD "info"
    logFormat := given .logFormat
    command := command.map (·.1) }

end CommandLine

end CertGate
