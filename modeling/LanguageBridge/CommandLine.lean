import LanguageBridge.Config
import LanguageBridge.Text.Integer

namespace LanguageBridge

/-! The command line. Long options may be shortened as long as they stay distinct, and take their
value after an equals sign or as the next argument. -/

namespace CommandLine

inductive Flag where
  | help
  | stdio
  | tcp
  | host
  | port
  | logLevel
  | version
  | server
  | padding
deriving DecidableEq, Repr

namespace Flag

def all : List Flag := [help, stdio, tcp, host, port, logLevel, version, server, padding]

def long : Flag → String
  | help => "--help"
  | stdio => "--stdio"
  | tcp => "--tcp"
  | host => "--host"
  | port => "--port"
  | logLevel => "--log-level"
  | version => "--version"
  | server => "--server"
  | padding => "--padding"

def label : Flag → String
  | help => "-h/--help"
  | flag => flag.long

def takesValue : Flag → Bool
  | host | port | logLevel | server | padding => true
  | help | stdio | tcp | version => false

def logLevels : List String := ["DEBUG", "INFO", "WARNING", "ERROR"]

def choices : Flag → List String
  | logLevel => logLevels
  | padding => Padding.all.map Padding.name
  | _ => []

end Flag

structure Options where
  tcp : Bool := false
  host : Value := .str "127.0.0.1"
  port : Value := .int 2087
  logLevel : Value := .str "WARNING"
  servers : List Value := []
  padding : Value := .null
deriving Repr, Inhabited

inductive Invocation where
  | serve (options : Options)
  | version
  | help
  | refused (message : String)
deriving Repr

inductive Argument where
  /-- No option, or the value of one. -/
  | plain (text : String)
  | option (flag : Flag) (value : Option String)
  | unknown (text : String)
  | ambiguous (text : String) (flags : List Flag)
  /-- The short form of help, with the letters behind it. -/
  | shortHelp (letters : List Char)
  | terminator
deriving DecidableEq, Repr

def isDigit (c : Char) : Bool :=
  (Text.digitValue? c).isSome

def dropFinalLineFeed (text : List Char) : List Char :=
  if text.getLast? = some '\n' then text.dropLast else text

/-- Digits after a dash, with at most one point, which a digit must follow. One line feed may
stand at the end. -/
def looksNegative (text : List Char) : Bool :=
  match dropFinalLineFeed text with
  | '-' :: rest =>
    match rest.dropWhile isDigit with
    | [] => rest ≠ []
    | '.' :: fraction => fraction ≠ [] && fraction.all isDigit
    | _ => false
  | _ => false

/-- An argument that names no option: a value if it looks like a number or holds a space. -/
def unmatched (text : String) : Argument :=
  if looksNegative text.toList || text.toList.contains ' ' then .plain text else .unknown text

def splitValue (text : String) : String × Option String :=
  let name := String.ofList (text.toList.takeWhile (· ≠ '='))
  match text.toList.dropWhile (· ≠ '=') with
  | [] => (name, none)
  | _ :: value => (name, some (String.ofList value))

def classifyLong (text : String) : Argument :=
  let (name, value) := splitValue text
  match Flag.all.find? (fun flag => flag.long = text) with
  | some flag => .option flag none
  | none =>
    match Flag.all.find? (fun flag => flag.long = name) with
    | some flag => .option flag value
    | none =>
      match Flag.all.filter (fun flag => name.toList.isPrefixOf flag.long.toList) with
      | [] => unmatched text
      | [flag] => .option flag value
      | flags => .ambiguous text flags

def classify (text : String) : Argument :=
  match text.toList with
  | ['-', '-'] => .terminator
  | '-' :: '-' :: _ => classifyLong text
  | ['-', 'h', '='] => .option .help (some "")
  | '-' :: 'h' :: '=' :: letters => .shortHelp letters
  | '-' :: 'h' :: letters => .shortHelp letters
  | ['-'] => .plain text
  | '-' :: _ => unmatched text
  | _ => .plain text

/-- All arguments; after the end of options there are only plain ones. -/
def classifyAll : List String → List (String × Argument)
  | [] => []
  | text :: rest =>
    match classify text with
    | .terminator => (text, .terminator) :: rest.map fun text => (text, .plain text)
    | argument => (text, argument) :: classifyAll rest

def ambiguity? (arguments : List (String × Argument)) : Option String :=
  arguments.findSome? fun argument =>
    match argument.2 with
    | .ambiguous text flags =>
      some ("ambiguous option: " ++ text ++ " could match " ++
        ", ".intercalate (flags.map Flag.long))
    | _ => none

def complaint (flag : Flag) (text : String) : String :=
  "argument " ++ flag.label ++ ": " ++ text

def read (flag : Flag) (text : String) : Except String Value :=
  if flag.choices ≠ [] ∧ text ∉ flag.choices then
    .error (complaint flag ("invalid choice: " ++ Text.quoted text ++ " (choose from " ++
      ", ".intercalate (flag.choices.map Text.quoted) ++ ")"))
  else if flag = .port then
    match Text.integer? text with
    | some port => .ok (.int port)
    | none => .error (complaint flag ("invalid int value: " ++ Text.quoted text))
  else
    .ok (.str text)

def assign (options : Options) (flag : Flag) (value : Value) : Options :=
  match flag with
  | .host => { options with host := value }
  | .port => { options with port := value }
  | .logLevel => { options with logLevel := value }
  | .server => { options with servers := options.servers ++ [value] }
  | .padding => { options with padding := value }
  | .help | .stdio | .tcp | .version => options

/-- The value after an equals sign. Two dashes there are no value, and the option is then given
nothing at all, which is not checked. -/
def readAttached (flag : Flag) (text : String) : Except String Value :=
  if text = "--" then .ok (.list []) else read flag text

/-- What an option without a value does: some end the reading at once. -/
def switch (options : Options) (flag : Flag) : Except Invocation Options :=
  match flag with
  | .help => .error .help
  | .version => .error .version
  | .tcp => .ok { options with tcp := true }
  | _ => .ok options

def ignored (flag : Flag) (value : String) : Invocation :=
  .refused (complaint flag ("ignored explicit argument " ++ Text.quoted value))

/-- The letters behind the short form of help stand for further options, of which help is the
only one. -/
def shortHelp : List Char → Invocation
  | [] => .help
  | 'h' :: letters => shortHelp letters
  | letters => ignored .help (String.ofList letters)

/-- Reads the arguments in order; `leftovers` are those that mean nothing. -/
def run (options : Options) (leftovers : List String) : List (String × Argument) → Invocation
  | [] =>
    if leftovers = [] then .serve options
    else .refused ("unrecognized arguments: " ++ " ".intercalate leftovers)
  | (text, argument) :: rest =>
    match argument with
    | .plain _ | .unknown _ | .ambiguous _ _ | .terminator =>
      run options (leftovers ++ [text]) rest
    | .shortHelp letters => shortHelp letters
    | .option flag (some value) =>
      if flag.takesValue then
        match readAttached flag value with
        | .ok given => run (assign options flag given) leftovers rest
        | .error message => .refused message
      else
        ignored flag value
    | .option flag none =>
      if flag.takesValue then
        match rest with
        | (_, .plain value) :: later =>
          match read flag value with
          | .ok given => run (assign options flag given) leftovers later
          | .error message => .refused message
        | _ => .refused (complaint flag "expected one argument")
      else
        match switch options flag with
        | .ok switched => run switched leftovers rest
        | .error invocation => invocation

def parse (arguments : List String) : Invocation :=
  let classified := classifyAll arguments
  match ambiguity? classified with
  | some message => .refused message
  | none => run {} [] classified

/-- The configuration that a command line asks for. The level of the log is looked up by its name
before anything else. -/
def Options.configure (options : Options) : Config.Change :=
  match options.logLevel with
  | .str _ => Config.standard.configure .null options.servers options.padding
  | other => { config := .standard, fault := some (.notAText other) }

end CommandLine

end LanguageBridge
