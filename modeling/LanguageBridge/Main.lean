import LanguageBridge.CommandLine
import LanguageBridge.Service.Command

namespace LanguageBridge

/-! The program: it reads its command line, sets up a service, and says so. -/

def CommandLine.shows (least : Value) (level : String) : Bool :=
  Flag.logLevels.idxOf least.asText ≤ Flag.logLevels.idxOf level

def CommandLine.Options.announcement (options : Options) : String :=
  if options.tcp then
    "Starting " ++ bridgeName ++ " in TCP mode on " ++ options.host.asText ++ ":" ++
      options.port.asText
  else
    "Starting " ++ bridgeName ++ " in stdio mode"

def CommandLine.usage : String :=
  "usage: polyglot-lsp [-h] [--stdio] [--tcp] [--host HOST] [--port PORT]\n" ++
  "                    [--log-level \x7bDEBUG,INFO,WARNING,ERROR\x7d] [--version]\n" ++
  "                    [--server LANG=COMMAND] [--padding \x7bcompact,preserve\x7d]"

def CommandLine.Options.service (options : Options) : Service × Except Fault Unit :=
  (Service.unconfigured options.servers options.padding).configure .null

def warnings (effects : List Effect) : List String :=
  effects.filterMap fun
    | .logged .warning text => some text
    | _ => none

def serve (options : CommandLine.Options) : IO UInt32 := do
  let (service, outcome) := options.service
  if CommandLine.shows options.logLevel "WARNING" then
    for text in warnings service.wire.effects do
      IO.eprintln ("WARNING - " ++ text)
  match outcome with
  | .error fault =>
    IO.eprintln fault.message
    return 1
  | .ok () =>
    if CommandLine.shows options.logLevel "INFO" then
      IO.eprintln ("INFO - " ++ options.announcement)
    return 0

def runProgram (arguments : List String) : IO UInt32 :=
  match CommandLine.parse arguments with
  | .serve options => serve options
  | .version => do
      IO.println versionLine
      return 0
  | .help => do
      IO.println CommandLine.usage
      return 0
  | .refused message => do
      IO.eprintln CommandLine.usage
      IO.eprintln (bridgeName ++ ": error: " ++ message)
      return 2

end LanguageBridge

def main (arguments : List String) : IO UInt32 :=
  LanguageBridge.runProgram arguments
