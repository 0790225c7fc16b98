import LanguageBridge.Region.Language
import LanguageBridge.Synthetic.Layout
import LanguageBridge.Text.ShellWords

namespace LanguageBridge

/-! Settings of the bridge. They come from the options that the editor sends and from the command
line; what cannot be used is left out with a warning. -/

structure Config where
  servers : Table String (List String)
  names : LanguageNames := .standard
  padding : Padding := .compact
  settings : Table String Value := {}
deriving Repr, Inhabited

namespace Config

def standardServers : Table String (List String) :=
  ⟨[("python", ["pyright-langserver", "--stdio"]),
    ("r", ["R", "--slave", "-e", "languageserver::run()"]),
    ("julia", ["julia", "--startup-file=no", "-e", "using LanguageServer; runserver()"]),
    ("javascript", ["typescript-language-server", "--stdio"]),
    ("typescript", ["typescript-language-server", "--stdio"]),
    ("bash", ["bash-language-server", "start"]),
    ("lua", ["lua-language-server"]),
    ("css", ["vscode-css-language-server", "--stdio"]),
    ("html", ["vscode-html-language-server", "--stdio"]),
    ("rust", ["rust-analyzer"]),
    ("yaml", ["yaml-language-server", "--stdio"])]⟩

def standard : Config :=
  { servers := standardServers }

def commandFor? (config : Config) (language : String) : Option (List String) :=
  config.servers.get? language

/-- Settings that are no map count as none. -/
def settingsFor (config : Config) (language : String) : Value :=
  match config.settings.get? language with
  | some (.map entries) => .map entries
  | _ => .map []

/-- A configuration as far as it was changed, the warnings on the way, and the fault that stopped
it, if any. -/
structure Change where
  config : Config
  warnings : List String := []
  fault : Option Fault := none
deriving Repr, Inhabited

/-- Goes on with another change unless a fault has stopped this one. -/
def Change.andThen (change : Change) (next : Config → Change) : Change :=
  match change.fault with
  | some _ => change
  | none =>
    let later := next change.config
    { later with warnings := change.warnings ++ later.warnings }

def nonEmpty? (words : List String) : Option (List String) :=
  if words = [] then none else some words

def texts? : List Value → Option (List String)
  | [] => some []
  | .str text :: rest => (texts? rest).map (text :: ·)
  | _ :: _ => none

/-- A command is a line to be cut into words, or a list of words; it has at least one. -/
def command? (value : Value) : Except Fault (Option (List String)) :=
  match value with
  | .str line => (Text.shellWords line).map nonEmpty?
  | .list items => .ok ((texts? items).bind nonEmpty?)
  | _ => .ok none

def lowercase (text : String) : String :=
  String.ofList (Text.lowercase text.toList)

def putServer (config : Config) (language : String) (command : List String) : Config :=
  { config with servers := config.servers.put language command }

def applyServer (config : Config) (language : String) (value : Value) : Change :=
  match command? value with
  | .error fault => { config := config, fault := some fault }
  | .ok none =>
    { config := config
      warnings :=
        ["Ignoring invalid server command for '" ++ language ++ "': " ++ value.shown] }
  | .ok (some command) => { config := config.putServer (lowercase language) command }

def applyServers (config : Config) (entries : List (String × Value)) : Change :=
  entries.foldl (fun change entry => change.andThen (applyServer · entry.1 entry.2))
    { config := config }

def applyNames (config : Config) (entries : List (String × Value)) : Config :=
  { config with
    names := entries.foldl
      (fun names entry => names.put (lowercase entry.1) (lowercase entry.2.asText)) config.names }

def setPadding (config : Config) (value : Value) : Change :=
  match value.text?.bind Padding.ofName? with
  | some padding => { config := { config with padding := padding } }
  | none =>
    { config := { config with padding := .compact }
      warnings := ["Unknown padding " ++ value.shown ++ ", using 'compact'"] }

def withMap (options : List (String × Value)) (name : String)
    (step : Config → List (String × Value) → Change) (config : Config) : Change :=
  match options.lookup name with
  | some (.map entries) => step config entries
  | _ => { config := config }

def applyOptions (config : Config) (options : Value) : Change :=
  match options with
  | .map entries =>
    (((withMap entries "servers" applyServers config).andThen
      (withMap entries "languageAliases" fun config names =>
        { config := config.applyNames names })).andThen
      fun config =>
        match entries.lookup "padding" with
        | some value => config.setPadding value
        | none => { config := config }).andThen
      (withMap entries "serverSettings" fun config settings =>
        { config := { config with settings := config.settings.putAll ⟨settings⟩ } })
  | _ => { config := config }

def applyEntry (config : Config) (entry : String) : Change :=
  let language := entry.toList.takeWhile (· ≠ '=')
  let command := (entry.toList.dropWhile (· ≠ '=')).drop 1
  match command? (.str (String.ofList command)) with
  | .error fault => { config := config, fault := some fault }
  | .ok parsed =>
    match parsed with
    | some words =>
      if language = [] ∨ '=' ∉ entry.toList then
        { config := config
          warnings := ["Ignoring invalid --server value: " ++ Text.quoted entry] }
      else
        { config := config.putServer
            (String.ofList (Text.lowercase (Text.trim language))) words }
    | none =>
      { config := config
        warnings := ["Ignoring invalid --server value: " ++ Text.quoted entry] }

/-- Takes over entries of the command line in order. Only a text can be taken apart. -/
def applyEntries (config : Config) (entries : List Value) : Change :=
  entries.foldl
    (fun change entry => change.andThen fun config =>
      match entry with
      | .str text => config.applyEntry text
      | other => { config := config, fault := some (.missingPart other "parts") })
    { config := config }

/-- The editor's options first, then what the command line says, which therefore wins. -/
def configure (config : Config) (options : Value) (entries : List Value) (padding : Value) :
    Change :=
  ((config.applyOptions options).andThen (applyEntries · entries)).andThen fun config =>
    if padding.isNull then { config := config } else config.setPadding padding

end Config

end LanguageBridge
