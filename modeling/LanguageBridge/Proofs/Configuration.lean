import Mathlib.Logic.Basic
import Mathlib.Tactic.Simproc.ExistsAndEq
import LanguageBridge.Service.Basic

namespace LanguageBridge

/-! Where the settings of a service come from. The command line comes before the options of the
editor, and these come before what is built in. Where one source tells something twice, the last
word counts. -/

/-! ### Command lines that can be cut into words -/

namespace Text

/-- Every quotation is closed, and no escape is left open at the end. -/
def Balanced (line : String) : Prop :=
  shellWords line ≠ .error .unclosedQuotation ∧ shellWords line ≠ .error .danglingEscape

theorem Balanced.of_words {line : String} (words : List String)
    (read : shellWords line = .ok words) : Balanced line := by
  simp [Balanced, read]

/-- Nothing else can be wrong with a command line. -/
theorem shellWordsFrom_fault {state : ShellState} {word text : List Char} {fault : Fault}
    (failed : shellWordsFrom state word text = .error fault) :
    fault = .unclosedQuotation ∨ fault = .danglingEscape := by
  fun_induction shellWordsFrom state word text with
  | case1 | case2 => cases failed
  | case3 => exact Or.inl (Except.error.inj failed).symm
  | case4 => exact Or.inr (Except.error.inj failed).symm
  | case9 word c rest blank induction =>
    cases read : shellWordsFrom .between [] rest with
    | ok words => simp [read, Except.map] at failed
    | error other => exact induction (read.trans (by simpa [read, Except.map] using failed))
  | _ => solve_by_elim

theorem Balanced.words {line : String} (balanced : Balanced line) :
    ∃ words, shellWords line = .ok words := by
  cases read : shellWordsFrom .between [] line.toList with
  | ok words => exact ⟨_, by rw [shellWords, read]; rfl⟩
  | error fault =>
    have failed : shellWords line = .error fault := by rw [shellWords, read]; rfl
    rcases shellWordsFrom_fault read with rfl | rfl
    · exact absurd failed balanced.1
    · exact absurd failed balanced.2

end Text

/-- What a setting for the padding comes to: one that is not known counts as compact. -/
def Padding.Meant (padding : Padding) (setting : Option Value) : Prop :=
  setting = some (.str padding.name) ∨
    padding = .compact ∧ ∀ known : Padding, setting ≠ some (.str known.name)

namespace Config

/-! ### What the sources say -/

/-- Data that names a command of at least one word. -/
def Commands (value : Value) (command : List String) : Prop :=
  command ≠ [] ∧
    ((∃ line, value = .str line ∧ Text.shellWords line = .ok command) ∨
      value = .list (command.map .str))

def OptionTells (option : String × Value) (language : String) (command : List String) : Prop :=
  language = lowercase option.1 ∧ Commands option.2 command

/-- An entry is cut at its first equals sign. -/
def EntryTells (entry language : String) (command : List String) : Prop :=
  ∃ name line, entry.toList = name ++ '=' :: line ∧ '=' ∉ name ∧ name ≠ [] ∧
    language = String.ofList (Text.lowercase (Text.trim name)) ∧
    Commands (.str (String.ofList line)) command

section Sources

variable {α : Type} (tells : α → String → List String → Prop)

def Unsaid (items : List α) (language : String) : Prop :=
  ∀ item ∈ items, ∀ command, ¬ tells item language command

/-- The last of the items that tell anything about a language tells this. -/
def SaidLast (items : List α) (language : String) (command : List String) : Prop :=
  ∃ earlier item later, items = earlier ++ item :: later ∧ tells item language command ∧
    Unsaid tells later language

/-- The items go before what was there. -/
def Overrides (items : List α) (before : String → List String → Prop) (language : String)
    (command : List String) : Prop :=
  SaidLast tells items language command ∨ Unsaid tells items language ∧ before language command

end Sources

section Folding

variable {α : Type} {tells : α → String → List String → Prop}

theorem unsaid_nil (language : String) : Unsaid tells [] language :=
  fun _ absent => absurd absent List.not_mem_nil

theorem unsaid_cons {item : α} {items : List α} {language : String} :
    Unsaid tells (item :: items) language ↔
      (∀ command, ¬ tells item language command) ∧ Unsaid tells items language :=
  List.forall_mem_cons

theorem not_saidLast_nil (language : String) (command : List String) :
    ¬ SaidLast tells [] language command := by
  rintro ⟨earlier, item, later, parts, -, -⟩
  simp at parts

theorem saidLast_cons {item : α} {items : List α} {language : String} {command : List String} :
    SaidLast tells (item :: items) language command ↔
      SaidLast tells items language command ∨
        Unsaid tells items language ∧ tells item language command := by
  constructor
  · rintro ⟨earlier, chosen, later, parts, said, silent⟩
    cases earlier with
    | nil =>
      obtain ⟨rfl, rfl⟩ := List.cons.inj parts
      exact Or.inr ⟨silent, said⟩
    | cons first earlier =>
      obtain ⟨rfl, rest⟩ := List.cons.inj parts
      exact Or.inl ⟨earlier, chosen, later, rest, said, silent⟩
  · rintro (⟨earlier, chosen, later, rfl, said, silent⟩ | ⟨silent, said⟩)
    · exact ⟨item :: earlier, chosen, later, rfl, said, silent⟩
    · exact ⟨[], item, items, rfl, said, silent⟩

theorem overrides_nil (before : String → List String → Prop) :
    Overrides tells [] before = before := by
  funext language command
  simp [Overrides, not_saidLast_nil, unsaid_nil]

theorem overrides_single (item : α) (before : String → List String → Prop) (language : String)
    (command : List String) :
    Overrides tells [item] before language command =
      (tells item language command ∨
        (∀ other, ¬ tells item language other) ∧ before language command) := by
  simp [Overrides, saidLast_cons, unsaid_cons, not_saidLast_nil, unsaid_nil]

/-- Taking over one item and then the rest is taking over all of them. -/
theorem overrides_cons (item : α) (items : List α) (before : String → List String → Prop) :
    Overrides tells (item :: items) before =
      Overrides tells items (Overrides tells [item] before) := by
  funext language command
  simp only [Overrides, saidLast_cons, unsaid_cons, not_saidLast_nil, unsaid_nil]
  grind

end Folding

/-! ### Taking over one item after the other -/

def Holds (servers : Table String (List String)) (language : String) (command : List String) :
    Prop :=
  servers.get? language = some command

def Filled (servers : Table String (List String)) : Prop :=
  ∀ command ∈ servers.values, command ≠ []

/-- A change takes over items and leaves the padding. -/
structure Takes {α : Type} (tells : α → String → List String → Prop) (items : List α)
    (config : Config) (change : Change) : Prop where
  succeeds : change.fault = none
  padding : change.config.padding = config.padding
  servers : Holds change.config.servers = Overrides tells items (Holds config.servers)
  filled : Filled config.servers → Filled change.config.servers

theorem filled_put {servers : Table String (List String)} (filled : Filled servers)
    (language : String) {command : List String} (some_word : command ≠ []) :
    Filled (servers.put language command) := by
  intro stored member
  obtain ⟨entry, known, rfl⟩ := List.mem_map.mp member
  rcases Table.mem_entries_of_put known with rfl | old
  · exact some_word
  · exact filled _ (List.mem_map_of_mem old)

section Steps

variable {α : Type} {tells : α → String → List String → Prop}

theorem Takes.of_put {item : α} {config : Config} {language : String} {command : List String}
    (said : ∀ other spoken, tells item other spoken ↔ other = language ∧ spoken = command)
    (some_word : command ≠ []) :
    Takes tells [item] config { config := config.putServer language command } where
  succeeds := rfl
  padding := rfl
  servers := by
    funext other spoken
    rw [overrides_single]
    simp only [Holds, putServer, Table.get?_put, said]
    by_cases same : other = language
    · simp [same, eq_comm]
    · simp [same]
  filled filled := filled_put filled language some_word

theorem Takes.of_unsaid {item : α} {config : Config} {warnings : List String}
    (silent : ∀ language command, ¬ tells item language command) :
    Takes tells [item] config { config := config, warnings := warnings } where
  succeeds := rfl
  padding := rfl
  servers := by
    funext language command
    simp [overrides_single, silent]
  filled := id

theorem config_andThen {change : Change} (ok : change.fault = none) (next : Config → Change) :
    (change.andThen next).config = (next change.config).config := by
  simp [Change.andThen, ok]

theorem fault_andThen {change : Change} (ok : change.fault = none) (next : Config → Change) :
    (change.andThen next).fault = (next change.config).fault := by
  simp [Change.andThen, ok]

/-- What each item does alone, all of them do one after the other. -/
theorem takes_foldl (step : α → Config → Change) {items : List α}
    (each : ∀ item ∈ items, ∀ config, Takes tells [item] config (step item config))
    (start : Change) (ok : start.fault = none) :
    Takes tells items start.config
      (items.foldl (fun change item => change.andThen (step item)) start) := by
  induction items generalizing start with
  | nil => exact ⟨ok, rfl, (overrides_nil _).symm, id⟩
  | cons item items induction =>
    have first := each item List.mem_cons_self start.config
    have rest := induction (fun other member => each other (List.mem_cons_of_mem _ member))
      (start.andThen (step item)) ((fault_andThen ok _).trans first.succeeds)
    rw [config_andThen ok (step item)] at rest
    exact {
      succeeds := rest.succeeds
      padding := rest.padding.trans first.padding
      servers := by rw [List.foldl_cons, rest.servers, first.servers, ← overrides_cons]
      filled := fun filled => rest.filled (first.filled filled) }

end Steps

/-! ### One option and one entry -/

theorem texts?_eq_some_iff {items : List Value} {words : List String} :
    texts? items = some words ↔ items = words.map .str := by
  fun_induction texts? items generalizing words with
  | case1 => simp [eq_comm]
  | case2 text rest induction =>
    cases words with
    | nil => simp
    | cons word words => simp [induction, and_comm]
  | case3 first rest other =>
    cases words with
    | nil => simp
    | cons word words =>
      simp only [reduceCtorEq, List.map_cons, List.cons.injEq, false_iff, not_and]
      intro text
      exact absurd text (other word)

theorem nonEmpty?_eq_some_iff {words command : List String} :
    nonEmpty? words = some command ↔ command ≠ [] ∧ words = command := by
  unfold nonEmpty?
  split <;> grind

theorem command?_eq_some_iff {value : Value} {command : List String} :
    command? value = .ok (some command) ↔ Commands value command := by
  cases value with
  | str line =>
    cases read : Text.shellWords line <;>
      simp [command?, Commands, Except.map, read, nonEmpty?_eq_some_iff]
  | list items =>
    simp only [command?, Commands, Except.ok.injEq, Option.bind_eq_some_iff,
      texts?_eq_some_iff, nonEmpty?_eq_some_iff]
    simp [and_comm]
  | _ => simp [command?, Commands]

theorem command?_ok {value : Value} (balanced : ∀ line, value = .str line → Text.Balanced line) :
    ∃ parsed, command? value = .ok parsed := by
  cases value with
  | str line =>
    obtain ⟨words, read⟩ := (balanced line rfl).words
    exact ⟨nonEmpty? words, by rw [command?, read]; rfl⟩
  | _ => exact ⟨_, rfl⟩

theorem commands_iff_of_some {value : Value} {words : List String}
    (parsed : command? value = .ok (some words)) (command : List String) :
    Commands value command ↔ command = words := by
  rw [← command?_eq_some_iff, parsed]
  simp [eq_comm]

theorem not_commands_of_none {value : Value} (parsed : command? value = .ok none)
    (command : List String) : ¬ Commands value command := by
  rw [← command?_eq_some_iff, parsed]
  simp

theorem applyServer_takes {option : String × Value}
    (balanced : ∀ line, option.2 = .str line → Text.Balanced line) (config : Config) :
    Takes OptionTells [option] config (config.applyServer option.1 option.2) := by
  obtain ⟨parsed, read⟩ := command?_ok balanced
  unfold applyServer
  rw [read]
  cases parsed with
  | none => exact .of_unsaid fun language command said => not_commands_of_none read command said.2
  | some words =>
    refine .of_put (fun language command => ?_) (command?_eq_some_iff.mp read).1
    rw [OptionTells, commands_iff_of_some read]

/-- The part of an entry after its first equals sign. -/
def entryCommand (entry : String) : String :=
  String.ofList ((entry.toList.dropWhile (· ≠ '=')).drop 1)

theorem cut_parts {name : List Char} (plain : '=' ∉ name) (line : List Char) :
    (name ++ '=' :: line).takeWhile (· ≠ '=') = name ∧
      ((name ++ '=' :: line).dropWhile (· ≠ '=')).drop 1 = line := by
  have passed : ∀ c ∈ name, decide (c ≠ '=') = true :=
    fun c member => decide_eq_true fun same => plain (same ▸ member)
  rw [List.takeWhile_append_of_pos passed, List.dropWhile_append_of_pos passed]
  simp

theorem entryTells_iff {entry language : String} {command : List String} :
    EntryTells entry language command ↔
      '=' ∈ entry.toList ∧ entry.toList.takeWhile (· ≠ '=') ≠ [] ∧
        language =
          String.ofList (Text.lowercase (Text.trim (entry.toList.takeWhile (· ≠ '=')))) ∧
        Commands (.str (entryCommand entry)) command := by
  constructor
  · rintro ⟨name, line, parts, plain, named, rfl, said⟩
    obtain ⟨front, back⟩ := cut_parts plain line
    rw [entryCommand, parts, front, back]
    exact ⟨List.mem_append_right _ List.mem_cons_self, named, rfl, said⟩
  · rintro ⟨member, named, rfl, said⟩
    obtain ⟨name, line, parts, plain⟩ := List.eq_append_cons_of_mem member
    obtain ⟨front, back⟩ := cut_parts plain line
    rw [parts, front] at named ⊢
    rw [entryCommand, parts, back] at said
    exact ⟨name, line, parts, plain, named, rfl, said⟩

theorem not_entryTells_of_name {entry language : String}
    (other : language ≠
      String.ofList (Text.lowercase (Text.trim (entry.toList.takeWhile (· ≠ '=')))))
    (command : List String) : ¬ EntryTells entry language command :=
  fun said => other (entryTells_iff.mp said).2.2.1

theorem applyEntry_takes {entry : String} (balanced : Text.Balanced (entryCommand entry))
    (config : Config) : Takes EntryTells [entry] config (config.applyEntry entry) := by
  obtain ⟨parsed, read⟩ : ∃ parsed, command? (.str (entryCommand entry)) = .ok parsed :=
    command?_ok fun line same => Value.str.inj same ▸ balanced
  have given : command? (.str (String.ofList ((entry.toList.dropWhile (· ≠ '=')).drop 1))) =
    .ok parsed := read
  simp only [applyEntry, given]
  cases parsed with
  | none =>
    refine .of_unsaid fun language command said => ?_
    exact not_commands_of_none read command (entryTells_iff.mp said).2.2.2
  | some words =>
    dsimp only
    split
    case isTrue invalid =>
      refine .of_unsaid fun language command said => ?_
      obtain ⟨member, named, -, -⟩ := entryTells_iff.mp said
      exact invalid.elim named (· member)
    case isFalse valid =>
      obtain ⟨named, member⟩ := not_or.mp valid
      refine .of_put (fun language command => ?_) (command?_eq_some_iff.mp read).1
      rw [entryTells_iff, commands_iff_of_some read]
      simp only [not_not.mp member, named, ne_eq, not_false_eq_true, true_and]

/-! ### All of the sources -/

/-- The servers among the options of the editor. -/
def serverOptions (options : Value) : List (String × Value) :=
  match options.lookUp? "servers" with
  | some (.map servers) => servers
  | _ => []

theorem applyServers_takes {servers : List (String × Value)}
    (balanced : ∀ option ∈ servers, ∀ line, option.2 = .str line → Text.Balanced line)
    (config : Config) : Takes OptionTells servers config (config.applyServers servers) :=
  takes_foldl (fun option config => config.applyServer option.1 option.2)
    (fun option member => applyServer_takes (balanced option member)) { config := config } rfl

theorem applyEntries_takes {entries : List String}
    (balanced : ∀ entry ∈ entries, Text.Balanced (entryCommand entry)) (config : Config) :
    Takes EntryTells entries config (config.applyEntries (entries.map .str)) := by
  rw [applyEntries, List.foldl_map]
  exact takes_foldl (fun entry config => config.applyEntry entry)
    (fun entry member => applyEntry_takes (balanced entry member)) { config := config } rfl

theorem setPadding_meant (config : Config) (setting : Value) :
    (config.setPadding setting).config.padding.Meant (some setting) := by
  cases setting with
  | str name =>
    simp only [setPadding, Value.text?, Option.bind_some]
    cases found : Padding.ofName? name with
    | some padding =>
      have named : padding.name = name := by simpa using List.find?_some found
      exact Or.inl (by rw [named])
    | none =>
      refine Or.inr ⟨rfl, fun known same => ?_⟩
      have unnamed := List.find?_eq_none.mp found known (by cases known <;> decide)
      rw [Option.some.injEq, Value.str.injEq] at same
      simp [same] at unnamed
  | _ => exact Or.inr ⟨rfl, by simp⟩

theorem setPadding_rest (config : Config) (setting : Value) :
    (config.setPadding setting).fault = none ∧
      (config.setPadding setting).config.servers = config.servers := by
  unfold setPadding
  cases setting.text?.bind Padding.ofName? <;> exact ⟨rfl, rfl⟩

theorem withMap_servers (options : List (String × Value)) (config : Config) :
    withMap options "servers" applyServers config =
      config.applyServers (serverOptions (.map options)) := by
  simp only [withMap, serverOptions, Value.lookUp?]
  cases options.lookup "servers" with
  | none => rfl
  | some servers => cases servers <;> rfl

/-- A change has gone well so far, with these servers and this setting for the padding. -/
structure Reaches (servers : Table String (List String)) (setting : Option Value)
    (change : Change) : Prop where
  succeeds : change.fault = none
  servers : change.config.servers = servers
  padding : change.config.padding.Meant setting

section Stages

variable {servers : Table String (List String)} {setting : Option Value} {change : Change}

theorem Reaches.andThen (reaches : Reaches servers setting change) {next : Config → Change}
    {later : Option Value}
    (goes : ∀ config : Config, config.padding.Meant setting →
      Reaches config.servers later (next config)) :
    Reaches servers later (change.andThen next) := by
  have last := goes change.config reaches.padding
  refine ⟨(fault_andThen reaches.succeeds next).trans last.succeeds, ?_, ?_⟩
  · rw [config_andThen reaches.succeeds, last.servers, reaches.servers]
  · rw [config_andThen reaches.succeeds]
    exact last.padding

theorem Reaches.setPadding (config : Config) (setting : Value) :
    Reaches config.servers (some setting) (config.setPadding setting) :=
  ⟨(setPadding_rest config setting).1, (setPadding_rest config setting).2,
    setPadding_meant config setting⟩

theorem Reaches.andThen_withMap (reaches : Reaches servers setting change)
    {step : Config → List (String × Value) → Change}
    (keeps : ∀ (config : Config) entries, config.padding.Meant setting →
      Reaches config.servers setting (step config entries))
    (options : List (String × Value)) (name : String) :
    Reaches servers setting (change.andThen (withMap options name step)) := by
  refine reaches.andThen fun config meant => ?_
  unfold withMap
  split
  · exact keeps config _ meant
  · exact ⟨rfl, rfl, meant⟩

theorem Reaches.andThen_takes (reaches : Reaches servers setting change) {α : Type}
    {tells : α → String → List String → Prop} {items : List α} {next : Config → Change}
    (takes : Takes tells items change.config (next change.config)) :
    Reaches (next change.config).config.servers setting (change.andThen next) where
  succeeds := (fault_andThen reaches.succeeds next).trans takes.succeeds
  servers := by rw [config_andThen reaches.succeeds]
  padding := by
    rw [config_andThen reaches.succeeds, takes.padding]
    exact reaches.padding

end Stages

/-- Of the other options only the padding matters here. -/
theorem applyOptions_reaches (config : Config) (options : Value)
    (taken : Reaches (config.applyServers (serverOptions options)).config.servers none
      (config.applyServers (serverOptions options))) :
    Reaches (config.applyServers (serverOptions options)).config.servers
      (options.lookUp? "padding") (config.applyOptions options) := by
  cases options with
  | map entries =>
    rw [applyOptions, withMap_servers]
    refine .andThen_withMap (.andThen (.andThen_withMap taken ?names _ _) ?padding) ?settings _ _
    case names => exact fun config names meant => ⟨rfl, rfl, meant⟩
    case settings => exact fun config settings meant => ⟨rfl, rfl, meant⟩
    case padding =>
      intro config meant
      rw [Value.lookUp?]
      cases entries.lookup "padding" with
      | none => exact ⟨rfl, rfl, meant⟩
      | some setting => exact .setPadding config setting
  | _ => exact taken

/-- The options come first and then the entries, each over what was there; the padding of the
command line comes last. -/
theorem configure_takes (config : Config) {options : Value} {entries : List String}
    (compact : config.padding = .compact)
    (optionsBalanced : ∀ option ∈ serverOptions options, ∀ line, option.2 = .str line →
      Text.Balanced line)
    (entriesBalanced : ∀ entry ∈ entries, Text.Balanced (entryCommand entry))
    (padding : Option String) :
    ∃ servers,
      Reaches servers ((padding.map .str).or (options.lookUp? "padding"))
        (config.configure options (entries.map .str) ((padding.map .str).getD .null)) ∧
      Holds servers = Overrides EntryTells entries
        (Overrides OptionTells (serverOptions options) (Holds config.servers)) ∧
      (Filled config.servers → Filled servers) := by
  have first := applyServers_takes optionsBalanced config
  have opted := applyOptions_reaches config options
    ⟨first.succeeds, rfl, Or.inr ⟨first.padding.trans compact, by simp⟩⟩
  have second := applyEntries_takes entriesBalanced (config.applyOptions options).config
  have both := second.servers
  rw [opted.servers, first.servers] at both
  refine ⟨_, (opted.andThen_takes second).andThen fun config meant => ?_, both, fun filled => ?_⟩
  · cases padding with
    | none => exact ⟨rfl, rfl, meant⟩
    | some name => exact .setPadding config (.str name)
  · exact second.filled (opted.servers ▸ first.filled filled)

theorem filled_standardServers : Filled standardServers := by
  unfold Filled
  decide

end Config

namespace Service

open Config

theorem configure_ok (service : Service) {options : Value} {change : Change}
    (made : service.config.configure options service.entries service.padding = change)
    (ok : change.fault = none) :
    ∃ after, service.configure options = (after, .ok ()) ∧ after.config = change.config ∧
      after.bridge.store.padding = change.config.padding := by
  unfold configure
  simp only [made, ok]
  refine ⟨_, rfl, rfl, ?_⟩
  simp [bridge, run, active, Config.newBridge]

/-- What the command line tells goes before the options, and these before what is built in. -/
theorem configure_prefers_command_line (options : Value) (entries : List String)
    (padding : Option String)
    (optionsBalanced : ∀ option ∈ serverOptions options, ∀ line, option.2 = .str line →
      Text.Balanced line)
    (entriesBalanced : ∀ entry ∈ entries, Text.Balanced (entryCommand entry)) :
    ∃ service,
      (unconfigured (entries.map .str) ((padding.map .str).getD .null)).configure options =
        (service, .ok ()) ∧
      (∀ language command, service.config.commandFor? language = some command ↔
        Overrides EntryTells entries
          (Overrides OptionTells (serverOptions options) (Holds standardServers))
          language command) ∧
      (∀ command ∈ service.config.servers.values, command ≠ []) ∧
      service.config.padding.Meant ((padding.map .str).or (options.lookUp? "padding")) ∧
      service.bridge.store.padding = service.config.padding := by
  obtain ⟨servers, reaches, holds, filled⟩ :=
    configure_takes .standard rfl optionsBalanced entriesBalanced padding
  generalize made : Config.standard.configure options _ _ = change at reaches
  obtain ⟨service, configured, config, stored⟩ :=
    (unconfigured (entries.map .str) ((padding.map Value.str).getD .null)).configure_ok made
      reaches.succeeds
  rw [← reaches.servers, ← config] at holds filled
  refine ⟨service, configured, ?_, filled filled_standardServers, ?_, stored.trans (by rw [config])⟩
  · exact fun language command => Iff.of_eq (congrFun₂ holds language command)
  · rw [config]
    exact reaches.padding

/-- Two servers under one name, and something that is no command after each. -/
def clashingOptions : Value :=
  .map
    [("servers", .map [("Python", .str "a"), ("R", .str "'my r' --slave"), ("r", .list [])]),
     ("padding", .str "preserve")]

def clashingEntries : List String :=
  ["Python=pylsp -v", " PYTHON =other --x", "python="]

theorem serverOptions_clashing : serverOptions clashingOptions =
    [("Python", .str "a"), ("R", .str "'my r' --slave"), ("r", .list [])] := by
  rfl

theorem unsaid_clashingEntries {language : String} (other : language ≠ "python") :
    Unsaid EntryTells clashingEntries language := by
  have names : ∀ entry ∈ clashingEntries,
      String.ofList (Text.lowercase (Text.trim (entry.toList.takeWhile (· ≠ '=')))) = "python" := by
    simp only [clashingEntries, List.forall_mem_cons]
    exact ⟨rfl, rfl, rfl, by simp⟩
  exact fun entry member => not_entryTells_of_name (names entry member ▸ other)

theorem configure_prefers_command_line_of_clashes :
    ∃ service,
      (unconfigured (clashingEntries.map .str) .null).configure clashingOptions =
        (service, .ok ()) ∧
      service.config.commandFor? "python" = some ["other", "--x"] ∧
      service.config.commandFor? "r" = some ["my r", "--slave"] ∧
      service.config.commandFor? "rust" = some ["rust-analyzer"] ∧
      service.bridge.store.padding = .preserve := by
  obtain ⟨service, configured, holds, -, meant, stored⟩ :=
    configure_prefers_command_line clashingOptions clashingEntries none
      (by
        rw [serverOptions_clashing]
        simp only [List.forall_mem_cons, Value.str.injEq, forall_eq', reduceCtorEq, false_implies]
        exact ⟨Text.Balanced.of_words ["a"] rfl,
          Text.Balanced.of_words ["my r", "--slave"] rfl, fun _ => trivial, by simp⟩)
      (by
        simp only [clashingEntries, List.forall_mem_cons]
        exact ⟨Text.Balanced.of_words ["pylsp", "-v"] rfl,
          Text.Balanced.of_words ["other", "--x"] rfl,
          Text.Balanced.of_words [] rfl, by simp⟩)
  refine ⟨service, configured, (holds _ _).mpr ?python, (holds _ _).mpr ?r, (holds _ _).mpr ?rust,
    ?padding⟩
  case python =>
    refine Or.inl ⟨["Python=pylsp -v"], " PYTHON =other --x", ["python="], rfl, ?_, ?_⟩
    · exact ⟨" PYTHON ".toList, "other --x".toList, rfl, by decide, by decide, rfl, by decide,
        Or.inl ⟨_, rfl, rfl⟩⟩
    · refine unsaid_cons.mpr ⟨fun command said => ?_, unsaid_nil _⟩
      exact not_commands_of_none rfl command (entryTells_iff.mp said).2.2.2
  case r =>
    refine Or.inr ⟨unsaid_clashingEntries (by decide), Or.inl ⟨[("Python", .str "a")],
      ("R", .str "'my r' --slave"), [("r", .list [])], serverOptions_clashing, ?_, ?_⟩⟩
    · exact ⟨rfl, by decide, Or.inl ⟨_, rfl, rfl⟩⟩
    · refine unsaid_cons.mpr ⟨fun command said => ?_, unsaid_nil _⟩
      exact not_commands_of_none rfl command said.2
  case rust =>
    refine Or.inr ⟨unsaid_clashingEntries (by decide), Or.inr ⟨?_, rfl⟩⟩
    intro option member command said
    have names : (serverOptions clashingOptions).map (lowercase ·.1) = ["python", "r", "r"] := by
      rfl
    have listed : "rust" ∈ ["python", "r", "r"] := names ▸ said.1 ▸ List.mem_map_of_mem member
    exact absurd listed (by decide)
  case padding =>
    have given : clashingOptions.lookUp? "padding" = some (.str "preserve") := rfl
    rw [stored]
    rcases meant with named | ⟨-, unknown⟩
    · generalize service.config.padding = padding at named
      cases padding
      · exact absurd (given.symm.trans named) (by simp [Padding.name])
      · rfl
    · exact absurd given (unknown .preserve)

end Service

end LanguageBridge
