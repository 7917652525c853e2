/-
CampusQuery/Command/Arguments.lean

What the arguments of the program ask for.

The first argument names a command, and options follow it: `--name value` or
`--name=value`.  An option's value is settled when the next option begins or the
arguments end, so an unknown argument is reported before a fault in the option just
before it.
-/

namespace CampusQuery

/-- Why the arguments are no command. -/
inductive UsageError where
  | help
  | version
  | commandMissing
  | unknownCommand
  | unknownArgument
  | optionMissing
  | valueMissing
  | valueUnwanted
  | givenTwice
deriving DecidableEq

/-- Asking for help is no failure. -/
def UsageError.exitCode : UsageError → Nat
  | .help | .version => 0
  | _ => 2

/-- An option that takes a value. -/
inductive CommandOption where
  | config
  | id
  | kind
  | file
deriving DecidableEq

namespace CommandOption

/-- The name of an option. -/
def name : CommandOption → String
  | .config => "config"
  | .id => "id"
  | .kind => "kind"
  | .file => "file"

/-- The value is a path, which may not be empty. -/
def isPath : CommandOption → Bool
  | .config | .file => true
  | .id | .kind => false

end CommandOption

/-- The name of a command. -/
inductive Verb where
  | serve
  | query
  | add
  | remove
  | list
deriving DecidableEq

namespace Verb

/-- All commands. -/
def all : List Verb := [.serve, .query, .add, .remove, .list]

/-- The name of a command. -/
def name : Verb → String
  | .serve => "serve"
  | .query => "query"
  | .add => "add"
  | .remove => "remove"
  | .list => "list"

/-- The command with a name. -/
def ofName? (s : String) : Option Verb := all.find? (·.name == s)

/-- The options of a command. -/
def options : Verb → List CommandOption
  | .serve | .query | .list => [.config]
  | .add => [.config, .id, .kind, .file]
  | .remove => [.config, .id]

/-- The option with a name. -/
def option? (v : Verb) (s : String) : Option CommandOption := v.options.find? (·.name == s)

end Verb

/-- A command with its options. -/
inductive Command where
  | serve (config : String)
  | query (config : String)
  | add (config id kind file : String)
  | remove (config id : String)
  | list (config : String)
deriving DecidableEq

/-! ### Words -/

/-- The form of an argument. -/
inductive Word where
  /-- From here on all arguments are plain. -/
  | separator
  | long (name : String) (value : Option String)
  | short (flag : Char)
  | plain (text : String)
deriving DecidableEq

/-- The form of an argument. -/
def Word.ofText (s : String) : Word :=
  match s.toList with
  | ['-', '-'] => .separator
  | '-' :: '-' :: cs =>
    let name := String.ofList (cs.takeWhile (· != '='))
    match cs.dropWhile (· != '=') with
    | _ :: value => .long name (some (String.ofList value))
    | [] => .long name none
  | '-' :: flag :: _ => .short flag
  | _ => .plain s

/-! ### Options -/

/-- An option whose value is not settled yet. -/
inductive PendingOption where
  | none
  | awaiting (o : CommandOption)
  | holding (o : CommandOption) (value : String)
deriving DecidableEq

/-- The options gathered so far. -/
structure GatheredOptions where
  values : List (CommandOption × String)
  pending : PendingOption
deriving DecidableEq

namespace GatheredOptions

/-- Nothing gathered. -/
def empty : GatheredOptions := ⟨[], .none⟩

/-- Takes the value of an option. -/
def store (g : GatheredOptions) (o : CommandOption) (value : String) :
    Except UsageError GatheredOptions :=
  if g.values.any (·.1 == o) then .error .givenTwice
  else if o.isPath && value.isEmpty then .error .valueMissing
  else .ok { g with values := (o, value) :: g.values }

/-- Settles the last option. -/
def settle (g : GatheredOptions) : Except UsageError GatheredOptions :=
  match g.pending with
  | .none => .ok g
  | .awaiting _ => .error .valueMissing
  | .holding o value => store { g with pending := .none } o value

/-- The value of an option. -/
def value? (g : GatheredOptions) (o : CommandOption) : Option String := g.values.lookup o

/-- The value of an option that must be given. -/
def required (g : GatheredOptions) (o : CommandOption) : Except UsageError String :=
  match g.value? o with
  | some v => .ok v
  | none => .error .optionMissing

/-- The path of the configuration. -/
def config (g : GatheredOptions) : String := (g.value? .config).getD "./campusdb.json"

end GatheredOptions

namespace Verb

/-- Gathers the options of a command. -/
def gather (v : Verb) : List String → GatheredOptions → Except UsageError GatheredOptions
  | [], g => g.settle
  | word :: rest, g =>
    match Word.ofText word with
    | .separator => if rest.isEmpty then g.settle else .error .unknownArgument
    | .long name value =>
      match v.option? name, value with
      | some o, some value => do
        let g ← g.settle
        gather v rest (← g.store o value)
      | some o, none => do
        let g ← g.settle
        gather v rest { g with pending := .awaiting o }
      | none, some _ => .error (if name = "help" then .valueUnwanted else .unknownArgument)
      | none, none =>
        if name = "help" then do
          let _ ← g.settle
          .error .help
        else .error .unknownArgument
    | .short flag =>
      if flag = 'h' then do
        let _ ← g.settle
        .error .help
      else .error .unknownArgument
    | .plain text =>
      match g.pending with
      | .awaiting o => gather v rest { g with pending := .holding o text }
      | _ => .error .unknownArgument

/-- The command with the options that follow its name. -/
def command (v : Verb) (words : List String) : Except UsageError Command := do
  let g ← v.gather words .empty
  match v with
  | .serve => return .serve g.config
  | .query => return .query g.config
  | .add => return .add g.config (← g.required .id) (← g.required .kind) (← g.required .file)
  | .remove => return .remove g.config (← g.required .id)
  | .list => return .list g.config

end Verb

/-! ### Commands -/

namespace Command

/-- The text names a command or the help about commands. -/
def isName (s : String) : Bool := (Verb.ofName? s).isSome || s == "help"

/-- The command that arguments ask for. -/
def ofArguments : List String → Except UsageError Command
  | [] => .error .commandMissing
  | word :: rest =>
    match Word.ofText word with
    | .separator =>
      match rest with
      | [] => .error .commandMissing
      | next :: _ => .error (if isName next then .unknownArgument else .unknownCommand)
    | .long name value =>
      if name = "help" || name = "version" then
        match value with
        | some _ => .error .valueUnwanted
        | none => .error (if name = "help" then .help else .version)
      else .error .unknownArgument
    | .short flag =>
      .error (if flag = 'h' then .help else if flag = 'V' then .version else .unknownArgument)
    | .plain text =>
      match Verb.ofName? text with
      | some v => v.command rest
      | none =>
        if text = "help" then
          match rest with
          | [] => .error .help
          | [name] => .error (if isName name then .help else .unknownCommand)
          | _ => .error .unknownCommand
        else .error .unknownCommand

end Command

end CampusQuery
