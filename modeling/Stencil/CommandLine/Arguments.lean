/-!
# Arguments

The words after the program's name: options, a command, and the command's own options and argument.
Words are taken from the left, and the first that does not fit decides. A word that is the value of
an option, or the argument of a command, is held until the next option or argument, or the end: only
then it is looked at. So a request for help wins over what is wrong with a word that is still held in
front of the command.
-/

namespace Stencil.CommandLine

/-- What the options stand for. -/
inductive Opt where
  | config
  | verbose
  | attrs
  | content
  | help
  deriving DecidableEq, Repr

/-- Where a word stands: before the command, or after one. -/
inductive Level where
  | program
  | check
  | render
  deriving DecidableEq, Repr

/-- What help is about. -/
inductive Topic where
  | about (level : Level)
  | help
  deriving DecidableEq, Repr

/-- What the program is asked to do. -/
inductive Command where
  | check (dir : String)
  | render (file : String) (attrs? content? : Option String)
  deriving DecidableEq, Repr

/-- What the words amount to. -/
inductive Request where
  | run (config? : Option String) (command : Command)
  | help (topic : Topic)
  | misuse
  deriving DecidableEq, Repr

/-- Whether a text can be the value of an option. Paths are not empty. -/
def Opt.accepts (o : Opt) (value : String) : Bool := o = .content || value ≠ ""

/-- The option of a long name. -/
def longOption? (level : Level) (name : String) : Option Opt :=
  if name = "config" then some .config
  else if name = "verbose" then some .verbose
  else if name = "help" then some .help
  else if level = .render ∧ name = "attrs" then some .attrs
  else if level = .render ∧ name = "content" then some .content
  else none

/-- The option of a letter. -/
def shortOption? (level : Level) (c : Char) : Option Opt :=
  if c = 'c' then some .config
  else if c = 'v' then some .verbose
  else if c = 'h' then some .help
  else if level = .render ∧ c = 'a' then some .attrs
  else none

/-- How a word reads. -/
inductive Word where
  | stop
  | long (name : String) (value : Option String)
  | short (letters : List Char)
  | plain (s : String)
  deriving DecidableEq, Repr

/-- A word, by its dashes. A single dash is plain. -/
def Word.ofString (s : String) : Word :=
  match s.toList with
  | ['-', '-'] => .stop
  | '-' :: '-' :: cs =>
    match cs.dropWhile (· ≠ '=') with
    | [] => .long (String.ofList cs) none
    | _ :: value =>
      .long (String.ofList (cs.takeWhile (· ≠ '='))) (some (String.ofList value))
  | '-' :: c :: cs => .short (c :: cs)
  | _ => .plain s

/-- A word that has been taken and not yet looked at. -/
inductive Held where
  | value (o : Opt) (value : String)
  | argument (s : String)
  deriving DecidableEq, Repr

/-- What has been gathered on a level. -/
structure Gathered where
  values : List (Opt × String) := []
  arguments : List String := []
  held : Option Held := none
  trailing : Bool := false
  deriving DecidableEq, Repr

/-- The value of an option. -/
def Gathered.value? (g : Gathered) (o : Opt) : Option String := g.values.lookup o

/-- Adds the value of an option, which can have only one on a level. -/
def Gathered.give? (g : Gathered) (o : Opt) (value : String) : Option Gathered :=
  if (g.value? o).isSome ∨ !o.accepts value then none
  else some { g with values := g.values ++ [(o, value)] }

/-- Looks at the word that is held. The argument is a path, and there is only one. -/
def Gathered.settle? (g : Gathered) : Option Gathered :=
  match g.held with
  | none => some g
  | some (.value o value) => { g with held := none }.give? o value
  | some (.argument s) =>
    if g.arguments ≠ [] ∨ s = "" then none
    else some { g with held := none, arguments := [s] }

/-- What one word does: it is added to what was gathered, waits for the value of an option, is an
argument or the name of a command, or decides the request. -/
inductive Effect where
  | gathered (g : Gathered)
  | waiting (o : Opt) (g : Gathered)
  | plain (s : String)
  | decided (r : Request)

/-- Takes an option with a value in the same word, which is looked at once. -/
def Gathered.attach (g : Gathered) (o : Opt) (value : String) : Effect :=
  match g.settle?.bind fun g => g.give? o value with
  | some g => .gathered g
  | none => .decided .misuse

/-- Takes an option whose value is the next word. -/
def Gathered.await (g : Gathered) (o : Opt) : Effect :=
  match g.settle? with
  | some g => .waiting o g
  | none => .decided .misuse

/-- Takes the option for help. -/
def Gathered.askHelp (g : Gathered) (level : Level) : Effect :=
  match g.settle? with
  | some _ => .decided (.help (.about level))
  | none => .decided .misuse

/-- Takes the letters behind one dash. What follows the letter of an option with a value is the value,
with or without a sign of equality. -/
def letters (level : Level) (g : Gathered) : List Char → Effect
  | [] => .gathered g
  | c :: cs =>
    match shortOption? level c with
    | none => .decided .misuse
    | some .help => g.askHelp level
    | some .verbose =>
      match g.settle? with
      | some g => letters level g cs
      | none => .decided .misuse
    | some o =>
      match cs with
      | [] => g.await o
      | '=' :: cs => g.attach o (String.ofList cs)
      | cs => g.attach o (String.ofList cs)

/-- Takes one word that is not the value of an option before it. -/
def word (level : Level) (g : Gathered) (s : String) : Effect :=
  if g.trailing then .plain s
  else
    match Word.ofString s with
    | .stop => .gathered { g with trailing := true }
    | .plain s => .plain s
    | .short cs => letters level g cs
    | .long name value =>
      match longOption? level name, value with
      | none, _ => .decided .misuse
      | some .help, none => g.askHelp level
      | some .verbose, none =>
        match g.settle? with
        | some g => .gathered g
        | none => .decided .misuse
      | some .help, some _ | some .verbose, some _ => .decided .misuse
      | some o, none => g.await o
      | some o, some value => g.attach o value

/-- The request of a command whose words have all been looked at. The configuration named after the
command goes before the one named in front of it. -/
def conclude (level : Level) (config? : Option String) (g : Gathered) : Request :=
  let config? := (g.value? .config).or config?
  match level, g.arguments with
  | .check, [dir] => .run config? (.check dir)
  | .render, [file] => .run config? (.render file (g.value? .attrs) (g.value? .content))
  | _, _ => .misuse

/-- The request that words after a command make. -/
def command (level : Level) (config? : Option String) : Gathered → List String → Request
  | g, [] =>
    match g.settle? with
    | some g => conclude level config? g
    | none => .misuse
  | g, s :: rest =>
    match word level g s with
    | .decided r => r
    | .gathered g => command level config? g rest
    | .plain s =>
      match g.settle? with
      | some g =>
        if g.arguments ≠ [] then .misuse
        else command level config? { g with held := some (.argument s) } rest
      | none => .misuse
    | .waiting o g =>
      match rest with
      | [] => .misuse
      | value :: rest =>
        match Word.ofString value with
        | .plain value => command level config? { g with held := some (.value o value) } rest
        | _ => .misuse

/-- The request that words after the command for help make. -/
def helpRequest : List String → Request
  | [] => .help (.about .program)
  | ["check"] => .help (.about .check)
  | ["render"] => .help (.about .render)
  | ["help"] => .help .help
  | _ => .misuse

/-- The request that the name of a command and the words after it make. -/
def named (config? : Option String) (name : String) (rest : List String) : Request :=
  if name = "check" then command .check config? {} rest
  else if name = "render" then command .render config? {} rest
  else if name = "help" then helpRequest rest
  else .misuse

/-- What is left of a request when something in front of its command does not fit: only help. -/
def Request.helpOnly : Request → Request
  | .help topic => .help topic
  | .run _ _ | .misuse => .misuse

/-- The request that all words make; `g` is what was gathered in front of the command. A word that is
held there is looked at after those of the command. -/
def request : Gathered → List String → Request
  | _, [] => .misuse
  | g, s :: rest =>
    match word .program g s with
    | .decided r => r
    | .gathered g => request g rest
    | .plain name =>
      if g.trailing then .misuse
      else
        match g.settle? with
        | some g => named (g.value? .config) name rest
        | none => (named none name rest).helpOnly
    | .waiting o g =>
      match rest with
      | [] => .misuse
      | value :: rest =>
        match Word.ofString value with
        | .plain value => request { g with held := some (.value o value) } rest
        | _ => .misuse

end Stencil.CommandLine
