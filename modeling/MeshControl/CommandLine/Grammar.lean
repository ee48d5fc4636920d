/-!
What a command line may consist of. Options have a long name behind two hyphens; an option that
takes a value may have a letter behind one hyphen as well. A value stands behind an equals sign, or
directly behind the letter, or in the next argument, which then must not look like an option. Each
option may be given once. Two hyphens alone end the options. Everything else is a positional
argument or, as long as the options have not ended, the name of a command, to which the rest of the
line belongs.

A grammar reads a line from left to right into a value, one change for each argument.
-/

namespace MeshControl.CommandLine

/-- Why a command line is not carried out. -/
inductive Refusal where
  | help
  /-- It does not fit the grammar. -/
  | usage
deriving DecidableEq, Repr

/-- An option, and how it changes the value. -/
inductive OptionRule (α : Type) where
  | flag (name : String) (set : α → α)
  | value (name : String) (letter : Option Char) (set : String → α → Option α)

/-- A positional argument, and how it changes the value. -/
structure Positional (α : Type) where
  isRequired : Bool := true
  set : String → α → Option α

/-- A command, and how the arguments behind it change the value. -/
structure Command (α : Type) where
  name : String
  read : List String → α → Except Refusal α

/-- What a command line may consist of. A grammar with commands needs one of them. -/
structure Grammar (α : Type) where
  options : List (OptionRule α) := []
  positionals : List (Positional α) := []
  commands : List (Command α) := []

/-- How an argument looks. -/
inductive Shape where
  | escape
  | long (name : String) (value : Option String)
  | short (letter : Char) (value : Option String)
  | plain
deriving DecidableEq, Repr

namespace Shape

/-- A long option, split at the first equals sign. -/
def ofLong (text : List Char) : Shape :=
  let name := String.ofList (text.takeWhile (· ≠ '='))
  match text.dropWhile (· ≠ '=') with
  | [] => long name none
  | _ :: value => long name (some (String.ofList value))

/-- The value directly behind a letter. An equals sign in front does not belong to it. -/
def attached : List Char → Option String
  | [] => none
  | '=' :: value => some (String.ofList value)
  | value => some (String.ofList value)

/-- The shape of an argument. A hyphen alone is nothing special. -/
def ofText (text : String) : Shape :=
  match text.toList with
  | ['-', '-'] => escape
  | '-' :: '-' :: rest => ofLong rest
  | '-' :: letter :: rest => short letter (attached rest)
  | _ => plain

end Shape

variable {α : Type}

def OptionRule.name : OptionRule α → String
  | flag name _ => name
  | value name _ _ => name

def OptionRule.hasLetter (letter : Char) : OptionRule α → Bool
  | flag _ _ => false
  | value _ own _ => own == some letter

/-- How far a line has been read. -/
structure Progress (α : Type) where
  value : α
  given : List String := []
  /-- The positional arguments that may still come. -/
  positionals : List (Positional α)

namespace Progress

def takePositional (progress : Progress α) (text : String) : Except Refusal (Progress α) :=
  match progress.positionals with
  | [] => .error .usage
  | positional :: positionals =>
    match positional.set text progress.value with
    | some value => .ok { progress with value, positionals }
    | none => .error .usage

/-- Notes that an option was given, which it may be only once. -/
def note (progress : Progress α) (name : String) (change : α → Option α) :
    Except Refusal (Progress α) :=
  if name ∈ progress.given then .error .usage
  else
    match change progress.value with
    | some value => .ok { progress with value, given := name :: progress.given }
    | none => .error .usage

/-- Takes an option from a line of which the rest is given. The rest may lose the option's value. -/
def takeOption (progress : Progress α) (rule : OptionRule α) (attached : Option String)
    (rest : List String) : Except Refusal (Progress α × List String) :=
  match rule, attached, rest with
  | .flag name set, none, rest => do return (← progress.note name (some ∘ set), rest)
  | .flag _ _, some _, _ => .error .usage
  | .value name _ set, some value, rest => do return (← progress.note name (set value), rest)
  | .value _ _ _, none, [] => .error .usage
  | .value name _ set, none, value :: rest =>
    match Shape.ofText value with
    | .plain => do return (← progress.note name (set value), rest)
    | _ => .error .usage

/-- Taking an option does not make the rest longer. -/
theorem length_takeOption {progress after : Progress α} {rule : OptionRule α}
    {attached : Option String} {rest left : List String}
    (h : progress.takeOption rule attached rest = .ok (after, left)) :
    left.length ≤ rest.length := by
  have note_ok : ∀ (name : String) (change : α → Option α) (rest : List String),
      (do return (← progress.note name change, rest) : Except Refusal _) = .ok (after, left) →
        left = rest := by
    intro name change rest hnote
    cases hp : progress.note name change with
    | error e => simp [hp, bind, Except.bind] at hnote
    | ok p =>
      simp only [hp, bind, Except.bind, pure, Except.pure, Except.ok.injEq,
        Prod.mk.injEq] at hnote
      exact hnote.2.symm
  unfold takeOption at h
  split at h
  · exact Nat.le_of_eq (congrArg _ (note_ok _ _ _ h))
  · simp at h
  · exact Nat.le_of_eq (congrArg _ (note_ok _ _ _ h))
  · simp at h
  · split at h
    · rw [note_ok _ _ _ h]
      simp
    · simp at h

end Progress

namespace Grammar

/-- The value that a whole line has come to. -/
def finish (grammar : Grammar α) (progress : Progress α) : Except Refusal α :=
  if grammar.commands.isEmpty && progress.positionals.all (!·.isRequired) then
    .ok progress.value
  else .error .usage

/-- Reads arguments behind the end of the options. -/
def readPlain (grammar : Grammar α) (progress : Progress α) : List String → Except Refusal α
  | [] => grammar.finish progress
  | text :: rest =>
    match progress.takePositional text with
    | .ok progress => grammar.readPlain progress rest
    | .error refusal => .error refusal

/-- The answer to a question for help that names what it is about. -/
def helpAbout (grammar : Grammar α) : List String → Refusal
  | [] => .help
  | [name] =>
    if name = "help" || grammar.commands.any (·.name == name) then .help else .usage
  | _ => .usage

def findLong? (grammar : Grammar α) (name : String) : Option (OptionRule α) :=
  grammar.options.find? (·.name == name)

def findShort? (grammar : Grammar α) (letter : Char) : Option (OptionRule α) :=
  grammar.options.find? (·.hasLetter letter)

def findCommand? (grammar : Grammar α) (name : String) : Option (Command α) :=
  grammar.commands.find? (·.name == name)

/-- The option that an argument of a shape names. -/
def findOption (grammar : Grammar α) :
    Shape → Except Refusal (OptionRule α × Option String)
  | .long name value =>
    match name, value, grammar.findLong? name with
    | _, value, some rule => .ok (rule, value)
    | "help", none, none => .error .help
    | _, _, none => .error .usage
  | .short letter value =>
    match letter, grammar.findShort? letter with
    | _, some rule => .ok (rule, value)
    | 'h', none => .error .help
    | _, none => .error .usage
  | _ => .error .usage

/-- Reads the arguments that are left. -/
def readOn (grammar : Grammar α) (progress : Progress α) : List String → Except Refusal α
  | [] => grammar.finish progress
  | text :: rest =>
    match Shape.ofText text with
    | .escape => grammar.readPlain progress rest
    | .plain =>
      match grammar.findCommand? text with
      | some command => command.read rest progress.value
      | none =>
        if text = "help" && !grammar.commands.isEmpty then .error (grammar.helpAbout rest)
        else
          match progress.takePositional text with
          | .ok progress => grammar.readOn progress rest
          | .error refusal => .error refusal
    | shape =>
      match grammar.findOption shape with
      | .error refusal => .error refusal
      | .ok (rule, attached) =>
        match h : progress.takeOption rule attached rest with
        | .error refusal => .error refusal
        | .ok (progress, left) =>
          have := Progress.length_takeOption h
          grammar.readOn progress left
termination_by arguments => arguments.length

/-- Reads a whole line into a value, starting from the value of the empty line. -/
def read (grammar : Grammar α) (start : α) (line : List String) : Except Refusal α :=
  grammar.readOn { value := start, positionals := grammar.positionals } line

end Grammar

/-- A command whose arguments have a grammar of their own. -/
def Command.ofGrammar {δ : Type} (name : String) (grammar : Grammar δ) (start : δ)
    (set : δ → α → α) : Command α where
  name
  read line value := (set · value) <$> grammar.read start line

end MeshControl.CommandLine
