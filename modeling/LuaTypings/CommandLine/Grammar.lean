import LuaTypings.Text.Digit
import LuaTypings.Text.Quoted
import LuaTypings.Text.Search

/-!
# Command lines

A command line is a list of arguments. A grammar says which options a program knows, and which operand it takes
besides them. An argument that starts with a dash gives an option: by its name, by a beginning of its name that no
other option shares, or by a letter that the letters of more options follow. What the grammar does not know is left
over, and a reader of several grammars can judge it at the end.
-/

namespace LuaTypings.CommandLine

/-- What an option does. -/
inductive OptionKind where
  /-- It is given or not. -/
  | flag
  /-- It has a value. -/
  | text
  /-- It has a value that is a whole number. -/
  | wholeNumber
  /-- It asks what the options are, and ends the reading. -/
  | help
  deriving DecidableEq, Repr

/-- An option, which goes by one of a type's names within the program. -/
structure OptionSpec (κ : Type) where
  key : κ
  /-- How it is written, the shortest first. -/
  names : List Text
  kind : OptionKind
  deriving DecidableEq, Repr

/-- Whether an option has a value. -/
def OptionSpec.hasValue {κ : Type} (o : OptionSpec κ) : Bool := o.kind = .text || o.kind = .wholeNumber

/-- The names of an option in one text. -/
def OptionSpec.label {κ : Type} (o : OptionSpec κ) : Text := Text.join "/" o.names

/-- How much an operand takes. -/
inductive OperandKind where
  /-- One argument, which may be missing. -/
  | optional
  /-- One argument. -/
  | required
  /-- One argument and all that follow it, options too. -/
  | command
  deriving DecidableEq, Repr

/-- What a program is applied to. -/
structure Operand where
  name : Text
  kind : OperandKind
  deriving DecidableEq, Repr

/-- What a program takes on its command line. -/
structure Grammar (κ : Type) where
  program : Text
  options : List (OptionSpec κ)
  operand : Option Operand

/-- What is wrong with a command line. -/
inductive UsageError where
  /-- An argument begins the names of several options. -/
  | ambiguous (argument : Text) (names : List Text)
  /-- An option lacks its value. -/
  | missingValue (option : Text)
  /-- An option has a value that it cannot take. -/
  | unusedValue (option value : Text)
  /-- An option's value is no whole number. -/
  | notWholeNumber (option value : Text)
  /-- An operand is none of those that there are. -/
  | invalidChoice (operand value : Text) (choices : List Text)
  /-- An operand is missing. -/
  | missingOperand (operand : Text)
  /-- Arguments are left over. -/
  | unrecognized (arguments : List Text)
  deriving DecidableEq, Repr

/-- The words for a usage error. -/
def UsageError.message : UsageError → Text
  | ambiguous argument names => "ambiguous option: " ++ argument ++ " could match " ++ Text.join ", " names
  | missingValue option => "argument " ++ option ++ ": expected one argument"
  | unusedValue option value => "argument " ++ option ++ ": ignored explicit argument " ++ Text.quoted value
  | notWholeNumber option value => "argument " ++ option ++ ": invalid int value: " ++ Text.quoted value
  | invalidChoice operand value choices =>
    "argument " ++ operand ++ ": invalid choice: " ++ Text.quoted value ++ " (choose from " ++
      Text.join ", " (choices.map Text.quoted) ++ ")"
  | missingOperand operand => "the following arguments are required: " ++ operand
  | unrecognized arguments => "unrecognized arguments: " ++ Text.join " " arguments

/-- What an argument is. -/
inductive Role (κ : Type) where
  /-- No option. -/
  | plain
  /-- Two dashes: no option comes after them. -/
  | terminator
  /-- An option, whether it is given by a letter, and the text that is attached to it. -/
  | option (spec : OptionSpec κ) (byLetter : Bool) (attached : Option Text)
  /-- An option that the grammar does not know. -/
  | unknown
  deriving DecidableEq, Repr

/-- An argument and what it is. -/
structure Argument (κ : Type) where
  text : Text
  role : Role κ
  deriving DecidableEq, Repr

/-- What a command line says. -/
structure Reading (κ : Type) where
  /-- The options that are given, in order, with their values. A flag has none, and neither has an option to which two
  dashes are attached. -/
  given : List (κ × Option Text)
  /-- The arguments that the operand takes. -/
  operands : List Text
  /-- The arguments that are left over. -/
  extras : List Text
  /-- Whether help is asked for. -/
  wantsHelp : Bool
  deriving DecidableEq, Repr

namespace Reading

variable {κ : Type}

/-- Nothing is said. -/
def empty : Reading κ := ⟨[], [], [], false⟩

/-- Help is asked for; nothing else matters. -/
def asking : Reading κ := ⟨[], [], [], true⟩

/-- The reading with more options before its own. -/
def giving (options : List (κ × Option Text)) (r : Reading κ) : Reading κ :=
  { r with given := options ++ r.given }

/-- The reading with an argument left over before its own. -/
def leaving (arguments : List Text) (r : Reading κ) : Reading κ := { r with extras := arguments ++ r.extras }

/-- The reading with its operand. -/
def operating (arguments : List Text) (r : Reading κ) : Reading κ := { r with operands := arguments ++ r.operands }

/-- Whether an option is given. -/
def has [DecidableEq κ] (r : Reading κ) (key : κ) : Bool := r.given.any (·.1 = key)

/-- What the places where an option is given say of its value, in order. -/
def values [DecidableEq κ] (r : Reading κ) (key : κ) : List (Option Text) :=
  r.given.filterMap fun (k, value?) => if k = key then some value? else none

/-- What the last place where an option is given says of its value. -/
def last? [DecidableEq κ] (r : Reading κ) (key : κ) : Option (Option Text) := (r.values key).getLast?

/-- The value of an option, if it is given and the last place has one. -/
def value? [DecidableEq κ] (r : Reading κ) (key : κ) : Option Text := (r.last? key).join

end Reading

namespace Grammar

variable {κ : Type} (g : Grammar κ)

/-! ## What an argument is -/

/-- The option of a name. -/
def find? (name : Text) : Option (OptionSpec κ) := g.options.find? (·.names.contains name)

/-- The options that have a name with a beginning, each with that name. -/
def beginning (start : Text) : List (OptionSpec κ × Text) :=
  g.options.flatMap fun o => (o.names.filter (Text.startsWith start)).map fun name => (o, name)

/-- The options that an argument may stand for although no option has its name: those whose names begin with it, up
to an equals sign, behind two dashes; the one of its first letter behind one dash. Each comes with its name. -/
def candidates (argument : Text) : List (Text × Role κ) :=
  match argument with
  | '-' :: '-' :: _ =>
    let (start, attached) := Text.cutAtChar '=' argument
    (g.beginning start).map fun (o, name) => (name, .option o false attached)
  | '-' :: letter :: rest =>
    match g.find? ['-', letter] with
    | some o => [(['-', letter], .option o true (some rest))]
    | none => []
  | _ => []

/-- What an argument that starts with a dash is when no option has its name. Numbers, and arguments with a space in
them, are not meant as options. -/
def roleByBeginning (argument : Text) : Except UsageError (Role κ) :=
  match g.candidates argument with
  | [(_, role)] => .ok role
  | [] =>
    .ok (if Text.isDashedNumber argument || argument.contains ' ' then .plain else .unknown)
  | several => .error (.ambiguous argument (several.map fun (name, _) => name))

/-- Whether an option's name is a letter behind one dash. -/
def isLetterName (name : Text) : Bool := !Text.startsWith ['-', '-'] name

/-- What an argument is. -/
def roleOf (argument : Text) : Except UsageError (Role κ) :=
  match argument with
  | '-' :: _ :: _ =>
    match g.find? argument with
    | some o => .ok (.option o (isLetterName argument) none)
    | none =>
      match Text.cutAtChar '=' argument with
      | (name, some value) =>
        match g.find? name with
        | some o => .ok (.option o (isLetterName name) (some value))
        | none => g.roleByBeginning argument
      | _ => g.roleByBeginning argument
  | _ => .ok .plain

/-- What each argument is. -/
def rolesOf : List Text → Except UsageError (List (Argument κ))
  | [] => .ok []
  | argument :: rest =>
    if argument = ['-', '-'] then .ok (⟨argument, .terminator⟩ :: rest.map (⟨·, .plain⟩))
    else do
      let role ← g.roleOf argument
      return ⟨argument, role⟩ :: (← rolesOf rest)

/-! ## What the arguments say -/

/-- The options of one argument: flags that share a dash, and the last option with its value if that is attached. -/
structure Cluster (κ : Type) where
  flags : List (OptionSpec κ)
  last : OptionSpec κ
  value : Option Text

/-- The options of a flag's letter and the text behind it, which goes on with the letters of further flags. The last
letter may be that of an option that has the rest as its value. -/
def cluster (flag : OptionSpec κ) : (attached : Text) → Except UsageError (Cluster κ)
  | [] => .error (.unusedValue flag.label [])
  | c :: cs =>
    match g.find? ['-', c] with
    | none => .error (.unusedValue flag.label (c :: cs))
    | some next =>
      if cs.isEmpty then .ok ⟨[flag], next, none⟩
      else if next.hasValue then .ok ⟨[flag], next, some cs⟩
      else (cluster next cs).map fun others => { others with flags := flag :: others.flags }

/-- The options that an option's argument gives. -/
def optionsOf (o : OptionSpec κ) (byLetter : Bool) : (attached : Option Text) → Except UsageError (Cluster κ)
  | none => .ok ⟨[], o, none⟩
  | some t =>
    if o.hasValue then .ok ⟨[], o, some t⟩
    else if byLetter then g.cluster o t
    else .error (.unusedValue o.label t)

/-- The value that is attached to an option. Two dashes are no value. -/
def attachedValue (t : Text) : Option Text := if t = ['-', '-'] then none else some t

/-- The option with its value, as far as the value is one that it can take. -/
def checked (o : OptionSpec κ) (value : Option Text) : Except UsageError (κ × Option Text) :=
  match value with
  | some t =>
    if o.kind = .wholeNumber && !Text.isWholeNumber t then .error (.notWholeNumber o.label t)
    else .ok (o.key, value)
  | none => .ok (o.key, none)

/-- Reads arguments from left to right. The operand is the first plain argument, unless it is taken already; two
dashes beside it belong to it. -/
def readFrom : (operand : Option Operand) → List (Argument κ) → Except UsageError (Reading κ)
  | none, [] => .ok .empty
  | some operand, [] =>
    if operand.kind = .optional then .ok .empty else .error (.missingOperand operand.name)
  | operand, ⟨text, .unknown⟩ :: rest => (readFrom operand rest).map (·.leaving [text])
  | none, ⟨text, .plain⟩ :: rest | none, ⟨text, .terminator⟩ :: rest =>
    (readFrom none rest).map (·.leaving [text])
  | some operand, ⟨text, .plain⟩ :: rest =>
    if operand.kind = .command then .ok (Reading.empty.operating (text :: rest.map (·.text)))
    else match rest with
      | ⟨_, .terminator⟩ :: rest => (readFrom none rest).map (·.operating [text])
      | rest => (readFrom none rest).map (·.operating [text])
  | some operand, ⟨text, .terminator⟩ :: rest =>
    if operand.kind = .command && !rest.isEmpty then
      .ok (Reading.empty.operating (text :: rest.map (·.text)))
    else readFrom (some operand) rest
  | operand, ⟨_, .option o byLetter attached⟩ :: rest => do
    let ⟨flags, last, value⟩ ← g.optionsOf o byLetter attached
    let wantsHelp := flags.any (·.kind = .help)
    let given := flags.map fun flag => (flag.key, none)
    match value with
    | some value =>
      if wantsHelp then return .asking
      else
        let final ← checked last (attachedValue value)
        return (← readFrom operand rest).giving (given ++ [final])
    | none =>
      if last.hasValue then
        match rest with
        | ⟨value, .plain⟩ :: rest =>
          if wantsHelp then return .asking
          else
            let final ← checked last (some value)
            return (← readFrom operand rest).giving (given ++ [final])
        | _ => throw (.missingValue last.label)
      else if wantsHelp || last.kind = .help then return .asking
      else return (← readFrom operand rest).giving (given ++ [(last.key, none)])

/-- Reads a command line. -/
def read (arguments : List Text) : Except UsageError (Reading κ) := do g.readFrom g.operand (← g.rolesOf arguments)

end Grammar

end LuaTypings.CommandLine
