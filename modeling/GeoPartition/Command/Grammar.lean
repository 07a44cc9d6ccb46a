import GeoPartition.Text.Scan

/-!
# Options and operands

How the arguments of a command are told apart. An option has a long name, which is never cut short,
and may have a letter; if it takes a value, the value follows as the next argument, behind an equals
sign, or right behind the letter. What is no option is an operand, and behind `--` everything is.

The first fault, or the first request for help, ends the reading. Values are checked as they come,
so a bad value counts before a later request for help.
-/

namespace GeoPartition.Command

/-- Which texts are values. -/
abbrev Check := String → Bool

/-- An option of a command. One without a check takes no value. -/
structure Switch where
  long : String
  letter : Option Char
  check : Option Check

structure Grammar where
  switches : List Switch
  /-- The operands of the command, in their order. -/
  operands : List Check
  /-- How many of the operands must be given. -/
  required : Nat
  /-- May operands be negative numbers? -/
  negatives : Bool

/-- What has been given: the values of options by their long names, and the operands. -/
structure Given where
  options : List (String × String)
  operands : List String
deriving DecidableEq

/-- Why nothing is run. -/
inductive Stop
  | help
  | unusable
deriving DecidableEq

/-- Does a text, behind a minus, look like a number? Digits, with at most one point before at most
one exponent, neither of them in front, and the exponent not at the end. -/
def looksNumeric (s : List Char) : Bool :=
  let whole := s.dropWhile Char.isDigit
  let unpointed := match whole with
    | '.' :: rest => rest.dropWhile Char.isDigit
    | rest => rest
  let fits := match unpointed with
    | [] => true
    | 'e' :: exponent | 'E' :: exponent => exponent ≠ [] && exponent.all Char.isDigit
    | _ => false
  fits && (s = [] || s.head?.any Char.isDigit)

/-- Can an argument be the value of the option before it? -/
def isSeparateValue (arg : List Char) : Bool := arg.head? ≠ some '-' || arg = ['-']

namespace Grammar

/-- Takes an operand. -/
def operand (g : Grammar) (given : Given) (arg : String) : Except Stop Given :=
  match g.operands[given.operands.length]? with
  | some check =>
    if check arg then .ok { given with operands := given.operands ++ [arg] }
    else .error .unusable
  | none => .error .unusable

/-- Takes an option; a second time is once too often. -/
def option (given : Given) (s : Switch) (value : String) : Except Stop Given :=
  if (given.options.lookup s.long).isSome then .error .unusable
  else if s.check.all (· value) then
    .ok { given with options := given.options ++ [(s.long, value)] }
  else .error .unusable

/-- What an argument is. -/
inductive Reading
  | operand
  | separator
  | help
  /-- An option, and the value that is attached to it. -/
  | switch (s : Switch) (attached : Option (List Char))
  | unknown

/-- Reads an option by its long name. -/
def readLong (g : Grammar) (arg : List Char) : Reading :=
  let name := arg.takeWhile (· ≠ '=')
  let attached := if name.length < arg.length then some (arg.drop (name.length + 1)) else none
  if name = "help".toList then if attached.isNone then .help else .unknown
  else
    match g.switches.find? (·.long.toList = name) with
    | some s => .switch s attached
    | none => .unknown

/-- Reads an option by its letter. -/
def readShort (g : Grammar) (letter : Char) (rest : List Char) : Reading :=
  if letter = 'h' then .help
  else
    match g.switches.find? (·.letter = some letter) with
    | some s =>
      .switch s (match rest with
        | [] => none
        | '=' :: value => some value
        | value => some value)
    | none => .unknown

/-- Reads an argument, when `count` operands have been given. -/
def read (g : Grammar) (count : Nat) (arg : List Char) : Reading :=
  match arg with
  | ['-'] => .operand
  | ['-', '-'] => .separator
  | '-' :: '-' :: rest => g.readLong rest
  | '-' :: letter :: rest =>
    if g.negatives && count < g.operands.length && looksNumeric (letter :: rest) then .operand
    else g.readShort letter rest
  | _ => .operand

/-- Reads the arguments that follow what is given. -/
def parse (g : Grammar) (given : Given) : List String → Except Stop Given
  | [] => if g.required ≤ given.operands.length then .ok given else .error .unusable
  | arg :: args =>
    match g.read given.operands.length arg.toList with
    | .operand => do
      let given ← g.operand given arg
      g.parse given args
    | .separator => do
      let given ← args.foldlM g.operand given
      if g.required ≤ given.operands.length then .ok given else .error .unusable
    | .help => .error .help
    | .unknown => .error .unusable
    | .switch s attached =>
      match s.check, attached with
      | none, none => do
        let given ← option given s ""
        g.parse given args
      | none, some _ => .error .unusable
      | some _, some value => do
        let given ← option given s (String.ofList value)
        g.parse given args
      | some _, none =>
        match args with
        | [] => .error .unusable
        | value :: args =>
          if isSeparateValue value.toList then do
            let given ← option given s value
            g.parse given args
          else .error .unusable

end Grammar

end GeoPartition.Command
