import StageMachine.Numeral.Basic
import StageMachine.Text.Upper

/-! The command line. Options may be cut short as long as one option is meant, take their value from
the next word or after an equals sign, and end at two dashes; one word that is no option names the
program. Two dashes after an equals sign are no value: the option is there and has none. -/
namespace StageMachine.Console

/-- What the command line asks for. -/
structure Arguments where
  source : Option Text := none
  config : Option Text := none
  /-- The time between two steps; the option may be there without a value. -/
  interval : Option (Option Int) := none
  micro : Bool := false
  /-- The number of steps after which the console stops, unless it was taken away. -/
  maxSteps : Option Int := some 10000
  quiet : Bool := false
  /-- How much is logged, unless it was taken away. -/
  logLevel : Option Text := some "WARNING".toList
  deriving DecidableEq, Repr

/-- A command line that is not run: it is wrong, or asks for help. -/
inductive Refusal where
  | wrong | help
  deriving DecidableEq, Repr

/-- The options. -/
inductive Flag where
  | help | config | interval | micro | maxSteps | quiet | logLevel
  deriving DecidableEq, Repr

namespace Flag

def spellings : List (Text × Flag) :=
  [("-h".toList, help), ("--help".toList, help), ("--config".toList, config),
    ("--interval".toList, interval), ("--micro".toList, micro), ("--max-steps".toList, maxSteps),
    ("--quiet".toList, quiet), ("--log-level".toList, logLevel)]

def ofSpelling? (t : Text) : Option Flag := spellings.lookup t

def takesValue : Flag → Bool
  | help | micro | quiet => false
  | config | interval | maxSteps | logLevel => true

end Flag

/-- What a word of the command line is. -/
inductive Word where
  | plain (t : Text)
  /-- The two dashes after which no word is an option. -/
  | dashes
  | flag (f : Flag) (value : Option Text)
  | unknownFlag
  deriving DecidableEq, Repr

/-- The parts of a word before and after its first equals sign. -/
def splitEquals (t : Text) : Text × Option Text :=
  match t.dropWhile (· != '=') with
  | _ :: value => (t.takeWhile (· != '='), some value)
  | [] => (t, none)

/-- The text without the line end that it may stop with. -/
def withoutLineEnd (t : Text) : Text :=
  if t.getLast? = some '\n' then t.dropLast else t

/-- The word is a negative number, with or without a point; a line end may follow it. -/
def isNegativeNumber (t : Text) : Bool :=
  match withoutLineEnd t with
  | '-' :: t =>
    let fraction := t.dropWhile Text.isDecimal
    (fraction.isEmpty && !t.isEmpty) ||
      match fraction with
      | '.' :: digits => !digits.isEmpty && digits.all Text.isDecimal
      | _ => false
  | _ => false

/-- The options that a word may be short for, with the value that is part of the word. -/
def candidates (t : Text) : List (Flag × Option Text) :=
  match t with
  | '-' :: '-' :: _ =>
    let (start, value) := splitEquals t
    (Flag.spellings.filter fun spelling => start.isPrefixOf spelling.1).map
      fun spelling => (spelling.2, value)
  | _ =>
    Flag.spellings.filterMap fun spelling =>
      if spelling.1 = t.take 2 then some (spelling.2, some (t.drop 2))
      else if t.isPrefixOf spelling.1 then some (spelling.2, none)
      else none

/-- An option with what is attached to it. The letter of the short option may be written again. -/
def attached (t : Text) (f : Flag) (value : Option Text) : Word :=
  let isRepeated := t.take 2 == ['-', 'h'] && value.any fun v => !v.isEmpty && v.all (· == 'h')
  .flag f (if isRepeated then none else value)

def classify (t : Text) : Except Refusal Word :=
  let (start, value) := splitEquals t
  if t.head? != some '-' then .ok (.plain t)
  else
    match Flag.ofSpelling? t, t.length, value.isSome, Flag.ofSpelling? start with
    | some f, _, _, _ => .ok (.flag f none)
    | none, 1, _, _ => .ok (.plain t)
    | none, _, true, some f => .ok (attached t f value)
    | none, _, _, _ =>
      match candidates t with
      | [(f, value)] => .ok (attached t f value)
      | [] => .ok (if isNegativeNumber t || t.contains ' ' then .plain t else .unknownFlag)
      | _ => .error .wrong

def classifyAll : List Text → Except Refusal (List Word)
  | [] => .ok []
  | t :: rest =>
    if t = ['-', '-'] then .ok (.dashes :: rest.map .plain)
    else do
      let word ← classify t
      return word :: (← classifyAll rest)

def Word.isFlag : Word → Bool
  | .flag .. | .unknownFlag => true
  | _ => false

def integerValue (t : Text) : Except Refusal Int :=
  match Numeral.read .decimal t with
  | .ok v => .ok v
  | .error _ => .error .wrong

def setValue (a : Arguments) (f : Flag) (value : Option Text) : Except Refusal Arguments :=
  match f with
  | .config => .ok { a with config := value }
  | .interval => return { a with interval := some (← value.mapM integerValue) }
  | .maxSteps => return { a with maxSteps := ← value.mapM integerValue }
  | .logLevel => .ok { a with logLevel := value }
  | .help | .micro | .quiet => .error .wrong

/-- Takes an option without a value into account. -/
def setFlag (a : Arguments) (f : Flag) : Except Refusal Arguments :=
  match f with
  | .micro => .ok { a with micro := true }
  | .quiet => .ok { a with quiet := true }
  | .help => .error .help
  | .config | .interval | .maxSteps | .logLevel => .error .wrong

/-- The words of a command line as they are taken into account. -/
structure Parsing where
  arguments : Arguments := {}
  expectsSource : Bool := true
  leftOver : Bool := false

/-- Takes the name of the program from the front of the words, with dashes before or after it. -/
def takeSource (p : Parsing) : List Word → Parsing × List Word
  | .dashes :: .plain t :: rest =>
    ({ p with arguments := { p.arguments with source := some t }, expectsSource := false }, rest)
  | .plain t :: .dashes :: rest | .plain t :: rest =>
    ({ p with arguments := { p.arguments with source := some t }, expectsSource := false }, rest)
  | .dashes :: rest => ({ p with expectsSource := false }, rest)
  | rest => (p, rest)

/-- Takes the words behind the last option into account. -/
def finishParsing (p : Parsing) (words : List Word) : Parsing :=
  let (p, rest) := if p.expectsSource then takeSource p words else (p, words)
  { p with leftOver := p.leftOver || !rest.isEmpty }

/-- Takes words into account, one option or one run of other words after the other. -/
def parseWords : Nat → Parsing → List Word → Except Refusal Parsing
  | 0, _, _ => .error .wrong
  | fuel + 1, p, words =>
    if !words.any Word.isFlag then .ok (finishParsing p words)
    else
      match words with
      | .unknownFlag :: rest => parseWords fuel { p with leftOver := true } rest
      | .flag f (some value) :: rest => do
        let value := if value = ['-', '-'] then none else some value
        let arguments ← setValue p.arguments f value
        parseWords fuel { p with arguments } rest
      | .flag f none :: rest => do
        if f.takesValue then
          match rest with
          | .plain value :: rest =>
            let arguments ← setValue p.arguments f (some value)
            parseWords fuel { p with arguments } rest
          | _ => .error .wrong
        else
          let arguments ← setFlag p.arguments f
          parseWords fuel { p with arguments } rest
      | words =>
        if p.expectsSource then
          let (p, rest) := takeSource p words
          parseWords fuel p rest
        else
          parseWords fuel { p with leftOver := true } (words.dropWhile (!·.isFlag))

def Arguments.parse (line : List Text) : Except Refusal Arguments := do
  let words ← classifyAll line
  let p ← parseWords (words.length + 1) {} words
  if p.leftOver then .error .wrong else .ok p.arguments

end StageMachine.Console
