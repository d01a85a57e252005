import FirstFailure.Report.Aggregation
/-!
# Command lines

A command line names a command, its options and its inputs. An option takes one argument, behind an
equals sign or as the next word, or none; it stands at most once. A word that starts with a dash is
an option, except for a dash alone and for what follows `--`.
-/

namespace FirstFailure

/-- What to convert and how. -/
structure ConvertCommand where
  inputs : List String
  output : Option String
  targets : Option String
  attachments : Option String
  options : ReportOptions
deriving Repr, DecidableEq

/-- What to validate and how much to say. -/
structure ValidateCommand where
  input : String
  quiet : Bool
  summary : Bool
deriving Repr, DecidableEq

/-- What to do. -/
inductive Command where
  | convert (command : ConvertCommand)
  | info (input : String)
  | validate (command : ValidateCommand)
deriving Repr, DecidableEq

/-- Why a command line names no command to run. -/
inductive LineStop where
  /-- It asks how to use the program. -/
  | help
  /-- It breaks the rules of command lines. -/
  | misuse
deriving Repr, DecidableEq

namespace Command

/-- A path, which is not empty. -/
def path? (text : String) : Option String := if text = "" then none else some text

/-- The number that decimal digits spell. -/
def digits? (digits : List Char) : Option Nat :=
  if digits.isEmpty then none
  else digits.foldlM
    (fun n c => if '0' ≤ c ∧ c ≤ '9' then some (n * 10 + (c.toNat - '0'.toNat)) else none) 0

/-- A number of 32 bits, perhaps with a sign. -/
def position? (text : String) : Option UInt32 :=
  let (negative, digits) := match text.toList with
    | '-' :: rest => (true, rest)
    | '+' :: rest => (false, rest)
    | text => (false, text)
  (digits? digits).bind fun n =>
    if n < 4294967296 ∧ (negative = false ∨ n = 0) then some (UInt32.ofNat n) else none

/-- What may stand behind an option. -/
inductive Argument where
  | nothing
  | text
  | path
  | position
  | chipType
deriving Repr, DecidableEq

/-- Whether a text is an argument of a kind. -/
def Argument.accepts (text : String) : Argument → Bool
  | nothing => text = ""
  | .text => true
  | path => (path? text).isSome
  | position => (position? text).isSome
  | chipType => (ChipType.ofKey? text).isSome

/-- An option: its name, perhaps a letter for it, and its argument. -/
structure OptionSpec where
  name : String
  letter : Option Char := none
  argument : Argument
deriving Repr, DecidableEq

/-- What a command line says: options with their arguments, and other words. -/
structure Words where
  options : List (String × String) := []
  inputs : List String := []
deriving Repr

/-- The name of the option that asks for help. -/
def helpName : String := "help"

/-- Note an option with its argument. The argument has to be of the right kind and the option may
not stand a second time. -/
def Words.add (words : Words) (spec : OptionSpec) (argument : String) : Except LineStop Words :=
  if spec.name = helpName then .error .help
  else if spec.argument.accepts argument && !words.options.any (·.1 = spec.name) then
    .ok { words with options := words.options ++ [(spec.name, argument)] }
  else .error .misuse

/-- Note an input. A command may take no more than so many. -/
def Words.addInput (maxInputs : Option Nat) (words : Words) (input : String) :
    Except LineStop Words :=
  if (path? input).isSome && maxInputs.all (words.inputs.length < ·) then
    .ok { words with inputs := words.inputs ++ [input] }
  else .error .misuse

/-- Whether a word is an option. -/
def looksLikeOption : List Char → Bool
  | '-' :: _ :: _ => true
  | _ => false

/-- The name in a long option and what follows an equals sign in it. -/
def splitLong (text : List Char) : String × Option String :=
  match text.span (· ≠ '=') with
  | (name, '=' :: argument) => (String.ofList name, some (String.ofList argument))
  | (name, _) => (String.ofList name, none)

/-- Read the letters of a word of short options. The result is an option that still wants its
argument from the next word, if there is one, and the options read. -/
def readLetters (specs : List OptionSpec) :
    List Char → Words → Except LineStop (Option OptionSpec × Words)
  | [], words => .ok (none, words)
  | letter :: rest, words =>
    match specs.find? (·.letter = some letter) with
    | none => .error .misuse
    | some spec =>
      if spec.argument = .nothing then do readLetters specs rest (← words.add spec "")
      else
        match rest with
        | [] => .ok (some spec, words)
        | '=' :: argument => do return (none, ← words.add spec (String.ofList argument))
        | argument => do return (none, ← words.add spec (String.ofList argument))

/-- Read the options at the start of a command line that has a word of another kind next; the
result tells the options and the words from there on. `wanted` is the option whose argument the
first word has to be. -/
def readLeading (specs : List OptionSpec) (wanted : Option OptionSpec) :
    List String → Words → Except LineStop (Words × List String)
  | [], words => if wanted.isSome then .error .misuse else .ok (words, [])
  | word :: rest, words =>
    match wanted with
    | some spec =>
      if looksLikeOption word.toList then .error .misuse
      else do readLeading specs none rest (← words.add spec word)
    | none =>
      match word.toList with
      | '-' :: '-' :: [] => .error .misuse
      | '-' :: '-' :: text =>
        let (name, argument) := splitLong text
        match specs.find? (·.name = name) with
        | none => .error .misuse
        | some spec =>
          match spec.argument, argument with
          | .nothing, some _ => .error .misuse
          | .nothing, none => do readLeading specs none rest (← words.add spec "")
          | _, some argument => do readLeading specs none rest (← words.add spec argument)
          | _, none => readLeading specs (some spec) rest words
      | '-' :: letter :: letters => do
        let (wanted, words) ← readLetters specs (letter :: letters) words
        readLeading specs wanted rest words
      | _ => .ok (words, word :: rest)

/-- Read the options and inputs of a command line. -/
def readWords (specs : List OptionSpec) (maxInputs : Option Nat) :
    (fuel : Nat) → List String → Words → Except LineStop Words
  | 0, _, _ => .error .misuse
  | fuel + 1, line, words =>
    match line with
    | [] => .ok words
    | "--" :: rest => rest.foldlM (Words.addInput maxInputs) words
    | _ => do
      let (words, rest) ← readLeading specs none (line.takeWhile (· ≠ "--")) words
      match rest with
      | [] => readWords specs maxInputs fuel (line.dropWhile (· ≠ "--")) words
      | input :: rest =>
        let words ← words.addInput maxInputs input
        readWords specs maxInputs fuel (rest ++ line.dropWhile (· ≠ "--")) words

/-- The argument of an option. -/
def Words.argument? (words : Words) (name : String) : Option String :=
  (words.options.find? (·.1 = name)).map (·.2)

/-- Whether an option is there. -/
def Words.has (words : Words) (name : String) : Bool := (words.argument? name).isSome

/-- The options of every command. -/
def commonOptions : List OptionSpec :=
  [{ name := "log-level", argument := .text },
    { name := helpName, letter := some 'h', argument := .nothing }]

/-- The options of a conversion. -/
def convertOptions : List OptionSpec :=
  commonOptions ++ [
    { name := "output", letter := some 'o', argument := .path },
    { name := "targets", argument := .path },
    { name := "chip-pos", argument := .position },
    { name := "chip-type", argument := .chipType },
    { name := "message", argument := .text },
    { name := "legacy-severity-merge", argument := .nothing },
    { name := "attach-raw", argument := .nothing },
    { name := "attachments-dir", argument := .path }]

/-- The options of a validation. -/
def validateOptions : List OptionSpec :=
  commonOptions ++ [
    { name := "quiet", letter := some 'q', argument := .nothing },
    { name := "summary", letter := some 's', argument := .nothing }]

/-- The conversion that a command line asks for. Attachment files need the raw packages, so asking
for the files asks for those. -/
def ofConvertWords (words : Words) : Except LineStop Command :=
  if words.inputs.isEmpty then .error .misuse
  else
    let attachments := words.argument? "attachments-dir"
    .ok (.convert {
      inputs := words.inputs
      output := words.argument? "output"
      targets := words.argument? "targets"
      attachments
      options := {
        message := (words.argument? "message").getD bootFailureMessage
        chipPosition := ((words.argument? "chip-pos").bind position?).getD 0
        chipType := ((words.argument? "chip-type").bind ChipType.ofKey?).getD .processor
        severityMerge := if words.has "legacy-severity-merge" then .legacy else .worst
        attachRaw := words.has "attach-raw" || attachments.isSome } })

/-- The listing that a command line asks for. -/
def ofInfoWords (words : Words) : Except LineStop Command :=
  match words.inputs with
  | [input] => .ok (.info input)
  | _ => .error .misuse

/-- The validation that a command line asks for. -/
def ofValidateWords (words : Words) : Except LineStop Command :=
  match words.inputs with
  | [input] => .ok (.validate { input, quiet := words.has "quiet", summary := words.has "summary" })
  | _ => .error .misuse

/-- Read the words of one command. -/
def ofWords (specs : List OptionSpec) (maxInputs : Option Nat)
    (make : Words → Except LineStop Command) (line : List String) : Except LineStop Command := do
  make (← readWords specs maxInputs (line.length + 1) line {})

/-- What a command line that starts with `help` comes to: it may name one command. -/
def helpStop : List String → LineStop
  | [] => .help
  | [name] => if ["convert", "info", "validate", helpName].contains name then .help else .misuse
  | _ => .misuse

/-- The command that a command line asks for. -/
def parse (line : List String) : Except LineStop Command := do
  let (_, rest) ← readLeading commonOptions none line {}
  match rest with
  | "convert" :: rest => ofWords convertOptions none ofConvertWords rest
  | "info" :: rest => ofWords commonOptions (some 1) ofInfoWords rest
  | "validate" :: rest => ofWords validateOptions (some 1) ofValidateWords rest
  | "help" :: rest => .error (helpStop rest)
  | _ => .error .misuse

end Command

end FirstFailure
