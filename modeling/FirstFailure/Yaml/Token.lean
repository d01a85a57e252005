import FirstFailure.Yaml.Cursor
/-!
# Tokens of a YAML text

Indentation and implicit keys are made explicit: a block collection starts and ends with tokens of
its own, and a token marks every key. A scalar or a bracketed collection turns out to be a key only
when a colon follows it on the same line, so the place where its key token would go is kept until
then.
-/

namespace FirstFailure.Yaml

/-- A token. -/
inductive Token where
  | documentStart
  | documentEnd
  | blockSequenceStart
  | blockMappingStart
  | blockEnd
  | flowSequenceStart
  | flowSequenceEnd
  | flowMappingStart
  | flowMappingEnd
  | blockEntry
  | flowEntry
  | key
  | value
  | scalar (text : String) (quoted : Bool)
deriving Repr, DecidableEq

/-- A place where a key may have started. -/
structure Candidate where
  /-- The number of tokens before it. -/
  token : Nat
  line : Nat
  column : Nat
  index : Nat
  /-- Nothing but a key can start here. -/
  required : Bool

/-- The longest distance in bytes between the start of an implicit key and its colon. -/
def maxKeyLength : Nat := 1024

/-- A reader of tokens of a text of at most `size` characters. Columns count from one in `indents`,
where the current block comes first and zero stands for no block. There is a candidate for every
open bracket, the innermost first, and one for the text outside brackets. -/
structure Lexer where
  size : Nat
  cursor : Cursor
  tokens : Array Token := #[]
  indents : List Nat := []
  candidate : Option Candidate := none
  outer : List (Option Candidate) := []
  /-- Whether a key may start here. -/
  keyAllowed : Bool := true

namespace Lexer

/-- Whether the reader is inside brackets. -/
def inFlow (lexer : Lexer) : Bool := !lexer.outer.isEmpty

/-- The column at which the text of the current block starts, counted from one; zero outside. -/
def indent (lexer : Lexer) : Nat := lexer.indents.headD 0

/-- Append a token. -/
def push (lexer : Lexer) (token : Token) : Lexer :=
  { lexer with tokens := lexer.tokens.push token }

/-- Insert a token behind the given number of tokens. -/
def insertAt (lexer : Lexer) (position : Nat) (token : Token) : Lexer :=
  { lexer with tokens := lexer.tokens.insertIdxIfInBounds position token }

/-- Move over characters of a token. -/
def skip (lexer : Lexer) (count : Nat) : Lexer :=
  { lexer with cursor := lexer.cursor.skip count }

/-- Move to the start of the next token. A byte order mark may start any line, where it takes up a
column. Outside brackets a line break allows a key. -/
def skipSpace : (fuel : Nat) → Lexer → Lexer
  | 0, lexer => lexer
  | fuel + 1, lexer =>
    match lexer.cursor.rest with
    | [] => lexer
    | c :: _ =>
      if c = ' ' || (c = '\t' && (lexer.inFlow || !lexer.keyAllowed))
          || lexer.cursor.atByteOrderMark then
        skipSpace fuel (lexer.skip 1)
      else if c = '#' then
        skipSpace fuel
          (lexer.skip (lexer.cursor.rest.takeWhile fun d => !isBreak d).length)
      else if isBreak c then
        skipSpace fuel
          { lexer with
            cursor := lexer.cursor.skipBreak
            keyAllowed := lexer.keyAllowed || !lexer.inFlow }
      else lexer

/-- Give up a candidate that is behind the current line or too far back. -/
def expire (cursor : Cursor) : Option Candidate → Except YamlError (Option Candidate)
  | none => .ok none
  | some candidate =>
    if candidate.line < cursor.line || candidate.index + maxKeyLength < cursor.index then
      if candidate.required then .error .missingColon else .ok none
    else .ok (some candidate)

/-- Give up all candidates that have expired. -/
def expireAll (lexer : Lexer) : Except YamlError Lexer := do
  let candidate ← expire lexer.cursor lexer.candidate
  let outer ← lexer.outer.mapM (expire lexer.cursor)
  return { lexer with candidate, outer }

/-- Give up the innermost candidate. -/
def dropCandidate (lexer : Lexer) : Except YamlError Lexer :=
  match lexer.candidate with
  | some candidate =>
    if candidate.required then .error .missingColon else .ok { lexer with candidate := none }
  | none => .ok lexer

/-- Note that the next token may start a key. -/
def noteCandidate (lexer : Lexer) : Except YamlError Lexer :=
  if lexer.keyAllowed then do
    let lexer ← lexer.dropCandidate
    let cursor := lexer.cursor
    return { lexer with
      candidate := some {
        token := lexer.tokens.size
        line := cursor.line
        column := cursor.column
        index := cursor.index
        required := !lexer.inFlow && lexer.indent = cursor.column + 1 } }
  else .ok lexer

/-- End the blocks that start right of the given column, counted from one. -/
def unindent (lexer : Lexer) (column : Nat) : Lexer :=
  if lexer.inFlow then lexer
  else
    let ended := lexer.indents.takeWhile (column < ·)
    { lexer with
      indents := lexer.indents.drop ended.length
      tokens := lexer.tokens ++ Array.replicate ended.length Token.blockEnd }

/-- Start a block at a column when it is right of the current block. Its token goes behind the given
number of tokens. -/
def openBlock (lexer : Lexer) (column position : Nat) (token : Token) : Lexer :=
  if !lexer.inFlow && lexer.indent < column + 1 then
    { lexer.insertAt position token with indents := (column + 1) :: lexer.indents }
  else lexer

/-- A document marker ends all blocks. -/
def documentMarker (lexer : Lexer) (token : Token) : Except YamlError Lexer := do
  let lexer ← (lexer.unindent 0).dropCandidate
  return { (lexer.skip 3).push token with keyAllowed := false }

/-- An opening bracket may start a key. -/
def openFlow (lexer : Lexer) (token : Token) : Except YamlError Lexer := do
  let lexer ← lexer.noteCandidate
  return { (lexer.skip 1).push token with
    candidate := none
    outer := lexer.candidate :: lexer.outer
    keyAllowed := true }

/-- A closing bracket. -/
def closeFlow (lexer : Lexer) (token : Token) : Except YamlError Lexer := do
  let lexer ← lexer.dropCandidate
  let lexer :=
    match lexer.outer with
    | candidate :: outer => { lexer with candidate, outer }
    | [] => lexer
  return { (lexer.skip 1).push token with keyAllowed := false }

/-- A comma. -/
def flowEntry (lexer : Lexer) : Except YamlError Lexer := do
  let lexer ← lexer.dropCandidate
  return { (lexer.skip 1).push .flowEntry with keyAllowed := true }

/-- A dash before an item of a block sequence. -/
def blockEntry (lexer : Lexer) : Except YamlError Lexer :=
  if !lexer.inFlow && !lexer.keyAllowed then .error .misplacedIndicator
  else do
    let lexer := lexer.openBlock lexer.cursor.column lexer.tokens.size .blockSequenceStart
    let lexer ← lexer.dropCandidate
    return { (lexer.skip 1).push .blockEntry with keyAllowed := true }

/-- A question mark before a key. -/
def explicitKey (lexer : Lexer) : Except YamlError Lexer :=
  if !lexer.inFlow && !lexer.keyAllowed then .error .misplacedIndicator
  else do
    let lexer := lexer.openBlock lexer.cursor.column lexer.tokens.size .blockMappingStart
    let lexer ← lexer.dropCandidate
    return { (lexer.skip 1).push .key with keyAllowed := !lexer.inFlow }

/-- A colon before a value. It makes the candidate a key. -/
def value (lexer : Lexer) : Except YamlError Lexer :=
  match lexer.candidate with
  | some candidate =>
    let lexer := lexer.insertAt candidate.token .key
    let lexer := lexer.openBlock candidate.column candidate.token .blockMappingStart
    .ok { (lexer.skip 1).push .value with candidate := none, keyAllowed := false }
  | none =>
    if !lexer.inFlow && !lexer.keyAllowed then .error .misplacedIndicator
    else
      let lexer := lexer.openBlock lexer.cursor.column lexer.tokens.size .blockMappingStart
      .ok { (lexer.skip 1).push .value with keyAllowed := !lexer.inFlow }

/-- A scalar in quotes. -/
def quotedScalar (lexer : Lexer) (double : Bool) : Except YamlError Lexer := do
  let lexer ← lexer.noteCandidate
  let cursor := lexer.cursor.skip 1
  let (text, next) ← readQuoted double (lexer.size + 1) cursor []
  return { lexer.push (.scalar (String.ofList text) true) with
    cursor := next
    keyAllowed := false }

/-- A scalar without quotes. A line break behind it allows a key. -/
def plainScalar (lexer : Lexer) : Except YamlError Lexer := do
  let lexer ← lexer.noteCandidate
  let (text, broken, next) ←
    readPlain lexer.inFlow lexer.indent (lexer.size + 1) lexer.cursor [] {}
  return { lexer.push (.scalar (String.ofList text) false) with
    cursor := next
    keyAllowed := broken }

/-- Whether a character cannot start a plain scalar. -/
def isIndicator (c : Char) : Bool :=
  ['-', '?', ':', ',', '[', ']', '\x7b', '\x7d', '#', '&', '*', '!', '|', '>', '\'', '"', '%', '@',
    '\x60'].contains c

/-- Read the token that starts with the given character. -/
def readToken (lexer : Lexer) (c : Char) (rest : List Char) : Except YamlError Lexer :=
  if lexer.cursor.atMarker '-' then lexer.documentMarker .documentStart
  else if lexer.cursor.atMarker '.' then lexer.documentMarker .documentEnd
  else if c = '[' then lexer.openFlow .flowSequenceStart
  else if c = '\x7b' then lexer.openFlow .flowMappingStart
  else if c = ']' then lexer.closeFlow .flowSequenceEnd
  else if c = '\x7d' then lexer.closeFlow .flowMappingEnd
  else if c = ',' then lexer.flowEntry
  else if c = '-' && atGap rest then lexer.blockEntry
  else if c = '?' && (lexer.inFlow || atGap rest) then lexer.explicitKey
  else if c = ':' && (lexer.inFlow || atGap rest) then lexer.value
  else if c = '\'' then lexer.quotedScalar false
  else if c = '"' then lexer.quotedScalar true
  else if !(isBlank c || isIndicator c)
      || (c = '-' && !(rest.head?.any isBlank))
      || (!lexer.inFlow && (c = '?' || c = ':')) then
    lexer.plainScalar
  else .error (.unexpectedCharacter c)

/-- Read all tokens. Every token takes a character at least, so the length of the text bounds their
number. -/
def readTokens : (fuel : Nat) → Lexer → Except YamlError (List Token)
  | 0, lexer => .ok lexer.tokens.toList
  | fuel + 1, lexer => do
    let lexer := lexer.skipSpace (lexer.size + 1)
    let lexer ← lexer.expireAll
    match lexer.cursor.rest with
    | [] =>
      let lexer ← (lexer.unindent 0).dropCandidate
      return lexer.tokens.toList
    | c :: rest =>
      let lexer ← (lexer.unindent (lexer.cursor.column + 1)).readToken c rest
      readTokens fuel lexer

end Lexer

/-- The tokens of a text. -/
def tokens (text : List Char) : Except YamlError (List Token) :=
  match text.find? fun c => !isPrintable c with
  | some c => .error (.badCharacter c)
  | none =>
    let size := text.length
    Lexer.readTokens (size + 1) { size, cursor := { rest := text } }

end FirstFailure.Yaml
