import FirstFailure.Text.Hex
import FirstFailure.Yaml.Basic
/-!
# Characters of a YAML text

A cursor is a place in a text with its line and column. This module reads what stands inside one
scalar: words, the gaps between them, quotes and escapes. A gap that contains line breaks folds: one
break becomes a space, more breaks lose the first of them.
-/

namespace FirstFailure.Yaml

/-- Whether a character separates words on a line. -/
def isBlank (c : Char) : Bool := c = ' ' || c = '\t'

/-- Whether a character ends a line. -/
def isBreak (c : Char) : Bool :=
  c = '\n' || c = '\r' || c = '\x85' || c = '\u2028' || c = '\u2029'

/-- Whether a character may occur in a document. -/
def isPrintable (c : Char) : Bool :=
  let n := c.toNat
  n = 0x09 || n = 0x0A || n = 0x0D || (0x20 ≤ n && n ≤ 0x7E) || n = 0x85
    || (0xA0 ≤ n && n ≤ 0xFFFD) || 0x10000 ≤ n

/-- Whether a text is at its end or starts with white space. -/
def atGap : List Char → Bool
  | [] => true
  | c :: _ => isBlank c || isBreak c

/-- The number of bytes that characters take in UTF-8. -/
def byteLength (text : List Char) : Nat := (text.map Char.utf8Size).foldr (· + ·) 0

/-- A place in a text: what follows it, its line, the characters before it on the line, and the
bytes before it. -/
structure Cursor where
  rest : List Char
  line : Nat := 0
  column : Nat := 0
  index : Nat := 0

namespace Cursor

/-- Move over characters of the current line. -/
def skip (cursor : Cursor) (count : Nat) : Cursor :=
  { cursor with
    rest := cursor.rest.drop count
    column := cursor.column + count
    index := cursor.index + byteLength (cursor.rest.take count) }

/-- Move over a line break; a carriage return and a line feed are one break. -/
def skipBreak (cursor : Cursor) : Cursor :=
  match cursor.rest with
  | '\r' :: '\n' :: rest => ⟨rest, cursor.line + 1, 0, cursor.index + 2⟩
  | _ =>
    ⟨cursor.rest.drop 1, cursor.line + 1, 0, cursor.index + byteLength (cursor.rest.take 1)⟩

/-- The character that a line break stands for. -/
def breakChar (c : Char) : Char := if c = '\u2028' || c = '\u2029' then c else '\n'

/-- Whether a byte order mark starts the line here. -/
def atByteOrderMark (cursor : Cursor) : Bool :=
  cursor.column = 0 && cursor.rest.head? = some '\uFEFF'

/-- Whether a line starts here with the given three characters alone. -/
def atMarker (cursor : Cursor) (c : Char) : Bool :=
  cursor.column = 0 &&
    match cursor.rest with
    | c1 :: c2 :: c3 :: rest => c1 = c && c2 = c && c3 = c && atGap rest
    | _ => false

/-- Whether a document starts or ends here. -/
def atDocumentMarker (cursor : Cursor) : Bool := cursor.atMarker '-' || cursor.atMarker '.'

end Cursor

/-- White space between words: the blanks before the first line break, and the breaks, both from the
last to the first. -/
structure Gap where
  blanks : List Char := []
  breaks : List Char := []

/-- What a gap stands for in the text of a scalar. -/
def Gap.folded (gap : Gap) : List Char :=
  match gap.breaks.reverse with
  | [] => gap.blanks.reverse
  | ['\n'] => [' ']
  | '\n' :: others => others
  | breaks => breaks

/-- Read the white space at a cursor. After a line break, a tab left of the given column is an
error. -/
def readGap (tabLimit : Nat) : (fuel : Nat) → Cursor → Gap → Except YamlError (Gap × Cursor)
  | 0, cursor, gap => .ok (gap, cursor)
  | fuel + 1, cursor, gap =>
    match cursor.rest with
    | [] => .ok (gap, cursor)
    | c :: _ =>
      if isBlank c then
        if gap.breaks.isEmpty then
          readGap tabLimit fuel (cursor.skip 1) { gap with blanks := c :: gap.blanks }
        else if c = '\t' && cursor.column < tabLimit then .error .tabInIndentation
        else readGap tabLimit fuel (cursor.skip 1) gap
      else if isBreak c then
        readGap tabLimit fuel cursor.skipBreak
          { gap with breaks := Cursor.breakChar c :: gap.breaks }
      else .ok (gap, cursor)

/-- The character of a one-letter escape. -/
def escapeLetter? (c : Char) : Option Char :=
  match c with
  | '0' => some '\x00'
  | 'a' => some '\x07'
  | 'b' => some '\x08'
  | 't' => some '\t'
  | '\t' => some '\t'
  | 'n' => some '\n'
  | 'v' => some '\x0b'
  | 'f' => some '\x0c'
  | 'r' => some '\r'
  | 'e' => some '\x1b'
  | ' ' => some ' '
  | '"' => some '"'
  | '/' => some '/'
  | '\\' => some '\\'
  | 'N' => some '\x85'
  | '_' => some '\xa0'
  | 'L' => some '\u2028'
  | 'P' => some '\u2029'
  | _ => none

/-- The number of digits of an escape by code. -/
def escapeDigits? (c : Char) : Option Nat :=
  match c with
  | 'x' => some 2
  | 'u' => some 4
  | 'U' => some 8
  | _ => none

/-- The number that hexadecimal digits spell. -/
def hexNumber? (digits : List Char) : Option Nat :=
  digits.foldlM (fun n c => (Hex.digitValue? c).map (n * 16 + ·)) 0

/-- The character with a code, if there is one. -/
def charOfCode? (code : Nat) : Option Char :=
  if code.isValidChar then some (Char.ofNat code) else none

/-- The character of the escape that follows a backslash, and the number of characters it takes. -/
def readEscape (text : List Char) : Except YamlError (Char × Nat) :=
  match text with
  | [] => .error .badEscape
  | c :: rest =>
    match escapeLetter? c, escapeDigits? c with
    | some escaped, _ => .ok (escaped, 1)
    | none, some count =>
      let digits := rest.take count
      if digits.length < count then .error .badEscape
      else match (hexNumber? digits).bind charOfCode? with
        | some escaped => .ok (escaped, 1 + count)
        | none => .error .badEscape
    | none, none => .error .badEscape

/-- Read the text of a quoted scalar up to its closing quote. The text read so far is kept in
reverse. -/
def readQuoted (double : Bool) : (fuel : Nat) → Cursor → List Char →
    Except YamlError (List Char × Cursor)
  | 0, _, _ => .error .unclosedQuote
  | fuel + 1, cursor, text =>
    if cursor.atDocumentMarker then .error .markerInQuotes
    else match cursor.rest with
      | [] => .error .unclosedQuote
      | c :: rest =>
        if isBlank c || isBreak c then do
          let (gap, next) ← readGap 0 (fuel + 1) cursor {}
          readQuoted double fuel next (gap.folded.reverse ++ text)
        else if double then
          if c = '"' then .ok (text.reverse, cursor.skip 1)
          else if c = '\\' then
            match rest with
            | b :: _ =>
              if isBreak b then do
                let (gap, next) ← readGap 0 (fuel + 1) (cursor.skip 1) {}
                readQuoted double fuel next (gap.breaks.dropLast ++ text)
              else do
                let (escaped, length) ← readEscape rest
                readQuoted double fuel (cursor.skip (1 + length)) (escaped :: text)
            | [] => .error .badEscape
          else readQuoted double fuel (cursor.skip 1) (c :: text)
        else if c = '\'' then
          match rest with
          | '\'' :: _ => readQuoted double fuel (cursor.skip 2) ('\'' :: text)
          | _ => .ok (text.reverse, cursor.skip 1)
        else readQuoted double fuel (cursor.skip 1) (c :: text)

/-- Whether a character delimits items inside brackets. -/
def isFlowIndicator (c : Char) : Bool :=
  c = ',' || c = '[' || c = ']' || c = '\x7b' || c = '\x7d'

/-- Read one word of a plain scalar. It ends before white space, before a colon that white space
follows and, inside brackets, before a delimiter. -/
def readWord (inFlow : Bool) : (fuel : Nat) → Cursor → List Char →
    Except YamlError (List Char × Cursor)
  | 0, cursor, word => .ok (word, cursor)
  | fuel + 1, cursor, word =>
    match cursor.rest with
    | [] => .ok (word, cursor)
    | c :: rest =>
      if isBlank c || isBreak c then .ok (word, cursor)
      else if inFlow && c = ':' && (rest.head?.any fun d => isFlowIndicator d || d = '?') then
        .error .unexpectedColon
      else if (c = ':' && atGap rest) || (inFlow && isFlowIndicator c) then .ok (word, cursor)
      else readWord inFlow fuel (cursor.skip 1) (c :: word)

/-- Read a plain scalar: words and the gaps between them. Outside brackets a line that starts left
of `margin` ends it. The text read so far is kept in reverse; the result also tells whether a line
break was read behind the last word. -/
def readPlain (inFlow : Bool) (margin : Nat) : (fuel : Nat) → Cursor → List Char → Gap →
    Except YamlError (List Char × Bool × Cursor)
  | 0, cursor, text, gap => .ok (text.reverse, !gap.breaks.isEmpty, cursor)
  | fuel + 1, cursor, text, gap =>
    if cursor.atDocumentMarker || cursor.rest.head? = some '#' then
      .ok (text.reverse, !gap.breaks.isEmpty, cursor)
    else do
      let (word, behind) ← readWord inFlow (fuel + 1) cursor []
      let (text, gap) :=
        if word.isEmpty then (text, gap) else (word ++ (gap.folded.reverse ++ text), {})
      if behind.rest.isEmpty || !atGap behind.rest then
        .ok (text.reverse, !gap.breaks.isEmpty, behind)
      else do
        let (gap, next) ← readGap margin (fuel + 1) behind gap
        if !inFlow && next.column < margin then
          .ok (text.reverse, !gap.breaks.isEmpty, next)
        else readPlain inFlow margin fuel next text gap

end FirstFailure.Yaml
