/-!
# YAML nodes

The content of a YAML document: scalars with their text and whether they were quoted, sequences and
mappings. Anchors, tags, directives and block scalars are not part of the language read here.
-/

namespace FirstFailure

/-- A node of a YAML document. -/
inductive Yaml where
  | scalar (text : String) (quoted : Bool)
  | seq (items : List Yaml)
  | map (entries : List (Yaml × Yaml))
deriving Repr, Inhabited

/-- The node where a document has nothing: a plain scalar without text. -/
def Yaml.nothing : Yaml := .scalar "" false

/-- The text of a scalar, quoted or not. -/
def Yaml.text? : Yaml → Option String
  | .scalar text _ => some text
  | _ => none

/-- Why a text is no YAML document. -/
inductive YamlError where
  /-- A character that no document may contain. -/
  | badCharacter (c : Char)
  /-- A character that starts no token. -/
  | unexpectedCharacter (c : Char)
  /-- The text ends inside quotes. -/
  | unclosedQuote
  /-- A document marker inside quotes. -/
  | markerInQuotes
  /-- A backslash that starts no escape sequence. -/
  | badEscape
  /-- A tab where spaces indent. -/
  | tabInIndentation
  /-- A colon that ends a word inside brackets without a space behind it. -/
  | unexpectedColon
  /-- The start of a line that cannot be a key, where only a key can stand. -/
  | missingColon
  /-- A dash, a question mark or a colon where no entry, key or value can start. -/
  | misplacedIndicator
  /-- A token that does not fit its place. -/
  | unexpectedToken
  /-- More than one document. -/
  | severalDocuments
deriving Repr, DecidableEq

end FirstFailure
