/-!
# Regular patterns

A pattern describes the texts that match it as a whole. `Pattern.Matches` is the meaning of a
pattern; `Pattern.accepts` decides it by derivatives: the derivative of a pattern by a character
matches what may follow that character.
-/

namespace FirstFailure

/-- A regular pattern. -/
inductive Pattern where
  /-- No text at all. -/
  | never
  /-- The empty text. -/
  | empty
  /-- One character of a class. -/
  | one (member : Char → Bool)
  /-- A text of the first pattern followed by one of the second. -/
  | andThen (first second : Pattern)
  /-- A text of either pattern. -/
  | either (left right : Pattern)
  /-- Any number of texts of the pattern in a row. -/
  | star (body : Pattern)

namespace Pattern

/-- The pattern or nothing. -/
def opt (p : Pattern) : Pattern := either empty p

/-- The pattern once or more. -/
def plus (p : Pattern) : Pattern := andThen p (star p)

/-- Which texts match a pattern. -/
inductive Matches : Pattern → List Char → Prop where
  | empty : Matches .empty []
  | one {member : Char → Bool} {c : Char} : member c = true → Matches (.one member) [c]
  | andThen {first second : Pattern} {s t : List Char} :
      Matches first s → Matches second t → Matches (.andThen first second) (s ++ t)
  | left {left right : Pattern} {s : List Char} : Matches left s → Matches (.either left right) s
  | right {left right : Pattern} {s : List Char} : Matches right s → Matches (.either left right) s
  | starNil {body : Pattern} : Matches (.star body) []
  | starCons {body : Pattern} {s t : List Char} :
      Matches body s → Matches (.star body) t → Matches (.star body) (s ++ t)

/-- Whether the empty text matches. -/
def nullable : Pattern → Bool
  | never => false
  | empty => true
  | one _ => false
  | andThen first second => first.nullable && second.nullable
  | either left right => left.nullable || right.nullable
  | star _ => true

/-- What may follow a character. -/
def derivative (c : Char) : Pattern → Pattern
  | never => never
  | empty => never
  | one member => if member c then empty else never
  | andThen first second =>
    if first.nullable then
      either (andThen (first.derivative c) second) (second.derivative c)
    else andThen (first.derivative c) second
  | either left right => either (left.derivative c) (right.derivative c)
  | star body => andThen (body.derivative c) (star body)

/-- Whether a text matches. -/
def accepts (p : Pattern) : List Char → Bool
  | [] => p.nullable
  | c :: rest => (p.derivative c).accepts rest

end Pattern

end FirstFailure
