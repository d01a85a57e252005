import FirstFailure.Yaml.Token
/-!
# YAML documents

`Yaml.parse` reads the one document of a text. A place where a node may be left out holds the node
`Yaml.nothing`; so does a text without any node.
-/

namespace FirstFailure.Yaml

/-- Whether the next token is one of those given. -/
def nextIsAny (members : List Token) : List Token → Bool
  | [] => false
  | token :: _ => members.contains token

/-- Move over the comma before every item but the first. -/
def readComma (first : Bool) (tokens : List Token) : Except YamlError (List Token) :=
  if first then .ok tokens
  else match tokens with
    | .flowEntry :: rest => .ok rest
    | _ => .error .unexpectedToken

mutual

/-- Read a node. Outside brackets it may be a block, and behind a key also a sequence that is not
indented. -/
def readNode (block unindented : Bool) :
    (fuel : Nat) → List Token → Except YamlError (Yaml × List Token)
  | 0, _ => .error .unexpectedToken
  | fuel + 1, tokens =>
    match tokens with
    | .scalar text quoted :: rest => .ok (.scalar text quoted, rest)
    | .flowSequenceStart :: rest => do
      let (items, rest) ← readFlowItems true fuel rest
      return (.seq items, rest)
    | .flowMappingStart :: rest => do
      let (entries, rest) ← readFlowEntries true fuel rest
      return (.map entries, rest)
    | .blockSequenceStart :: rest =>
      if block then do
        let (items, rest) ← readBlockItems fuel rest
        return (.seq items, rest)
      else .error .unexpectedToken
    | .blockMappingStart :: rest =>
      if block then do
        let (entries, rest) ← readBlockEntries fuel rest
        return (.map entries, rest)
      else .error .unexpectedToken
    | .blockEntry :: _ =>
      if unindented then do
        let (items, rest) ← readUnindentedItems fuel tokens
        return (.seq items, rest)
      else .error .unexpectedToken
    | _ => .error .unexpectedToken

/-- Read a node unless one of the given tokens shows that it is left out. -/
def readOptional (stops : List Token) (block unindented : Bool) :
    (fuel : Nat) → List Token → Except YamlError (Yaml × List Token)
  | 0, _ => .error .unexpectedToken
  | fuel + 1, tokens =>
    if nextIsAny stops tokens then .ok (nothing, tokens)
    else readNode block unindented fuel tokens

/-- Read the items of a block sequence and its end. -/
def readBlockItems : (fuel : Nat) → List Token → Except YamlError (List Yaml × List Token)
  | 0, _ => .error .unexpectedToken
  | fuel + 1, tokens =>
    match tokens with
    | .blockEntry :: rest => do
      let (item, rest) ← readOptional [.blockEntry, .blockEnd] true false fuel rest
      let (items, rest) ← readBlockItems fuel rest
      return (item :: items, rest)
    | .blockEnd :: rest => .ok ([], rest)
    | _ => .error .unexpectedToken

/-- Read the items of a sequence that is not indented. -/
def readUnindentedItems : (fuel : Nat) → List Token → Except YamlError (List Yaml × List Token)
  | 0, _ => .error .unexpectedToken
  | fuel + 1, tokens =>
    match tokens with
    | .blockEntry :: rest => do
      let (item, rest) ←
        readOptional [.blockEntry, .key, .value, .blockEnd] true false fuel rest
      let (items, rest) ← readUnindentedItems fuel rest
      return (item :: items, rest)
    | _ => .ok ([], tokens)

/-- Read the entries of a block mapping and its end. -/
def readBlockEntries :
    (fuel : Nat) → List Token → Except YamlError (List (Yaml × Yaml) × List Token)
  | 0, _ => .error .unexpectedToken
  | fuel + 1, tokens =>
    match tokens with
    | .key :: rest => do
      let (key, rest) ← readOptional [.key, .value, .blockEnd] true true fuel rest
      let (value, rest) ← readBlockValue fuel rest
      let (entries, rest) ← readBlockEntries fuel rest
      return ((key, value) :: entries, rest)
    | .blockEnd :: rest => .ok ([], rest)
    | _ => .error .unexpectedToken

/-- Read the value of an entry of a block mapping, if it has one. -/
def readBlockValue : (fuel : Nat) → List Token → Except YamlError (Yaml × List Token)
  | 0, _ => .error .unexpectedToken
  | fuel + 1, tokens =>
    match tokens with
    | .value :: rest => readOptional [.key, .value, .blockEnd] true true fuel rest
    | _ => .ok (nothing, tokens)

/-- Read the key of a mapping of one entry among the items of a bracketed sequence. The token that
shows that the key is left out belongs to the key: another one like it has to follow where that
token is wanted. -/
def readItemKey : (fuel : Nat) → List Token → Except YamlError (Yaml × List Token)
  | 0, _ => .error .unexpectedToken
  | fuel + 1, tokens =>
    match tokens with
    | .value :: rest => .ok (nothing, rest)
    | .flowEntry :: rest => .ok (nothing, rest)
    | .flowSequenceEnd :: rest => .ok (nothing, rest)
    | _ => readNode false false fuel tokens

/-- Read the items of a bracketed sequence and its end. Commas stand between the items, and one may
stand behind the last. An item with a key is a mapping of one entry. -/
def readFlowItems (first : Bool) :
    (fuel : Nat) → List Token → Except YamlError (List Yaml × List Token)
  | 0, _ => .error .unexpectedToken
  | fuel + 1, tokens =>
    match tokens with
    | .flowSequenceEnd :: rest => .ok ([], rest)
    | _ => do
      let tokens ← readComma first tokens
      match tokens with
      | .flowSequenceEnd :: rest => return ([], rest)
      | .key :: rest =>
        let (key, rest) ← readItemKey fuel rest
        let (value, rest) ← readFlowValue [.flowEntry, .flowSequenceEnd] fuel rest
        let (items, rest) ← readFlowItems false fuel rest
        return (.map [(key, value)] :: items, rest)
      | _ =>
        let (item, rest) ← readNode false false fuel tokens
        let (items, rest) ← readFlowItems false fuel rest
        return (item :: items, rest)

/-- Read the entries of a bracketed mapping and its end. An entry without a key token is a key
without a value. -/
def readFlowEntries (first : Bool) :
    (fuel : Nat) → List Token → Except YamlError (List (Yaml × Yaml) × List Token)
  | 0, _ => .error .unexpectedToken
  | fuel + 1, tokens =>
    match tokens with
    | .flowMappingEnd :: rest => .ok ([], rest)
    | _ => do
      let tokens ← readComma first tokens
      match tokens with
      | .flowMappingEnd :: rest => return ([], rest)
      | .key :: rest =>
        let (key, rest) ←
          readOptional [.value, .flowEntry, .flowMappingEnd] false false fuel rest
        let (value, rest) ← readFlowValue [.flowEntry, .flowMappingEnd] fuel rest
        let (entries, rest) ← readFlowEntries false fuel rest
        return ((key, value) :: entries, rest)
      | _ =>
        let (key, rest) ← readNode false false fuel tokens
        let (entries, rest) ← readFlowEntries false fuel rest
        return ((key, nothing) :: entries, rest)

/-- Read the value of an entry inside brackets, if it has one. -/
def readFlowValue (stops : List Token) :
    (fuel : Nat) → List Token → Except YamlError (Yaml × List Token)
  | 0, _ => .error .unexpectedToken
  | fuel + 1, tokens =>
    match tokens with
    | .value :: rest => readOptional stops false false fuel rest
    | _ => .ok (nothing, tokens)

end

/-- The bound on the depth of a reading: between two tokens there are at most three steps. -/
def readingFuel (tokens : List Token) : Nat := 4 * (tokens.length + 1)

/-- Read what follows the marker of a document, or a document without one. -/
def readContent (tokens : List Token) : Except YamlError (Yaml × List Token) :=
  match tokens with
  | [] => .ok (nothing, [])
  | .documentStart :: _ => .ok (nothing, tokens)
  | .documentEnd :: _ => .ok (nothing, tokens)
  | _ => readNode true false (readingFuel tokens) tokens

/-- Read the one document that tokens form. -/
def ofTokens (tokens : List Token) : Except YamlError Yaml := do
  let (node, rest) ←
    match tokens with
    | .documentStart :: rest => readContent rest
    | .documentEnd :: _ => .error .unexpectedToken
    | _ => readContent tokens
  if rest.all fun token => token = .documentEnd then return node
  else .error .severalDocuments

/-- Read the one document of a text. -/
def parse (text : String) : Except YamlError Yaml := do
  ofTokens (← tokens text.toList)

end FirstFailure.Yaml
