import LinuxPro.Json.BinaryReader
import LinuxPro.Json.Lexer

/-! The class `parser`: JSON values from tokens, with and without a callback. -/

namespace LinuxPro.Json

/-- `parse_event_t` -/
inductive ParseEvent where
  | objectStart | objectEnd | arrayStart | arrayEnd | key | value
  deriving DecidableEq, Repr

/--
A callback with a state of its own.

It is told the depth, the event and the value parsed so far. It returns whether to go on with the
value, and the value itself, which it may have changed.
-/
abbrev Callback (World : Type) := World → Int → ParseEvent → BasicJson → Bool × BasicJson × World

/-- How a parser was constructed, and the `strtod` it calls. -/
structure Settings (World : Type) where
  strtod : Chars → UInt64
  callback : Option (Callback World)
  allowExceptions : Bool

/-- The state of a parser. -/
structure Parser (World : Type) where
  depth : Int := 0
  lastToken : Token := .uninitialized
  lexer : Lexer
  errored : Bool := false
  expected : TokenType := .uninitialized
  /-- The state of the callback. -/
  world : World

/-- Code of the parser. -/
abbrev Parsing (World α : Type) := StateT (Parser World) (Except Failure) α

/-- `move_string` behind a string token. -/
def Token.moveString : Token → Chars
  | .valueString text => text
  | _ => []

/-- The insertion of a member into an object, which keeps the first value of a key. -/
def BasicJson.emplace : BasicJson → Chars → BasicJson → BasicJson
  | .object members, key, value => .object (SortedMap.insert key value members)
  | other, _, _ => other

/-- The insertion of an element at the end of an array. -/
def BasicJson.append : BasicJson → BasicJson → BasicJson
  | .array elements, value => .array (elements ++ [value])
  | other, _ => other

namespace Parser

variable {World : Type} (settings : Settings World)

/-- The state of a parser behind the next token. -/
def next (parser : Parser World) : Parser World :=
  { parser with
    -- A call of `scan` gives the token and the lexer behind it.
    lastToken := (parser.lexer.scan settings.strtod).1
    lexer := (parser.lexer.scan settings.strtod).2 }

/-- `get_token` -/
def getToken : Parsing World Unit := modify (next settings)

/-- The exception that `throw_exception` throws. -/
def syntaxError (parser : Parser World) : Exception :=
  let found :=
    if parser.lastToken = .parseError then
      parser.lexer.errorMessage ++ Chars.ofString "; last read: '" ++
        parser.lexer.getTokenString ++ Chars.ofString "'"
    else Chars.ofString "unexpected " ++ tokenTypeName parser.lastToken.type
  -- Where `expect` was called without a type, nothing was expected.
  let wanted :=
    if parser.expected = .uninitialized then []
    else Chars.ofString "; expected " ++ tokenTypeName parser.expected
  .parseError 101 parser.lexer.charsRead (Chars.ofString "syntax error - " ++ found ++ wanted)

/-- `throw_exception` -/
def throwException {α : Type} : Parsing World α := do throw (.thrown (syntaxError (← get)))

/-- `expect` -/
def expect (type : TokenType) : Parsing World Bool := do
  if (← get).lastToken.type = type then return true
  modify fun parser => { parser with errored := true, expected := type }
  -- Without exceptions the caller has to look at the result.
  if settings.allowExceptions then throwException
  return false

/-- A call of the callback, which reports whether to go on and what became of the value. -/
def call (callback : Callback World) (event : ParseEvent) (value : BasicJson) :
    Parsing World (Bool × BasicJson) := do
  let parser ← get
  let (keep, value, world) := callback parser.world parser.depth event value
  set { parser with world := world }
  return (keep, value)

/-- The start of an object or an array: whether it is kept, and what is built. -/
def start (event : ParseEvent) (empty : BasicJson) (keep : Bool) :
    Parsing World (Bool × BasicJson) := do
  match keep, settings.callback with
  | false, _ => return (false, .discarded)
  | true, none => return (true, empty)
  | true, some callback =>
    let (keep, result) ← call callback event .discarded
    -- The depth grows behind the call, also if the container is refused.
    modify fun parser => { parser with depth := parser.depth + 1 }
    -- A container that is not kept stays the value that the callback was given.
    return (keep, if keep then empty else result)

/-- The end of an object or an array. -/
def finish (event : ParseEvent) (keep : Bool) (result : BasicJson) : Parsing World BasicJson := do
  match keep, settings.callback with
  | true, some callback =>
    modify fun parser => { parser with depth := parser.depth - 1 }
    let (keep, result) ← call callback event result
    -- What the callback refuses at its end is discarded as a whole.
    return if keep then result else .discarded
  | _, _ => return result

/-- The call of the callback behind each value. -/
def reportValue (keep : Bool) (result : BasicJson) : Parsing World BasicJson := do
  match keep, settings.callback with
  | true, some callback =>
    -- It is not asked again about a container that it has refused at its start.
    let (keep, result) ← call callback .value result
    return if keep then result else .discarded
  | _, _ => return result

/-- What `parse_internal` does behind the loop over a container, which may have met an error. -/
def endLoop (event : ParseEvent) (keep : Bool) (ended : Bool × BasicJson) :
    Parsing World BasicJson := do
  if ended.1 then reportValue settings keep (← finish settings event keep ended.2)
  else return ended.2

/-- Whether the callback keeps a key. What it does to its copy of the key is lost. -/
def keepTag (keep : Bool) (key : Chars) : Parsing World Bool := do
  match keep, settings.callback with
  | false, _ => return false
  | true, none => return true
  | true, some callback => return (← call callback .key (.string key)).1

/-- The cases of `parse_internal` for a token that is no bracket. -/
def parseScalar (keep : Bool) : Parsing World BasicJson := do
  match (← get).lastToken with
  | .literalNull => reportValue settings keep .null
  | .valueString text => reportValue settings keep (.string text)
  | .literalTrue => reportValue settings keep (.boolean true)
  | .literalFalse => reportValue settings keep (.boolean false)
  | .valueUnsigned value => reportValue settings keep (.numberUnsigned value)
  | .valueInteger value => reportValue settings keep (.numberInteger value)
  | .valueFloat bits =>
    -- The overflow is found only after the number was scanned.
    if !isFinite bits then
      if settings.allowExceptions then
        throw (.thrown (.outOfRange 406 (Chars.ofString "number overflow parsing '" ++
          (← get).lexer.getTokenString ++ Chars.ofString "'")))
      else
        -- A number is not of this type, so that the error is always set.
        let _ ← expect settings .uninitialized
        reportValue settings keep (.numberFloat bits)
    else reportValue settings keep (.numberFloat bits)
  | .parseError => do
    let _ ← expect settings .uninitialized
    return .discarded
  | _ => do
    let _ ← expect settings .literalOrValue
    return .discarded

mutual

/-- `parse_internal`, with a bound on how often it and its loops recur. -/
def parseInternal : Nat → Bool → Parsing World BasicJson
  | 0, _ => throw .outOfFuel
  | fuel + 1, keep => do
    match (← get).lastToken with
    | .beginObject =>
      let (keep, result) ← start settings .objectStart (.object []) keep
      getToken settings
      if (← get).lastToken = .endObject then
        reportValue settings keep (← finish settings .objectEnd keep result)
      else
        endLoop settings .objectEnd keep (← parseMembers fuel keep result)
    | .beginArray =>
      let (keep, result) ← start settings .arrayStart (.array []) keep
      getToken settings
      if (← get).lastToken = .endArray then
        -- The source asks the callback for an empty array whether it is kept or not.
        reportValue settings keep (← finish settings .arrayEnd true result)
      else
        endLoop settings .arrayEnd keep (← parseElements fuel keep result)
    | _ => parseScalar settings keep

/-- The loop over the members of an object: whether it met the end, and what was built. -/
def parseMembers : Nat → Bool → BasicJson → Parsing World (Bool × BasicJson)
  | 0, _, _ => throw .outOfFuel
  | fuel + 1, keep, result => do
    if ← expect settings .valueString then
      let key := (← get).lastToken.moveString
      -- The key is offered to the callback before its value is parsed.
      let keepTag ← keepTag settings keep key
      getToken settings
      if ← expect settings .nameSeparator then
        getToken settings
        let value ← parseInternal fuel keep
        -- Without exceptions an error inside has to end the loop.
        if (← get).errored then return (false, result)
        else
          let result :=
            -- A member is left out if its key or its value was refused.
            if keep && keepTag && !value.isDiscarded then result.emplace key value else result
          getToken settings
          if (← get).lastToken = .valueSeparator then
            getToken settings
            parseMembers fuel keep result
          else return (← expect settings .endObject, result)
      else return (false, result)
    else return (false, result)

/-- The loop over the elements of an array: whether it met the end, and what was built. -/
def parseElements : Nat → Bool → BasicJson → Parsing World (Bool × BasicJson)
  | 0, _, _ => throw .outOfFuel
  | fuel + 1, keep, result => do
    let value ← parseInternal fuel keep
    -- Without exceptions an error inside has to end the loop.
    if (← get).errored then return (false, result)
    else
      let result := if keep && !value.isDiscarded then result.append value else result
      getToken settings
      if (← get).lastToken = .valueSeparator then
        getToken settings
        parseElements fuel keep result
      else return (← expect settings .endArray, result)

end

/-- The check of `parse` that the text ends, in strict mode. -/
def expectEnd (strict : Bool) : Parsing World Unit := do
  if strict then
    getToken settings
    let _ ← expect settings .endOfInput

/-- `parse` -/
def parse (fuel : Nat) (strict : Bool) : Parsing World BasicJson := do
  getToken settings
  let result ← parseInternal settings fuel true
  expectEnd settings strict
  -- At the top a value that was refused by the callback is null.
  return if (← get).errored then .discarded else if result.isDiscarded then .null else result

/-- The cases of `accept_internal` for a token that opens nothing. -/
def acceptScalar : Token → Bool
  -- An overflow is refused here as well.
  | .valueFloat bits => isFinite bits
  | .literalFalse | .literalNull | .literalTrue | .valueInteger _ | .valueString _
  | .valueUnsigned _ => true
  | _ => false

mutual

/-- `accept_internal`, with the same bound as `parse_internal`. -/
def acceptInternal : Nat → Parsing World Bool
  | 0 => throw .outOfFuel
  | fuel + 1 => do
    match (← get).lastToken with
    | .beginObject =>
      getToken settings
      if (← get).lastToken = .endObject then return true else acceptMembers fuel
    | .beginArray =>
      getToken settings
      if (← get).lastToken = .endArray then return true else acceptElements fuel
    | token => return acceptScalar token

/-- The loop of `accept_internal` over the members of an object. -/
def acceptMembers : Nat → Parsing World Bool
  | 0 => throw .outOfFuel
  | fuel + 1 => do
    if (← get).lastToken.type ≠ .valueString then return false
    else
      getToken settings
      if (← get).lastToken ≠ .nameSeparator then return false
      else
        getToken settings
        if ← acceptInternal fuel then
          getToken settings
          if (← get).lastToken = .valueSeparator then
            getToken settings
            acceptMembers fuel
          else return (← get).lastToken = .endObject
        else return false

/-- The loop of `accept_internal` over the elements of an array. -/
def acceptElements : Nat → Parsing World Bool
  | 0 => throw .outOfFuel
  | fuel + 1 => do
    if ← acceptInternal fuel then
      getToken settings
      if (← get).lastToken = .valueSeparator then
        getToken settings
        acceptElements fuel
      -- Behind an element there is a comma or the closing bracket.
      else return (← get).lastToken = .endArray
    else return false

end

/-- `accept` -/
def accept (fuel : Nat) (strict : Bool) : Parsing World Bool := do
  getToken settings
  if ← acceptInternal settings fuel then
    if strict then
      getToken settings
      return (← get).lastToken = .endOfInput
    else return true
  else return false

end Parser

/-- A parser over a text. -/
def parserOf {World : Type} (text : Chars) (world : World) : Parser World where
  lexer := { left := bufferAdapter text }
  world := world

/-- The fuel for a text, which is more than its parser uses. -/
def parserFuel (text : Chars) : Nat := 2 * text.length + 3

/-- `basic_json::parse` of a text, with the state in which the callback ends up. -/
def parse {World : Type} (settings : Settings World) (world : World) (text : Chars) :
    Except Failure (BasicJson × World) :=
  (Parser.parse settings (parserFuel text) true (parserOf text world)).map
    fun (json, parser) => (json, parser.world)

/-- `basic_json::accept` of a text. -/
def accept (strtod : Chars → UInt64) (text : Chars) : Except Failure Bool :=
  (Parser.accept ⟨strtod, none, true⟩ (parserFuel text) true (parserOf text ())).map Prod.fst

end LinuxPro.Json
