import CodeAtlas.Json.Lexer

/-!
# Documents

The tokens of a text arranged as a tree, as far as the text goes. A container knows how it ends: closed,
or stopped at a token that may not stand there or at the end of the text. So a document also describes a
text that is no JSON text, and a reader that goes through it in order meets the first fault exactly when
everything before it has been accepted.
-/

namespace CodeAtlas.Json

/-- How a container ends. -/
inductive Ending where
  | closed
  /-- The token that may not stand there, or none at the end of the text, and whether a comma came
  before it. -/
  | stopped (token : Option Token) (afterComma : Bool)
  deriving DecidableEq, Repr

/-- A text as a tree. -/
inductive Document where
  | null
  | bool (b : Bool)
  | number (n : Numeral)
  | text (t : RawText)
  | array (items : List Document) (ending : Ending)
  | object (members : List (RawText × Document)) (ending : Ending)
  /-- No value: the token that stands there instead, or none at the end of the text. -/
  | broken (token : Option Token)
  deriving BEq, Repr

namespace Document

mutual

/-- The value at the start of the tokens, and what follows it. The first argument bounds the number of
calls within each other. -/
def parseValue : Nat → List Token → Document × List Token
  | 0, tokens => (.broken none, tokens)
  | _ + 1, [] => (.broken none, [])
  | _ + 1, .null :: rest => (.null, rest)
  | _ + 1, .bool b :: rest => (.bool b, rest)
  | _ + 1, .number n :: rest => (.number n, rest)
  | _ + 1, .text t :: rest => (.text t, rest)
  | _ + 1, .openArray :: .closeArray :: rest => (.array [] .closed, rest)
  | fuel + 1, .openArray :: rest =>
    let (items, ending, rest) := parseItems fuel rest
    (.array items ending, rest)
  | _ + 1, .openObject :: .closeObject :: rest => (.object [] .closed, rest)
  | fuel + 1, .openObject :: rest =>
    let (members, ending, rest) := parseMembers fuel false rest
    (.object members ending, rest)
  | _ + 1, token :: rest => (.broken (some token), rest)

/-- The items of an array of which one is due, how it ends, and what follows it. -/
def parseItems : Nat → List Token → List Document × Ending × List Token
  | 0, tokens => ([], .stopped none false, tokens)
  | fuel + 1, tokens =>
    let (item, rest) := parseValue fuel tokens
    match rest with
    | [] => ([item], .stopped none false, [])
    | .closeArray :: rest => ([item], .closed, rest)
    | [.comma] => ([item], .stopped none true, [])
    | .comma :: .closeArray :: rest => ([item], .stopped (some .closeArray) true, rest)
    | .comma :: rest =>
      let (items, ending, rest) := parseItems fuel rest
      (item :: items, ending, rest)
    | token :: rest => ([item], .stopped (some token) false, rest)

/-- The members of an object of which one is due, how it ends, and what follows it. -/
def parseMembers : Nat → (afterComma : Bool) → List Token →
    List (RawText × Document) × Ending × List Token
  | 0, afterComma, tokens => ([], .stopped none afterComma, tokens)
  | _ + 1, afterComma, [] => ([], .stopped none afterComma, [])
  | fuel + 1, _, .text key :: .colon :: rest =>
    let (value, rest) := parseValue fuel rest
    match rest with
    | [] => ([(key, value)], .stopped none false, [])
    | .closeObject :: rest => ([(key, value)], .closed, rest)
    | .comma :: rest =>
      let (members, ending, rest) := parseMembers fuel true rest
      ((key, value) :: members, ending, rest)
    | token :: rest => ([(key, value)], .stopped (some token) false, rest)
  | _ + 1, _, [.text key] => ([(key, .broken none)], .stopped none false, [])
  | _ + 1, _, .text key :: _ :: rest => ([(key, .broken (some .stray))], .stopped none false, rest)
  | _ + 1, afterComma, token :: rest => ([], .stopped (some token) afterComma, rest)

end

/-- The document of a text, and the tokens that follow it. -/
def parse (text : List Char) : Document × List Token :=
  let tokens := lex text
  parseValue (2 * tokens.length + 2) tokens

end Document

/-! ### Faults -/

/-- The fault of an unclosed string literal for a reader that needs its text: a half of a pair that is
alone comes before the place where the literal stops. -/
def RawText.fault (read : RawText) (fault : Fault) : Fault :=
  if RawText.flawed read then .malformed else fault

/-- The fault of what stands in place of a value, for a reader that needs the value. -/
def Token.fault : Option Token → Fault
  | none => .truncated
  | some (.brokenText read fault) => RawText.fault read fault
  | some (.brokenNumber true) => .truncated
  | some (.brokenWord true) => .truncated
  | some _ => .malformed

/-- The fault of what stands in place of a value, for a reader that skips values. -/
def Token.skippedFault : Option Token → Fault
  | none => .truncated
  | some (.brokenText _ fault) => fault
  | some (.brokenWord true) => .truncated
  | some _ => .malformed

namespace Ending

/-- The fault of an array that ends where an item or its end could stand. -/
def arrayFault? : Ending → Option Fault
  | .closed => none
  | .stopped none _ => some .truncated
  | .stopped (some _) _ => some .malformed

/-- The fault of an object, where `ofText` judges an unclosed literal in the place of a key. -/
def objectFault? (ofText : RawText → Fault → Fault) (keyDue : Bool) : Ending → Option Fault
  | .closed => none
  | .stopped none _ => some .truncated
  | .stopped (some (.brokenText read fault)) afterComma =>
    some (if keyDue || afterComma then ofText read fault else .malformed)
  | .stopped (some _) _ => some .malformed

/-- The fault of an array that has to end here. -/
def endFault? : Ending → Option Fault
  | .closed => none
  | .stopped none false => some .truncated
  | .stopped _ _ => some .malformed

end Ending

namespace Document

mutual

/-- The first fault of a value that is skipped. Nothing in it is converted, so numbers may be of any size
and halves of pairs may be alone. -/
def skipFault? : Document → Option Fault
  | .null => none
  | .bool _ => none
  | .number _ => none
  | .text _ => none
  | .array items ending => skipItems? items <|> ending.arrayFault?
  | .object members ending =>
    skipMembers? members <|> ending.objectFault? (fun _ fault => fault) members.isEmpty
  | .broken token => some (Token.skippedFault token)

/-- The first fault among the items of an array. -/
def skipItems? : List Document → Option Fault
  | [] => none
  | d :: rest => d.skipFault? <|> skipItems? rest

/-- The first fault among the members of an object. -/
def skipMembers? : List (RawText × Document) → Option Fault
  | [] => none
  | (_, d) :: rest => d.skipFault? <|> skipMembers? rest

end

end Document

end CodeAtlas.Json
