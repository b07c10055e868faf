import NeroCD.Checks
import NeroCD.GoStrings

-- Interpolation of Compose values: the scanner (`ExpandHostingStackValue` of `domain/hosting_stack.go`), its grammar
-- and the escaping of `renderStack`.

namespace NeroCD.Interpolation

open NeroCD.Checks

section Syntax

def dollar : UInt8 := 36

def openBrace : UInt8 := 123

def closeBrace : UInt8 := 125

def colon : UInt8 := 58

def nameStart (b : UInt8) : Bool := b == 95 || (65 ≤ b && b ≤ 90) || (97 ≤ b && b ≤ 122)

def nameByte (b : UInt8) : Bool := nameStart b || (48 ≤ b && b ≤ 57)

def special (b : UInt8) : Bool := b == dollar || b == openBrace || b == closeBrace

-- `-`, `+` and `?`.
inductive Operation where
  | default
  | alternative
  | required
  deriving DecidableEq

structure Operator where
  operation : Operation
  nonempty : Bool
  deriving DecidableEq

def operation (b : UInt8) : Option Operation :=
  if b = 45 then some .default else if b = 43 then some .alternative else if b = 63 then some .required else none

inductive Piece where
  | literal (b : UInt8)
  | escaped
  | reference (name : Bytes) (modifier : Option (Operator × Bytes))
  deriving DecidableEq

inductive Error where
  -- expanded Compose value exceeds limit
  | limit
  -- invalid Compose interpolation
  | invalid
  -- unterminated Compose interpolation
  | unterminated
  -- unsupported Compose interpolation
  | unsupported
  -- nested Compose interpolation is unsupported
  | nested
  -- compose variable %s is required
  | required (name : Bytes)
  -- compose variable %s is required and nonempty
  | requiredNonempty (name : Bytes)
  deriving DecidableEq

end Syntax

section Scanner

def readName (text : Bytes) : Bytes × Bytes :=
  match text with
  | [] => ([], [])
  | b :: rest => if nameStart b then (b :: rest.takeWhile nameByte, rest.dropWhile nameByte) else ([], text)

def readOperand (operator : Operator) (text : Bytes) : Except Error (Option (Operator × Bytes) × Bytes) :=
  match text.dropWhile (· != closeBrace) with
  | [] => .error .unterminated
  | _ :: rest =>
    if (text.takeWhile (· != closeBrace)).any special then .error .nested
    else .ok (some (operator, text.takeWhile (· != closeBrace)), rest)

def readOperator (nonempty : Bool) (text : Bytes) : Except Error (Option (Operator × Bytes) × Bytes) :=
  match text with
  | [] => .error .unsupported
  | b :: rest =>
    match operation b with
    | none => .error .unsupported
    | some op => readOperand ⟨op, nonempty⟩ rest

def readModifier (text : Bytes) : Except Error (Option (Operator × Bytes) × Bytes) :=
  match text with
  | [] => .error .unterminated
  | b :: rest =>
    if b = closeBrace then .ok (none, rest)
    else if b = colon then readOperator true rest
    else readOperator false text

def readVariable (braced : Bool) (text : Bytes) : Except Error (Piece × Bytes) :=
  let (name, rest) := readName text
  if name.isEmpty then .error .invalid
  else if braced then do
    let (modifier, rest) ← readModifier rest
    pure (.reference name modifier, rest)
  else .ok (.reference name none, rest)

def readPiece (b : UInt8) (rest : Bytes) : Except Error (Piece × Bytes) :=
  if b ≠ dollar then .ok (.literal b, rest)
  else
    match rest with
    | [] => readVariable false []
    | c :: after =>
      if c = dollar then .ok (.escaped, after)
      else if c = openBrace then readVariable true after
      else readVariable false rest

abbrev Values := Bytes → Option Bytes

variable (values : Values) (require : Bool)

def substitute : Piece → Except Error Bytes
  | .literal b => .ok [b]
  | .escaped => .ok [dollar]
  | .reference name modifier =>
    let value := (values name).getD []
    let set := (values name).isSome
    let populated := set && value != []
    match modifier with
    | none => .ok value
    | some (⟨.default, false⟩, operand) => .ok (if !set then operand else value)
    | some (⟨.default, true⟩, operand) => .ok (if !populated then operand else value)
    | some (⟨.alternative, false⟩, operand) => .ok (if set then operand else [])
    | some (⟨.alternative, true⟩, operand) => .ok (if populated then operand else [])
    | some (⟨.required, false⟩, _) => if !set && require then .error (.required name) else .ok value
    | some (⟨.required, true⟩, _) => if !populated && require then .error (.requiredNonempty name) else .ok value

-- A single byte is refused when the output is full, a value when it does not fit.
def full (out : Bytes) (piece : Piece) (value : Bytes) : Bool :=
  match piece with
  | .literal _ => out.length == 4096
  | .escaped => out.length == 4096
  | .reference _ _ => value.length > 4096 - out.length

def expandFrom : Nat → Bytes → Bytes → Except Error Bytes
  | _, [], out => .ok out
  | 0, _ :: _, out => .ok out
  | fuel + 1, b :: rest, out => do
    let (piece, rest) ← readPiece b rest
    let value ← substitute values require piece
    if full out piece value then .error .limit
    else expandFrom fuel rest (out ++ value)

-- Every turn of the loop consumes a byte, so there are no more turns than bytes.
def expand (expression : Bytes) : Except Error Bytes := expandFrom values require expression.length expression []

-- `strings.ReplaceAll(value, "$", "$$")`.
def escape (value : Bytes) : Bytes := value.flatMap fun b => if b = dollar then [dollar, dollar] else [b]

-- How `renderStack` writes a value into the document that Compose reads.
def renderValue (expression : Bytes) : Except Error Bytes := do
  let value ← expand values true expression
  pure (escape value)

end Scanner

section Grammar

def IsName (name : Bytes) : Prop := ∃ b rest, name = b :: rest ∧ nameStart b = true ∧ ∀ c ∈ rest, nameByte c = true

def Operation.byte : Operation → UInt8
  | .default => 45
  | .alternative => 43
  | .required => 63

def Operator.text (operator : Operator) : Bytes :=
  if operator.nonempty then [colon, operator.operation.byte] else [operator.operation.byte]

-- A name outside braces is as long as it can be.
inductive Begins : Bytes → Piece → Bytes → Prop where
  | literal {b : UInt8} {rest : Bytes} (h : b ≠ dollar) : Begins (b :: rest) (.literal b) rest
  | escaped {rest : Bytes} : Begins (dollar :: dollar :: rest) .escaped rest
  | plain {name rest : Bytes} (hName : IsName name) (hEnd : ∀ b ∈ rest.head?, nameByte b = false) :
      Begins (dollar :: (name ++ rest)) (.reference name none) rest
  | braced {name rest : Bytes} (hName : IsName name) :
      Begins (dollar :: openBrace :: (name ++ closeBrace :: rest)) (.reference name none) rest
  | modified {name operand rest : Bytes} {operator : Operator} (hName : IsName name)
      (hOperand : ∀ b ∈ operand, special b = false) :
      Begins (dollar :: openBrace :: (name ++ (operator.text ++ (operand ++ closeBrace :: rest))))
        (.reference name (some (operator, operand))) rest

inductive Reads : Bytes → List Piece → Prop where
  | nil : Reads [] []
  | cons {text rest : Bytes} {piece : Piece} {pieces : List Piece} (hBegins : Begins text piece rest)
      (hReads : Reads rest pieces) : Reads text (piece :: pieces)

def Operator.meaning (operator : Operator) (value : Option Bytes) (operand : Bytes) : Option Bytes :=
  let present := if operator.nonempty then value.filter (· != []) else value
  match operator.operation with
  | .default => some (present.getD operand)
  | .alternative => some (if present.isSome then operand else [])
  | .required => present

def Piece.meaning (values : Values) : Piece → Option Bytes
  | .literal b => some [b]
  | .escaped => some [dollar]
  | .reference name none => some ((values name).getD [])
  | .reference name (some (operator, operand)) => operator.meaning (values name) operand

-- Substituted text is never read again.
def meaning (values : Values) : List Piece → Option Bytes
  | [] => some []
  | piece :: rest => do
    let value ← piece.meaning values
    let values ← meaning values rest
    some (value ++ values)

end Grammar

end NeroCD.Interpolation
