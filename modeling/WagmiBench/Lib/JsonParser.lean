import WagmiBench.Lib.Json
import WagmiBench.Lib.Outcome

/-!
# A JSON reader

`loads` is `json.loads` on text: a machine that reads one code point at a time, keeps the open
containers on a stack, and fails the way the standard library's scanner does: `decode` on a grammar
error, `recursion` when containers nest deeper than the interpreter allows, `digits` on an integer
literal with more digits than the interpreter converts, and `hook` where a caller's hook refuses.
The hooks are `parse_float`, `parse_constant` and `object_pairs_hook`.
-/

namespace WagmiBench.Lib

namespace Json

/-- Why a text is not read; hooks raise in `ε`. -/
inductive LoadsError (ε : Type) where
  /-- `json.JSONDecodeError` -/
  | decode
  /-- `RecursionError` -/
  | recursion
  /-- `ValueError`: more digits than the integer conversion limit. -/
  | digits
  /-- Raised by a hook. -/
  | hook (raised : ε)
  deriving DecidableEq, Repr

/-- The interpreter's limits: container nesting and digits of one integer literal. Any interpreter
reads the flat documents of this code. -/
structure Limits where
  maxDepth : ℕ
  maxDigits : ℕ := 4300
  depth_ge : 16 ≤ maxDepth
  digits_ge : 640 ≤ maxDigits

/-- The hooks of one `json.loads` call. -/
structure Hooks (ε : Type) where
  parseFloat : Text → Except ε Json
  parseConstant : Text → Except ε Json
  objectPairs : List (Text × Json) → Except ε Json

/-- What the strict readers of this code refuse. -/
inductive Refusal where
  /-- A fraction or an exponent, by its lexeme. -/
  | fractional (token : Text)
  /-- `NaN`, `Infinity` or `-Infinity`. -/
  | nonfinite (token : Text)
  | duplicateKey (key : Text)
  deriving DecidableEq, Repr

/-- The first key of a list of pairs that an earlier pair already has. -/
def firstDuplicate : List Text → List (Text × Json) → Option Text
  | _, [] => none
  | seen, (k, _) :: pairs => if k ∈ seen then some k else firstDuplicate (k :: seen) pairs

/-- `_reject_duplicate_keys` -/
def rejectDuplicateKeys (pairs : List (Text × Json)) : Except Refusal Json :=
  match firstDuplicate [] pairs with
  | some key => .error (.duplicateKey key)
  | none => .ok (.obj pairs)

/-- Integers only, and every key once. -/
def strictHooks : Hooks Refusal where
  parseFloat token := .error (.fractional token)
  parseConstant token := .error (.nonfinite token)
  objectPairs := rejectDuplicateKeys

/-- An open container: its items so far, last first; an object also holds the key it waits on. -/
inductive Frame where
  | arr (items : List Json)
  | obj (members : List (Text × Json)) (key : Option Text)

/-- Where the reader stands inside a string literal. -/
inductive Escape where
  /-- Between characters; `high` when the last one came from an escaped high surrogate. -/
  | plain (high : Bool)
  /-- After a backslash. -/
  | slash (high : Bool)
  /-- After `\u` and `n` hexadecimal digits of value `v`. -/
  | unicode (high : Bool) (n v : ℕ)

/-- Where the reader stands inside a number literal; the lexeme so far is kept last first. -/
inductive NumberPart where
  /-- After `-`. -/
  | minus
  /-- After a leading `0`. -/
  | zero
  /-- In the integer digits. -/
  | digits
  /-- After a dot; `whole` is the lexeme before it. -/
  | dot (whole : Text)
  /-- In the fraction digits. -/
  | fraction
  /-- After `e`, with or without a sign; `before` is the lexeme before it. -/
  | exponent (isFloat : Bool) (before : Text)
  /-- In the exponent digits. -/
  | exponentDigits

/-- What the reader expects next. -/
inductive Mode (ε : Type) where
  | value
  /-- After `[`: a value or `]`. -/
  | firstItem
  /-- After `{`: a key or `}`. -/
  | firstKey
  /-- After a comma in an object: a key. -/
  | key
  /-- After a key: a colon. -/
  | colon
  /-- After a value in a container: a comma or the closing bracket. -/
  | after
  /-- After the outermost value: blanks only. -/
  | done (v : Json)
  /-- In a string literal, its text kept last first. -/
  | string (isKey : Bool) (acc : Text) (esc : Escape)
  /-- In `null`, `true`, `false`, `NaN`, `Infinity` or `-Infinity`: what is left of it. -/
  | literal (rest : Text) (v : Except ε Json)
  | number (acc : Text) (part : NumberPart)

/-- The reader: its mode and its open containers, innermost first. -/
structure Reader (ε : Type) where
  mode : Mode ε
  stack : List Frame

abbrev Read (ε : Type) := Except (LoadsError ε)

/-- Blanks between tokens. -/
def isBlank (c : CodePoint) : Bool :=
  c.val == 0x20 || c.val == 0x09 || c.val == 0x0A || c.val == 0x0D

variable {ε : Type}

/-- A value is complete: it goes to the innermost container, or is the document. -/
def deliver (v : Json) : List Frame → Reader ε
  | [] => ⟨.done v, []⟩
  | .arr items :: stack => ⟨.after, .arr (v :: items) :: stack⟩
  | .obj members (some k) :: stack => ⟨.after, .obj ((k, v) :: members) none :: stack⟩
  | .obj members none :: stack => ⟨.after, .obj members none :: stack⟩

section Step

variable (L : Limits) (H : Hooks ε)

/-- Open a container, unless containers already nest as deep as the interpreter allows. -/
def openFrame (mode : Mode ε) (frame : Frame) (stack : List Frame) : Read ε (Reader ε) :=
  if stack.length < L.maxDepth then .ok ⟨mode, frame :: stack⟩ else .error .recursion

/-- A value hooked in, or the hook's refusal. -/
def hooked (v : Except ε Json) (stack : List Frame) : Read ε (Reader ε) :=
  match v with
  | .ok v => .ok (deliver v stack)
  | .error e => .error (.hook e)

/-- The integer a complete literal spells, last digit first. -/
def finishInt (acc : Text) : Read ε Json :=
  let lexeme := acc.reverse
  match lexeme with
  | [] => .error .decode
  | c :: digits =>
    if c.val = 0x2D then
      if digits.length ≤ L.maxDigits then .ok (.int (-(ofDecimal digits : ℤ))) else .error .digits
    else
      if lexeme.length ≤ L.maxDigits then .ok (.int (ofDecimal lexeme)) else .error .digits

/-- A complete float literal, last digit first. -/
def finishFloat (acc : Text) : Read ε Json :=
  match H.parseFloat acc.reverse with
  | .ok v => .ok v
  | .error e => .error (.hook e)

/-- The number literal ends here: its value, or the error its remainder causes. -/
def finishNumber (acc : Text) : NumberPart → Read ε Json
  | .minus => .error .decode
  | .zero | .digits => finishInt L acc
  | .fraction | .exponentDigits => finishFloat H acc
  -- a dot or an exponent without digits is not part of the number, and nothing can follow it
  | .dot whole => do let _ ← finishInt L whole; .error .decode
  | .exponent isFloat before => do
    let _ ← if isFloat then finishFloat H before else finishInt L before
    .error .decode

/-- Close an array or an object. -/
def closeContainer (c : CodePoint) : List Frame → Read ε (Reader ε)
  | .arr items :: stack =>
    if c = closeArr then .ok (deliver (.arr items.reverse) stack) else .error .decode
  | .obj members none :: stack =>
    if c = closeObj then hooked (H.objectPairs members.reverse) stack else .error .decode
  | _ => .error .decode

/-- After a value in a container: a comma goes on, a closing bracket ends it. -/
def stepAfter (c : CodePoint) (stack : List Frame) : Read ε (Reader ε) :=
  if isBlank c then .ok ⟨.after, stack⟩
  else if c = comma then
    match stack with
    | .arr _ :: _ => .ok ⟨.value, stack⟩
    | .obj _ _ :: _ => .ok ⟨.key, stack⟩
    | [] => .error .decode
  else closeContainer H c stack

/-- One character once a value is complete. -/
def stepComplete (c : CodePoint) (r : Reader ε) : Read ε (Reader ε) :=
  match r.mode with
  | .done v => if isBlank c then .ok ⟨.done v, r.stack⟩ else .error .decode
  | _ => stepAfter H c r.stack

/-- The first character of a value. -/
def stepValue (c : CodePoint) (stack : List Frame) : Read ε (Reader ε) :=
  if isBlank c then .ok ⟨.value, stack⟩
  else if c = quote then .ok ⟨.string false [] (.plain false), stack⟩
  else if c = openArr then openFrame L .firstItem (.arr []) stack
  else if c = openObj then openFrame L .firstKey (.obj [] none) stack
  else if c.val = 0x2D then .ok ⟨.number [c] .minus, stack⟩
  else if c.val = 0x30 then .ok ⟨.number [c] .zero, stack⟩
  else if isDigit c then .ok ⟨.number [c] .digits, stack⟩
  else if c.val = 0x6E then .ok ⟨.literal (txt "ull") (.ok .null), stack⟩
  else if c.val = 0x74 then .ok ⟨.literal (txt "rue") (.ok (.bool true)), stack⟩
  else if c.val = 0x66 then .ok ⟨.literal (txt "alse") (.ok (.bool false)), stack⟩
  else if c.val = 0x4E then .ok ⟨.literal (txt "aN") (H.parseConstant (txt "NaN")), stack⟩
  else if c.val = 0x49 then
    .ok ⟨.literal (txt "nfinity") (H.parseConstant (txt "Infinity")), stack⟩
  else .error .decode

/-- The value of a hexadecimal digit. -/
def hexValue (c : CodePoint) : Option ℕ :=
  if isDigit c then some (c.val - 0x30)
  else if 0x61 ≤ c.val ∧ c.val ≤ 0x66 then some (c.val - 0x57)
  else if 0x41 ≤ c.val ∧ c.val ≤ 0x46 then some (c.val - 0x37)
  else none

/-- The character of a two-character escape. -/
def escaped (c : CodePoint) : Option CodePoint :=
  if c = quote ∨ c = backslash ∨ c.val = 0x2F then some c
  else if c.val = 0x62 then some (codePoint 0x08)
  else if c.val = 0x66 then some (codePoint 0x0C)
  else if c.val = 0x6E then some (codePoint 0x0A)
  else if c.val = 0x72 then some (codePoint 0x0D)
  else if c.val = 0x74 then some (codePoint 0x09)
  else none

/-- A `\uXXXX` escape is complete: an escaped low surrogate joins an escaped high one before it. -/
def pushUnicode (high : Bool) (v : ℕ) (acc : Text) : Text × Bool :=
  match high, acc with
  | true, hi :: acc' =>
    if 0xDC00 ≤ v ∧ v < 0xE000 then
      (codePoint (0x10000 + (hi.val - 0xD800) * 1024 + (v - 0xDC00)) :: acc', false)
    else (codePoint v :: acc, decide (0xD800 ≤ v ∧ v < 0xDC00))
  | _, _ => (codePoint v :: acc, decide (0xD800 ≤ v ∧ v < 0xDC00))

/-- The closing quote: a key waits for its colon, a string value is delivered. -/
def finishString (isKey : Bool) (acc : Text) (stack : List Frame) : Read ε (Reader ε) :=
  if isKey then
    match stack with
    | .obj members _ :: stack => .ok ⟨.colon, .obj members (some acc.reverse) :: stack⟩
    | _ => .error .decode
  else .ok (deliver (.str acc.reverse) stack)

/-- One character of a string literal. -/
def stepString (c : CodePoint) (isKey : Bool) (acc : Text) (stack : List Frame) :
    Escape → Read ε (Reader ε)
  | .plain high =>
    if c = quote then finishString isKey acc stack
    else if c = backslash then .ok ⟨.string isKey acc (.slash high), stack⟩
    else if c.val < 0x20 then .error .decode
    else .ok ⟨.string isKey (c :: acc) (.plain false), stack⟩
  | .slash high =>
    if c.val = 0x75 then .ok ⟨.string isKey acc (.unicode high 0 0), stack⟩
    else match escaped c with
      | some e => .ok ⟨.string isKey (e :: acc) (.plain false), stack⟩
      | none => .error .decode
  | .unicode high n v =>
    match hexValue c with
    | none => .error .decode
    | some d =>
      if n < 3 then .ok ⟨.string isKey acc (.unicode high (n + 1) (16 * v + d)), stack⟩
      else
        let (acc', high') := pushUnicode high (16 * v + d) acc
        .ok ⟨.string isKey acc' (.plain high'), stack⟩

/-- One character of a number literal; one that does not belong to it ends it. -/
def stepNumber (c : CodePoint) (acc : Text) (stack : List Frame) (part : NumberPart) :
    Read ε (Reader ε) :=
  let isExp := c.val = 0x65 ∨ c.val = 0x45
  let ends : Read ε (Reader ε) := do
    let v ← finishNumber L H acc part
    stepComplete H c (deliver v stack)
  match part with
  | .minus =>
    if c.val = 0x30 then .ok ⟨.number (c :: acc) .zero, stack⟩
    else if isDigit c then .ok ⟨.number (c :: acc) .digits, stack⟩
    else if c.val = 0x49 then
      .ok ⟨.literal (txt "nfinity") (H.parseConstant (txt "-Infinity")), stack⟩
    else ends
  | .zero =>
    if c.val = 0x2E then .ok ⟨.number (c :: acc) (.dot acc), stack⟩
    else if isExp then .ok ⟨.number (c :: acc) (.exponent false acc), stack⟩
    else ends
  | .digits =>
    if isDigit c then .ok ⟨.number (c :: acc) .digits, stack⟩
    else if c.val = 0x2E then .ok ⟨.number (c :: acc) (.dot acc), stack⟩
    else if isExp then .ok ⟨.number (c :: acc) (.exponent false acc), stack⟩
    else ends
  | .dot _ => if isDigit c then .ok ⟨.number (c :: acc) .fraction, stack⟩ else ends
  | .fraction =>
    if isDigit c then .ok ⟨.number (c :: acc) .fraction, stack⟩
    else if isExp then .ok ⟨.number (c :: acc) (.exponent true acc), stack⟩
    else ends
  | .exponent isFloat before =>
    if isDigit c then .ok ⟨.number (c :: acc) .exponentDigits, stack⟩
    else if (c.val = 0x2B ∨ c.val = 0x2D) ∧ acc.length = before.length + 1 then
      .ok ⟨.number (c :: acc) (.exponent isFloat before), stack⟩
    else ends
  | .exponentDigits =>
    if isDigit c then .ok ⟨.number (c :: acc) .exponentDigits, stack⟩ else ends

/-- One character of a literal name. -/
def stepLiteral (c : CodePoint) (stack : List Frame) (v : Except ε Json) : Text → Read ε (Reader ε)
  | [] => .error .decode
  | [d] => if c = d then hooked v stack else .error .decode
  | d :: rest => if c = d then .ok ⟨.literal rest v, stack⟩ else .error .decode

/-- A key, or a blank before it. -/
def stepKey (c : CodePoint) (mode : Mode ε) (stack : List Frame) : Read ε (Reader ε) :=
  if isBlank c then .ok ⟨mode, stack⟩
  else if c = quote then .ok ⟨.string true [] (.plain false), stack⟩
  else .error .decode

/-- One character. -/
def step (r : Reader ε) (c : CodePoint) : Read ε (Reader ε) :=
  match r.mode with
  | .value => stepValue L H c r.stack
  | .firstItem =>
    if isBlank c then .ok r
    else if c = closeArr then closeContainer H c r.stack
    else stepValue L H c r.stack
  | .firstKey =>
    if c = closeObj then closeContainer H c r.stack else stepKey c .firstKey r.stack
  | .key => stepKey c .key r.stack
  | .colon =>
    if isBlank c then .ok r
    else if c = colon then .ok ⟨.value, r.stack⟩
    else .error .decode
  | .after => stepComplete H c r
  | .done _ => stepComplete H c r
  | .string isKey acc esc => stepString c isKey acc r.stack esc
  | .literal rest v => stepLiteral c r.stack v rest
  | .number acc part => stepNumber L H c acc r.stack part

/-- The end of the text. -/
def finish (r : Reader ε) : Read ε Json :=
  match r.mode with
  | .done v => .ok v
  | .number acc part => do
    let v ← finishNumber L H acc part
    match (deliver v r.stack : Reader ε).mode with
    | .done v => .ok v
    | _ => .error .decode
  | _ => .error .decode

/-- Read the rest of a text from where the reader stands. -/
def readFrom : Reader ε → Text → Read ε Json
  | r, [] => finish L H r
  | r, c :: t => step L H r c >>= fun r' => readFrom r' t

/-- `json.loads(text, parse_float=…, parse_constant=…, object_pairs_hook=…)`, where a text that
starts with a byte-order mark is refused. -/
def loads (t : Text) : Read ε Json :=
  if t.head? = some (codePoint 0xFEFF) then .error .decode
  else readFrom L H ⟨.value, []⟩ t

end Step

end Json

end WagmiBench.Lib
