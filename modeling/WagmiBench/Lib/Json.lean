import WagmiBench.Lib.Text

/-!
# JSON values and their canonical text

`Json` is what a JSON reader returns with every fractional number kept as its lexeme. Objects keep
their members in insertion order. `Json.emit` writes a value in the order it is stored, with no
blanks and minimal escapes; `Json.normalize` puts the members of every object in UTF-16 code-unit
order of their keys; the canonical text of a value is the one after the other, refused for floats,
for integers beyond `2^53 - 1` and for keys that are not valid Unicode.
-/

namespace WagmiBench.Lib

/-- A JSON value. -/
inductive Json where
  | null
  | bool (b : Bool)
  | int (n : ℤ)
  /-- A fractional, exponent or non-finite number, as its lexeme. -/
  | float (lexeme : Text)
  | str (s : Text)
  | arr (items : List Json)
  | obj (members : List (Text × Json))

namespace Json

instance : Inhabited Json := ⟨.null⟩

/-! ## Equality -/

mutual

/-- Equality of values. -/
def decEq : (v w : Json) → Decidable (v = w)
  | .null, .null => isTrue rfl
  | .bool a, .bool b => decidable_of_iff (a = b) (by simp)
  | .int a, .int b => decidable_of_iff (a = b) (by simp)
  | .float a, .float b => decidable_of_iff (a = b) (by simp)
  | .str a, .str b => decidable_of_iff (a = b) (by simp)
  | .arr a, .arr b =>
    match decEqItems a b with
    | isTrue h => isTrue (congrArg arr h)
    | isFalse h => isFalse fun heq => h (arr.inj heq)
  | .obj a, .obj b =>
    match decEqMembers a b with
    | isTrue h => isTrue (congrArg obj h)
    | isFalse h => isFalse fun heq => h (obj.inj heq)
  | .null, .bool _ | .null, .int _ | .null, .float _ | .null, .str _ | .null, .arr _ | .null, .obj _
  | .bool _, .null | .bool _, .int _ | .bool _, .float _ | .bool _, .str _ | .bool _, .arr _
  | .bool _, .obj _
  | .int _, .null | .int _, .bool _ | .int _, .float _ | .int _, .str _ | .int _, .arr _
  | .int _, .obj _
  | .float _, .null | .float _, .bool _ | .float _, .int _ | .float _, .str _ | .float _, .arr _
  | .float _, .obj _
  | .str _, .null | .str _, .bool _ | .str _, .int _ | .str _, .float _ | .str _, .arr _
  | .str _, .obj _
  | .arr _, .null | .arr _, .bool _ | .arr _, .int _ | .arr _, .float _ | .arr _, .str _
  | .arr _, .obj _
  | .obj _, .null | .obj _, .bool _ | .obj _, .int _ | .obj _, .float _ | .obj _, .str _
  | .obj _, .arr _ => isFalse (by simp)

/-- `decEq` on every item. -/
def decEqItems : (v w : List Json) → Decidable (v = w)
  | [], [] => isTrue rfl
  | [], _ :: _ | _ :: _, [] => isFalse (by simp)
  | a :: v, b :: w =>
    match decEq a b, decEqItems v w with
    | isTrue h, isTrue h' => isTrue (by rw [h, h'])
    | isFalse h, _ => isFalse fun heq => h (List.cons.inj heq).1
    | _, isFalse h => isFalse fun heq => h (List.cons.inj heq).2

/-- `decEq` on every member's value, once the keys agree. -/
def decEqMembers : (v w : List (Text × Json)) → Decidable (v = w)
  | [], [] => isTrue rfl
  | [], _ :: _ | _ :: _, [] => isFalse (by simp)
  | (k, a) :: v, (l, b) :: w =>
    match decEq a b, decEqMembers v w with
    | isTrue h, isTrue h' => decidable_of_iff (k = l) (by simp [h, h'])
    | isFalse h, _ => isFalse fun heq => h (Prod.mk.inj (List.cons.inj heq).1).2
    | _, isFalse h => isFalse fun heq => h (List.cons.inj heq).2

end

instance : DecidableEq Json := decEq

/-! ## Punctuation -/

abbrev quote : CodePoint := codePoint 0x22
abbrev backslash : CodePoint := codePoint 0x5C
abbrev comma : CodePoint := codePoint 0x2C
abbrev colon : CodePoint := codePoint 0x3A
abbrev openArr : CodePoint := codePoint 0x5B
abbrev closeArr : CodePoint := codePoint 0x5D
abbrev openObj : CodePoint := codePoint 0x7B
abbrev closeObj : CodePoint := codePoint 0x7D

/-! ## Reading members -/

/-- `mapping.get(key)` on members in insertion order. -/
def lookup (key : Text) (members : List (Text × Json)) : Option Json :=
  (members.find? fun m => m.1 = key).map Prod.snd

/-- `mapping.get(key)` on an object; `none` on every other value. -/
def get? (key : Text) : Json → Option Json
  | .obj members => lookup key members
  | _ => none

@[simp] theorem lookup_nil (key : Text) : lookup key [] = none := rfl

theorem lookup_cons (key k : Text) (v : Json) (members : List (Text × Json)) :
    lookup key ((k, v) :: members) = if k = key then some v else lookup key members := by
  simp only [lookup, List.find?_cons]
  by_cases h : k = key <;> simp [h]

/-- Looking up a literal key among literal keys is a comparison of strings. -/
@[simp] theorem lookup_txt_cons (s t : String) (v : Json) (members : List (Text × Json)) :
    lookup (txt s) ((txt t, v) :: members) = if t = s then some v else lookup (txt s) members := by
  simp [lookup_cons]

/-- The dictionary a list of pairs builds: the first occurrence of a key fixes its place, the last
one its value. -/
def dictOfPairs (pairs : List (Text × Json)) : List (Text × Json) :=
  pairs.foldl (fun d p =>
    if d.any fun m => m.1 = p.1 then d.map fun m => if m.1 = p.1 then p else m else d ++ [p]) []

/-! ## Writing -/

/-- The lowercase hexadecimal digit of `n < 16`. -/
def hexDigit (n : ℕ) : CodePoint := codePoint (if n < 10 then 0x30 + n else 0x57 + n)

/-- One character of a string literal: the two-character escapes, `\u00xx` for the other control
characters, anything else as it is. -/
def emitChar (c : CodePoint) : Text :=
  if c = quote then [backslash, quote]
  else if c = backslash then [backslash, backslash]
  else if c.val = 0x08 then [backslash, codePoint 0x62]
  else if c.val = 0x09 then [backslash, codePoint 0x74]
  else if c.val = 0x0A then [backslash, codePoint 0x6E]
  else if c.val = 0x0C then [backslash, codePoint 0x66]
  else if c.val = 0x0D then [backslash, codePoint 0x72]
  else if c.val < 0x20 then
    [backslash, codePoint 0x75, hexDigit 0, hexDigit 0, hexDigit (c.val / 16), hexDigit (c.val % 16)]
  else [c]

/-- `_encode_string` of `spec/canonical.py` -/
def emitString (s : Text) : Text := quote :: s.flatMap emitChar ++ [quote]

mutual

/-- The text of a value, its members in the order they are stored. -/
def emit : Json → Text
  | .null => txt "null"
  | .bool true => txt "true"
  | .bool false => txt "false"
  | .int n => decimalInt n
  | .float lexeme => lexeme
  | .str s => emitString s
  | .arr [] => [openArr, closeArr]
  | .arr (v :: items) => openArr :: emit v ++ emitItems items ++ [closeArr]
  | .obj [] => [openObj, closeObj]
  | .obj ((k, v) :: members) =>
    openObj :: emitString k ++ colon :: emit v ++ emitMembers members ++ [closeObj]

/-- The items after the first, each after a comma. -/
def emitItems : List Json → Text
  | [] => []
  | v :: items => comma :: emit v ++ emitItems items

/-- The members after the first, each after a comma. -/
def emitMembers : List (Text × Json) → Text
  | [] => []
  | (k, v) :: members => comma :: emitString k ++ colon :: emit v ++ emitMembers members

end

/-! ## Canonical order -/

/-- The big-endian UTF-16 code units of a code point. -/
def utf16Units (c : CodePoint) : List ℕ :=
  if c.val < 0x10000 then [c.val]
  else [0xD800 + (c.val - 0x10000) / 1024, 0xDC00 + (c.val - 0x10000) % 1024]

/-- `key.encode("utf-16-be")`, by code units. -/
def sortKey (key : Text) : List ℕ := key.flatMap utf16Units

/-- Lexicographic order of code units. -/
def unitsLe : List ℕ → List ℕ → Bool
  | [], _ => true
  | _ :: _, [] => false
  | a :: s, b :: t => a < b || (a == b && unitsLe s t)

/-- Members in the order of their keys' UTF-16 code units. -/
def sortMembers (members : List (Text × Json)) : List (Text × Json) :=
  members.insertionSort fun a b => unitsLe (sortKey a.1) (sortKey b.1) = true

mutual

/-- The value with the members of every object sorted. -/
def normalize : Json → Json
  | .arr items => .arr (normalizeItems items)
  | .obj members => .obj (sortMembers (normalizeMembers members))
  | v => v

/-- `normalize` on every item. -/
def normalizeItems : List Json → List Json
  | [] => []
  | v :: items => normalize v :: normalizeItems items

/-- `normalize` on every member's value. -/
def normalizeMembers : List (Text × Json) → List (Text × Json)
  | [] => []
  | (k, v) :: members => (k, normalize v) :: normalizeMembers members

end

/-! ## What has a canonical text -/

/-- The largest integer a canonical text may hold. -/
abbrev maxSafeInt : ℤ := 2 ^ 53 - 1

/-- Why a value has no canonical text. -/
inductive CanonicalError where
  | floatNotAllowed
  | integerOutOfRange (n : ℤ)
  | keyNotUnicode
  | textNotUnicode
  deriving DecidableEq, Repr

/-- No code point of the text is a lone surrogate. -/
def ValidUnicode (t : Text) : Prop := ∀ c ∈ t, ¬ isSurrogate c.val

instance (t : Text) : Decidable (ValidUnicode t) := List.decidableBAll _ t

mutual

/-- The checks made while a value is written, in the order it is written. -/
def checkEncodable : Json → Except CanonicalError Unit
  | .float _ => .error .floatNotAllowed
  | .int n => if |n| ≤ maxSafeInt then .ok () else .error (.integerOutOfRange n)
  | .arr items => checkItems items
  | .obj members =>
    if ∀ m ∈ members, ValidUnicode m.1 then checkMembers members else .error .keyNotUnicode
  | _ => .ok ()

/-- `checkEncodable` on every item. -/
def checkItems : List Json → Except CanonicalError Unit
  | [] => .ok ()
  | v :: items => do checkEncodable v; checkItems items

/-- `checkEncodable` on every member's value. -/
def checkMembers : List (Text × Json) → Except CanonicalError Unit
  | [] => .ok ()
  | (_, v) :: members => do checkEncodable v; checkMembers members

end

/-- The canonical bytes of a value. -/
def canonical (v : Json) : Except CanonicalError Bytes := do
  let w := v.normalize
  w.checkEncodable
  match utf8Encode w.emit with
  | some b => return b
  | none => .error .textNotUnicode

/-- Canonical bytes determine the written text. -/
theorem emit_normalize_of_canonical {v w : Json} {b : Bytes} (hv : v.canonical = .ok b)
    (hw : w.canonical = .ok b) : v.normalize.emit = w.normalize.emit := by
  have text : ∀ {u : Json}, u.canonical = .ok b → utf8Encode u.normalize.emit = some b := by
    intro u hu
    simp only [canonical] at hu
    cases hc : u.normalize.checkEncodable with
    | error e => simp [hc, bind, Except.bind] at hu
    | ok _ =>
      simp only [hc, bind, Except.bind] at hu
      split at hu
      · rename_i b' hb'
        rw [hb', Except.ok.inj hu]
      · simp at hu
  exact utf8Encode_injective (text hv) (text hw)

end Json

end WagmiBench.Lib
