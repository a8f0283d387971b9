import WagmiBench.Lib.Json

/-!
# `json.dumps`

The writer of the standard library with sorted keys and without blanks: members in the code-point
order of their keys, and with `ensure_ascii` nothing but visible ASCII characters.
-/

namespace WagmiBench.Lib

namespace Json

/-- Members in the code-point order of their keys. -/
def sortByCodePoints (members : List (Text × Json)) : List (Text × Json) :=
  members.insertionSort fun a b => unitsLe (a.1.map Fin.val) (b.1.map Fin.val) = true

mutual

/-- `sort_keys=True`: the value with the members of every object sorted. -/
def sortKeys : Json → Json
  | .arr items => .arr (sortKeysItems items)
  | .obj members => .obj (sortByCodePoints (sortKeysMembers members))
  | v => v

/-- `sortKeys` on every item. -/
def sortKeysItems : List Json → List Json
  | [] => []
  | v :: items => sortKeys v :: sortKeysItems items

/-- `sortKeys` on every member's value. -/
def sortKeysMembers : List (Text × Json) → List (Text × Json)
  | [] => []
  | (k, v) :: members => (k, sortKeys v) :: sortKeysMembers members

end

/-- `\uxxxx` for each UTF-16 unit of a code point. -/
def unicodeEscape (c : CodePoint) : Text := (utf16Units c).flatMap fun u =>
  [backslash, codePoint 0x75] ++ [12, 8, 4, 0].map fun k => hexDigit (u / 2 ^ k % 16)

/-- `ensure_ascii=True`: what is not a visible ASCII character is escaped. -/
def asciiOnly (text : Text) : Text :=
  text.flatMap fun c => if c.val < 0x7F then [c] else unicodeEscape c

/-- `json.dumps(value, ensure_ascii=…, sort_keys=True, separators=(",", ":"))` -/
def dumps (ensureAscii : Bool) (value : Json) : Text :=
  if ensureAscii then asciiOnly value.sortKeys.emit else value.sortKeys.emit

theorem asciiOnly_of_visible {t : Text} (h : ∀ c ∈ t, c.val < 0x7F) : asciiOnly t = t := by
  induction t with
  | nil => rfl
  | cons c t ih =>
    rw [List.forall_mem_cons] at h
    have rest : asciiOnly (c :: t) = c :: asciiOnly t := by simp [asciiOnly, h.1]
    rw [rest, ih h.2]

end Json

end WagmiBench.Lib
