import WagmiBench.Lib.JsonRoundTrip
import WagmiBench.Sandbox.Gateway.Policy

/-!
# Collected block records

`sandbox/events.py`: the strict reader of the gateway's log lines. Every line the gateway's sink
writes is read back as the fact it records.
-/

namespace WagmiBench.Sandbox

open WagmiBench.Lib WagmiBench.Spec

/-- `BlockRecordError`, or what `json.loads` raises besides a grammar error. -/
inductive RecordError where
  | blockRecord (message : String)
  | recursion
  | value
  deriving DecidableEq, Repr

/-- `ParsedBlockRecord` -/
structure ParsedBlockRecord where
  witness : BlockWitness
  destination : Text
  port : Option ℤ
  protocol : Protocol
  count : ℤ
  deriving DecidableEq

/-- `_object_no_duplicates` and `_reject_float` as hooks. -/
def recordHooks : Json.Hooks RecordError where
  parseFloat _ := .error (.blockRecord "fractional JSON numbers are forbidden")
  parseConstant _ := .error (.blockRecord "fractional JSON numbers are forbidden")
  objectPairs pairs :=
    match Json.firstDuplicate [] pairs with
    | some _ => .error (.blockRecord "duplicate JSON key")
    | none => .ok (.obj pairs)

/-- The kinds of `_DESTINATION_RE`. -/
def destinationKinds : List Text :=
  [txt "domain", txt "dns", txt "dns-server", txt "ipv4", txt "opaque"]

/-- `_DESTINATION_RE.fullmatch` -/
def IsDestination (destination : Text) : Prop :=
  ∃ kind ∈ destinationKinds, kind ++ txt "-" <+: destination ∧
    IsHash (destination.drop (kind.length + 1))

instance (destination : Text) : Decidable (IsDestination destination) :=
  inferInstanceAs (Decidable (∃ kind ∈ destinationKinds, _))

def BlockWitness.all : List BlockWitness :=
  [.proxyConnect, .proxyResolution, .proxySni, .kernelRedirect]

def Protocol.all : List Protocol := [.https, .dns, .tcp, .udp, .other]

/-- The members of an object, if its keys are these. -/
def membersOf (keys : List String) : Json → Option (List (Text × Json))
  | .obj members =>
    if (members.map Prod.fst).Perm (keys.map txt) then some members else none
  | _ => none

/-- `raw.rstrip(b"\r\n")` -/
def rstripNewlines (raw : Bytes) : Bytes :=
  (raw.reverse.dropWhile fun b => b == 0x0A || b == 0x0D).reverse

abbrev MAX_LINE_BYTES : ℕ := 4096

/-- What `json.loads` raises out of `parse_block_record`. -/
def loadsError : Json.LoadsError RecordError → RecordError
  | .decode => .blockRecord "collector line is not valid JSON"
  | .recursion => .recursion
  | .digits => .value
  | .hook e => e

/-- The value of a member, which is there. -/
def member (key : String) (members : List (Text × Json)) : Json :=
  (Json.lookup (txt key) members).getD .null

/-- The checks on `payload["port"]`. -/
def portOf : Json → Except RecordError (Option ℤ)
  | .null => .ok none
  | .int p => do
    require (0 ≤ p ∧ p ≤ 65_535) (.blockRecord "collector port is invalid")
    return some p
  | _ => .error (.blockRecord "collector port is invalid")

/-- The checks on the value of a line. -/
def recordOf (value : Json) : Except RecordError ParsedBlockRecord := do
  let some envelope := membersOf ["schema", "witness", "event_payload"] value
    | .error (.blockRecord "collector envelope has unexpected fields")
  require (member "schema" envelope = .str (txt "sandbox_egress_block/v1"))
    (.blockRecord "collector schema mismatch")
  let some witness := BlockWitness.all.find? fun w => .str w.text = member "witness" envelope
    | .error (.blockRecord "collector witness is invalid")
  let some payload := membersOf ["destination", "port", "protocol", "count"]
      (member "event_payload" envelope)
    | .error (.blockRecord "collector payload has unexpected fields")
  let .str destination := member "destination" payload
    | .error (.blockRecord "destination must be a secret-safe digest token")
  require (IsDestination destination) (.blockRecord "destination must be a secret-safe digest token")
  let port ← portOf (member "port" payload)
  let some protocol := Protocol.all.find? fun p => .str p.text = member "protocol" payload
    | .error (.blockRecord "collector protocol is invalid")
  let .int count := member "count" payload
    | .error (.blockRecord "collector count is invalid")
  require (1 ≤ count) (.blockRecord "collector count is invalid")
  return ⟨witness, destination, port, protocol, count⟩

/-- `parse_block_record` -/
def parseBlockRecord (limits : Json.Limits) (line : Bytes) : Except RecordError ParsedBlockRecord := do
  let raw := rstripNewlines line
  require (raw ≠ [] ∧ raw.length ≤ MAX_LINE_BYTES) (.blockRecord "collector line is empty or oversized")
  require ((raw.all (·.toNat < 0x80)) = true) (.blockRecord "collector line must be ASCII")
  let value ← (Json.loads limits recordHooks (raw.map fun b => codePoint b.toNat)).mapError loadsError
  recordOf value

/-! ## Lines that are read back -/

/-- Every character is visible, and within ASCII. -/
def Visible (t : Text) : Prop := ∀ c ∈ t, c.val < 0x7F

instance (t : Text) : Decidable (Visible t) := List.decidableBAll _ t

theorem Visible.ascii {t : Text} (h : Visible t) : Ascii t := fun c hc => by
  have := h c hc
  omega

theorem visible_append {s t : Text} : Visible (s ++ t) ↔ Visible s ∧ Visible t := by
  simp [Visible, or_imp, forall_and]

theorem visible_cons {c : CodePoint} {t : Text} : Visible (c :: t) ↔ c.val < 0x7F ∧ Visible t := by
  simp [Visible]

theorem visible_hexDigit {n : ℕ} (h : n < 16) : (Json.hexDigit n).val < 0x7F := by
  unfold Json.hexDigit
  split <;> rw [codePoint_val (by omega)] <;> omega

theorem visible_decimalInt (n : ℤ) : Visible (decimalInt n) := by
  have digits : Visible (decimal n.natAbs) := fun c hc => by
    have := isDigit_of_mem_decimal hc
    simp only [isDigit, Bool.and_eq_true, decide_eq_true_eq] at this
    omega
  unfold decimalInt
  split
  · exact visible_cons.mpr ⟨by decide, digits⟩
  · exact digits

/-- A visible character is written in at most six of them. -/
theorem emitChar_visible {c : CodePoint} (hc : c.val < 0x7F) :
    Visible (Json.emitChar c) ∧ (Json.emitChar c).length ≤ 6 := by
  unfold Json.emitChar
  repeat' split
  on_goal 8 =>
    have high := visible_hexDigit (n := c.val / 16) (by omega)
    have low := visible_hexDigit (n := c.val % 16) (by omega)
    refine ⟨?_, by simp⟩
    simp only [visible_cons, high, low, true_and]
    decide
  on_goal 8 => exact ⟨by simpa [Visible] using hc, by simp⟩
  all_goals decide

theorem emitString_visible {s : Text} (h : Visible s) :
    Visible (Json.emitString s) ∧ (Json.emitString s).length ≤ 6 * s.length + 2 := by
  have chars : Visible (s.flatMap Json.emitChar) ∧
      (s.flatMap Json.emitChar).length ≤ 6 * s.length := by
    induction s with
    | nil => simp [Visible]
    | cons c s ih =>
      obtain ⟨hc, hs⟩ := visible_cons.mp h
      obtain ⟨hchar, hlength⟩ := emitChar_visible hc
      obtain ⟨hrest, hrestLength⟩ := ih hs
      rw [List.flatMap_cons, visible_append, List.length_append, List.length_cons]
      exact ⟨⟨hchar, hrest⟩, by omega⟩
  rw [Json.emitString, List.cons_append, visible_cons, visible_append]
  refine ⟨⟨by decide, chars.1, by decide⟩, ?_⟩
  simp only [List.length_cons, List.length_append, List.length_nil]
  omega

/-- A destination is short, and visible. -/
theorem IsDestination.visible {destination : Text} (h : IsDestination destination) :
    Visible destination ∧ destination.length ≤ 82 := by
  obtain ⟨kind, hkind, ⟨rest, rfl⟩, hlength, ⟨digits, hprefix⟩, hdigits⟩ := h
  have drop : (kind ++ txt "-" ++ rest).drop (kind.length + 1) = rest :=
    List.drop_left' (by simp [txt])
  rw [drop] at hlength hprefix hdigits
  have kinds : ∀ kind ∈ destinationKinds, Visible kind ∧ kind.length ≤ 10 := by decide
  obtain ⟨hvisible, hshort⟩ := kinds kind hkind
  refine ⟨visible_append.mpr ⟨visible_append.mpr ⟨hvisible, by decide⟩, ?_⟩, ?_⟩
  · rw [← hprefix, visible_append]
    refine ⟨by decide, fun c hc => ?_⟩
    have := hdigits c (by rwa [← hprefix, List.drop_left' (by simp [txt])])
    simp only [isDigit, Bool.and_eq_true, decide_eq_true_eq] at this
    omega
  · have hyphen : (txt "-").length = 1 := rfl
    rw [List.length_append, List.length_append, hlength]
    omega

namespace BlockFact

variable {fact : BlockFact}

/-- The record in the order of its keys. -/
theorem sortKeys_logRecord : fact.logRecord.sortKeys = .obj
    [(txt "event_payload", .obj [(txt "count", .int fact.count),
      (txt "destination", .str fact.destination),
      (txt "port", match fact.port with | some p => .int p | none => .null),
      (txt "protocol", .str fact.protocol.text)]),
    (txt "schema", .str (txt "sandbox_egress_block/v1")), (txt "witness", .str fact.witness.text)] := by
  obtain ⟨_, port, _⟩ := fact
  cases port <;> rfl

/-- The text of a port: at most five digits, or `null`. -/
theorem portText_visible :
    Visible (match fact.port with | some p => Json.int p | none => .null).emit ∧
      (match fact.port with | some p => Json.int p | none => .null).emit.length ≤ 5 := by
  have range := fact.port_range
  cases h : fact.port with
  | none => decide
  | some p =>
    obtain ⟨hlow, hhigh⟩ := range p h
    refine ⟨visible_decimalInt p, ?_⟩
    simp only [Json.emit, decimalInt, if_neg (not_lt.mpr hlow)]
    exact decimal_length_le (by decide) (by omega)

/-- What the sink writes before the line's end is visible and below the reader's limit. -/
theorem logText_visible (hdestination : IsDestination fact.destination)
    (hcount : fact.count < 10 ^ 16) : Visible fact.logRecord.sortKeys.emit ∧
      fact.logRecord.sortKeys.emit.length ≤ MAX_LINE_BYTES := by
  have keys : ∀ s ∈ ["event_payload", "count", "destination", "port", "protocol", "schema",
      "sandbox_egress_block/v1", "witness"], Visible (Json.emitString (txt s)) ∧
        (Json.emitString (txt s)).length ≤ 30 := by decide
  have hprotocol : Visible (Json.emitString fact.protocol.text) ∧
      (Json.emitString fact.protocol.text).length ≤ 30 := by
    cases fact.protocol <;> decide
  have hwitness : Visible (Json.emitString fact.witness.text) ∧
      (Json.emitString fact.witness.text).length ≤ 30 := by
    cases fact.witness <;> decide
  have hcountText : (decimalInt fact.count).length ≤ 16 := by
    have := fact.count_pos
    rw [decimalInt, if_neg (by omega)]
    exact decimal_length_le (by decide) (by omega)
  obtain ⟨hdest, hshort⟩ := hdestination.visible
  obtain ⟨hdest, hdestLength⟩ := emitString_visible hdest
  obtain ⟨hport, hportLength⟩ := fact.portText_visible
  simp only [List.forall_mem_cons, List.not_mem_nil, false_implies, implies_true, and_true] at keys
  rw [sortKeys_logRecord]
  generalize (match fact.port with | some p => Json.int p | none => .null) = port at *
  simp only [Json.emit, Json.emitMembers, visible_append, visible_cons, List.length_append,
    List.length_cons, List.length_nil]
  have limit : MAX_LINE_BYTES = 4096 := rfl
  refine ⟨?_, by omega⟩
  have digits := visible_decimalInt fact.count
  simp only [keys, hprotocol, hwitness, hdest, hport, digits, and_true]
  decide

/-- The record is read back as it was sorted. -/
theorem loads_logRecord {limits : Json.Limits} (hcount : fact.count < 10 ^ 16) :
    Json.loads limits recordHooks fact.logRecord.sortKeys.emit =
      .ok fact.logRecord.sortKeys := by
  have faithful : recordHooks.Faithful := fun members h => by
    have fresh : Json.firstDuplicate [] members = none :=
      Json.firstDuplicate_eq_none.mpr ⟨h, by simp⟩
    simp [recordHooks, fresh]
  have hd := limits.depth_ge
  have hcount' := fact.count_pos
  have range := fact.port_range
  have keys : ∀ a b : String, a ≠ b → txt a ≠ txt b := fun a b h => by simpa using h
  refine Json.loads_emit (k := 16) (by omega) (le_trans (by omega) limits.digits_ge) faithful ?_ ?_
  · rw [sortKeys_logRecord]
    refine ⟨by simp, ⟨by simp, ?_, trivial, ?_, trivial, trivial⟩, trivial, trivial, trivial⟩
    · show fact.count.natAbs < 10 ^ 16
      omega
    · cases h : fact.port with
      | none => trivial
      | some p =>
        obtain ⟨hlow, hhigh⟩ := range p h
        show p.natAbs < 10 ^ 16
        omega
  · rw [sortKeys_logRecord]
    cases fact.port <;> simp [Json.depth, Json.depthMembers] <;> omega

end BlockFact

/-- The record passes every check. -/
theorem recordOf_logRecord {fact : BlockFact} (hdestination : IsDestination fact.destination) :
    recordOf fact.logRecord.sortKeys =
      .ok ⟨fact.witness, fact.destination, fact.port, fact.protocol, fact.count⟩ := by
  have hport : portOf (match fact.port with | some p => Json.int p | none => .null) =
      .ok fact.port := by
    have range := fact.port_range
    cases h : fact.port with
    | none => rfl
    | some p => rw [portOf, require_pos (range p h)]; rfl
  rw [BlockFact.sortKeys_logRecord]
  generalize (match fact.port with | some p => Json.int p | none => .null) = port at *
  have envelope : ∀ a b c : Json, membersOf ["schema", "witness", "event_payload"]
      (.obj [(txt "event_payload", a), (txt "schema", b), (txt "witness", c)]) =
        some [(txt "event_payload", a), (txt "schema", b), (txt "witness", c)] := fun a b c => by
    rw [membersOf, if_pos]
    simp only [List.map_cons, List.map_nil]
    decide
  have payload : ∀ a b c d : Json, membersOf ["destination", "port", "protocol", "count"]
      (.obj [(txt "count", a), (txt "destination", b), (txt "port", c), (txt "protocol", d)]) =
        some [(txt "count", a), (txt "destination", b), (txt "port", c), (txt "protocol", d)] :=
    fun a b c d => by
      rw [membersOf, if_pos]
      simp only [List.map_cons, List.map_nil]
      decide
  have witness : BlockWitness.all.find? (fun w => w.text = fact.witness.text) =
      some fact.witness := by
    cases fact.witness <;> decide
  have protocol : Protocol.all.find? (fun p => p.text = fact.protocol.text) =
      some fact.protocol := by
    cases fact.protocol <;> decide
  simp [recordOf, envelope, payload, member, hport, witness, protocol, require_pos hdestination,
    require_pos fact.count_pos, require_pos trivial, pure_eq_ok]

/-- The bytes of ASCII text, and back. -/
theorem ascii_map_map {t : Text} (h : Ascii t) :
    (t.map fun c => UInt8.ofNat c.val).map (fun b => codePoint b.toNat) = t := by
  rw [List.map_map]
  conv_rhs => rw [← List.map_id t]
  refine List.map_congr_left fun c hc => ?_
  have := h c hc
  rw [Function.comp, toNat_ofNat_byte (by omega), codePoint_of_val, id]

theorem rstripNewlines_line {raw : Bytes} (b : UInt8) (hb : b ≠ 0x0A ∧ b ≠ 0x0D) :
    rstripNewlines (raw ++ [b] ++ [0x0A]) = raw ++ [b] := by
  simp [rstripNewlines, hb]

/-- The text of an object ends with its brace. -/
theorem emit_obj_end (members : List (Text × Json)) :
    ∃ body, (Json.obj members).emit = body ++ [Json.closeObj] := by
  rcases members with _ | ⟨⟨k, v⟩, members⟩
  · exact ⟨[Json.openObj], rfl⟩
  · exact ⟨_, rfl⟩

/-- **A collected line is the fact.** Every line the sink writes for a secret-safe destination is
accepted by the collector, and read back as the fact. -/
theorem parseBlockRecord_line {limits : Json.Limits} {fact : BlockFact}
    (hdestination : IsDestination fact.destination) (hcount : fact.count < 10 ^ 16) :
    ∃ line, utf8Encode (JsonLineBlockSink.line fact) = some line ∧ parseBlockRecord limits line =
      .ok ⟨fact.witness, fact.destination, fact.port, fact.protocol, fact.count⟩ := by
  obtain ⟨hvisible, hlength⟩ := BlockFact.logText_visible hdestination hcount
  have hascii := hvisible.ascii
  have hline : JsonLineBlockSink.line fact = fact.logRecord.sortKeys.emit ++ [codePoint 0x0A] := by
    rw [JsonLineBlockSink.line, Json.dumps, if_pos rfl, Json.asciiOnly_of_visible hvisible]
  have hloads := @BlockFact.loads_logRecord _ limits hcount
  have hend : ∃ body, fact.logRecord.sortKeys.emit = body ++ [Json.closeObj] := by
    rw [BlockFact.sortKeys_logRecord]
    exact emit_obj_end _
  generalize htext : fact.logRecord.sortKeys.emit = text at *
  rw [hline, utf8Encode_ascii (visible_append.mpr ⟨hvisible, by decide⟩ : Visible _).ascii]
  refine ⟨_, rfl, ?_⟩
  have hstrip : rstripNewlines ((text ++ [codePoint 0x0A]).map fun c => UInt8.ofNat c.val) =
      text.map fun c => UInt8.ofNat c.val := by
    obtain ⟨body, rfl⟩ := hend
    simp only [List.map_append, List.map_cons, List.map_nil]
    exact rstripNewlines_line _ (by decide)
  have hbytes : ((text.map fun c => UInt8.ofNat c.val).all (·.toNat < 0x80)) = true := by
    simp only [List.all_eq_true, List.mem_map, decide_eq_true_eq]
    rintro _ ⟨c, hc, rfl⟩
    have := hascii c hc
    rwa [toNat_ofNat_byte (by omega)]
  have hne : text ≠ [] := by
    obtain ⟨body, rfl⟩ := hend
    simp
  rw [parseBlockRecord, hstrip, require_pos ⟨by simpa using hne, by simpa using hlength⟩, ok_bind,
    require_pos hbytes, ok_bind, ascii_map_map hascii, hloads]
  exact recordOf_logRecord hdestination

end WagmiBench.Sandbox
