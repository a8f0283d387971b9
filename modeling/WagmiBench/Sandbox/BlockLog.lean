import Mathlib.Data.List.DropRight
import WagmiBench.Lib.JsonPrefix
import WagmiBench.Lib.JsonText
import WagmiBench.Lib.TextLines
import WagmiBench.Sandbox.Buffer
import WagmiBench.Sandbox.Guard.BlockCollector

/-!
# The logs of the collectors

The lines `JsonLineBlockSink.emit` and the guard's `_Sink.emit` write, and what the collector makes of
a line that is whole and of one that is cut.
-/

namespace WagmiBench.Sandbox

open WagmiBench.Lib WagmiBench.Spec

/-! ## Lines -/

/-- The text of a line, without its line feed. -/
def recordText (fact : BlockFact) : Text := Json.dumps true fact.logRecord

theorem JsonLineBlockSink.line_eq (fact : BlockFact) :
    JsonLineBlockSink.line fact = recordText fact ++ [lineFeed] := rfl

/-- A fact as the gateway makes it: its destination is a token. -/
structure LoggedFact extends BlockFact where
  token : IsDestination destination
  count_lt : count < 10 ^ 16

namespace Guard

/-- `_BlockFact.log_record` -/
def BlockFact.logRecord (fact : BlockFact) : Json :=
  .obj [(txt "schema", .str (txt "sandbox_egress_block/v1")), (txt "witness", .str fact.witness.text),
    (txt "event_payload", .obj [(txt "destination", .str fact.destination),
      (txt "port", match fact.port with | some p => .int p | none => .null),
      (txt "protocol", .str fact.protocol.text), (txt "count", .int fact.count)])]

/-- The line `_Sink.emit` writes. -/
def sinkLine (fact : BlockFact) : Text := Json.dumps true fact.logRecord ++ [lineFeed]

/-- A fact as the guard makes it: its destination is a token, and its port comes out of two bytes. -/
structure LoggedFact extends BlockFact where
  token : IsDestination destination
  port_le : ∀ p ∈ port, p ≤ 65_535
  count_pos : 1 ≤ count
  count_lt : count < 10 ^ 16

/-- The gateway's fact of the same line. -/
def LoggedFact.forward (fact : LoggedFact) : Sandbox.LoggedFact where
  destination := fact.destination
  port := fact.port.map Nat.cast
  protocol := fact.protocol
  count := fact.count
  witness := fact.witness
  port_range := by
    intro p hp
    obtain ⟨n, hn, rfl⟩ := Option.mem_map.mp hp
    have := fact.port_le n hn
    omega
  count_pos := by have := fact.count_pos; omega
  token := fact.token
  count_lt := by have := fact.count_lt; exact_mod_cast this

/-- Both sinks write one line for it. -/
theorem LoggedFact.sinkLine_eq (fact : LoggedFact) :
    sinkLine fact.toBlockFact = recordText fact.forward.toBlockFact ++ [lineFeed] := by
  have : fact.toBlockFact.logRecord = fact.forward.toBlockFact.logRecord := by
    obtain ⟨⟨destination, port, protocol, count, witness⟩, _, _, _, _⟩ := fact
    cases port <;> rfl
  rw [sinkLine, this, recordText]

end Guard

section Line

variable {limits : Json.Limits} (fact : LoggedFact)

theorem recordText_eq : recordText fact.toBlockFact = fact.logRecord.sortKeys.emit := by
  rw [recordText, Json.dumps, if_pos rfl,
    Json.asciiOnly_of_visible (BlockFact.logText_visible fact.token fact.count_lt).1]

theorem recordText_braces : ∃ body, recordText fact.toBlockFact =
    Json.openObj :: body ++ [Json.closeObj] := by
  rw [recordText_eq, BlockFact.sortKeys_logRecord]
  exact ⟨_, rfl⟩

theorem printable_recordText : Printable (recordText fact.toBlockFact) := by
  have append : ∀ s t : Text, Printable (s ++ t) ↔ Printable s ∧ Printable t := fun s t => by
    simp [Printable, or_imp, forall_and]
  have cons : ∀ (c : CodePoint) (t : Text), Printable (c :: t) ↔ 0x20 ≤ c.val ∧ Printable t :=
    fun c t => by simp [Printable]
  have printed : ∀ port : Json, Printable port.emit → Printable (Json.obj
      [(txt "event_payload", .obj [(txt "count", .int fact.count),
        (txt "destination", .str fact.destination), (txt "port", port),
        (txt "protocol", .str fact.protocol.text)]),
      (txt "schema", .str (txt "sandbox_egress_block/v1")),
      (txt "witness", .str fact.witness.text)]).emit := by
    intro port hport
    simp only [Json.emit, Json.emitMembers, append, cons, Json.printable_emitString,
      printable_decimalInt, hport, Printable.nil, and_true]
    decide
  rw [recordText_eq, BlockFact.sortKeys_logRecord]
  refine printed _ ?_
  cases fact.port with
  | none => exact (by decide : Printable (txt "null"))
  | some p => exact printable_decimalInt p

theorem recordText_isTextLine : IsTextLine (recordText fact.toBlockFact) := by
  obtain ⟨body, hbody⟩ := recordText_braces fact
  have hvisible := (BlockFact.logText_visible fact.token fact.count_lt).1
  rw [← recordText_eq] at hvisible
  refine ⟨by rw [hbody]; simp, fun c hc => ?_⟩
  have hlow := printable_recordText fact c hc
  have hhigh := hvisible c hc
  simp only [isLineBreak, Bool.or_eq_false_iff, Bool.and_eq_false_iff, decide_eq_false_iff_not,
    beq_eq_false_iff_ne]
  omega

/-! ## Reading a line -/

/-- The record of a fact. -/
def LoggedFact.record : ParsedBlockRecord :=
  ⟨fact.witness, fact.destination, fact.port, fact.protocol, fact.count⟩

/-- A line is read without its line feed as with it. -/
theorem parseBlockRecord_lineFeed (raw : Bytes) :
    parseBlockRecord limits (raw ++ [0x0A]) = parseBlockRecord limits raw := by
  have hstrip : rstripNewlines (raw ++ [0x0A]) = rstripNewlines raw := by
    simp [rstripNewlines]
  rw [parseBlockRecord, hstrip, parseBlockRecord]

/-- The bytes of ASCII text. -/
def asciiBytes (text : Text) : Bytes := text.map fun c => UInt8.ofNat c.val

theorem ascii_recordText : Ascii (recordText fact.toBlockFact) := by
  rw [recordText_eq]
  exact (BlockFact.logText_visible fact.token fact.count_lt).1.ascii

variable {source cursor : Text}

theorem parse_ascii {text : Text} (h : Ascii text) :
    (⟨source, cursor, .str text⟩ : Arrival).parse limits =
      parseBlockRecord limits (asciiBytes text) := by
  rw [Arrival.parse, LogLine.encode, utf8Encode_ascii h, asciiBytes]
  rfl

/-- **A whole line is its fact.** -/
theorem parse_recordText :
    (⟨source, cursor, .str (recordText fact.toBlockFact)⟩ : Arrival).parse limits =
      .ok fact.record := by
  have hascii := ascii_recordText fact
  have hline : Ascii (recordText fact.toBlockFact ++ [lineFeed]) := by
    intro c hc
    rcases List.mem_append.mp hc with h | h
    · exact hascii c h
    · rw [List.mem_singleton.mp h]
      decide
  obtain ⟨line, hencode, hparse⟩ :=
    @parseBlockRecord_line limits _ fact.token fact.count_lt
  rw [JsonLineBlockSink.line_eq, utf8Encode_ascii hline, Option.some.injEq] at hencode
  rw [← hencode, List.map_append, List.map_singleton] at hparse
  rw [parse_ascii hascii, LoggedFact.record, ← hparse, asciiBytes]
  exact (parseBlockRecord_lineFeed _).symm

/-- Printable text has no line ending to strip. -/
theorem rstripNewlines_asciiBytes {text : Text} (hascii : Ascii text) (h : Printable text) :
    rstripNewlines (asciiBytes text) = asciiBytes text := by
  refine List.rdropWhile_eq_self_iff.mpr fun hne => ?_
  obtain ⟨c, hc, hbyte⟩ := List.mem_map.mp (List.getLast_mem hne)
  have hlow := h c hc
  have hhigh := hascii c hc
  have hval : (UInt8.ofNat c.val).toNat = c.val := toNat_ofNat_byte (by omega)
  rw [← hbyte]
  simp only [Bool.or_eq_true, beq_iff_eq, ← UInt8.toNat_inj, hval, UInt8.toNat_ofNat]
  omega

/-- **A cut line is no record.** -/
theorem parse_begun {begun : Text} (hbegun : begun <+: recordText fact.toBlockFact)
    (hcut : begun ≠ recordText fact.toBlockFact) :
    ∃ e, (⟨source, cursor, .str begun⟩ : Arrival).parse limits = .error e := by
  have hascii : Ascii begun := fun c hc => ascii_recordText fact c (hbegun.subset hc)
  have hprintable : Printable begun :=
    fun c hc => printable_recordText fact c (hbegun.subset hc)
  cases hparse : (⟨source, cursor, .str begun⟩ : Arrival).parse limits with
  | error e => exact ⟨e, rfl⟩
  | ok record =>
    exfalso
    rw [parse_ascii hascii, parseBlockRecord, rstripNewlines_asciiBytes hascii hprintable,
      asciiBytes, ascii_map_map hascii] at hparse
    obtain ⟨_, hshort, hparse⟩ := bind_ok_iff.mp hparse
    obtain ⟨_, -, hparse⟩ := bind_ok_iff.mp hparse
    obtain ⟨value, hloads, -⟩ := bind_ok_iff.mp hparse
    have hne := (require_eq_ok.mp hshort).1
    have hread : Json.loads limits recordHooks begun = .ok value := by
      cases h : Json.loads limits recordHooks begun with
      | error e => rw [h] at hloads; cases hloads
      | ok v => rw [h] at hloads; exact congrArg _ (Except.ok.inj hloads)
    have hwhole := @BlockFact.loads_logRecord _ limits fact.count_lt
    rw [← recordText_eq] at hwhole
    obtain ⟨body, hbody⟩ := recordText_braces fact
    obtain ⟨rest, hrest⟩ := hbegun
    have hbrace : begun.head? = some Json.openObj := by
      cases begun with
      | nil => exact absurd rfl hne
      | cons c begun =>
        rw [hbody, List.cons_append, List.cons_append] at hrest
        rw [List.head?_cons, (List.cons.inj hrest).1]
    have hclose : ∃ c ∈ rest, Json.isBlank c = false := by
      have hlast : (begun ++ rest).getLast? = some Json.closeObj := by
        rw [hrest, hbody, List.getLast?_concat]
      refine ⟨Json.closeObj, ?_, by decide⟩
      rcases List.eq_nil_or_concat' rest with rfl | ⟨front, c, rfl⟩
      · exact absurd (by rw [← hrest, List.append_nil]) hcut
      · rw [← List.append_assoc, List.getLast?_concat, Option.some.injEq] at hlast
        simp [hlast]
    rw [← hrest] at hwhole
    exact Json.loads_cut hbrace hclose hwhole hread

end Line

end WagmiBench.Sandbox
