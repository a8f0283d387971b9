import WagmiBench.Lib.Raises
import WagmiBench.Sandbox.Gateway.ClientHello

/-!
# The block collector

`sandbox/docker/guard/block_collector.py`: the name a redirected DNS query asks for, and the block
fact of a redirected attempt. A query is told from other packets by its name, so what the parser
accepts decides what is recorded as DNS evidence.

The parser charges every label together with its length byte to a budget of 253. The text of a name
has one dot less than the name has labels, so the longest legal text costs one more than the budget.
-/

namespace WagmiBench.Sandbox.Guard

open WagmiBench.Lib WagmiBench.Spec

/-! ## Question names -/

/-- How reading a packet fails: with a `ValueError`, or at a place outside the packet. -/
inductive DnsError where
  | value (message : String)
  | outside
  deriving DecidableEq, Repr

abbrev Dns := Except DnsError

/-- `packet[offset]` -/
def byteAt (packet : Bytes) (offset : ℕ) : Dns ℕ :=
  match packet[offset]? with
  | none => .error .outside
  | some b => .ok b.toNat

/-- `packet[offset : offset + length]`; a slice that would come out short is an error too. -/
def bytesAt (packet : Bytes) (offset length : ℕ) : Dns Bytes := do
  require (offset + length ≤ packet.length) .outside
  return slice packet offset length

/-- `bytes.decode("ascii").lower()` -/
def decodeLabel (rawLabel : Bytes) : Dns Text :=
  match asciiDecode rawLabel with
  | none => .error (.value "DNS qname must be ASCII")
  | some label => .ok (label.map lowerChar)

/-- The loop of `parse_dns_qname`: the labels and the offset behind them. -/
def readLabels (packet : Bytes) (offset total : ℕ) : Dns (List Text × ℕ) :=
  if offset < packet.length then do
    let length ← byteAt packet offset
    if length = 0 then return ([], offset + 1)
    else do
      require (¬ (length &&& 0xC0 ≠ 0 ∨ 63 < length)) (.value "compressed or invalid DNS qname")
      require (offset + 1 + length ≤ packet.length) (.value "truncated DNS label")
      let rawLabel ← bytesAt packet (offset + 1) length
      require (total + (length + 1) ≤ 253) (.value "DNS qname exceeds 253 bytes")
      let label ← decodeLabel rawLabel
      let (labels, after) ← readLabels packet (offset + 1 + length) (total + (length + 1))
      return (label :: labels, after)
  else .error (.value "truncated DNS qname")
termination_by packet.length - offset

/-- `".".join(labels)` -/
def joinDots (labels : List Text) : Text := [dot].intercalate labels

/-- `parse_dns_qname` -/
def parseDnsQname (packet : Bytes) : Dns Text := do
  require (12 ≤ packet.length) (.value "truncated DNS header")
  let questionCount ← bytesAt packet 4 2
  require (ofBigEndian questionCount = 1) (.value "collector accepts exactly one DNS question")
  let (labels, offset) ← readLabels packet 12 0
  require (labels ≠ [] ∧ offset + 4 ≤ packet.length)
    (.value "DNS question has no complete qtype/qclass")
  return joinDots labels

/-! ## Block facts -/

/-- `_destination_token` of raw bytes. -/
def destinationToken (sha : Sha256) (raw : Bytes) (kind : Text) : Text :=
  kind ++ txt "-" ++ sha.prefixed raw

/-- `_BlockFact` -/
structure BlockFact where
  destination : Text
  port : Option ℕ
  protocol : Protocol
  count : ℕ := 1
  witness : BlockWitness := .kernelRedirect
  deriving DecidableEq

/-- `parse_dns_qname` with a `ValueError` read as no name. -/
def questionName (packet : Bytes) : Dns Text :=
  match parseDnsQname packet with
  | .ok qname => .ok qname
  | .error (.value _) => .ok []
  | .error .outside => .error .outside

/-- `_fact_for_destination` -/
def factForDestination (sha : Sha256) (address : Text) (port : ℕ) (protocol : Protocol)
    (dnsPacket : Option Bytes) : Dns BlockFact :=
  let token (value kind : Text) := destinationToken sha (utf8EncodeSurrogatePass value) kind
  match protocol, dnsPacket with
  | .udp, some packet => do
    let qname ← questionName packet
    if qname ≠ [] then
      return { destination := token qname (txt "dns"), port := none, protocol := .dns }
    else
      let destination := destinationToken sha packet (txt "opaque")
      return { destination, port := none, protocol := .udp }
  | protocol, dnsPacket =>
    if port = 53 then do
      let qname ← match dnsPacket with
        | some packet => questionName packet
        | none => pure []
      if qname ≠ [] then
        return { destination := token qname (txt "dns"), port := none, protocol := .dns }
      else return { destination := token address (txt "dns-server"), port := none, protocol := .dns }
    else return { destination := token address (txt "ipv4"), port := some port, protocol := protocol }

/-! ## Legal queries -/

/-- A label of a question name. -/
structure IsDnsLabel (label : Bytes) : Prop where
  pos : 1 ≤ label.length
  le : label.length ≤ 63
  ascii : label.all (·.toNat < 0x80) = true

/-- The labels of a name behind their lengths, and the zero length that ends them. -/
def wireName (labels : List Bytes) : Bytes :=
  labels.flatMap (fun label => UInt8.ofNat label.length :: label) ++ [0]

/-- A label in lower case. -/
def labelText (label : Bytes) : Text := label.map fun b => lowerChar (codePoint b.toNat)

/-- The lower-cased labels of a name joined by dots. -/
def nameText (labels : List Bytes) : Text := joinDots (labels.map labelText)

/-- A DNS packet with one question, whose name is given by its labels. -/
structure IsQuery (packet : Bytes) (labels : List Bytes) : Prop where
  framed : ∃ header question rest, packet = header ++ wireName labels ++ question ++ rest ∧
    header.length = 12 ∧ ofBigEndian (slice header 4 2) = 1 ∧ question.length = 4
  label : ∀ label ∈ labels, IsDnsLabel label
  nonempty : labels ≠ []
  textLength : (nameText labels).length ≤ 253

/-- The fact recorded of a query for a name. -/
def dnsFact (sha : Sha256) (qname : Text) : BlockFact where
  destination := destinationToken sha (utf8EncodeSurrogatePass qname) (txt "dns")
  port := none
  protocol := .dns

/-- What is promised of a packet: a legal query is decoded and recorded as DNS evidence of its name,
any other packet is neither, and nothing outside the packet is read. -/
structure Decodes (packet : Bytes) : Prop where
  legal : ∀ labels, IsQuery packet labels → parseDnsQname packet = .ok (nameText labels)
  other : (¬ ∃ labels, IsQuery packet labels) → ∃ m, parseDnsQname packet = .error (.value m)
  inside : parseDnsQname packet ≠ .error .outside
  recorded : ∀ sha address port protocol, protocol = .udp ∨ port = 53 →
    ∃ fact, factForDestination sha address port protocol (some packet) = .ok fact ∧
      (∀ labels, IsQuery packet labels → fact = dnsFact sha (nameText labels)) ∧
      ((¬ ∃ labels, IsQuery packet labels) → ¬ txt "dns-sha256:" <+: fact.destination)

/-! ## What the parser accepts -/

/-- What the parser charges for some labels. -/
def cost (labels : List Bytes) : ℕ := (labels.map fun label => label.length + 1).sum

theorem cost_cons (label : Bytes) (labels : List Bytes) :
    cost (label :: labels) = label.length + 1 + cost labels := rfl

theorem wireName_cons (label : Bytes) (labels : List Bytes) :
    wireName (label :: labels) = UInt8.ofNat label.length :: label ++ wireName labels := by
  simp [wireName]

theorem wireName_length (labels : List Bytes) : (wireName labels).length = cost labels + 1 := by
  induction labels with
  | nil => rfl
  | cons label labels ih =>
    rw [wireName_cons, List.length_append, List.length_cons, ih, cost_cons]
    omega

/-- The text of a name is one shorter than what is charged for it. -/
theorem nameText_length {labels : List Bytes} (h : labels ≠ []) :
    (nameText labels).length + 1 = cost labels := by
  induction labels with
  | nil => exact absurd rfl h
  | cons label labels ih =>
    cases labels with
    | nil => simp [nameText, joinDots, labelText, cost]
    | cons next labels =>
      have ih := ih (by simp)
      rw [cost_cons, ← ih]
      simp only [nameText, joinDots, List.map_cons, List.intercalate_cons_cons, List.length_append,
        List.length_singleton, labelText, List.length_map]
      omega

theorem byteAt_eq_ok {packet : Bytes} {offset n : ℕ} :
    byteAt packet offset = .ok n ↔ ∃ b, packet[offset]? = some b ∧ b.toNat = n := by
  unfold byteAt
  split <;> simp [*]

theorem bytesAt_eq_ok {packet raw : Bytes} {offset n : ℕ} :
    bytesAt packet offset n = .ok raw ↔ offset + n ≤ packet.length ∧ slice packet offset n = raw := by
  simp [bytesAt, bind_ok_iff, pure_eq_ok]

theorem decodeLabel_eq_ok {rawLabel : Bytes} {label : Text} : decodeLabel rawLabel = .ok label ↔
    rawLabel.all (·.toNat < 0x80) = true ∧ labelText rawLabel = label := by
  unfold decodeLabel asciiDecode labelText
  split
  · rename_i h
    simp_all
  · rename_i h
    split at h
    · obtain rfl := Option.some.inj h
      simp_all [List.map_map, Function.comp_def]
    · simp at h

/-- No length up to 63 has a compression bit. -/
theorem uncompressed {n : ℕ} (h : n ≤ 63) : ¬ (n &&& 0xC0 ≠ 0 ∨ 63 < n) := by
  have : ∀ m < 64, m &&& 0xC0 = 0 := by decide
  have := this n (by omega)
  omega

section Labels

variable {packet : Bytes}

/-- Step lemma: a label that stands at an offset is read, if the budget allows it. -/
theorem readLabels_label {label rest : Bytes} {offset total : ℕ} (hlabel : IsDnsLabel label)
    (hat : packet.drop offset = UInt8.ofNat label.length :: label ++ rest)
    (hbudget : total + (label.length + 1) ≤ 253) :
    packet.drop (offset + 1 + label.length) = rest ∧
    readLabels packet offset total = (do
      let (labels, after) ←
        readLabels packet (offset + 1 + label.length) (total + (label.length + 1))
      return (labelText label :: labels, after)) := by
  have hlt : offset + 1 + label.length ≤ packet.length := by
    have := congrArg List.length hat
    simp only [List.length_drop, List.length_append, List.length_cons] at this
    omega
  have hlength : (UInt8.ofNat label.length).toNat = label.length := by
    simp only [UInt8.toNat_ofNat']
    have := hlabel.le
    omega
  have hbyte : byteAt packet offset = .ok label.length := by
    refine byteAt_eq_ok.mpr ⟨_, ?_, hlength⟩
    have : (packet.drop offset)[0]? = some (UInt8.ofNat label.length) := by rw [hat]; rfl
    simpa using this
  have hafter : packet.drop (offset + 1) = label ++ rest := by
    rw [← List.drop_drop, hat]
    rfl
  have hlabelBytes : bytesAt packet (offset + 1) label.length = .ok label := by
    refine bytesAt_eq_ok.mpr ⟨hlt, ?_⟩
    rw [slice, hafter, List.take_left]
  refine ⟨by rw [← List.drop_drop, hafter, List.drop_left], ?_⟩
  have hpos := hlabel.pos
  rw [readLabels, if_pos (by omega), hbyte, ok_bind, if_neg (by omega),
    require_pos (uncompressed hlabel.le), ok_bind, require_pos hlt, ok_bind, hlabelBytes, ok_bind,
    require_pos hbudget, ok_bind, decodeLabel_eq_ok.mpr ⟨hlabel.ascii, rfl⟩, ok_bind]

/-- Run lemma: the labels of a name within the budget are read. -/
theorem readLabels_wireName {labels : List Bytes} {rest : Bytes} {offset total : ℕ}
    (hlabels : ∀ label ∈ labels, IsDnsLabel label)
    (hat : packet.drop offset = wireName labels ++ rest) (hbudget : total + cost labels ≤ 253) :
    readLabels packet offset total = .ok (labels.map labelText, offset + (wireName labels).length) := by
  induction labels generalizing offset total with
  | nil =>
    have hlt : offset < packet.length := by
      have := congrArg List.length hat
      simp only [List.length_drop, List.length_append, wireName_length] at this
      omega
    have hbyte : byteAt packet offset = .ok 0 := by
      refine byteAt_eq_ok.mpr ⟨0, ?_, rfl⟩
      have : (packet.drop offset)[0]? = some 0 := by rw [hat]; rfl
      simpa using this
    rw [readLabels, if_pos hlt, hbyte, ok_bind, if_pos rfl]
    rfl
  | cons label labels ih =>
    rw [wireName_cons, List.append_assoc] at hat
    rw [cost_cons] at hbudget
    obtain ⟨hrest, hstep⟩ :=
      @readLabels_label packet _ _ _ total (hlabels label (by simp)) hat (by omega)
    rw [hstep, ih (fun l hl => hlabels l (by simp [hl])) hrest (by omega), ok_bind, wireName_length,
      wireName_length, cost_cons]
    simp only [List.map_cons, pure_eq_ok]
    congr 2
    omega

/-- Whatever is read are the labels of a name within the budget. -/
theorem readLabels_sound {offset total after : ℕ} {texts : List Text}
    (h : readLabels packet offset total = .ok (texts, after)) (htotal : total ≤ 253) :
    ∃ labels rest, texts = labels.map labelText ∧ (∀ label ∈ labels, IsDnsLabel label) ∧
      packet.drop offset = wireName labels ++ rest ∧ after = offset + (wireName labels).length ∧
      total + cost labels ≤ 253 := by
  induction offset, total using readLabels.induct packet generalizing texts after with
  | case1 offset total hlt ih =>
    rw [readLabels, if_pos hlt] at h
    obtain ⟨length, hbyte, h⟩ := bind_ok_iff.mp h
    obtain ⟨b, hb, rfl⟩ := byteAt_eq_ok.mp hbyte
    have hcons : packet.drop offset = b :: packet.drop (offset + 1) := by
      rw [List.drop_eq_getElem_cons hlt]
      congr 1
      simpa [List.getElem?_eq_getElem hlt] using hb
    split at h
    · rename_i hzero
      obtain ⟨rfl, rfl⟩ := Prod.mk.inj (Except.ok.inj h)
      refine ⟨[], packet.drop (offset + 1), rfl, by simp, ?_, rfl, by simpa [cost] using htotal⟩
      rw [hcons, show b = 0 from UInt8.toNat_inj.mp hzero]
      rfl
    · rename_i hne
      simp only [bind_ok_iff, require_eq_ok, bytesAt_eq_ok, decodeLabel_eq_ok, pure_eq_ok,
        Except.ok.injEq, Prod.mk.injEq] at h
      obtain ⟨-, hmask, -, hle, rawLabel, ⟨-, rfl⟩, -, hbudget, _, ⟨hascii, rfl⟩, ⟨texts, after⟩, hrec,
        rfl, rfl⟩ := h
      have hlength : (slice packet (offset + 1) b.toNat).length = b.toNat := slice_length hle
      obtain ⟨labels, rest, rfl, hlabels, hrest, rfl, hcost⟩ := ih b.toNat hrec hbudget
      refine ⟨slice packet (offset + 1) b.toNat :: labels, rest, rfl, ?_, ?_, ?_, ?_⟩
      · rintro label (_ | ⟨_, hmem⟩)
        · exact ⟨by omega, by omega, hascii⟩
        · exact hlabels label hmem
      · rw [hcons, wireName_cons, hlength, UInt8.ofNat_toNat, List.append_assoc, ← hrest,
          List.cons_append, slice_append_drop]
      · simp only [wireName_length, cost_cons, hlength]
        omega
      · rw [cost_cons, hlength]
        omega
  | case2 offset total hge =>
    rw [readLabels, if_neg hge] at h
    simp at h

end Labels

theorem decodeLabel_raises (rawLabel : Bytes) :
    RaisesOnly (· ≠ .outside) (decodeLabel rawLabel) := by
  unfold decodeLabel
  split
  · exact raisesOnly_error (by simp)
  · exact raisesOnly_ok _

/-- No read leaves the packet. -/
theorem readLabels_raises (packet : Bytes) (offset total : ℕ) :
    RaisesOnly (· ≠ .outside) (readLabels packet offset total) := by
  induction offset, total using readLabels.induct packet with
  | case1 offset total hlt ih =>
    rw [readLabels, if_pos hlt, byteAt, List.getElem?_eq_getElem hlt, ok_bind]
    split
    · exact raisesOnly_ok _
    · rename_i hne
      refine .bind (raisesOnly_require (by simp)) fun _ => ?_
      by_cases hle : offset + 1 + packet[offset].toNat ≤ packet.length
      · rw [require_pos hle, ok_bind, bytesAt_eq_ok.mpr ⟨hle, rfl⟩, ok_bind]
        exact .bind (raisesOnly_require (by simp)) fun _ => .bind (decodeLabel_raises _) fun _ =>
          .bind (ih _) fun _ => raisesOnly_ok _
      · rw [require_neg hle]
        exact raisesOnly_error (by simp)
  | case2 offset total hge =>
    rw [readLabels, if_neg hge]
    exact raisesOnly_error (by simp)

theorem parseDnsQname_raises (packet : Bytes) :
    RaisesOnly (· ≠ .outside) (parseDnsQname packet) := by
  unfold parseDnsQname
  by_cases hheader : 12 ≤ packet.length
  · rw [require_pos hheader, ok_bind, bytesAt_eq_ok.mpr ⟨by omega, rfl⟩, ok_bind]
    exact .bind (raisesOnly_require (by simp)) fun _ => .bind (readLabels_raises _ _ _) fun _ =>
      .bind (raisesOnly_require (by simp)) fun _ => raisesOnly_ok _
  · rw [require_neg hheader]
    exact raisesOnly_error (by simp)

/-- A legal query is decoded if its text is not of the greatest length. -/
theorem parseDnsQname_legal {packet : Bytes} {labels : List Bytes} (h : IsQuery packet labels)
    (hlength : (nameText labels).length ≠ 253) :
    parseDnsQname packet = .ok (nameText labels) := by
  obtain ⟨header, question, rest, rfl, hheader, hcount, hquestion⟩ := h.framed
  have hcost := nameText_length h.nonempty
  have htext := h.textLength
  rw [List.append_assoc, List.append_assoc]
  have hat : (header ++ (wireName labels ++ (question ++ rest))).drop 12 =
      wireName labels ++ (question ++ rest) := by rw [← hheader, List.drop_left]
  have hnumber : slice (header ++ (wireName labels ++ (question ++ rest))) 4 2 =
      slice header 4 2 := by
    rw [slice, slice, List.drop_append_of_le_length (by omega),
      List.take_append_of_le_length (by rw [List.length_drop]; omega)]
  have hlabels := @readLabels_wireName _ _ _ _ 0 h.label hat (by omega)
  have hnonempty : labels.map labelText ≠ [] := by simpa using h.nonempty
  rw [parseDnsQname, require_pos (by rw [List.length_append]; omega), ok_bind,
    bytesAt_eq_ok.mpr ⟨by rw [List.length_append]; omega, hnumber⟩, ok_bind, require_pos hcount,
    ok_bind, hlabels, ok_bind]
  dsimp only
  rw [require_pos ⟨hnonempty, by simp only [List.length_append]; omega⟩]
  rfl

/-- What is decoded is a legal query whose text is not of the greatest length. -/
theorem parseDnsQname_sound {packet : Bytes} {qname : Text} (h : parseDnsQname packet = .ok qname) :
    ∃ labels, IsQuery packet labels ∧ (nameText labels).length ≠ 253 ∧
      qname = nameText labels := by
  simp only [parseDnsQname, bind_ok_iff, require_eq_ok, bytesAt_eq_ok, pure_eq_ok,
    Except.ok.injEq] at h
  obtain ⟨-, hheader, _, ⟨-, rfl⟩, -, hcount, ⟨texts, after⟩, hlabels, -, ⟨hne, hend⟩, rfl⟩ := h
  obtain ⟨labels, rest, rfl, hlabel, hat, rfl, hcost⟩ := readLabels_sound hlabels (by omega)
  have hnonempty : labels ≠ [] := by simpa using hne
  have htext := nameText_length hnonempty
  have hframe : packet = slice packet 0 12 ++ (wireName labels ++ rest) := by
    rw [← hat]
    exact (slice_append_drop packet 0 12).symm
  have hrest : 4 ≤ rest.length := by
    have := congrArg List.length hframe
    simp only [List.length_append, slice_length (show 0 + 12 ≤ packet.length by omega)] at this
    omega
  refine ⟨labels, ⟨⟨slice packet 0 12, rest.take 4, rest.drop 4, ?_, slice_length (by omega), ?_, ?_⟩,
    hlabel, hnonempty, by omega⟩, by omega, rfl⟩
  · rw [List.append_assoc, List.append_assoc, List.take_append_drop]
    exact hframe
  · rw [← hcount]
    simp [slice, List.drop_take, List.take_take]
  · rw [List.length_take]
    omega

/-- Bytes start with one name only. -/
theorem wireName_unique {labels labels' : List Bytes} {rest rest' : Bytes}
    (h : ∀ label ∈ labels, IsDnsLabel label) (h' : ∀ label ∈ labels', IsDnsLabel label)
    (heq : wireName labels ++ rest = wireName labels' ++ rest') : labels = labels' := by
  have length_ne : ∀ {label : Bytes}, IsDnsLabel label → UInt8.ofNat label.length ≠ 0 := by
    intro label hlabel hzero
    have := congrArg UInt8.toNat hzero
    simp only [UInt8.toNat_ofNat', UInt8.toNat_zero] at this
    have := hlabel.pos
    have := hlabel.le
    omega
  induction labels generalizing labels' with
  | nil =>
    cases labels' with
    | nil => rfl
    | cons label' labels' =>
      rw [wireName_cons] at heq
      exact absurd (List.cons.inj heq).1.symm (length_ne (h' label' (by simp)))
  | cons label labels ih =>
    cases labels' with
    | nil =>
      rw [wireName_cons] at heq
      exact absurd (List.cons.inj heq).1 (length_ne (h label (by simp)))
    | cons label' labels' =>
      have hlabel := h label (by simp)
      have hlabel' := h' label' (by simp)
      rw [wireName_cons, wireName_cons, List.append_assoc, List.append_assoc, List.cons_append,
        List.cons_append] at heq
      obtain ⟨hbyte, heq⟩ := List.cons.inj heq
      have hlength : label.length = label'.length := by
        have := congrArg UInt8.toNat hbyte
        simp only [UInt8.toNat_ofNat'] at this
        have := hlabel.le
        have := hlabel'.le
        omega
      obtain ⟨rfl, htail⟩ := List.append_inj heq hlength
      rw [ih (fun l hl => h l (by simp [hl])) (fun l hl => h' l (by simp [hl]))
        htail]

/-- A packet asks for one name only. -/
theorem IsQuery.unique {packet : Bytes} {labels labels' : List Bytes} (h : IsQuery packet labels)
    (h' : IsQuery packet labels') : labels = labels' := by
  obtain ⟨header, question, rest, rfl, hheader, -, -⟩ := h.framed
  obtain ⟨header', question', rest', heq, hheader', -, -⟩ := h'.framed
  simp only [List.append_assoc] at heq
  exact wireName_unique h.label h'.label (List.append_inj heq (hheader.trans hheader'.symm)).2

/-- A legal query whose text is of the greatest length is refused. -/
theorem parseDnsQname_longest {packet : Bytes} {labels : List Bytes} (h : IsQuery packet labels)
    (hlength : (nameText labels).length = 253) :
    ∃ m, parseDnsQname packet = .error (.value m) := by
  rcases hparse : parseDnsQname packet with (m | _) | qname
  · exact ⟨m, rfl⟩
  · exact absurd rfl (parseDnsQname_raises packet _ hparse)
  · obtain ⟨labels', hquery, hne, -⟩ := parseDnsQname_sound hparse
    exact absurd (h.unique hquery ▸ hlength) hne

/-! ## What is recorded -/

/-- A token of kind `dns` is one of a name. -/
theorem not_dns_prefix {kind hash : Text} (h : (txt "dns-sha256:")[5]? ≠ (kind ++ txt "-")[5]?)
    (hlength : 5 < (kind ++ txt "-").length) :
    ¬ txt "dns-sha256:" <+: kind ++ txt "-" ++ hash := by
  rintro ⟨tail, htail⟩
  have hfifth := congrArg (·[5]?) htail
  simp only [List.getElem?_append_left hlength] at hfifth
  rw [List.getElem?_append_left (by decide)] at hfifth
  exact h hfifth

/-- Of a packet that names a host, the fact is that of the name. -/
theorem factForDestination_named {sha : Sha256} {address : Text} {port : ℕ} {protocol : Protocol}
    {packet : Bytes} {qname : Text} (hcall : protocol = .udp ∨ port = 53)
    (h : parseDnsQname packet = .ok qname) (hne : qname ≠ []) :
    factForDestination sha address port protocol (some packet) = .ok (dnsFact sha qname) := by
  have hname : questionName packet = .ok qname := by rw [questionName, h]
  unfold factForDestination
  split
  · rename_i p hp
    obtain rfl := Option.some.inj hp
    rw [hname, ok_bind, if_pos hne]
    rfl
  · rename_i hother
    obtain rfl : port = 53 := hcall.resolve_left fun hudp => hother packet hudp rfl
    rw [if_pos rfl]
    dsimp only
    rw [hname, ok_bind, if_pos hne]
    rfl

/-- Of any other packet, the fact is no DNS evidence. -/
theorem factForDestination_unnamed {sha : Sha256} {address : Text} {port : ℕ} {protocol : Protocol}
    {packet : Bytes} {m : String} (hcall : protocol = .udp ∨ port = 53)
    (h : parseDnsQname packet = .error (.value m)) :
    ∃ fact, factForDestination sha address port protocol (some packet) = .ok fact ∧
      ¬ txt "dns-sha256:" <+: fact.destination := by
  have hname : questionName packet = .ok [] := by rw [questionName, h]
  unfold factForDestination
  split
  · rename_i p hp
    obtain rfl := Option.some.inj hp
    rw [hname, ok_bind, if_neg (by simp)]
    exact ⟨_, rfl, not_dns_prefix (by decide) (by decide)⟩
  · rename_i hother
    obtain rfl : port = 53 := hcall.resolve_left fun hudp => hother packet hudp rfl
    rw [if_pos rfl]
    dsimp only
    rw [hname, ok_bind, if_neg (by simp)]
    exact ⟨_, rfl, not_dns_prefix (by decide) (by decide)⟩

theorem nameText_ne_nil {packet : Bytes} {labels : List Bytes} (h : IsQuery packet labels) :
    nameText labels ≠ [] := by
  intro hnil
  have hlength := nameText_length h.nonempty
  obtain ⟨label, labels, rfl⟩ := List.exists_cons_of_ne_nil h.nonempty
  have := (h.label label (by simp)).pos
  rw [hnil, cost_cons, List.length_nil] at hlength
  omega

/-- **Question names.** A packet is decoded as promised exactly when it is no query whose name has
the greatest legal length. -/
theorem decodes_iff (packet : Bytes) :
    Decodes packet ↔ ¬ ∃ labels, IsQuery packet labels ∧ (nameText labels).length = 253 := by
  constructor
  · rintro decodes ⟨labels, hquery, hlength⟩
    obtain ⟨m, hm⟩ := parseDnsQname_longest hquery hlength
    have := decodes.legal labels hquery
    simp [hm] at this
  · intro hshort
    have legal : ∀ labels, IsQuery packet labels →
        parseDnsQname packet = .ok (nameText labels) := fun labels hquery =>
      parseDnsQname_legal hquery fun hlength => hshort ⟨labels, hquery, hlength⟩
    have other : (¬ ∃ labels, IsQuery packet labels) →
        ∃ m, parseDnsQname packet = .error (.value m) := by
      intro hnone
      rcases hparse : parseDnsQname packet with (m | _) | qname
      · exact ⟨m, rfl⟩
      · exact absurd rfl (parseDnsQname_raises packet _ hparse)
      · obtain ⟨labels, hquery, -, -⟩ := parseDnsQname_sound hparse
        exact absurd ⟨labels, hquery⟩ hnone
    refine ⟨legal, other, fun h => parseDnsQname_raises packet _ h rfl, ?_⟩
    intro sha address port protocol hcall
    by_cases hquery : ∃ labels, IsQuery packet labels
    · obtain ⟨labels, hlabels⟩ := hquery
      have named := legal labels hlabels
      refine ⟨dnsFact sha (nameText labels),
        factForDestination_named hcall named (nameText_ne_nil hlabels), ?_,
        fun hnone => absurd ⟨labels, hlabels⟩ hnone⟩
      intro labels' hlabels'
      rw [Except.ok.inj (named.symm.trans (legal labels' hlabels'))]
    · obtain ⟨m, hm⟩ := other hquery
      obtain ⟨fact, hfact, hno⟩ := factForDestination_unnamed hcall hm
      exact ⟨fact, hfact, fun labels hlabels => absurd ⟨labels, hlabels⟩ hquery, fun _ => hno⟩

/-- A name of four labels, as long as a name can be. -/
def longestName : List Bytes :=
  [List.replicate 63 0x61, List.replicate 63 0x62, List.replicate 63 0x63, List.replicate 61 0x64]

/-- A query for it. -/
def longestQuery : Bytes :=
  [0, 0, 1, 0, 0, 1, 0, 0, 0, 0, 0, 0] ++ wireName longestName ++ [0, 1, 0, 1] ++ []

/-- The query is legal, and refused. -/
theorem longestQuery_refused : IsQuery longestQuery longestName ∧
    (nameText longestName).length = 253 ∧
    (∃ m, parseDnsQname longestQuery = .error (.value m)) ∧ ¬ Decodes longestQuery := by
  have hlength : (nameText longestName).length = 253 := by decide +kernel
  have hlabels : ∀ label ∈ longestName, IsDnsLabel label := by
    intro label hlabel
    obtain ⟨n, b, hn, hascii, rfl⟩ : ∃ n b, (1 ≤ n ∧ n ≤ 63) ∧ b.toNat < 0x80 ∧
        label = List.replicate n b := by
      simp only [longestName, List.mem_cons, List.not_mem_nil, or_false] at hlabel
      rcases hlabel with rfl | rfl | rfl | rfl <;> exact ⟨_, _, by decide, by decide, rfl⟩
    refine ⟨by simpa using hn.1, by simpa using hn.2, ?_⟩
    rw [List.all_eq_true]
    intro c hc
    simpa [List.eq_of_mem_replicate hc] using hascii
  have query : IsQuery longestQuery longestName :=
    ⟨⟨_, [0, 1, 0, 1], [], rfl, rfl, by decide, rfl⟩, hlabels, by simp [longestName], hlength.le⟩
  obtain ⟨m, hm⟩ := parseDnsQname_longest query hlength
  refine ⟨query, hlength, ⟨m, hm⟩, fun decodes => ?_⟩
  have := decodes.legal _ query
  simp [hm] at this

end WagmiBench.Sandbox.Guard
