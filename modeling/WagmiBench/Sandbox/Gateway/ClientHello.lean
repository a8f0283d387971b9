import WagmiBench.Lib.Wire
import WagmiBench.Sandbox.Gateway.Policy

/-!
# The first ClientHello

`sandbox/docker/gateway/gateway_server.py`: reading TLS records from the client until they hold one
ClientHello, and the host it names. What is read is a record layer around one handshake message, and
nothing the client has sent is lost.
-/

namespace WagmiBench.Sandbox

open WagmiBench.Lib

/-! ## The host a ClientHello names -/

/-- `_need` -/
def need (data : Bytes) (offset length : ℕ) : Gate Bytes := do
  require (offset + length ≤ data.length) (.policy "truncated TLS ClientHello")
  return slice data offset length

/-- A big-endian number in place. -/
def needNumber (data : Bytes) (offset width : ℕ) : Gate ℕ := do
  let raw ← need data offset width
  return ofBigEndian raw

/-- `bytes.decode("ascii")` -/
def asciiDecode (raw : Bytes) : Option Text :=
  if raw.all (·.toNat < 0x80) then some (raw.map fun b => codePoint b.toNat) else none

/-- The host of a server name extension. -/
def serverName (extensionData : Bytes) : Gate Text := do
  require (5 ≤ extensionData.length) (.policy "invalid TLS SNI extension")
  let namesLength := ofBigEndian (extensionData.take 2)
  require (namesLength = extensionData.length - 2) (.policy "invalid TLS SNI name-list length")
  let nameType := extensionData[2]?
  let nameLength := ofBigEndian (slice extensionData 3 2)
  require (nameType = some 0 ∧ nameLength = extensionData.length - 5)
    (.policy "TLS SNI must contain one host_name")
  match asciiDecode (extensionData.drop 5) with
  | none => .error (.policy "TLS SNI must be ASCII")
  | some requested => canonicalRequestedDomain requested

/-- The loop of `extract_tls_sni` over the extensions. -/
def scanExtensions (body : Bytes) (offset extensionsEnd : ℕ) : Gate Text :=
  if offset < extensionsEnd then do
    let extensionType ← needNumber body offset 2
    let extensionLength ← needNumber body (offset + 2) 2
    let extensionData ← need body (offset + 4) extensionLength
    if extensionType ≠ 0 then scanExtensions body (offset + 4 + extensionLength) extensionsEnd
    else serverName extensionData
  else .error (.policy "TLS ClientHello has no SNI")
termination_by extensionsEnd - offset

/-- `extract_tls_sni` -/
def extractTlsSni (clientHelloBody : Bytes) : Gate Text := do
  let _ ← need clientHelloBody 0 34
  let sessionIdLength ← needNumber clientHelloBody 34 1
  let _ ← need clientHelloBody 35 sessionIdLength
  let offset := 35 + sessionIdLength
  let cipherLength ← needNumber clientHelloBody offset 2
  require (2 ≤ cipherLength ∧ cipherLength % 2 = 0) (.policy "invalid TLS cipher-suite vector")
  let _ ← need clientHelloBody (offset + 2) cipherLength
  let offset := offset + 2 + cipherLength
  let compressionLength ← needNumber clientHelloBody offset 1
  require (1 ≤ compressionLength) (.policy "invalid TLS compression vector")
  let _ ← need clientHelloBody (offset + 1) compressionLength
  let offset := offset + 1 + compressionLength
  let extensionsLength ← needNumber clientHelloBody offset 2
  let extensionsEnd := offset + 2 + extensionsLength
  require (extensionsEnd = clientHelloBody.length) (.policy "invalid TLS extensions length")
  scanExtensions clientHelloBody (offset + 2) extensionsEnd

/-! ## The client's bytes -/

/-- What the client's connection delivers: bytes as they arrive, an empty arrival being its end, and
what comes after them, the end (`closed`) or an `OSError`. -/
structure ClientStream where
  arrivals : List Bytes
  closed : Bool

/-- The bytes that have not been received yet. -/
def ClientStream.pending (client : ClientStream) : Bytes := client.arrivals.flatten

/-- `_recv_exact` from the arrivals of a connection. -/
def recvExactFrom (closed : Bool) : ℕ → List Bytes → Gate (Bytes × List Bytes)
  | 0, arrivals => .ok ([], arrivals)
  | _ + 1, [] =>
    if closed then .error (.policy "connection closed during TLS ClientHello") else .error .os
  | length + 1, chunk :: arrivals =>
    if chunk = [] then .error (.policy "connection closed during TLS ClientHello")
    else if chunk.length ≤ length + 1 then do
      let (rest, arrivals) ← recvExactFrom closed (length + 1 - chunk.length) arrivals
      return (chunk ++ rest, arrivals)
    else .ok (chunk.take (length + 1), chunk.drop (length + 1) :: arrivals)

theorem recvExactFrom_length {closed : Bool} {n : ℕ} {arrivals rest : List Bytes} {raw : Bytes}
    (h : recvExactFrom closed n arrivals = .ok (raw, rest)) :
    raw.length = n ∧ raw ++ rest.flatten = arrivals.flatten := by
  induction arrivals generalizing n raw with
  | nil =>
    cases n with
    | zero =>
      obtain ⟨rfl, rfl⟩ := Prod.mk.inj (Except.ok.inj h)
      simp
    | succ n => cases closed <;> simp [recvExactFrom] at h
  | cons chunk arrivals ih =>
    cases n with
    | zero =>
      obtain ⟨rfl, rfl⟩ := Prod.mk.inj (Except.ok.inj h)
      simp
    | succ n =>
      rw [recvExactFrom] at h
      split at h
      · simp at h
      · split at h
        · rename_i hle
          obtain ⟨⟨raw', rest'⟩, hrest, h⟩ := bind_ok_iff.mp h
          obtain ⟨rfl, rfl⟩ := Prod.mk.inj (Except.ok.inj h)
          obtain ⟨hlength, hflat⟩ := ih hrest
          refine ⟨by rw [List.length_append, hlength]; omega, ?_⟩
          rw [List.append_assoc, hflat, List.flatten_cons]
        · rename_i hlt
          obtain ⟨rfl, rfl⟩ := Prod.mk.inj (Except.ok.inj h)
          refine ⟨by rw [List.length_take]; omega, ?_⟩
          rw [List.flatten_cons, ← List.append_assoc, List.take_append_drop, List.flatten_cons]

/-- `_recv_exact` -/
def recvExact (client : ClientStream) (length : ℕ) :
    Gate ({raw : Bytes // raw.length = length} × ClientStream) :=
  match h : recvExactFrom client.closed length client.arrivals with
  | .error e => .error e
  | .ok (raw, arrivals) => .ok (⟨raw, (recvExactFrom_length h).1⟩, { client with arrivals })

theorem recvExact_pending {client rest : ClientStream} {n : ℕ} {raw : {raw : Bytes // raw.length = n}}
    (h : recvExact client n = .ok (raw, rest)) : raw.1 ++ rest.pending = client.pending := by
  unfold recvExact at h
  split at h
  · simp at h
  · rename_i hfrom
    obtain ⟨rfl, rfl⟩ := Prod.mk.inj (Except.ok.inj h)
    exact (recvExactFrom_length hfrom).2

/-! ## Reading records -/

abbrev MAX_CLIENT_HELLO_BYTES : ℕ := 65_536

/-- How long the handshake message is, once its first four bytes are there. -/
def expectedBytes (expected : Option ℕ) (handshake : Bytes) : Gate (Option ℕ) :=
  if expected = none ∧ 4 ≤ handshake.length then do
    require (handshake.head? = some 1) (.policy "first TLS handshake message is not ClientHello")
    let length := 4 + ofBigEndian (slice handshake 1 3)
    require (length ≤ MAX_CLIENT_HELLO_BYTES) (.policy "TLS ClientHello exceeds gateway limit")
    return some length
  else .ok expected

/-- The loop of `read_client_hello`. -/
def readRecords (records handshake : Bytes) (expected : Option ℕ) (client : ClientStream) :
    Gate ((Text × Bytes) × ClientStream) :=
  if records.length < MAX_CLIENT_HELLO_BYTES then do
    let (header, client) ← recvExact client 5
    let recordLength := ofBigEndian (slice header.1 3 2)
    require (header.1[0]? = some 22 ∧ header.1[1]? = some 3 ∧ 1 ≤ recordLength ∧
        recordLength ≤ 18_432) (.policy "CONNECT tunnel did not begin with bounded TLS")
    let (payload, client) ← recvExact client recordLength
    require ((records ++ header.1 ++ payload.1).length ≤ MAX_CLIENT_HELLO_BYTES)
      (.policy "TLS ClientHello exceeds gateway limit")
    let expected ← expectedBytes expected (handshake ++ payload.1)
    if expected.any (· ≤ (handshake ++ payload.1).length) then do
      require (expected = some (handshake ++ payload.1).length)
        (.policy "unexpected TLS bytes before upstream connection")
      let sni ← extractTlsSni ((handshake ++ payload.1).drop 4)
      return ((sni, records ++ header.1 ++ payload.1), client)
    else readRecords (records ++ header.1 ++ payload.1) (handshake ++ payload.1) expected client
  else .error (.policy "TLS ClientHello exceeds gateway limit")
termination_by MAX_CLIENT_HELLO_BYTES - records.length
decreasing_by
  have := header.2
  simp only [List.length_append] at *
  omega

/-- `read_client_hello` -/
def readClientHello (client : ClientStream) : Gate ((Text × Bytes) × ClientStream) :=
  readRecords [] [] none client

/-! ## The format that is read -/

/-- One extension: its type and its data. -/
def IsExtension (bytes : Bytes) (extensionType : ℕ) (extensionData : Bytes) : Prop :=
  ∃ head body, bytes = head ++ body ∧ head.length = 2 ∧ ofBigEndian head = extensionType ∧
    IsVector 2 body extensionData

/-- The data of the first server name extension among some extensions. -/
inductive FirstServerName : Bytes → Bytes → Prop where
  | here {bytes extensionData} (rest : Bytes) (h : IsExtension bytes 0 extensionData) :
    FirstServerName (bytes ++ rest) extensionData
  | skip {bytes rest other extensionData} {extensionType : ℕ}
    (h : IsExtension bytes extensionType other) (hne : extensionType ≠ 0)
    (hrest : FirstServerName rest extensionData) : FirstServerName (bytes ++ rest) extensionData

/-- The list of one host name, which is `host` but for the case of its letters. -/
def NamesHost (extensionData : Bytes) (host : Text) : Prop :=
  ∃ entry name text, IsVector 2 extensionData (0 :: entry) ∧ IsVector 2 entry name ∧
    asciiDecode name = some text ∧ canonicalRequestedDomain text = .ok host

/-- A ClientHello body: version and random, session, cipher suites, compression methods and
extensions, the first server name of which is `host`. -/
def Names (body : Bytes) (host : Text) : Prop :=
  ∃ random session suites compression extensions sessionId cipherSuites methods content extensionData,
    body = random ++ session ++ suites ++ compression ++ extensions ∧ random.length = 34 ∧
    IsVector 1 session sessionId ∧ IsVector 2 suites cipherSuites ∧ IsVector 1 compression methods ∧
    IsVector 2 extensions content ∧ FirstServerName content extensionData ∧
    NamesHost extensionData host

/-- A ClientHello body and the content of its extension block, which fills the rest of it: version and
random, session, a non-empty vector of two-byte cipher suites and non-empty compression methods. -/
structure IsClientHello (body content : Bytes) : Prop where
  framed : ∃ random session suites compression extensions sessionId cipherSuites methods,
    body = random ++ session ++ suites ++ compression ++ extensions ∧ random.length = 34 ∧
    IsVector 1 session sessionId ∧
    (IsVector 2 suites cipherSuites ∧ cipherSuites ≠ [] ∧ cipherSuites.length % 2 = 0) ∧
    (IsVector 1 compression methods ∧ methods ≠ []) ∧ IsVector 2 extensions content

/-- Handshake records, and the handshake bytes they carry. -/
inductive HandshakeRecords : Bytes → Bytes → Prop where
  | nil : HandshakeRecords [] []
  | snoc {records handshake header payload : Bytes} (h : HandshakeRecords records handshake)
    (hlength : header.length = 5) (htype : header[0]? = some 22) (hversion : header[1]? = some 3)
    (hpayload : ofBigEndian (slice header 3 2) = payload.length) :
    HandshakeRecords (records ++ header ++ payload) (handshake ++ payload)

/-- A handshake record of 1 to 18432 bytes. -/
structure TlsRecord where
  header : Bytes
  payload : Bytes
  header_length : header.length = 5
  handshake : header[0]? = some 22
  version : header[1]? = some 3
  announced : ofBigEndian (slice header 3 2) = payload.length
  bounded : 1 ≤ payload.length ∧ payload.length ≤ 18_432

namespace TlsRecord

def bytes (record : TlsRecord) : Bytes := record.header ++ record.payload

theorem bytes_length (record : TlsRecord) :
    record.bytes.length = 5 + record.payload.length := by
  rw [bytes, List.length_append, record.header_length]

end TlsRecord

/-- The records of a handshake message. -/
def recordBytes (fragments : List TlsRecord) : Bytes := fragments.flatMap TlsRecord.bytes

/-- The bytes the records carry. -/
def handshakeBytes (fragments : List TlsRecord) : Bytes := fragments.flatMap TlsRecord.payload

theorem recordBytes_cons (record : TlsRecord) (fragments : List TlsRecord) :
    recordBytes (record :: fragments) = record.bytes ++ recordBytes fragments := List.flatMap_cons

theorem handshakeBytes_cons (record : TlsRecord) (fragments : List TlsRecord) :
    handshakeBytes (record :: fragments) = record.payload ++ handshakeBytes fragments :=
  List.flatMap_cons

/-- A ClientHello handshake message: its type, and its body behind a length. -/
def IsClientHelloMessage (message body : Bytes) : Prop :=
  ∃ vector, message = 1 :: vector ∧ IsVector 3 vector body

/-- Records that carry one ClientHello, which names `host`, and nothing else. -/
def CarriesClientHello (records : Bytes) (host : Text) : Prop :=
  ∃ message body, HandshakeRecords records (1 :: message) ∧ IsVector 3 message body ∧
    Names body host

section Reading

variable {body : Bytes} {offset n width : ℕ}

theorem need_eq_ok {raw : Bytes} :
    need body offset n = .ok raw ↔ offset + n ≤ body.length ∧ slice body offset n = raw := by
  simp [need, bind_ok_iff, pure_eq_ok]

theorem needNumber_eq_ok {value : ℕ} : needNumber body offset width = .ok value ↔
    offset + width ≤ body.length ∧ ofBigEndian (slice body offset width) = value := by
  simp [needNumber, bind_ok_iff, pure_eq_ok, need_eq_ok, and_assoc]

/-- A server name extension is accepted for the host it names. -/
theorem four_le_length : {data : Bytes} → 4 ≤ data.length →
    ∃ a b c d rest, data = a :: b :: c :: d :: rest
  | a :: b :: c :: d :: rest, _ => ⟨a, b, c, d, rest, rfl⟩

theorem five_le_length : {data : Bytes} → 5 ≤ data.length →
    ∃ a b c d e rest, data = a :: b :: c :: d :: e :: rest
  | a :: b :: c :: d :: e :: rest, _ => ⟨a, b, c, d, e, rest, rfl⟩

theorem serverName_names {extensionData : Bytes} {host : Text}
    (h : serverName extensionData = .ok host) : NamesHost extensionData host := by
  simp only [serverName, bind_ok_iff, require_eq_ok] at h
  obtain ⟨-, hlength, -, hnames, -, ⟨htype, hname⟩, h⟩ := h
  split at h
  · simp at h
  · rename_i text htext
    obtain ⟨a, b, t, c, d, name, rfl⟩ : ∃ a b t c d name, extensionData = a :: b :: t :: c :: d ::
        name := five_le_length hlength
    obtain rfl : t = 0 := by simpa using htype
    refine ⟨c :: d :: name, name, text, ⟨[a, b], rfl, ?_, rfl⟩, ⟨[c, d], rfl, ?_, rfl⟩, htext, h⟩
    · simpa using hnames
    · simpa [slice] using hname

/-- The scan of the extensions finds the first server name. -/
theorem scanExtensions_names {extensionsEnd : ℕ} {host : Text}
    (h : scanExtensions body offset extensionsEnd = .ok host) (hend : extensionsEnd = body.length) :
    ∃ extensionData, FirstServerName (body.drop offset) extensionData ∧
      NamesHost extensionData host := by
  induction offset using scanExtensions.induct extensionsEnd with
  | case1 offset hlt ih =>
    rw [scanExtensions, if_pos hlt] at h
    simp only [bind_ok_iff, needNumber_eq_ok, need_eq_ok] at h
    obtain ⟨extensionType, ⟨-, htype⟩, extensionLength, ⟨-, hlength⟩, extensionData, ⟨hle, hdata⟩, h⟩ := h
    have extension : IsExtension (slice body offset (4 + extensionLength)) extensionType
        extensionData := by
      refine ⟨slice body offset 2, slice body (offset + 2) (2 + extensionLength), ?_,
        slice_length (by omega), htype, hdata ▸ isVector_slice hlength (by omega)⟩
      rw [slice_append rfl]
      congr 1
      omega
    have split : body.drop offset = slice body offset (4 + extensionLength) ++
        body.drop (offset + 4 + extensionLength) := by
      rw [slice, Nat.add_assoc, ← List.drop_drop, List.take_append_drop]
    rw [split]
    split at h
    · rename_i hne
      obtain ⟨found, hfound, hhost⟩ := ih _ h
      exact ⟨found, .skip extension hne hfound, hhost⟩
    · rename_i hzero
      obtain rfl : extensionType = 0 := not_not.mp hzero
      exact ⟨extensionData, .here _ extension, serverName_names h⟩
  | case2 offset hge =>
    rw [scanExtensions, if_neg hge] at h
    simp at h

/-- A body that is accepted is a ClientHello body, whose first server name is the host. -/
theorem extractTlsSni_sound {host : Text} (h : extractTlsSni body = .ok host) :
    ∃ content extensionData, IsClientHello body content ∧ FirstServerName content extensionData ∧
      NamesHost extensionData host := by
  simp only [extractTlsSni, bind_ok_iff, needNumber_eq_ok, need_eq_ok, require_eq_ok] at h
  obtain ⟨-, -, m, ⟨-, hm⟩, -, ⟨hm', -⟩, s, ⟨-, hs⟩, -, hsuites, -, ⟨hs', -⟩, c, ⟨-, hc⟩, -, hmethods,
    -, ⟨hc', -⟩, e, ⟨-, he⟩, -, hend, h⟩ := h
  obtain ⟨extensionData, hfirst, hhost⟩ := scanExtensions_names h hend
  have suites_length := slice_length hs'
  have methods_length := slice_length hc'
  refine ⟨slice body (35 + m + 2 + s + 1 + c + 2) e, extensionData,
    ⟨slice body 0 34, slice body 34 (1 + m), slice body (35 + m) (2 + s),
      slice body (35 + m + 2 + s) (1 + c), slice body (35 + m + 2 + s + 1 + c) (2 + e), _, _, _, ?_,
      slice_length (by omega), isVector_slice hm (by omega),
      ⟨isVector_slice hs (by omega), ?_, ?_⟩, ⟨isVector_slice hc (by omega), ?_⟩,
      isVector_slice he (by omega)⟩, ?_, hhost⟩
  · rw [slice_append (by omega), slice_append (by omega), slice_append (by omega),
      slice_append (by omega), slice_all (by omega)]
  · exact List.ne_nil_of_length_pos (by omega)
  · rw [suites_length]
    exact hsuites.2
  · exact List.ne_nil_of_length_pos (by omega)
  · rwa [slice_to_end (by omega)]

/-- **A body that is accepted names its host.** -/
theorem extractTlsSni_names {host : Text} (h : extractTlsSni body = .ok host) : Names body host := by
  obtain ⟨content, extensionData, ⟨framed⟩, hfirst, hhost⟩ := extractTlsSni_sound h
  obtain ⟨random, session, suites, compression, extensions, sessionId, cipherSuites, methods, hbody,
    hrandom, hsession, ⟨hsuites, -⟩, ⟨hcompression, -⟩, hextensions⟩ := framed
  exact ⟨random, session, suites, compression, extensions, sessionId, cipherSuites, methods, content,
    extensionData, hbody, hrandom, hsession, hsuites, hcompression, hextensions, hfirst, hhost⟩

/-- The length announced by a handshake message, once it is known. -/
def Expecting (expected : Option ℕ) (handshake : Bytes) : Prop :=
  ∀ n ∈ expected, 4 ≤ handshake.length ∧ handshake.head? = some 1 ∧
    n = 4 + ofBigEndian (slice handshake 1 3)

theorem Expecting.append {expected : Option ℕ} {handshake payload : Bytes}
    (h : Expecting expected handshake) : Expecting expected (handshake ++ payload) := by
  intro n hn
  obtain ⟨hlength, hhead, rfl⟩ := h n hn
  obtain ⟨a, b, c, d, rest, rfl⟩ : ∃ a b c d rest, handshake = a :: b :: c :: d :: rest := by
    match handshake, hlength with
    | a :: b :: c :: d :: rest, _ => exact ⟨a, b, c, d, rest, rfl⟩
  exact ⟨by simp, hhead, rfl⟩

theorem expectedBytes_expecting {expected expected' : Option ℕ} {handshake : Bytes}
    (h : expectedBytes expected handshake = .ok expected') (hold : Expecting expected handshake) :
    Expecting expected' handshake := by
  unfold expectedBytes at h
  split at h
  · rename_i hcond
    simp only [bind_ok_iff, require_eq_ok, pure_eq_ok, Except.ok.injEq] at h
    obtain ⟨-, hhead, -, -, rfl⟩ := h
    rintro n ⟨⟩
    exact ⟨hcond.2, hhead, rfl⟩
  · obtain rfl := Except.ok.inj h
    exact hold

theorem HandshakeRecords.append {records handshake : Bytes} (h : HandshakeRecords records handshake)
    (fragments : List TlsRecord) :
    HandshakeRecords (records ++ recordBytes fragments) (handshake ++ handshakeBytes fragments) := by
  induction fragments generalizing records handshake with
  | nil => simpa [recordBytes, handshakeBytes] using h
  | cons record fragments ih =>
    have := ih (h.snoc record.header_length record.handshake record.version record.announced)
    simpa [recordBytes, handshakeBytes, TlsRecord.bytes, List.append_assoc] using this

/-- Run lemma: what the loop returns is all it has received, in records that carry the ClientHello in
which the host it returns was found. -/
theorem readRecords_reads {records handshake hello : Bytes} {expected : Option ℕ}
    {client rest : ClientStream} {host : Text} (hexpected : Expecting expected handshake)
    (h : readRecords records handshake expected client = .ok ((host, hello), rest)) :
    ∃ fragments body, hello = records ++ recordBytes fragments ∧
      IsClientHelloMessage (handshake ++ handshakeBytes fragments) body ∧
      extractTlsSni body = .ok host ∧ hello.length ≤ MAX_CLIENT_HELLO_BYTES ∧
      hello ++ rest.pending = records ++ client.pending := by
  induction records, handshake, expected, client using readRecords.induct with
  | case1 records handshake expected client hlt ih =>
    rw [readRecords, if_pos hlt] at h
    simp only [bind_ok_iff, require_eq_ok] at h
    obtain ⟨⟨header, client₁⟩, hheader, -, ⟨htype, hversion, hpos, hmax⟩, ⟨payload, client₂⟩, hpayload,
      -, hlimit, expected', hnext, h⟩ := h
    have expecting := expectedBytes_expecting hnext hexpected.append
    have received : records ++ header.1 ++ payload.1 ++ client₂.pending =
        records ++ client.pending := by
      rw [List.append_assoc, List.append_assoc, recvExact_pending hpayload,
        recvExact_pending hheader]
    let record : TlsRecord := ⟨header.1, payload.1, header.2, htype, hversion, payload.2.symm,
      by rw [payload.2]; exact ⟨hpos, hmax⟩⟩
    split at h
    · simp only [bind_ok_iff, require_eq_ok, pure_eq_ok, Except.ok.injEq, Prod.mk.injEq] at h
      obtain ⟨-, hlength, sni, hsni, ⟨rfl, rfl⟩, rfl⟩ := h
      obtain ⟨hfour, hhead, hall⟩ := expecting _ hlength
      refine ⟨[record], (handshake ++ payload.1).drop 4, ?_, ?_, hsni, hlimit, received⟩
      · simp [recordBytes, TlsRecord.bytes, record]
      · simp only [handshakeBytes, List.flatMap_cons, List.flatMap_nil, List.append_nil, record]
        generalize handshake ++ payload.1 = message at *
        obtain ⟨a, b, c, d, rest, rfl⟩ : ∃ a b c d rest, message = a :: b :: c :: d :: rest :=
          four_le_length hfour
        obtain rfl : a = 1 := by simpa using hhead
        refine ⟨_, rfl, [b, c, d], rfl, ?_, rfl⟩
        simp [slice] at hall ⊢
        omega
    · obtain ⟨fragments, body, rfl, hmessage, hsni, hmax, hpending⟩ :=
        ih header payload client₂ expected' expecting h
      refine ⟨record :: fragments, body, ?_, ?_, hsni, hmax, hpending.trans received⟩
      · simp [recordBytes, TlsRecord.bytes, record]
      · simpa [handshakeBytes, record] using hmessage
  | case2 records handshake expected client hge =>
    rw [readRecords, if_neg hge] at h
    simp at h

theorem readClientHello_parsed {client rest : ClientStream} {host : Text} {hello : Bytes}
    (h : readClientHello client = .ok ((host, hello), rest)) :
    ∃ fragments body, hello = recordBytes fragments ∧
      IsClientHelloMessage (handshakeBytes fragments) body ∧ extractTlsSni body = .ok host ∧
      hello.length ≤ MAX_CLIENT_HELLO_BYTES ∧ hello ++ rest.pending = client.pending :=
  readRecords_reads (fun _ h => by simp at h) h

/-- **What is forwarded first.** The bytes `read_client_hello` returns are all it received, and they
carry one ClientHello, which names the host it returns. -/
theorem readClientHello_reads {client rest : ClientStream} {host : Text} {hello : Bytes}
    (h : readClientHello client = .ok ((host, hello), rest)) :
    CarriesClientHello hello host ∧ hello ++ rest.pending = client.pending := by
  obtain ⟨fragments, body, rfl, ⟨message, hmessage, hbody⟩, hsni, -, hpending⟩ :=
    readClientHello_parsed h
  have records := HandshakeRecords.nil.append fragments
  rw [List.nil_append, List.nil_append, hmessage] at records
  exact ⟨⟨message, body, records, hbody, extractTlsSni_names hsni⟩, hpending⟩

end Reading

end WagmiBench.Sandbox
