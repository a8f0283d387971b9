import WagmiBench.Sandbox.Gateway.ServerName

/-!
# Reassembly of a ClientHello

`read_client_hello` does not depend on how the client cut its bytes: neither on the records it put the
handshake message into, nor on the chunks they arrive in. And it asks for no more than a bounded
number of bytes, whatever arrives.
-/

namespace WagmiBench.Sandbox

open WagmiBench.Lib

/-! ## What is delivered -/

/-- A connection that delivers no empty chunk before its end. -/
def ClientStream.Chunked (client : ClientStream) : Prop := ∀ chunk ∈ client.arrivals, chunk ≠ []

/-- The most bytes that are received: the last record starts within the limit. -/
abbrev MAX_RECEIVED_BYTES : ℕ := 65_536 + 18_437

/-- What is promised of a connection: a ClientHello is read from its records, however they were cut and
arrive; any other bytes end in `PolicyError`; and the first bytes decide. -/
structure Reassembles (client : ClientStream) : Prop where
  fragments : ∀ (fragments : List TlsRecord) (body : Bytes),
    IsClientHelloMessage (handshakeBytes fragments) body →
    (recordBytes fragments).length ≤ 65_536 → recordBytes fragments <+: client.pending →
    ∃ rest : ClientStream, recordBytes fragments ++ rest.pending = client.pending ∧
      readClientHello client = (do
        let sni ← extractTlsSni body
        return ((sni, recordBytes fragments), rest))
  settles : client.closed = true ∨ MAX_RECEIVED_BYTES ≤ client.pending.length →
    (∃ sni fragments body rest, readClientHello client = .ok ((sni, recordBytes fragments), rest) ∧
      IsClientHelloMessage (handshakeBytes fragments) body ∧ extractTlsSni body = .ok sni ∧
      (recordBytes fragments).length ≤ 65_536 ∧
      recordBytes fragments ++ rest.pending = client.pending) ∨
    ∃ m, readClientHello client = .error (.policy m)
  bounded : ∀ other : ClientStream, other.Chunked →
    MAX_RECEIVED_BYTES ≤ client.pending.length → MAX_RECEIVED_BYTES ≤ other.pending.length →
    client.pending.take MAX_RECEIVED_BYTES = other.pending.take MAX_RECEIVED_BYTES →
    (readClientHello client).map Prod.fst = (readClientHello other).map Prod.fst

/-! ## Receiving -/

section Receiving

variable {client : ClientStream} {n : ℕ}

theorem recvExactFrom_eq_ok {closed : Bool} {arrivals : List Bytes}
    (hchunks : ∀ chunk ∈ arrivals, chunk ≠ []) (hlength : n ≤ arrivals.flatten.length) :
    ∃ rest, recvExactFrom closed n arrivals = .ok (arrivals.flatten.take n, rest) ∧
      rest.flatten = arrivals.flatten.drop n ∧ ∀ chunk ∈ rest, chunk ≠ [] := by
  induction arrivals generalizing n with
  | nil =>
    obtain rfl : n = 0 := by simpa using hlength
    exact ⟨[], rfl, rfl, by simp⟩
  | cons chunk arrivals ih =>
    cases n with
    | zero => exact ⟨chunk :: arrivals, rfl, rfl, hchunks⟩
    | succ n =>
      have hchunk := hchunks chunk (by simp)
      rw [recvExactFrom, if_neg hchunk]
      rw [List.flatten_cons, List.length_append] at hlength
      split
      · rename_i hle
        obtain ⟨rest, hrest, hflat, hrestChunks⟩ := @ih (n + 1 - chunk.length)
          (fun c hc => hchunks c (by simp [hc])) (by omega)
        refine ⟨rest, ?_, ?_, hrestChunks⟩
        · rw [hrest, ok_bind, List.flatten_cons, List.take_append, List.take_of_length_le hle]
          rfl
        · rw [hflat, List.flatten_cons, List.drop_append, List.drop_of_length_le hle,
            List.nil_append]
      · rename_i hlt
        refine ⟨chunk.drop (n + 1) :: arrivals, ?_, ?_, ?_⟩
        · rw [List.flatten_cons, List.take_append_of_le_length (by omega)]
        · rw [List.flatten_cons, List.flatten_cons, List.drop_append_of_le_length (by omega)]
        · rintro c (_ | ⟨_, hc⟩)
          · exact List.ne_nil_of_length_pos (by rw [List.length_drop]; omega)
          · exact hchunks c (List.mem_cons_of_mem _ hc)

/-- Bytes that are there are received. -/
theorem recvExact_append {raw tail : Bytes} (hclient : client.Chunked)
    (hpending : client.pending = raw ++ tail) (hlength : raw.length = n) :
    ∃ h, ∃ rest : ClientStream, recvExact client n = .ok (⟨raw, h⟩, rest) ∧ rest.Chunked ∧
      rest.pending = tail := by
  obtain ⟨arrivals, hfrom, hflat, hchunks⟩ := @recvExactFrom_eq_ok n client.closed client.arrivals
    hclient (by rw [← ClientStream.pending, hpending, List.length_append]; omega)
  rw [← ClientStream.pending, hpending] at hfrom hflat
  rw [← hlength, List.take_left, hlength] at hfrom
  rw [← hlength, List.drop_left] at hflat
  refine ⟨hlength, { client with arrivals }, ?_, hchunks, hflat⟩
  unfold recvExact
  split
  · rename_i herror
    simp [hfrom] at herror
  · rename_i hok
    obtain ⟨rfl, rfl⟩ := Prod.mk.inj (Except.ok.inj (hfrom.symm.trans hok))
    rfl

theorem recvExact_closed {rest : ClientStream} {raw : {raw : Bytes // raw.length = n}}
    (h : recvExact client n = .ok (raw, rest)) : rest.closed = client.closed := by
  unfold recvExact at h
  split at h
  · cases h
  · obtain ⟨-, rfl⟩ := Prod.mk.inj (Except.ok.inj h)
    rfl

/-- Only a connection that fails before enough bytes are there raises an `OSError`. -/
theorem recvExactFrom_os {closed : Bool} {arrivals : List Bytes}
    (h : recvExactFrom closed n arrivals = .error .os) :
    closed = false ∧ arrivals.flatten.length < n := by
  induction arrivals generalizing n with
  | nil =>
    cases n with
    | zero => cases h
    | succ n => cases closed <;> simp_all [recvExactFrom]
  | cons chunk arrivals ih =>
    cases n with
    | zero => cases h
    | succ n =>
      rw [recvExactFrom] at h
      split at h
      · cases h
      · split at h
        · obtain herror | ⟨_, -, h⟩ := bind_error_iff.mp h
          · obtain ⟨hclosed, hlength⟩ := ih herror
            rw [List.flatten_cons, List.length_append]
            exact ⟨hclosed, by omega⟩
          · cases h
        · cases h

theorem recvExact_os (h : recvExact client n = .error .os) :
    client.closed = false ∧ client.pending.length < n := by
  unfold recvExact at h
  split at h
  · rename_i e herror
    obtain rfl := Except.error.inj h
    exact recvExactFrom_os herror
  · cases h

end Receiving

/-! ## Records cut anywhere -/

section Records

variable {client : ClientStream}

/-- From the first bytes of a ClientHello message its length is known as soon as they are four. -/
theorem expectedBytes_prefix {expected : Option ℕ} {handshake tail vector body : Bytes}
    (hbody : IsVector 3 vector body) (hmessage : handshake ++ tail = 1 :: vector)
    (hlimit : 4 + body.length ≤ MAX_CLIENT_HELLO_BYTES) (hexpected : Expecting expected handshake) :
    expectedBytes expected handshake =
      .ok (if 4 ≤ handshake.length then some (4 + body.length) else none) := by
  obtain ⟨len, hlen, hlength, rfl⟩ := hbody
  have known : 4 ≤ handshake.length → handshake.head? = some 1 ∧
      ofBigEndian (slice handshake 1 3) = body.length := by
    intro hfour
    obtain ⟨a, b, c, d, rest, rfl⟩ : ∃ a b c d rest, handshake = a :: b :: c :: d :: rest := by
      match handshake, hfour with
      | a :: b :: c :: d :: rest, _ => exact ⟨a, b, c, d, rest, rfl⟩
    obtain ⟨x, y, z, rfl⟩ := List.length_eq_three.mp hlen
    simp only [List.cons_append, List.nil_append, List.cons.injEq] at hmessage
    obtain ⟨rfl, rfl, rfl, rfl, -⟩ := hmessage
    exact ⟨rfl, by simpa [slice] using hlength⟩
  unfold expectedBytes
  cases expected with
  | none =>
    by_cases hfour : 4 ≤ handshake.length
    · obtain ⟨hhead, hall⟩ := known hfour
      rw [if_pos ⟨rfl, hfour⟩, if_pos hfour, require_pos hhead, ok_bind]
      dsimp only
      rw [hall, require_pos hlimit]
      rfl
    · rw [if_neg (by simp [hfour]), if_neg hfour]
  | some n =>
    obtain ⟨hfour, hhead, rfl⟩ := hexpected n rfl
    rw [if_neg (by simp), if_pos hfour, (known hfour).2]

/-- What the loop does once a record was received. -/
def afterRecord (records handshake : Bytes) (expected : Option ℕ) (client : ClientStream) :
    Gate ((Text × Bytes) × ClientStream) := do
  let expected ← expectedBytes expected handshake
  if expected.any (· ≤ handshake.length) then do
    require (expected = some handshake.length)
      (.policy "unexpected TLS bytes before upstream connection")
    let sni ← extractTlsSni (handshake.drop 4)
    return ((sni, records), client)
  else readRecords records handshake expected client

/-- Step lemma: a record that is there is received. -/
theorem readRecords_record {record : TlsRecord} {tail records handshake : Bytes}
    {expected : Option ℕ} (hclient : client.Chunked) (hpending : client.pending = record.bytes ++ tail)
    (hlimit : records.length + record.bytes.length ≤ MAX_CLIENT_HELLO_BYTES) :
    ∃ rest : ClientStream, rest.Chunked ∧ rest.pending = tail ∧
      readRecords records handshake expected client =
        afterRecord (records ++ record.bytes) (handshake ++ record.payload) expected rest := by
  have hlength := record.bytes_length
  rw [TlsRecord.bytes, List.append_assoc] at hpending
  obtain ⟨_, client₁, hheader, hchunks₁, hpending₁⟩ :=
    recvExact_append hclient hpending record.header_length
  obtain ⟨_, client₂, hpayload, hchunks₂, hpending₂⟩ :=
    recvExact_append hchunks₁ hpending₁ record.announced.symm
  refine ⟨client₂, hchunks₂, hpending₂, ?_⟩
  have hrecords : (records ++ record.header ++ record.payload).length ≤ MAX_CLIENT_HELLO_BYTES := by
    rw [TlsRecord.bytes, List.length_append] at hlimit
    simp only [List.length_append]
    omega
  rw [readRecords, if_pos (by omega), hheader, ok_bind]
  dsimp only
  rw [require_pos ⟨record.handshake, record.version, by rw [record.announced]; exact record.bounded⟩,
    ok_bind, hpayload, ok_bind]
  dsimp only
  rw [require_pos hrecords, ok_bind, afterRecord, TlsRecord.bytes, List.append_assoc]

/-- Run lemma: the rest of a ClientHello message is read from any records it was cut into. -/
theorem readRecords_fragments {fragments : List TlsRecord} {records handshake vector body : Bytes}
    {expected : Option ℕ} (hne : fragments ≠ []) (hbody : IsVector 3 vector body)
    (hmessage : handshake ++ handshakeBytes fragments = 1 :: vector)
    (hexpected : Expecting expected handshake)
    (hlimit : 4 + body.length ≤ MAX_CLIENT_HELLO_BYTES)
    (htotal : records.length + (recordBytes fragments).length ≤ MAX_CLIENT_HELLO_BYTES)
    (hclient : client.Chunked) (hfirst : recordBytes fragments <+: client.pending) :
    ∃ rest : ClientStream, recordBytes fragments ++ rest.pending = client.pending ∧
      readRecords records handshake expected client = (do
        let sni ← extractTlsSni body
        return ((sni, records ++ recordBytes fragments), rest)) := by
  induction fragments generalizing records handshake expected client with
  | nil => exact absurd rfl hne
  | cons record fragments ih =>
    obtain ⟨tail, htail⟩ := hfirst
    rw [handshakeBytes_cons, ← List.append_assoc] at hmessage
    rw [recordBytes_cons, List.append_assoc] at htail
    rw [recordBytes_cons, List.length_append] at htotal
    have hlength : (handshake ++ record.payload).length + (handshakeBytes fragments).length =
        4 + body.length := by
      obtain ⟨len, hlen, -, rfl⟩ := hbody
      have := congrArg List.length hmessage
      simp only [List.length_append, List.length_cons] at this ⊢
      omega
    obtain ⟨rest, hrest, hpending, hstep⟩ := @readRecords_record client record _ records handshake
      expected hclient htail.symm (by omega)
    have hnext := expectedBytes_prefix hbody hmessage hlimit hexpected.append
    rw [hstep, afterRecord, hnext, ok_bind]
    cases fragments with
    | nil =>
      rw [handshakeBytes, List.flatMap_nil, List.length_nil, Nat.add_zero] at hlength
      rw [handshakeBytes, List.flatMap_nil, List.append_nil] at hmessage
      have hbodyBytes : (handshake ++ record.payload).drop 4 = body := by
        obtain ⟨len, hlen, -, rfl⟩ := hbody
        rw [hmessage, List.drop_succ_cons, ← hlen, List.drop_left]
      have hfour : 4 ≤ (handshake ++ record.payload).length := by omega
      refine ⟨rest, by rw [recordBytes_cons, List.append_assoc, hpending]; exact htail, ?_⟩
      rw [if_pos hfour, if_pos (by simp [hlength]), require_pos (by rw [hlength]), ok_bind,
        hbodyBytes, recordBytes_cons, recordBytes, List.flatMap_nil, List.append_nil]
    | cons next fragments =>
      have hnextPayload := next.bounded.1
      rw [handshakeBytes_cons, List.length_append, List.length_append] at hlength
      obtain ⟨rest', hrest', hread⟩ := @ih rest (records ++ record.bytes)
        (handshake ++ record.payload) _ (by simp) hmessage
        (expectedBytes_expecting hnext hexpected.append) (by rw [List.length_append]; omega) hrest
        ⟨tail, hpending.symm⟩
      refine ⟨rest', by rw [recordBytes_cons, List.append_assoc, hrest', hpending]; exact htail, ?_⟩
      have hmore : ¬ (if 4 ≤ (handshake ++ record.payload).length then some (4 + body.length)
          else none).any (· ≤ (handshake ++ record.payload).length) = true := by
        split
        · simp only [Option.any_some, decide_eq_true_eq, List.length_append]
          omega
        · simp
      rw [if_neg hmore, hread, recordBytes_cons record, List.append_assoc]

/-- Run lemma: only a connection that fails within the bound raises an `OSError`. -/
theorem readRecords_os {records handshake : Bytes} {expected : Option ℕ}
    (h : readRecords records handshake expected client = .error .os) :
    client.closed = false ∧ records.length + client.pending.length < MAX_RECEIVED_BYTES := by
  have helloBytes : MAX_CLIENT_HELLO_BYTES = 65_536 := rfl
  have receivedBytes : MAX_RECEIVED_BYTES = 83_973 := rfl
  induction records, handshake, expected, client using readRecords.induct with
  | case1 records handshake expected client hlt ih =>
    rw [readRecords, if_pos hlt] at h
    simp only [bind_error_iff, require_eq_error, require_eq_ok, reduceCtorEq, and_false,
      false_or] at h
    obtain hheader | ⟨⟨header, client₁⟩, hheader, -, ⟨-, -, -, hmax⟩, hpayload |
      ⟨⟨payload, client₂⟩, hpayload, -, hlimit, hnext | ⟨expected', hnext, h⟩⟩⟩ := h
    · obtain ⟨hclosed, hlength⟩ := recvExact_os hheader
      exact ⟨hclosed, by omega⟩
    · obtain ⟨hclosed, hlength⟩ := recvExact_os hpayload
      have hreceived := congrArg List.length (recvExact_pending hheader)
      rw [List.length_append, header.2] at hreceived
      dsimp only at hmax hlength
      exact ⟨recvExact_closed hheader ▸ hclosed, by omega⟩
    · exact (expectedBytes_raises _ _ _ hnext).elim
    · split at h
      · obtain hlength | ⟨_, -, hextract⟩ := bind_error_iff.mp h
        · cases (require_eq_error.mp hlength).2
        · obtain hextract | ⟨_, -, hpure⟩ := bind_error_iff.mp hextract
          · exact (extractTlsSni_raises _ _ hextract).elim
          · cases hpure
      · obtain ⟨hclosed, hlength⟩ := ih header payload client₂ expected' h
        have hreceived := congrArg List.length (recvExact_pending hheader)
        have hreceived₂ := congrArg List.length (recvExact_pending hpayload)
        rw [List.length_append, header.2] at hreceived
        rw [List.length_append] at hreceived₂
        have hpayloadLength := payload.2
        simp only [List.length_append, header.2] at hlength
        dsimp only at hreceived hreceived₂ hpayloadLength
        refine ⟨?_, by omega⟩
        rw [← recvExact_closed hheader, ← recvExact_closed hpayload]
        exact hclosed
  | case2 records handshake expected client hge =>
    rw [readRecords, if_neg hge] at h
    simp at h

/-- Two connections that deliver the same `k` bytes first. -/
structure Shares (k : ℕ) (client other : ClientStream) : Prop where
  chunked : client.Chunked ∧ other.Chunked
  length : k ≤ client.pending.length ∧ k ≤ other.pending.length
  same : client.pending.take k = other.pending.take k

/-- The same bytes are received of both. -/
theorem Shares.recvExact {other : ClientStream} {k n : ℕ} (h : Shares k client other) (hn : n ≤ k) :
    ∃ raw, ∃ client' other' : ClientStream, recvExact client n = .ok (raw, client') ∧
      recvExact other n = .ok (raw, other') ∧ Shares (k - n) client' other' := by
  have hraw : other.pending.take n = client.pending.take n := by
    have := congrArg (List.take n) h.same
    rw [List.take_take, List.take_take, min_eq_left hn] at this
    exact this.symm
  have hlength : (client.pending.take n).length = n := by
    have := h.length.1
    rw [List.length_take]
    omega
  obtain ⟨_, client', hclient, hchunks, hpending⟩ :=
    recvExact_append h.chunked.1 (List.take_append_drop n client.pending).symm hlength
  obtain ⟨_, other', hother, hchunks', hpending'⟩ :=
    recvExact_append h.chunked.2 (by rw [← hraw, List.take_append_drop]) hlength
  refine ⟨_, client', other', hclient, hother, ⟨hchunks, hchunks'⟩, ?_, ?_⟩
  · rw [hpending, hpending', List.length_drop, List.length_drop]
    have := h.length
    omega
  · rw [hpending, hpending', ← List.drop_take, ← List.drop_take, h.same]

/-- Run lemma: what stands behind the bound makes no difference. -/
theorem readRecords_bounded {other : ClientStream} {records handshake : Bytes} {expected : Option ℕ}
    (h : Shares (MAX_RECEIVED_BYTES - records.length) client other) :
    (readRecords records handshake expected client).map Prod.fst =
      (readRecords records handshake expected other).map Prod.fst := by
  have helloBytes : MAX_CLIENT_HELLO_BYTES = 65_536 := rfl
  have receivedBytes : MAX_RECEIVED_BYTES = 83_973 := rfl
  induction records, handshake, expected, client using readRecords.induct generalizing other with
  | case1 records handshake expected client hlt ih =>
    obtain ⟨header, client₁, other₁, hheader, hheader', shares⟩ :=
      @Shares.recvExact _ _ _ 5 h (by omega)
    rw [readRecords, if_pos hlt, readRecords, if_pos hlt, hheader, hheader', ok_bind, ok_bind]
    dsimp only
    by_cases hbounded : header.1[0]? = some 22 ∧ header.1[1]? = some 3 ∧
        1 ≤ ofBigEndian (slice header.1 3 2) ∧ ofBigEndian (slice header.1 3 2) ≤ 18_432
    · obtain ⟨payload, client₂, other₂, hpayload, hpayload', shares⟩ :=
        @Shares.recvExact _ _ _ (ofBigEndian (slice header.1 3 2)) shares (by omega)
      rw [require_pos hbounded, ok_bind, ok_bind, hpayload, hpayload', ok_bind, ok_bind]
      dsimp only
      rcases hlimit : (require ((records ++ header.1 ++ payload.1).length ≤ MAX_CLIENT_HELLO_BYTES)
        (.policy "TLS ClientHello exceeds gateway limit") : Gate Unit) with e | _
      · rfl
      · rcases hnext : expectedBytes expected (handshake ++ payload.1) with e | expected'
        · rfl
        · rw [ok_bind, ok_bind, ok_bind, ok_bind]
          split
          · by_cases hend : expected' = some (handshake ++ payload.1).length
            · rw [require_pos hend, ok_bind, ok_bind]
              cases extractTlsSni ((handshake ++ payload.1).drop 4) <;> rfl
            · rw [require_neg hend]
              rfl
          · refine ih header payload client₂ expected' ?_
            have hrecords : MAX_RECEIVED_BYTES - (records ++ header.1 ++ payload.1).length =
                MAX_RECEIVED_BYTES - records.length - 5 - ofBigEndian (slice header.1 3 2) := by
              simp only [List.length_append, header.2, payload.2]
              omega
            rw [hrecords]
            exact shares
    · rw [require_neg hbounded]
      rfl
  | case2 records handshake expected client hge =>
    rw [readRecords, if_neg hge, readRecords, if_neg hge]

end Records

/-! ## Reassembly -/

theorem recordBytes_length (fragments : List TlsRecord) :
    (handshakeBytes fragments).length ≤ (recordBytes fragments).length := by
  induction fragments with
  | nil => exact le_rfl
  | cons record fragments ih =>
    rw [recordBytes_cons, handshakeBytes_cons, List.length_append, List.length_append,
      record.bytes_length]
    omega

theorem readClientHello_settles (client : ClientStream)
    (h : client.closed = true ∨ MAX_RECEIVED_BYTES ≤ client.pending.length) :
    (∃ sni fragments body rest, readClientHello client = .ok ((sni, recordBytes fragments), rest) ∧
      IsClientHelloMessage (handshakeBytes fragments) body ∧ extractTlsSni body = .ok sni ∧
      (recordBytes fragments).length ≤ 65_536 ∧
      recordBytes fragments ++ rest.pending = client.pending) ∨
    ∃ m, readClientHello client = .error (.policy m) := by
  rcases hread : readClientHello client with e | ⟨⟨sni, hello⟩, rest⟩
  · have expected := readRecords_raises [] [] none client e hread
    cases e with
    | policy m => exact .inr ⟨m, rfl⟩
    | os =>
      obtain ⟨hopen, hlength⟩ := readRecords_os hread
      rw [List.length_nil, Nat.zero_add] at hlength
      rcases h with hclosed | hlong
      · simp [hopen] at hclosed
      · omega
    | value _ => exact expected.elim
    | assertion _ => exact expected.elim
  · obtain ⟨fragments, body, rfl, hmessage, hsni, hlimit, hpending⟩ := readClientHello_parsed hread
    exact .inl ⟨sni, fragments, body, rest, rfl, hmessage, hsni, hlimit, hpending⟩

/-- **Reassembly.** Whatever chunks a connection delivers, a ClientHello is read from its records however
it was cut, anything else ends in `PolicyError`, and the first bytes decide. -/
theorem readClientHello_reassembles (client : ClientStream) (hclient : client.Chunked) :
    Reassembles client where
  fragments := by
    rintro fragments body ⟨vector, hmessage, hbody⟩ hlimit hfirst
    have hlength : 4 + body.length ≤ (recordBytes fragments).length := by
      have := recordBytes_length fragments
      obtain ⟨len, hlen, -, rfl⟩ := hbody
      rw [hmessage, List.length_cons, List.length_append] at this
      omega
    have hne : fragments ≠ [] := by
      rintro rfl
      simp [handshakeBytes] at hmessage
    exact @readRecords_fragments client fragments [] [] vector body none hne hbody hmessage
      (fun _ h => by simp at h) (hlength.trans hlimit)
      (by rw [List.length_nil, Nat.zero_add]; exact hlimit) hclient hfirst
  settles := readClientHello_settles client
  bounded := fun other hother hlength hlength' hsame =>
    readRecords_bounded ⟨⟨hclient, hother⟩, ⟨hlength, hlength'⟩, hsame⟩

theorem shortRecord_announced (payload : Bytes)
    (h : 1 ≤ payload.length ∧ payload.length ≤ 255) :
    ofBigEndian (slice [22, 3, 1, 0, UInt8.ofNat payload.length] 3 2) = payload.length := by
  simp only [slice, ofBigEndian, List.drop_succ_cons, List.drop_zero, List.take, List.foldl,
    UInt8.toNat_ofNat', UInt8.toNat_zero]
  omega

theorem shortRecord_bounded (payload : Bytes)
    (h : 1 ≤ payload.length ∧ payload.length ≤ 255) :
    1 ≤ payload.length ∧ payload.length ≤ 18_432 := by
  omega

/-- A record of up to 255 bytes. -/
def shortRecord (payload : Bytes) (h : 1 ≤ payload.length ∧ payload.length ≤ 255) : TlsRecord where
  header := [22, 3, 1, 0, UInt8.ofNat payload.length]
  payload := payload
  header_length := rfl
  handshake := rfl
  version := rfl
  announced := shortRecord_announced payload h
  bounded := shortRecord_bounded payload h

/-- A ClientHello body that names `a.b`. -/
def oneNameBody : Bytes :=
  List.replicate 34 0 ++ [0] ++ [0, 2, 0x13, 1] ++ [1, 0] ++
    ([0, 12] ++ ([0, 0, 0, 8] ++ shortName 0x61 0x2E 0x62))

/-- The message, cut within its length. -/
def cutHello : List TlsRecord :=
  [shortRecord [1, 0, 0] (by decide), shortRecord ([55] ++ oneNameBody) (by decide)]

/-- It arrives in three chunks, cut within the headers, and with a byte more. -/
def cutClient : ClientStream where
  arrivals := [(recordBytes cutHello).take 3, ((recordBytes cutHello).drop 3).take 7,
    (recordBytes cutHello).drop 10 ++ [0x17]]
  closed := false

theorem cutHello_reassembled : cutClient.Chunked ∧ Reassembles cutClient ∧
    ∃ rest : ClientStream, recordBytes cutHello ++ rest.pending = cutClient.pending ∧
      readClientHello cutClient = .ok ((txt "a.b", recordBytes cutHello), rest) := by
  have chunked : cutClient.Chunked := by
    intro chunk hchunk
    simp only [cutClient, List.mem_cons, List.not_mem_nil, or_false] at hchunk
    rcases hchunk with rfl | rfl | rfl <;> decide
  have reassembles := readClientHello_reassembles cutClient chunked
  have hname : extractTlsSni oneNameBody = .ok (txt "a.b") := by
    refine extractTlsSni_eq_ok.mpr ⟨[0, 0, 0, 8] ++ shortName 0x61 0x2E 0x62, _, ⟨_, [0],
      [0, 2, 0x13, 1], [1, 0], [0, 12] ++ ([0, 0, 0, 8] ++ shortName 0x61 0x2E 0x62), [], [0x13, 1],
      [0], rfl, rfl, ⟨[0], rfl, by decide, rfl⟩, ⟨⟨[0, 2], rfl, by decide, rfl⟩, by simp, rfl⟩,
      ⟨⟨[1], rfl, by decide, rfl⟩, by simp⟩, [0, 12], rfl, by decide, rfl⟩,
      .here [] ⟨[0, 0], [0, 8] ++ shortName 0x61 0x2E 0x62, rfl, rfl, by decide, [0, 8], rfl, rfl, rfl⟩,
      _, [0x61, 0x2E, 0x62], ⟨[0, 6], rfl, by decide, rfl⟩, ⟨[0, 3], rfl, by decide, rfl⟩, by decide,
      by decide, by decide, by decide⟩
  obtain ⟨rest, hpending, hread⟩ := reassembles.fragments cutHello oneNameBody
    ⟨[0, 0, 55] ++ oneNameBody, rfl, [0, 0, 55], rfl, by decide, rfl⟩ (by decide)
    ⟨[0x17], by decide⟩
  rw [hname, ok_bind] at hread
  exact ⟨chunked, reassembles, rest, hpending, hread⟩

end WagmiBench.Sandbox
