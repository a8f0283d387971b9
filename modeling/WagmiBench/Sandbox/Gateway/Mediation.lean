import WagmiBench.Lib.Raises
import WagmiBench.Sandbox.Events
import WagmiBench.Sandbox.Gateway.Server

/-!
# Mediation

What one CONNECT request can do. The handler relays to a vetted public address of an allowed host
which the client itself named, or sends nothing upstream; and a request that never reached a dial
leaves one readable block fact. The one authority this fails for is a port of more digits than `int`
reads: the conversion raises a plain `ValueError`, which the handler does not expect.
-/

namespace WagmiBench.Sandbox

open WagmiBench.Lib WagmiBench.Spec

/-! ## What is promised -/

/-- Bytes that reach an upstream. -/
def Effect.reachesUpstream : Effect → Prop
  | .sendall _ _ => True
  | .relay _ => True
  | _ => False

/-- An attempt to dial. -/
def Effect.isDial : Effect → Prop
  | .dial _ => True
  | _ => False

/-- The facts a run emits, in order. -/
def Handled.emitted (run : Handled) : List BlockFact := run.effects.filterMap fun
  | .emit fact => some fact
  | _ => none

/-- The target of an authority: an allowed host, on port 443. -/
def AllowedTarget (policy : EndpointPolicy) (path host : Text) : Prop :=
  ∃ requestedHost, splitConnectAuthority path = .ok (requestedHost, 443) ∧
    canonicalRequestedDomain requestedHost = .ok host ∧ host ∈ policy.domains

/-- Every answer is a stream address on the port, and public. -/
def AllPublic (answers : List Answer) (port : ℤ) : Prop :=
  ∀ answer ∈ answers, ∃ ip, answer.address = some (ip, port) ∧ isPublicIp ip = true

/-- The endpoint is one of the answers. -/
def TakenFrom (answers : List Answer) (endpoint : ResolvedEndpoint) : Prop :=
  ∃ answer ∈ answers, answer.address.map Prod.fst = some endpoint.ip ∧
    answer.family = endpoint.family ∧ answer.socketType = endpoint.socketType ∧
    answer.protocol = endpoint.protocol ∧ answer.socketAddress = endpoint.socketAddress

/-- The run relays to the endpoint: the host is allowed, the client's first ClientHello names it,
every answer for it is public, and the first bytes sent are the ones received so far. -/
structure RelaysTo (gateway : Gateway) (path : Text) (client : ClientStream) (run : Handled)
    (endpoint : ResolvedEndpoint) : Prop where
  vetted : ∃ host hello rest answers attempts tail,
    AllowedTarget gateway.policy path host ∧ CarriesClientHello hello host ∧
    readClientHello client = .ok ((host, hello), rest) ∧ hello ++ rest.pending = client.pending ∧
    gateway.resolver host 443 = some answers ∧ AllPublic answers 443 ∧ TakenFrom answers endpoint ∧
    (∀ e ∈ attempts, Effect.isDial e) ∧ .dial endpoint ∈ attempts ∧
    run.effects = [.respond 200, .resolve host 443] ++ attempts ++ .sendall endpoint hello :: tail ∧
    (tail = [.relay endpoint] ∧ run.ending = .ok () ∨ tail = [] ∧ run.ending = .error .os)

/-- What is promised of a request. -/
structure Mediated (gateway : Gateway) (path : Text) (client : ClientStream) (run : Handled) :
    Prop where
  guarded : (∃ endpoint, RelaysTo gateway path client run endpoint) ∨
    ∀ e ∈ run.effects, ¬ e.reachesUpstream
  recorded : (∀ e ∈ run.effects, ¬ e.isDial) → ∃ fact, run.emitted = [fact] ∧
    ∀ limits, ∃ line, utf8Encode (JsonLineBlockSink.line fact) = some line ∧
      Returns (parseBlockRecord limits line)
  settled : ∀ e, run.ending = .error e → ∃ endpoint hello, .sendall endpoint hello ∈ run.effects

/-- An authority whose port is written with more digits than `int` reads. -/
def OverlongPort (authority : Text) : Prop :=
  ∃ host digits, splitHostPort authority = .ok (host, digits) ∧ digits.all isDigit = true ∧
    INT_MAX_STR_DIGITS < digits.length

/-! ## Facts -/

/-- A token is a destination the collector accepts. -/
theorem destinationToken_returns (sha : Sha256) (value : Text) {kind : Text}
    (hkind : kind = txt "opaque" ∨ kind = txt "domain") :
    ∃ token, destinationToken sha value kind = .ok token ∧ IsDestination token := by
  have token : IsTokenKind kind ∧ kind ∈ destinationKinds := by
    rcases hkind with rfl | rfl <;> decide
  refine ⟨kind ++ txt "-" ++ sha.prefixed (utf8EncodeSurrogatePass value), ?_, kind, token.2,
    List.prefix_append _ _, ?_⟩
  · rw [destinationToken, require_pos token.1]
    rfl
  · rw [List.drop_left' (by simp [txt])]
    exact sha.isHash _

/-- A fact for a token can be built, emitted and collected. -/
structure Recordable (fact : BlockFact) : Prop where
  destination : IsDestination fact.destination
  count : fact.count = 1

theorem BlockFact.make_recordable {token : Text} (htoken : IsDestination token) (port : Option ℤ)
    (hport : ∀ p ∈ port, 0 ≤ p ∧ p ≤ 65_535) (protocol : Protocol) (witness : BlockWitness) :
    ∃ fact, BlockFact.make token port protocol 1 witness = .ok fact ∧ Recordable fact := by
  refine ⟨⟨token, port, protocol, 1, witness, hport, le_rfl⟩, ?_, htoken, rfl⟩
  rw [BlockFact.make, check_pos (by simpa [Option.all_eq_true] using hport), ok_bind,
    check_pos le_rfl]
  rfl

theorem tunnelFact_recordable (gateway : Gateway) (value : Text) {kind : Text}
    (hkind : kind = txt "opaque" ∨ kind = txt "domain") {port : ℤ} (hport : 0 ≤ port ∧ port ≤ 65_535)
    (witness : BlockWitness) :
    ∃ fact, tunnelFact gateway value kind port witness = .ok fact ∧ Recordable fact := by
  obtain ⟨token, htoken, hdestination⟩ := destinationToken_returns gateway.sha value hkind
  obtain ⟨fact, hfact, h⟩ := BlockFact.make_recordable hdestination (some port)
    (by rintro p ⟨⟩; exact hport) .https witness
  exact ⟨fact, by rw [tunnelFact, htoken]; exact hfact, h⟩

/-! ## What is raised -/

/-- `PolicyError` -/
def GatewayError.IsPolicy : GatewayError → Prop
  | .policy _ => True
  | _ => False

/-- `PolicyError` or `OSError` -/
def GatewayError.IsExpected : GatewayError → Prop
  | .policy _ => True
  | .os => True
  | _ => False

theorem canonicalRequestedDomain_raises (value : Text) :
    RaisesOnly GatewayError.IsPolicy (canonicalRequestedDomain value) :=
  .bind (raisesOnly_require trivial) fun _ => .bind (raisesOnly_require trivial) fun _ =>
    .bind (raisesOnly_require trivial) fun _ => raisesOnly_ok _

theorem splitHostPort_raises (authority : Text) :
    RaisesOnly GatewayError.IsPolicy (splitHostPort authority) := by
  refine .bind (raisesOnly_require trivial) fun _ => ?_
  split
  · exact .bind (raisesOnly_require trivial) fun _ => raisesOnly_ok _
  · exact .bind (raisesOnly_require trivial) fun _ => raisesOnly_ok _

section ClientHello

/-- A computation on received bytes that raises nothing but `PolicyError`. -/
theorem expected_of_policy {α : Type} {x : Gate α} (h : RaisesOnly GatewayError.IsPolicy x) :
    RaisesOnly GatewayError.IsExpected x := fun e he => by
  cases e with
  | policy _ => trivial
  | os => trivial
  | value _ => exact h _ he
  | assertion _ => exact h _ he

theorem need_raises (data : Bytes) (offset length : ℕ) :
    RaisesOnly GatewayError.IsPolicy (need data offset length) :=
  .bind (raisesOnly_require trivial) fun _ => raisesOnly_ok _

theorem needNumber_raises (data : Bytes) (offset width : ℕ) :
    RaisesOnly GatewayError.IsPolicy (needNumber data offset width) :=
  .bind (need_raises _ _ _) fun _ => raisesOnly_ok _

theorem serverName_raises (extensionData : Bytes) :
    RaisesOnly GatewayError.IsPolicy (serverName extensionData) := by
  refine .bind (raisesOnly_require trivial) fun _ => .bind (raisesOnly_require trivial) fun _ =>
    .bind (raisesOnly_require trivial) fun _ => ?_
  split
  · exact raisesOnly_error trivial
  · exact canonicalRequestedDomain_raises _

theorem scanExtensions_raises (body : Bytes) (offset extensionsEnd : ℕ) :
    RaisesOnly GatewayError.IsPolicy (scanExtensions body offset extensionsEnd) := by
  induction offset using scanExtensions.induct extensionsEnd with
  | case1 offset hlt ih =>
    rw [scanExtensions, if_pos hlt]
    refine .bind (needNumber_raises _ _ _) fun _ => .bind (needNumber_raises _ _ _) fun length =>
      .bind (need_raises _ _ _) fun _ => ?_
    split
    · exact ih length
    · exact serverName_raises _
  | case2 offset hge =>
    rw [scanExtensions, if_neg hge]
    exact raisesOnly_error trivial

theorem extractTlsSni_raises (body : Bytes) :
    RaisesOnly GatewayError.IsPolicy (extractTlsSni body) :=
  .bind (need_raises _ _ _) fun _ => .bind (needNumber_raises _ _ _) fun _ =>
    .bind (need_raises _ _ _) fun _ => .bind (needNumber_raises _ _ _) fun _ =>
    .bind (raisesOnly_require trivial) fun _ => .bind (need_raises _ _ _) fun _ =>
    .bind (needNumber_raises _ _ _) fun _ => .bind (raisesOnly_require trivial) fun _ =>
    .bind (need_raises _ _ _) fun _ => .bind (needNumber_raises _ _ _) fun _ =>
    .bind (raisesOnly_require trivial) fun _ => scanExtensions_raises _ _ _

theorem recvExactFrom_raises (closed : Bool) (n : ℕ) (arrivals : List Bytes) :
    RaisesOnly GatewayError.IsExpected (recvExactFrom closed n arrivals) := by
  induction arrivals generalizing n with
  | nil =>
    cases n with
    | zero => exact raisesOnly_ok _
    | succ n => cases closed <;> exact raisesOnly_error trivial
  | cons chunk arrivals ih =>
    cases n with
    | zero => exact raisesOnly_ok _
    | succ n =>
      rw [recvExactFrom]
      split
      · exact raisesOnly_error trivial
      · split
        · exact .bind (ih _) fun _ => raisesOnly_ok _
        · exact raisesOnly_ok _

theorem recvExact_raises (client : ClientStream) (n : ℕ) :
    RaisesOnly GatewayError.IsExpected (recvExact client n) := by
  unfold recvExact
  split
  · rename_i e h
    exact raisesOnly_error (recvExactFrom_raises _ _ _ e h)
  · exact raisesOnly_ok _

theorem expectedBytes_raises (expected : Option ℕ) (handshake : Bytes) :
    RaisesOnly GatewayError.IsPolicy (expectedBytes expected handshake) := by
  unfold expectedBytes
  split
  · exact .bind (raisesOnly_require trivial) fun _ => .bind (raisesOnly_require trivial) fun _ =>
      raisesOnly_ok _
  · exact raisesOnly_ok _

/-- Run lemma: whatever the client sends, the loop returns or raises what the handler expects. -/
theorem readRecords_raises (records handshake : Bytes) (expected : Option ℕ)
    (client : ClientStream) :
    RaisesOnly GatewayError.IsExpected (readRecords records handshake expected client) := by
  induction records, handshake, expected, client using readRecords.induct with
  | case1 records handshake expected client hlt ih =>
    rw [readRecords, if_pos hlt]
    refine .bind (recvExact_raises _ _) fun header => .bind (raisesOnly_require trivial) fun _ =>
      .bind (recvExact_raises _ _) fun payload => .bind (raisesOnly_require trivial) fun _ =>
      .bind (expected_of_policy (expectedBytes_raises _ _)) fun expected => ?_
    split
    · exact .bind (raisesOnly_require trivial) fun _ =>
        .bind (expected_of_policy (extractTlsSni_raises _)) fun _ => raisesOnly_ok _
    · exact ih header.1 payload.1 payload.2 expected
  | case2 records handshake expected client hge =>
    rw [readRecords, if_neg hge]
    exact raisesOnly_error trivial

end ClientHello

theorem vetAnswers_raises (port : ℤ) (seen : List (ℤ × Text × ℤ)) (answers : List Answer) :
    RaisesOnly GatewayError.IsPolicy (vetAnswers port seen answers) := by
  induction answers generalizing seen with
  | nil => exact raisesOnly_ok _
  | cons answer answers ih =>
    rw [vetAnswers]
    split
    · exact raisesOnly_error trivial
    · refine .bind (raisesOnly_require trivial) fun _ => ?_
      dsimp only
      split
      · exact ih _
      · exact .bind (ih _) fun _ => raisesOnly_ok _

theorem resolvePublicEndpoints_raises (answers : Option (List Answer)) (port : ℤ) :
    RaisesOnly GatewayError.IsPolicy (resolvePublicEndpoints answers port) := by
  cases answers with
  | none => exact raisesOnly_error trivial
  | some answers =>
    exact .bind (raisesOnly_ok _) fun _ => .bind (raisesOnly_require trivial) fun _ =>
      .bind (vetAnswers_raises _ _ _) fun _ => .bind (raisesOnly_require trivial) fun _ =>
      raisesOnly_ok _

/-! ## Decisions -/

variable {gateway : Gateway} {path : Text} {client : ClientStream}

/-- An authority whose port is too long is not split: the conversion gives up. -/
theorem splitConnectAuthority_overlong (h : OverlongPort path) : splitConnectAuthority path =
    .error (.value "Exceeds the limit for integer string conversion") := by
  obtain ⟨host, digits, hsplit, hdigits, hlength⟩ := h
  have hne : digits ≠ [] := by
    rintro rfl
    simp at hlength
  rw [splitConnectAuthority, hsplit, ok_bind]
  dsimp only
  rw [require_pos ⟨hne, hdigits⟩, ok_bind, intOfDigits, require_neg (by omega)]
  rfl

/-- Any other authority is split, into a host and a port in range, or refused. -/
theorem splitConnectAuthority_raises (h : ¬ OverlongPort path) :
    RaisesOnly GatewayError.IsPolicy (splitConnectAuthority path) := by
  unfold splitConnectAuthority
  cases hsplit : splitHostPort path with
  | error e =>
    intro e' he
    exact splitHostPort_raises path e' (hsplit.trans (Except.error.inj he ▸ rfl))
  | ok split =>
    obtain ⟨host, digits⟩ := split
    rw [ok_bind]
    dsimp only
    by_cases hdigits : digits ≠ [] ∧ digits.all isDigit = true
    · have hshort : digits.length ≤ INT_MAX_STR_DIGITS := by
        by_contra hlong
        exact h ⟨host, digits, hsplit, hdigits.2, by omega⟩
      rw [require_pos hdigits, ok_bind, intOfDigits, require_pos hshort]
      exact .bind (raisesOnly_ok _) fun _ => .bind (raisesOnly_require trivial) fun _ =>
        raisesOnly_ok _
    · rw [require_neg hdigits]
      exact raisesOnly_error trivial

theorem splitConnectAuthority_range {host : Text} {port : ℤ}
    (h : splitConnectAuthority path = .ok (host, port)) : 1 ≤ port ∧ port ≤ 65_535 := by
  simp only [splitConnectAuthority, bind_ok_iff, require_eq_ok, pure_eq_ok, Except.ok.injEq,
    Prod.mk.injEq] at h
  obtain ⟨_, -, -, -, _, -, -, hrange, -, rfl⟩ := h
  exact hrange

theorem lowerChar_lowerChar (c : CodePoint) : lowerChar (lowerChar c) = lowerChar c := by
  by_cases h : 0x41 ≤ c.val ∧ c.val ≤ 0x5A
  · have hval : (lowerChar c).val = c.val + 0x20 := by
      rw [lowerChar, if_pos h, codePoint_val (by omega)]
    rw [lowerChar, if_neg (by omega)]
  · have same : lowerChar c = c := by rw [lowerChar, if_neg h]
    rw [same, same]

/-- A canonical domain is the canonical form of itself. -/
theorem canonicalRequestedDomain_idem {value canonical : Text}
    (h : canonicalRequestedDomain value = .ok canonical) :
    canonicalRequestedDomain canonical = .ok canonical := by
  simp only [canonicalRequestedDomain, bind_ok_iff, require_eq_ok, pure_eq_ok, Except.ok.injEq] at h
  obtain ⟨-, hascii, -, hdomain, -, hip, rfl⟩ := h
  have lower : (value.map lowerChar).map lowerChar = value.map lowerChar := by
    simp [lowerChar_lowerChar]
  have hascii' : Ascii (value.map lowerChar) := fun c hc => by
    obtain ⟨d, hd, rfl⟩ := List.mem_map.mp hc
    have := hascii d hd
    unfold lowerChar
    split
    · rw [codePoint_val (by omega)]
      omega
    · exact this
  rw [canonicalRequestedDomain, require_pos hascii', ok_bind]
  simp only [lower]
  rw [require_pos hdomain, ok_bind, require_pos hip]
  rfl

/-- A request is denied with its fact, or allowed for its target. -/
theorem decideConnect_cases (h : ¬ OverlongPort path) :
    (∃ host port fact, decideConnect gateway.sha path gateway.policy =
        .ok ⟨false, host, port, some fact⟩ ∧ Recordable fact) ∨
      ∃ host, decideConnect gateway.sha path gateway.policy =
        .ok ⟨true, some host, some 443, none⟩ ∧ AllowedTarget gateway.policy path host := by
  unfold decideConnect
  have raises : RaisesOnly GatewayError.IsPolicy (splitConnectAuthority path >>= fun target =>
      canonicalRequestedDomain target.1 >>= fun canonicalHost =>
        pure (canonicalHost, target.2)) :=
    .bind (splitConnectAuthority_raises h) fun _ => .bind (canonicalRequestedDomain_raises _) fun _ =>
      raisesOnly_ok _
  dsimp only
  split
  · obtain ⟨token, htoken, hdestination⟩ := destinationToken_returns gateway.sha path (.inl rfl)
    obtain ⟨fact, hfact, recordable⟩ := BlockFact.make_recordable hdestination none
      (by simp) .other .proxyConnect
    exact .inl ⟨none, none, fact, by rw [htoken, ok_bind, hfact]; rfl, recordable⟩
  · rename_i e hnot herror
    cases e with
    | policy message => exact absurd rfl (hnot message)
    | value _ => exact (raises _ herror).elim
    | os => exact (raises _ herror).elim
    | assertion _ => exact (raises _ herror).elim
  · rename_i host port htarget
    simp only [bind_ok_iff, pure_eq_ok, Except.ok.injEq, Prod.mk.injEq] at htarget
    obtain ⟨⟨requestedHost, port'⟩, hsplit, canonical, hcanonical, rfl, rfl⟩ := htarget
    have range := splitConnectAuthority_range hsplit
    split
    · obtain ⟨token, htoken, hdestination⟩ :=
        destinationToken_returns gateway.sha canonical (.inr rfl)
      obtain ⟨fact, hfact, recordable⟩ := BlockFact.make_recordable hdestination
        (some port') (by rintro p ⟨⟩; omega) (if port' = 443 then .https else .tcp) .proxyConnect
      exact .inl ⟨some canonical, some port', fact, by rw [htoken, ok_bind, hfact]; rfl, recordable⟩
    · rename_i hallows
      rw [Bool.not_eq_false, EndpointPolicy.allows, canonicalRequestedDomain_idem hcanonical] at hallows
      simp only [decide_eq_true_eq] at hallows
      obtain ⟨rfl, hmem⟩ := hallows
      exact .inr ⟨canonical, rfl, requestedHost, hsplit, hcanonical, hmem⟩

/-! ## Resolution and dialing -/

/-- Vetted answers are public, and every endpoint is one of them. -/
theorem vetAnswers_eq_ok {port : ℤ} {seen : List (ℤ × Text × ℤ)} {answers : List Answer}
    {endpoints : List ResolvedEndpoint} (h : vetAnswers port seen answers = .ok endpoints) :
    AllPublic answers port ∧ ∀ endpoint ∈ endpoints, TakenFrom answers endpoint := by
  induction answers generalizing seen endpoints with
  | nil =>
    obtain rfl := Except.ok.inj h
    exact ⟨fun _ h => by simp at h, fun _ h => by simp at h⟩
  | cons answer answers ih =>
    rw [vetAnswers] at h
    split at h
    · simp at h
    · rename_i ip answerPort haddress
      obtain ⟨_, hvetted, h⟩ := bind_ok_iff.mp h
      obtain ⟨rfl, hpublic⟩ := require_eq_ok.mp hvetted
      have later : ∀ {endpoint}, TakenFrom answers endpoint → TakenFrom (answer :: answers) endpoint :=
        fun ⟨a, ha, rest⟩ => ⟨a, List.mem_cons_of_mem _ ha, rest⟩
      dsimp only at h
      split at h
      · obtain ⟨sound, taken⟩ := ih h
        exact ⟨List.forall_mem_cons.mpr ⟨⟨ip, haddress, hpublic⟩, sound⟩,
          fun endpoint he => later (taken endpoint he)⟩
      · obtain ⟨rest, hrest, h⟩ := bind_ok_iff.mp h
        obtain rfl := Except.ok.inj h
        obtain ⟨sound, taken⟩ := ih hrest
        refine ⟨List.forall_mem_cons.mpr ⟨⟨ip, haddress, hpublic⟩, sound⟩,
          List.forall_mem_cons.mpr ⟨?_, fun endpoint he => later (taken endpoint he)⟩⟩
        exact ⟨answer, by simp, by rw [haddress]; rfl, rfl, rfl, rfl, rfl⟩

theorem resolvePublicEndpoints_eq_ok {answers : Option (List Answer)} {port : ℤ}
    {endpoints : List ResolvedEndpoint} (h : resolvePublicEndpoints answers port = .ok endpoints) :
    ∃ given, answers = some given ∧ endpoints ≠ [] ∧ AllPublic given port ∧
      ∀ endpoint ∈ endpoints, TakenFrom given endpoint := by
  cases answers with
  | none => simp [resolvePublicEndpoints] at h
  | some given =>
    simp only [resolvePublicEndpoints, bind_ok_iff, require_eq_ok, pure_eq_ok, Except.ok.injEq] at h
    obtain ⟨_, rfl, -, -, endpoints, hvet, -, hne, rfl⟩ := h
    obtain ⟨sound, taken⟩ := vetAnswers_eq_ok hvet
    exact ⟨given, rfl, hne, sound, taken⟩

/-- The dial loop only dials, at least once; what it returns is an endpoint it dialed. -/
theorem dialFirst_spec {endpoints : List ResolvedEndpoint} (hne : endpoints ≠ []) :
    (∀ e ∈ (dialFirst gateway endpoints).1, Effect.isDial e) ∧
      (∃ e ∈ (dialFirst gateway endpoints).1, Effect.isDial e) ∧
      ∀ endpoint ∈ (dialFirst gateway endpoints).2, endpoint ∈ endpoints ∧
        .dial endpoint ∈ (dialFirst gateway endpoints).1 := by
  induction endpoints with
  | nil => exact absurd rfl hne
  | cons endpoint endpoints ih =>
    unfold dialFirst
    split
    · cases endpoints with
      | nil => simp [dialFirst, Effect.isDial]
      | cons next endpoints =>
        obtain ⟨only, -, connected⟩ := ih (by simp)
        refine ⟨List.forall_mem_cons.mpr ⟨trivial, only⟩, ⟨.dial endpoint, by simp, trivial⟩, ?_⟩
        intro found hfound
        obtain ⟨hmem, hdial⟩ := connected found hfound
        exact ⟨List.mem_cons_of_mem _ hmem, List.mem_cons_of_mem _ hdial⟩
    · simp [Effect.isDial]

/-! ## The handler -/

/-- A refusal, whatever was announced or resolved before it: nothing goes upstream and its fact is
recorded. -/
theorem Mediated.refused {run : Handled} (before behind : List Effect) {fact : BlockFact}
    (hrecordable : Recordable fact) (hrun : run = ⟨before ++ .emit fact :: behind, .ok ()⟩)
    (hbefore : ∀ e ∈ before ++ behind, (∃ status, e = .respond status) ∨ ∃ host port, e = .resolve host port) :
    Mediated gateway path client run := by
  have quiet : ∀ effects : List Effect, (∀ e ∈ effects, (∃ status, e = .respond status) ∨
      ∃ host port, e = .resolve host port) → effects.filterMap (fun
        | .emit fact => some fact
        | _ => none) = [] := by
    intro effects h
    rw [List.filterMap_eq_nil_iff]
    intro e he
    obtain ⟨_, rfl⟩ | ⟨_, _, rfl⟩ := h e he <;> rfl
  have parts := fun e he => hbefore e (List.mem_append.mpr he)
  subst hrun
  refine ⟨.inr fun e he => ?_, fun _ => ⟨fact, ?_, fun limits => ?_⟩, fun e he => by simp at he⟩
  · rw [List.mem_append, List.mem_cons] at he
    rcases he with he | rfl | he
    · obtain ⟨_, rfl⟩ | ⟨_, _, rfl⟩ := parts e (.inl he) <;> exact id
    · exact id
    · obtain ⟨_, rfl⟩ | ⟨_, _, rfl⟩ := parts e (.inr he) <;> exact id
  · rw [Handled.emitted, List.filterMap_append, quiet before fun e he => parts e (.inl he),
      List.filterMap_cons]
    simp only [List.nil_append, List.cons.injEq, true_and]
    exact quiet behind fun e he => parts e (.inr he)
  · obtain ⟨line, hline, hparse⟩ := @parseBlockRecord_line limits _ hrecordable.destination
      (by rw [hrecordable.count]; decide)
    exact ⟨line, hline, hparse ▸ returns_ok _⟩

/-- A run that fell short of every upstream after dialing. -/
theorem Mediated.unconnected {run : Handled} (hending : run.ending = .ok ())
    (hdialed : ∃ e ∈ run.effects, Effect.isDial e)
    (hquiet : ∀ e ∈ run.effects, ¬ e.reachesUpstream) : Mediated gateway path client run where
  guarded := .inr hquiet
  recorded := fun h => by
    obtain ⟨e, he, hdial⟩ := hdialed
    exact absurd hdial (h e he)
  settled := fun e he => by simp [hending] at he

/-- The tunnel of an allowed target is mediated. -/
theorem tunnel_mediated {host : Text} (htarget : AllowedTarget gateway.policy path host) :
    Mediated gateway path client (.after [.respond 200] (tunnel gateway path host 443 client)) := by
  have fact := fun value kind hkind witness =>
    @tunnelFact_recordable gateway value kind hkind 443 (by decide) witness
  unfold tunnel
  split
  · obtain ⟨fact, hfact, recordable⟩ := fact path _ (.inl rfl) .proxySni
    exact .refused [.respond 200] [] recordable
      (by rw [hfact]; rfl) (by simp)
  · obtain ⟨fact, hfact, recordable⟩ := fact path _ (.inl rfl) .proxySni
    exact .refused [.respond 200] [] recordable
      (by rw [hfact]; rfl) (by simp)
  · rename_i e hnot hos hread
    have expected := readRecords_raises [] [] none client e hread
    cases e with
    | policy message => exact absurd rfl (hnot message)
    | os => exact absurd rfl hos
    | value _ => exact expected.elim
    | assertion _ => exact expected.elim
  · rename_i sni hello rest hread
    obtain ⟨hcarries, hpending⟩ := readClientHello_reads hread
    split
    · obtain ⟨fact, hfact, recordable⟩ := fact sni _ (.inr rfl) .proxySni
      exact .refused [.respond 200] [] recordable
        (by rw [hfact]; rfl) (by simp)
    · rename_i hsame
      obtain rfl : sni = host := not_not.mp hsame
      split
      · obtain ⟨fact, hfact, recordable⟩ := fact sni _ (.inr rfl) .proxyResolution
        exact .refused [.respond 200, .resolve sni 443] [] recordable
          (by rw [hfact]; rfl) (by simp)
      · rename_i e hnot hresolve
        have expected := resolvePublicEndpoints_raises _ _ e hresolve
        cases e with
        | policy message => exact absurd rfl (hnot message)
        | os => exact expected.elim
        | value _ => exact expected.elim
        | assertion _ => exact expected.elim
      · rename_i endpoints hresolve
        obtain ⟨answers, hanswers, hne, sound, taken⟩ := resolvePublicEndpoints_eq_ok hresolve
        obtain ⟨only, dialed, connected⟩ := @dialFirst_spec gateway _ hne
        rcases hdial : dialFirst gateway endpoints with ⟨attempts, upstream⟩
        rw [hdial] at only dialed connected
        have silent : ∀ e ∈ attempts, ¬ e.reachesUpstream := fun e he => by
          have := only e he
          cases e <;> first | exact id | exact this.elim
        cases upstream with
        | none =>
          refine .unconnected rfl ?_ ?_
          · obtain ⟨e, he, h⟩ := dialed
            exact ⟨e, by simp [Handled.after, he], h⟩
          · intro e he
            simp only [Handled.after, List.append_nil, List.mem_append, List.mem_singleton] at he
            rcases he with rfl | rfl | he
            · exact id
            · exact id
            · exact silent e he
        | some endpoint =>
          obtain ⟨hmem, hdialed⟩ := connected endpoint rfl
          have relays : ∀ tail ending, (tail = [.relay endpoint] ∧ ending = .ok () ∨
              tail = [] ∧ ending = .error .os) → Mediated gateway path client
                ⟨[.respond 200, .resolve sni 443] ++ attempts ++ .sendall endpoint hello :: tail,
                  ending⟩ := by
            intro tail ending hend
            refine ⟨.inl ⟨endpoint, sni, hello, rest, answers, attempts, tail, htarget, hcarries, hread,
              hpending, hanswers, sound, taken endpoint hmem, only, hdialed, rfl, hend⟩,
              fun h => absurd trivial (h (.dial endpoint) (by simp [hdialed])),
              fun e he => ⟨endpoint, hello, by simp⟩⟩
          dsimp only [forward]
          split
          · exact relays [] _ (.inr ⟨rfl, rfl⟩)
          · exact relays [.relay endpoint] _ (.inl ⟨rfl, rfl⟩)

/-- An overlong port leaves the handler with a plain `ValueError`, before anything was recorded. -/
theorem doConnect_overlong (h : OverlongPort path) : doConnect gateway path client =
    ⟨[], .error (.value "Exceeds the limit for integer string conversion")⟩ := by
  have decision : decideConnect gateway.sha path gateway.policy =
      .error (.value "Exceeds the limit for integer string conversion") := by
    simp [decideConnect, splitConnectAuthority_overlong h]
  rw [doConnect, decision]

theorem not_mediated_overlong (h : OverlongPort path) :
    ¬ Mediated gateway path client (doConnect gateway path client) := by
  intro mediated
  rw [doConnect_overlong h] at mediated
  obtain ⟨fact, hfact, -⟩ := mediated.recorded (by simp)
  simp [Handled.emitted] at hfact

theorem doConnect_mediated (h : ¬ OverlongPort path) :
    Mediated gateway path client (doConnect gateway path client) := by
  unfold doConnect
  obtain ⟨host, port, fact, hdecision, recordable⟩ | ⟨host, hdecision, htarget⟩ :=
    @decideConnect_cases gateway path h
  · rw [hdecision]
    exact .refused [] [.respond 403] recordable rfl (by simp)
  · rw [hdecision]
    exact tunnel_mediated htarget

/-- **Mediation.** A request is mediated, whatever the authority, the client, the resolver and the
network do, exactly when its port is not written with more digits than `int` reads. -/
theorem doConnect_mediated_iff (gateway : Gateway) (path : Text) (client : ClientStream) :
    Mediated gateway path client (doConnect gateway path client) ↔ ¬ OverlongPort path :=
  ⟨fun mediated hlong => not_mediated_overlong hlong mediated, doConnect_mediated⟩

/-- A host without special characters and its port digits are split at the colon. -/
theorem splitHostPort_digits {host digits : Text}
    (hplain : (host.all fun c => 33 ≤ c.val && c.val != 127 && !(txt "/@?#:[").contains c) = true)
    (hne : host ≠ []) (hdigits : digits.all isDigit = true) :
    splitHostPort (host ++ codePoint 0x3A :: digits) = .ok (host, digits) := by
  have hhost : ∀ c ∈ host, 33 ≤ c.val ∧ c.val ≠ 127 ∧ c ∉ txt "/@?#:[" := fun c hc => by
    simpa [and_assoc] using List.all_eq_true.mp hplain c hc
  have colon : ∀ c ∈ host, c ≠ codePoint 0x3A := fun c hc => by
    rintro rfl
    exact absurd (hhost _ hc).2.2 (by decide +kernel)
  have digit : ∀ c ∈ digits, 0x30 ≤ c.val ∧ c.val ≤ 0x39 := fun c hc => by
    simpa [isDigit] using List.all_eq_true.mp hdigits c hc
  have absent : ∀ special ∈ txt "/@?#", special ∉ host ++ codePoint 0x3A :: digits := by
    intro special hspecial hmem
    have low : ((txt "/@?#").all fun c => c != codePoint 0x3A && (txt "/@?#:[").contains c &&
        !(0x30 ≤ c.val && c.val ≤ 0x39)) = true := by decide
    obtain ⟨hne, hlist, hdigit⟩ : special ≠ codePoint 0x3A ∧ special ∈ txt "/@?#:[" ∧
        (special.val < 0x30 ∨ 0x39 < special.val) := by
      simpa [and_assoc] using List.all_eq_true.mp low special hspecial
    rcases List.mem_append.mp hmem with hmem | hmem
    · exact (hhost special hmem).2.2 hlist
    · rcases List.mem_cons.mp hmem with rfl | hmem
      · exact hne rfl
      · have := digit special hmem
        omega
  have bracket : (host ++ codePoint 0x3A :: digits).head? ≠ some (codePoint 0x5B) := by
    obtain ⟨c, host, rfl⟩ := List.exists_cons_of_ne_nil hne
    rw [List.cons_append, List.head?_cons, ne_eq, Option.some.injEq]
    rintro rfl
    exact absurd (hhost (codePoint 0x5B) (by simp)).2.2 (by decide +kernel)
  have printable : ((host ++ codePoint 0x3A :: digits).all fun c => 33 ≤ c.val && c.val != 127) =
      true := by
    simp only [List.all_append, List.all_cons, List.all_eq_true, Bool.and_eq_true,
      decide_eq_true_eq, bne_iff_ne]
    refine ⟨fun c hc => ⟨(hhost c hc).1, (hhost c hc).2.1⟩, by decide, fun c hc => ?_⟩
    have := digit c hc
    omega
  have once : (host ++ codePoint 0x3A :: digits).count (codePoint 0x3A) = 1 := by
    rw [List.count_append, List.count_cons_self, List.count_eq_zero.mpr fun h => colon _ h rfl,
      List.count_eq_zero.mpr]
    intro h
    exact absurd (digit _ h) (by decide)
  have before : (host ++ codePoint 0x3A :: digits).takeWhile (· ≠ codePoint 0x3A) = host := by
    rw [List.takeWhile_append_of_pos (by simpa using colon)]
    simp
  have behind : (host ++ codePoint 0x3A :: digits).dropWhile (· ≠ codePoint 0x3A) =
      codePoint 0x3A :: digits := by
    rw [List.dropWhile_append_of_pos (by simpa using colon)]
    simp
  rw [splitHostPort]
  dsimp only
  rw [require_pos ⟨by simp, printable, by simpa [List.all_eq_true] using absent⟩, ok_bind,
    if_neg bracket, require_pos once, ok_bind, before, behind]
  rfl

/-- A gateway for one host, behind a resolver that has no answers. -/
def sampleGateway : Gateway where
  sha := ⟨fun raw => HASH_PREFIX ++ hex64 raw.length, fun _ => isHash_hex64 _⟩
  policy := ⟨[txt "api.example.com"]⟩
  resolver _ _ := none
  dialer _ := .fails

/-- A port of 4301 digits. -/
def overlongDigits : Text := List.replicate 4_301 (codePoint 0x34)

theorem overlongDigits_length : overlongDigits.length = 4_301 := List.length_replicate

theorem overlongDigits_digits : overlongDigits.all isDigit = true := by
  rw [List.all_eq_true]
  intro c hc
  rw [List.eq_of_mem_replicate hc]
  decide

/-- The allowed host with that port. -/
def overlongAuthority : Text := txt "api.example.com" ++ codePoint 0x3A :: overlongDigits

/-- The request ends in a `ValueError`, and nothing is recorded of it. -/
theorem overlong_unrecorded : overlongAuthority.length ≤ 65_536 ∧
    (doConnect sampleGateway overlongAuthority ⟨[], true⟩).effects.length = 0 ∧
    Raises (doConnect sampleGateway overlongAuthority ⟨[], true⟩).ending
      (.value "Exceeds the limit for integer string conversion") ∧
    ¬ Mediated sampleGateway overlongAuthority ⟨[], true⟩
      (doConnect sampleGateway overlongAuthority ⟨[], true⟩) := by
  have overlong : OverlongPort overlongAuthority :=
    ⟨txt "api.example.com", overlongDigits,
      splitHostPort_digits (by decide) (by decide) overlongDigits_digits,
      overlongDigits_digits, by rw [overlongDigits_length]; decide⟩
  refine ⟨?_, ?_, ?_, not_mediated_overlong overlong⟩
  · rw [overlongAuthority, List.length_append, List.length_cons, overlongDigits_length]
    decide
  · rw [doConnect_overlong overlong]
    rfl
  · rw [doConnect_overlong overlong]
    rfl

end WagmiBench.Sandbox
