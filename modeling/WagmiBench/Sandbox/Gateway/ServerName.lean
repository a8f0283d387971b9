import WagmiBench.Sandbox.Gateway.Mediation

/-!
# The host of a ClientHello

Which bytes `extract_tls_sni` accepts, and for which host. It returns at the first server name
extension: what stands behind that extension fills the announced length of the block and is not
looked at, so a second server name, or an extension that runs out of the block, goes through.
-/

namespace WagmiBench.Sandbox

open WagmiBench.Lib

/-! ## Names -/

/-- A server name extension of one host name, which is `host` up to case and a valid hostname. -/
def CarriesName (extensionData : Bytes) (host : Text) : Prop :=
  ∃ entry name, IsVector 2 extensionData (0 :: entry) ∧ IsVector 2 entry name ∧
    name.all (·.toNat < 0x80) = true ∧ host = name.map (fun b => lowerChar (codePoint b.toNat)) ∧
    IsDomain host ∧ IpAddress.parse host = none

/-- A sequence of extensions, each with its type and data. -/
inductive Extensions : Bytes → List (ℕ × Bytes) → Prop where
  | nil : Extensions [] []
  | cons {bytes rest extensionData : Bytes} {extensionType : ℕ} {items : List (ℕ × Bytes)}
    (h : IsExtension bytes extensionType extensionData) (hrest : Extensions rest items) :
    Extensions (bytes ++ rest) ((extensionType, extensionData) :: items)

/-- A ClientHello body that is well-formed to its end and has exactly one server name. -/
def NamesOnly (body : Bytes) (host : Text) : Prop :=
  ∃ content items extensionData, IsClientHello body content ∧ Extensions content items ∧
    items.filter (·.1 = 0) = [(0, extensionData)] ∧ CarriesName extensionData host

/-- A ClientHello body whose first server name is `host`. -/
def NamesFirst (body : Bytes) (host : Text) : Prop :=
  ∃ content extensionData, IsClientHello body content ∧ FirstServerName content extensionData ∧
    CarriesName extensionData host

theorem canonicalRequestedDomain_eq_ok {value host : Text} :
    canonicalRequestedDomain value = .ok host ↔ Ascii value ∧ host = value.map lowerChar ∧
      IsDomain host ∧ IpAddress.parse host = none := by
  simp only [canonicalRequestedDomain, bind_ok_iff, require_eq_ok, pure_eq_ok, Except.ok.injEq]
  constructor
  · rintro ⟨-, hascii, -, hdomain, -, hip, rfl⟩
    exact ⟨hascii, rfl, hdomain, hip⟩
  · rintro ⟨hascii, rfl, hdomain, hip⟩
    exact ⟨(), hascii, (), hdomain, (), hip, rfl⟩

theorem asciiDecode_eq_some {raw : Bytes} {text : Text} : asciiDecode raw = some text ↔
    raw.all (·.toNat < 0x80) = true ∧ raw.map (fun b => codePoint b.toNat) = text := by
  unfold asciiDecode
  split <;> simp_all

theorem namesHost_iff {extensionData : Bytes} {host : Text} :
    NamesHost extensionData host ↔ CarriesName extensionData host := by
  have ascii : ∀ {name : Bytes}, name.all (·.toNat < 0x80) = true →
      Ascii (name.map fun b => codePoint b.toNat) := by
    intro name hname c hc
    obtain ⟨b, hb, rfl⟩ := List.mem_map.mp hc
    have hlow : b.toNat < 0x80 := by simpa using List.all_eq_true.mp hname b hb
    rw [codePoint_val (by omega)]
    exact hlow
  constructor
  · rintro ⟨entry, name, text, hentry, hname, htext, hhost⟩
    obtain ⟨hascii, rfl⟩ := asciiDecode_eq_some.mp htext
    obtain ⟨-, rfl, hdomain, hip⟩ := canonicalRequestedDomain_eq_ok.mp hhost
    exact ⟨entry, name, hentry, hname, hascii, List.map_map, hdomain, hip⟩
  · rintro ⟨entry, name, hentry, hname, hascii, hhost, hdomain, hip⟩
    exact ⟨entry, name, _, hentry, hname, asciiDecode_eq_some.mpr ⟨hascii, rfl⟩,
      canonicalRequestedDomain_eq_ok.mpr ⟨ascii hascii, by rw [List.map_map]; exact hhost, hdomain, hip⟩⟩

/-! ## What is accepted -/

section Accepted

variable {body : Bytes}

theorem need_at {before content : Bytes} {offset n : ℕ} (h : before ++ content <+: body)
    (hoffset : offset = before.length) (hn : n = content.length) :
    need body offset n = .ok content := by
  obtain ⟨rest, rfl⟩ := h
  subst hoffset hn
  refine need_eq_ok.mpr ⟨by simp only [List.length_append]; omega, ?_⟩
  rw [slice, List.append_assoc, List.drop_left, List.take_left]

theorem needNumber_at {before content : Bytes} {offset width : ℕ} (h : before ++ content <+: body)
    (hoffset : offset = before.length) (hwidth : width = content.length) :
    needNumber body offset width = .ok (ofBigEndian content) := by
  rw [needNumber, need_at h hoffset hwidth]
  rfl

/-- A server name extension is accepted exactly for the host it carries. -/
theorem serverName_eq_ok {extensionData : Bytes} {host : Text} :
    serverName extensionData = .ok host ↔ CarriesName extensionData host := by
  refine ⟨fun h => namesHost_iff.mp (serverName_names h), fun h => ?_⟩
  obtain ⟨entry, name, text, hentry, hname, htext, hhost⟩ := namesHost_iff.mpr h
  obtain ⟨outer, houter, hentryLength, rfl⟩ := hentry
  obtain ⟨inner, hinner, hnameLength, rfl⟩ := hname
  obtain ⟨a, b, rfl⟩ := List.length_eq_two.mp houter
  obtain ⟨c, d, rfl⟩ := List.length_eq_two.mp hinner
  simp only [List.length_cons, List.length_append] at hentryLength
  rw [serverName, require_pos (by simp), ok_bind]
  dsimp only
  rw [require_pos (by simp [hentryLength]; omega), ok_bind,
    require_pos ⟨rfl, by simpa [slice] using hnameLength⟩, ok_bind]
  simp only [List.cons_append, List.nil_append, List.drop_succ_cons, List.drop_zero, htext, hhost]

/-- Step lemma: an extension that stands at an offset is passed over, or decides. -/
theorem scanExtensions_at {before bytes rest extensionData : Bytes} {extensionType : ℕ}
    (h : IsExtension bytes extensionType extensionData) (hbody : body = before ++ bytes ++ rest) :
    scanExtensions body before.length body.length =
      if extensionType ≠ 0 then scanExtensions body (before ++ bytes).length body.length
      else serverName extensionData := by
  obtain ⟨head, vector, rfl, hhead, htype, ⟨len, hlen, hlength, rfl⟩⟩ := h
  have hnumber : needNumber body before.length 2 = .ok extensionType := by
    rw [@needNumber_at _ before head _ _ (by simp [hbody]) rfl hhead.symm, htype]
  have hdataLength : needNumber body (before.length + 2) 2 = .ok extensionData.length := by
    rw [@needNumber_at _ (before ++ head) len _ _ (by simp [hbody])
      (by simp [hhead]) hlen.symm, hlength]
  have hdata : need body (before.length + 4) extensionData.length = .ok extensionData :=
    @need_at _ (before ++ head ++ len) extensionData _ _ (by simp [hbody])
      (by simp only [List.length_append]; omega) rfl
  have hend : (before ++ (head ++ (len ++ extensionData))).length =
      before.length + 4 + extensionData.length := by
    simp only [List.length_append]
    omega
  rw [scanExtensions, if_pos (by rw [hbody]; simp only [List.length_append]; omega), hnumber, ok_bind,
    hdataLength, ok_bind, hdata, ok_bind, hend]

/-- The scan of the extensions decides by the first server name. -/
theorem scanExtensions_first {content extensionData : Bytes}
    (hfirst : FirstServerName content extensionData) {before : Bytes}
    (hbody : body = before ++ content) :
    scanExtensions body before.length body.length = serverName extensionData := by
  induction hfirst generalizing before with
  | here rest h => rw [scanExtensions_at h (by rw [hbody, List.append_assoc]), if_neg (by simp)]
  | skip h hne hrest ih =>
    rw [scanExtensions_at h (by rw [hbody, List.append_assoc]), if_pos hne]
    exact ih (by rw [hbody, List.append_assoc])

/-- In a ClientHello body, the scan of the extension block decides. -/
theorem extractTlsSni_scan {content : Bytes} (h : IsClientHello body content) :
    ∃ before, body = before ++ content ∧
      extractTlsSni body = scanExtensions body before.length body.length := by
  obtain ⟨random, _, _, _, _, sessionId, cipherSuites, methods, hbody, hrandom,
    ⟨s, hs, hsession, rfl⟩, ⟨⟨c, hc, hsuites, rfl⟩, hsuitesNe, heven⟩,
    ⟨⟨m, hm, hmethods, rfl⟩, hmethodsNe⟩, ⟨e, he, hcontent, rfl⟩⟩ := h.framed
  simp only [List.append_assoc] at hbody
  have suitesPos := List.length_pos_of_ne_nil hsuitesNe
  have methodsPos := List.length_pos_of_ne_nil hmethodsNe
  refine ⟨random ++ s ++ sessionId ++ c ++ cipherSuites ++ m ++ methods ++ e, by simp [hbody], ?_⟩
  have hlength := congrArg List.length hbody
  simp only [List.length_append] at hlength
  have random_read : need body 0 34 = .ok random := @need_at _ [] random _ _ (by simp [hbody]) rfl hrandom.symm
  have session_length : needNumber body 34 1 = .ok sessionId.length := by
    rw [@needNumber_at _ random s _ _ (by simp [hbody]) hrandom.symm hs.symm, hsession]
  have session_read : need body 35 sessionId.length = .ok sessionId :=
    @need_at _ (random ++ s) sessionId _ _ (by simp [hbody]) (by simp [hrandom, hs]) rfl
  have suites_length : needNumber body (35 + sessionId.length) 2 = .ok cipherSuites.length := by
    rw [@needNumber_at _ (random ++ s ++ sessionId) c _ _ (by simp [hbody])
      (by simp only [List.length_append]; omega) hc.symm, hsuites]
  have suites_read : need body (35 + sessionId.length + 2) cipherSuites.length = .ok cipherSuites :=
    @need_at _ (random ++ s ++ sessionId ++ c) cipherSuites _ _ (by simp [hbody])
      (by simp only [List.length_append]; omega) rfl
  have methods_length : needNumber body (35 + sessionId.length + 2 + cipherSuites.length) 1 =
      .ok methods.length := by
    rw [@needNumber_at _ (random ++ s ++ sessionId ++ c ++ cipherSuites) m _ _ (by simp [hbody])
      (by simp only [List.length_append]; omega) hm.symm, hmethods]
  have methods_read : need body (35 + sessionId.length + 2 + cipherSuites.length + 1)
      methods.length = .ok methods :=
    @need_at _ (random ++ s ++ sessionId ++ c ++ cipherSuites ++ m) methods _ _ (by simp [hbody])
      (by simp only [List.length_append]; omega) rfl
  have extensions_length : needNumber body
      (35 + sessionId.length + 2 + cipherSuites.length + 1 + methods.length) 2 =
      .ok content.length := by
    rw [@needNumber_at _ (random ++ s ++ sessionId ++ c ++ cipherSuites ++ m ++ methods) e _ _
      (by simp [hbody]) (by simp only [List.length_append]; omega) he.symm, hcontent]
  simp only [extractTlsSni, random_read, session_length, session_read, suites_length, suites_read,
    methods_length, methods_read, extensions_length, ok_bind]
  rw [require_pos ⟨by omega, heven⟩, ok_bind, require_pos (by omega), ok_bind,
    require_pos (by omega), ok_bind]
  congr 1
  · simp only [List.length_append]
    omega
  · omega

/-- **The accepted bodies.** A body is accepted exactly for the host its first server name is. -/
theorem extractTlsSni_eq_ok {host : Text} : extractTlsSni body = .ok host ↔ NamesFirst body host := by
  constructor
  · intro h
    obtain ⟨content, extensionData, hbody, hfirst, hhost⟩ := extractTlsSni_sound h
    exact ⟨content, extensionData, hbody, hfirst, namesHost_iff.mp hhost⟩
  · rintro ⟨content, extensionData, hbody, hfirst, hname⟩
    obtain ⟨before, hsplit, hscan⟩ := extractTlsSni_scan hbody
    rw [hscan, scanExtensions_first hfirst hsplit, serverName_eq_ok.mpr hname]

end Accepted

/-! ## The format is unambiguous -/

theorem IsClientHello.unique {body content content' : Bytes} (h : IsClientHello body content)
    (h' : IsClientHello body content') : content = content' := by
  obtain ⟨random, session, suites, compression, extensions, _, _, _, rfl, hrandom, hsession,
    ⟨hsuites, -⟩, ⟨hcompression, -⟩, hextensions⟩ := h.framed
  obtain ⟨random', session', suites', compression', extensions', _, _, _, heq, hrandom', hsession',
    ⟨hsuites', -⟩, ⟨hcompression', -⟩, hextensions'⟩ := h'.framed
  simp only [List.append_assoc] at heq
  have heq := (List.append_inj heq (hrandom.trans hrandom'.symm)).2
  have heq := (hsession.append_inj hsession' heq).2
  have heq := (hsuites.append_inj hsuites' heq).2
  have heq := (hcompression.append_inj hcompression' heq).2
  exact (@IsVector.append_inj _ _ _ _ _ [] [] hextensions hextensions' (by rw [heq])).1

theorem IsExtension.append_inj {bytes bytes' rest rest' extensionData extensionData' : Bytes}
    {extensionType extensionType' : ℕ} (h : IsExtension bytes extensionType extensionData)
    (h' : IsExtension bytes' extensionType' extensionData') (heq : bytes ++ rest = bytes' ++ rest') :
    (extensionType, extensionData) = (extensionType', extensionData') ∧ rest = rest' := by
  obtain ⟨head, vector, rfl, hhead, rfl, hvector⟩ := h
  obtain ⟨head', vector', rfl, hhead', rfl, hvector'⟩ := h'
  rw [List.append_assoc, List.append_assoc] at heq
  obtain ⟨rfl, htail⟩ := List.append_inj heq (hhead.trans hhead'.symm)
  obtain ⟨rfl, hrest⟩ := hvector.append_inj hvector' htail
  exact ⟨rfl, hrest⟩

theorem IsExtension.ne_nil {bytes extensionData : Bytes} {extensionType : ℕ}
    (h : IsExtension bytes extensionType extensionData) : bytes ≠ [] := by
  obtain ⟨head, vector, rfl, hhead, -⟩ := h
  rintro hnil
  simp [(List.append_eq_nil_iff.mp hnil).1] at hhead

theorem Extensions.unique {content : Bytes} {items items' : List (ℕ × Bytes)}
    (h : Extensions content items) (h' : Extensions content items') : items = items' := by
  induction h generalizing items' with
  | nil =>
    generalize hnil : ([] : Bytes) = content at h'
    cases h' with
    | nil => rfl
    | cons h _ => exact absurd (List.append_eq_nil_iff.mp hnil.symm).1 h.ne_nil
  | @cons bytes rest _ _ _ h _ ih =>
    generalize hcontent : bytes ++ rest = content at h'
    cases h' with
    | nil => exact absurd (List.append_eq_nil_iff.mp hcontent).1 h.ne_nil
    | cons h' hrest' =>
      obtain ⟨hitem, rfl⟩ := h.append_inj h' hcontent
      rw [hitem, ih hrest']

/-! ## What goes upstream -/

/-- What a run sends upstream is one ClientHello, whose first server name is an allowed host. -/
def ForwardsNamed (gateway : Gateway) (path : Text) (run : Handled) : Prop :=
  ∃ endpoint host hello message body, AllowedTarget gateway.policy path host ∧
    .sendall endpoint hello ∈ run.effects ∧
    (∀ other raw, .sendall other raw ∈ run.effects → raw = hello) ∧
    HandshakeRecords hello (1 :: message) ∧ IsVector 3 message body ∧ NamesFirst body host

theorem RelaysTo.forwardsNamed {gateway : Gateway} {path : Text} {client : ClientStream}
    {run : Handled} {endpoint : ResolvedEndpoint} (h : RelaysTo gateway path client run endpoint) :
    ForwardsNamed gateway path run := by
  obtain ⟨host, hello, rest, answers, attempts, tail, htarget, -, hread, -, -, -, -, hdials, -,
    heffects, hend⟩ := h.vetted
  obtain ⟨fragments, body, rfl, ⟨message, hmessage, hbody⟩, hsni, -, -⟩ :=
    readClientHello_parsed hread
  have records := HandshakeRecords.nil.append fragments
  rw [List.nil_append, List.nil_append, hmessage] at records
  refine ⟨endpoint, host, _, message, body, htarget, by simp [heffects], ?_, records, hbody,
    extractTlsSni_eq_ok.mp hsni⟩
  intro other raw hmem
  rw [heffects] at hmem
  rcases List.mem_append.mp hmem with hbefore | hsent
  · rcases List.mem_append.mp hbefore with hquiet | hdialed
    · simp at hquiet
    · exact (hdials _ hdialed).elim
  · rcases List.mem_cons.mp hsent with hfirst | htail
    · obtain ⟨-, rfl⟩ := Effect.sendall.inj hfirst
      rfl
    · obtain ⟨rfl, -⟩ | ⟨rfl, -⟩ := hend <;> simp at htail

theorem doConnect_forwards (gateway : Gateway) (path : Text) (client : ClientStream) :
    (∀ e ∈ (doConnect gateway path client).effects, ¬ e.reachesUpstream) ∨
      ForwardsNamed gateway path (doConnect gateway path client) := by
  by_cases hlong : OverlongPort path
  · exact .inl (by rw [doConnect_overlong hlong]; simp)
  · rcases (@doConnect_mediated gateway path client hlong).guarded with ⟨endpoint, relays⟩ | silent
    · exact .inr relays.forwardsNamed
    · exact .inl silent

/-- **The first server name.** `extract_tls_sni` returns a host exactly for the ClientHello bodies
whose first server name it is, and raises `PolicyError` for any other body; and what the gateway sends
upstream is one ClientHello, whose first server name is the host of the tunnel. -/
theorem extractTlsSni_decides :
    (∀ body, (∀ host, extractTlsSni body = .ok host ↔ NamesFirst body host) ∧
      ((∃ host, NamesFirst body host) ∨ ∃ m, extractTlsSni body = .error (.policy m))) ∧
    ∀ gateway path client, (∀ e ∈ (doConnect gateway path client).effects, ¬ e.reachesUpstream) ∨
      ForwardsNamed gateway path (doConnect gateway path client) := by
  refine ⟨fun body => ⟨fun host => extractTlsSni_eq_ok, ?_⟩, doConnect_forwards⟩
  rcases hextract : extractTlsSni body with e | host
  · have policy := extractTlsSni_raises body e hextract
    cases e with
    | policy m => exact .inr ⟨m, rfl⟩
    | os => exact policy.elim
    | value _ => exact policy.elim
    | assertion _ => exact policy.elim
  · exact .inl ⟨host, extractTlsSni_eq_ok.mp hextract⟩

/-- The data of a server name extension of a three-letter host. -/
def shortName (a b c : UInt8) : Bytes := [0, 6, 0, 0, 3, a, b, c]

/-- Two server names, `a.b` and `c.d`. -/
def twoNames : Bytes :=
  [0, 0, 0, 8] ++ shortName 0x61 0x2E 0x62 ++ ([0, 0, 0, 8] ++ shortName 0x63 0x2E 0x64)

/-- A ClientHello body with both. -/
def twoNamesBody : Bytes :=
  List.replicate 34 0 ++ [0] ++ [0, 2, 0x13, 1] ++ [1, 0] ++ ([0, 24] ++ twoNames)

/-- The body is accepted for its first name, though it has a second. -/
theorem twoNames_accepted : extractTlsSni twoNamesBody = .ok (txt "a.b") ∧
    ¬ NamesOnly twoNamesBody (txt "a.b") := by
  have extension : ∀ a b c, IsExtension ([0, 0, 0, 8] ++ shortName a b c) 0 (shortName a b c) :=
    fun a b c => ⟨[0, 0], [0, 8] ++ shortName a b c, rfl, rfl, by decide, [0, 8], rfl, rfl, rfl⟩
  have frame : IsClientHello twoNamesBody twoNames :=
    ⟨List.replicate 34 0, [0], [0, 2, 0x13, 1], [1, 0], [0, 24] ++ twoNames, [], [0x13, 1], [0], rfl,
      rfl, ⟨[0], rfl, by decide, rfl⟩, ⟨⟨[0, 2], rfl, by decide, rfl⟩, by simp, rfl⟩,
      ⟨⟨[1], rfl, by decide, rfl⟩, by simp⟩, [0, 24], rfl, by decide, rfl⟩
  refine ⟨extractTlsSni_eq_ok.mpr ⟨twoNames, _, frame, .here _ (extension _ _ _), ?_⟩, ?_⟩
  · exact ⟨_, [0x61, 0x2E, 0x62], ⟨[0, 6], rfl, by decide, rfl⟩, ⟨[0, 3], rfl, by decide, rfl⟩,
      by decide, by decide, by decide, by decide⟩
  · rintro ⟨content, items, extensionData, hframe, hitems, honly, -⟩
    obtain rfl := frame.unique hframe
    have both : Extensions twoNames
        [(0, shortName 0x61 0x2E 0x62), (0, shortName 0x63 0x2E 0x64)] := by
      have := Extensions.cons (extension 0x61 0x2E 0x62) (.cons (extension 0x63 0x2E 0x64) .nil)
      rwa [List.append_nil] at this
    rw [hitems.unique both] at honly
    simp at honly

end WagmiBench.Sandbox
