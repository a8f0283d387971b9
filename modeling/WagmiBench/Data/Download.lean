import WagmiBench.Data.Builder
import WagmiBench.Data.Validator

/-!
# Resumable downloads

`BinanceBulkFetcher.download` and `_download_once` of `data/binance.py`. A call writes to the disk in
small steps: it opens the partial file, appends what it reads and renames the whole file into place.
`download` returns every state the disk goes through on the way, so that a process which is killed
leaves one of them behind.
-/

namespace WagmiBench.Data

open WagmiBench.Lib WagmiBench.Core

/-! ## The fetcher -/

/-- The bytes at the destination and at its sibling `.part`, where there is a file. -/
structure Files where
  destination : Option Bytes
  part : Option Bytes
  deriving DecidableEq

/-- What the transport hands back for one request. -/
structure Response where
  status : ℕ
  contentRange : Option Text
  contentLength : Option Text
  /-- What `read` returns, call after call. -/
  reads : List Bytes
  /-- Behind these, `read` raises instead of returning no bytes. -/
  broken : Bool

/-- What `open` does with a request from an offset on: it raises, or there is a response. -/
abbrev Transport := ℕ → Option Response

inductive FetchError where
  | bulkUrlRejected
  | download (message : Text)
  | retryable (message : Text)
  /-- `OSError`, `TimeoutError` or `HTTPException`. -/
  | transport
  deriving DecidableEq

/-- The exceptions an attempt is repeated after. -/
def FetchError.isRetried : FetchError → Bool
  | .retryable _ | .transport => true
  | _ => false

/-- The states a call leaves on the disk one after the other, and how it ends. -/
structure Course where
  visited : List Files
  outcome : Except FetchError Unit

/-- The last state of a course that began with `files`. -/
def Course.last (course : Course) (files : Files) : Files := course.visited.getLastD files

section Fetcher

variable (unicode : Unicode) (url : Text)

/-- `status in {408, 425, 429} or 500 <= status <= 599` -/
def isRetryableStatus (status : ℕ) : Bool :=
  status = 408 || status = 425 || status = 429 || (500 ≤ status && status ≤ 599)

/-- `_optional_nonnegative_int` -/
def optionalNonnegativeInt (label : String) : Option Text → Except FetchError (Option ℕ)
  | none => .ok none
  | some value => do
    let invalid := .retryable (txt "invalid " ++ txt label ++ txt ": " ++ unicode.repr value)
    match unicode.int value with
    | none => .error invalid
    | some parsed => do
      require (0 ≤ parsed) invalid
      return some parsed.toNat

/-- What a response makes of the partial file: whether it is appended to, and the length that is
expected. -/
def responseMode (offset : ℕ) (response : Response) : Except FetchError (Bool × Option ℕ) := do
  require (¬ isRetryableStatus response.status)
    (.retryable (txt "retryable HTTP status " ++ decimal response.status))
  require (response.status = 200 ∨ response.status = 206)
    (.download (txt "unexpected HTTP status " ++ decimal response.status ++ txt " for " ++ url))
  let append := decide (0 < offset ∧ response.status = 206)
  let contentRange := response.contentRange.getD []
  require (append → txt "bytes " ++ decimal offset ++ txt "-" <+: contentRange)
    (.retryable (txt "resume response has an invalid Content-Range: " ++ unicode.repr contentRange))
  let expectedLength ← optionalNonnegativeInt unicode "Content-Length" response.contentLength
  return (append, expectedLength)

/-- The loop over `response.read`: what is written, and whether a read raises. -/
def receive (broken : Bool) : List Bytes → Bytes × Bool
  | [] => ([], broken)
  | chunk :: reads =>
    if chunk = [] then ([], false)
    else
      let (received, raised) := receive broken reads
      (chunk ++ received, raised)

/-- `_download_once` -/
def downloadOnce (transport : Transport) (files : Files) : Course :=
  let offset := (files.part.getD []).length
  match transport offset with
  | none => ⟨[], .error .transport⟩
  | some response =>
    match responseMode unicode url offset response with
    | .error e => ⟨[], .error e⟩
    | .ok (append, expectedLength) =>
      -- opening for writing empties the file
      let kept := if append then files.part.getD [] else []
      let (received, raised) := receive response.broken response.reads
      { visited := received.inits.map fun bytes => { files with part := some (kept ++ bytes) }
        outcome :=
          if raised then .error .transport
          else if ∀ n ∈ expectedLength, received.length = n then .ok ()
          else .error (.retryable (txt "incomplete response: expected " ++
            decimal (expectedLength.getD 0) ++ txt " bytes, received " ++ decimal received.length)) }

variable (retries : ℕ)

/-- The attempts from one on, of which so many are left. -/
def attemptsFrom (script : ℕ → Transport) (attempt : ℕ) : ℕ → Files → Course
  | 0, _ => ⟨[], .error (.download (txt "download failed after " ++ decimal (retries + 1) ++
      txt " attempt(s): " ++ url))⟩
  | left + 1, files =>
    let once := downloadOnce unicode url (script attempt) files
    let reached := once.last files
    match once.outcome with
    | .ok () => ⟨once.visited ++ [⟨reached.part, none⟩], .ok ()⟩
    | .error e =>
      if e.isRetried then
        let later := attemptsFrom script (attempt + 1) left reached
        ⟨once.visited ++ later.visited, later.outcome⟩
      else ⟨once.visited, .error e⟩

/-- `BinanceBulkFetcher.download` -/
def download (urlsplit : Text → SplitResult) (script : ℕ → Transport) (files : Files) : Course :=
  if bulkUrlAccepted (urlsplit url) then
    if files.destination.isSome then ⟨[], .ok ()⟩
    else attemptsFrom unicode url retries script 0 (retries + 1) files
  else ⟨[], .error .bulkUrlRejected⟩

end Fetcher

/-! ## The server -/

/-- How a server that has the content answers a request from an offset on: whole or in part, up to
the point where the answer is cut, or with a status that asks for a retry. -/
inductive Answers (unicode : Unicode) (content : Bytes) : ℕ → Response → Prop where
  | retry {offset : ℕ} {r : Response} : isRetryableStatus r.status = true →
      Answers unicode content offset r
  | whole {r : Response} : r.status = 200 →
      (∃ t, r.contentLength = some t ∧ unicode.int t = some content.length) →
      (∀ chunk ∈ r.reads, chunk ≠ []) → r.reads.flatten <+: content → Answers unicode content 0 r
  | rest {offset : ℕ} {r : Response} : 0 < offset → offset < content.length → r.status = 206 →
      (∃ t, r.contentRange = some (txt "bytes " ++ decimal offset ++ txt "-" ++ t)) →
      (∃ t, r.contentLength = some t ∧ unicode.int t = some (content.length - offset : ℕ)) →
      (∀ chunk ∈ r.reads, chunk ≠ []) → r.reads.flatten <+: content.drop offset →
      Answers unicode content offset r
  | beyond {offset : ℕ} {r : Response} : 0 < offset → content.length ≤ offset → r.status = 416 →
      Answers unicode content offset r

/-- All requests of a call reach the server. -/
def Served (unicode : Unicode) (content : Bytes) (script : ℕ → Transport) : Prop :=
  ∀ attempt offset, ∀ r ∈ script attempt offset, Answers unicode content offset r

/-- No request fails, and no answer is cut. -/
structure Uninterrupted (unicode : Unicode) (content : Bytes) (script : ℕ → Transport) : Prop where
  served : Served unicode content script
  answered : ∀ attempt offset, ∃ r, script attempt offset = some r ∧
    isRetryableStatus r.status = false ∧ r.broken = false ∧
    (offset ≤ content.length → r.reads.flatten = content.drop offset)

/-- The states that a history of calls leaves behind, each of them over after any of its steps. -/
inductive Reached (unicode : Unicode) (url : Text) (retries : ℕ) (urlsplit : Text → SplitResult)
    (content : Bytes) : Files → Prop where
  | start : Reached unicode url retries urlsplit content ⟨none, none⟩
  | call {files state : Files} {script : ℕ → Transport} :
      Reached unicode url retries urlsplit content files → Served unicode content script →
      state ∈ files :: (download unicode url retries urlsplit script files).visited →
      Reached unicode url retries urlsplit content state

/-! ## What is on the disk -/

/-- There is nothing but the content, or a beginning of it in the partial file. -/
structure Intact (content : Bytes) (files : Files) : Prop where
  destination : ∀ bytes ∈ files.destination, bytes = content
  part : ∀ bytes ∈ files.part, bytes <+: content

section Course

variable {unicode : Unicode} {url : Text} {retries : ℕ} {urlsplit : Text → SplitResult}
  {content : Bytes} {transport : Transport} {script : ℕ → Transport} {files : Files}

theorem receive_eq {reads : List Bytes} (h : ∀ chunk ∈ reads, chunk ≠ []) (broken : Bool) :
    receive broken reads = (reads.flatten, broken) := by
  induction reads with
  | nil => rfl
  | cons chunk reads ih =>
    rw [receive, if_neg (h chunk (by simp)), ih fun c hc => h c (by simp [hc])]
    rfl

/-- What an attempt writes when the server's answer is read: a longer and longer beginning of the
content, the whole of it if the attempt succeeds. -/
structure Advances (content : Bytes) (files : Files) (once : Course) : Prop where
  visited : ∀ state ∈ once.visited, state.destination = files.destination ∧
    ∃ bytes, state.part = some bytes ∧ bytes <+: content
  complete : once.outcome = .ok () → (once.last files).part = some content

theorem last_mem (course : Course) (files : Files) :
    course.last files = files ∨ course.last files ∈ course.visited := by
  rw [Course.last, List.getLastD_eq_getLast?]
  cases h : course.visited.getLast? with
  | none => exact .inl rfl
  | some state => exact .inr (List.mem_of_getLast? h)

theorem prefix_append_drop {part bytes : Bytes} (hpart : part <+: content)
    (h : bytes <+: content.drop part.length) : part ++ bytes <+: content := by
  obtain ⟨rest, rfl⟩ := hpart
  rw [List.drop_left] at h
  exact (List.prefix_append_right_inj part).mpr h

/-- What the fetcher makes of an answer that does not ask for a retry. -/
theorem Answers.mode {offset : ℕ} {r : Response} (h : Answers unicode content offset r)
    (hstatus : isRetryableStatus r.status = false) :
    (offset = 0 ∨ offset < content.length) ∧
        responseMode unicode url offset r =
          .ok (decide (0 < offset), some (content.length - offset)) ∧
        (∀ chunk ∈ r.reads, chunk ≠ []) ∧ r.reads.flatten <+: content.drop offset ∨
      (0 < offset ∧ content.length ≤ offset) ∧ r.status = 416 := by
  have length : ∀ n : ℕ, (∃ t, r.contentLength = some t ∧ unicode.int t = some (n : ℤ)) →
      optionalNonnegativeInt unicode "Content-Length" r.contentLength = .ok (some n) := by
    rintro n ⟨t, ht, hint⟩
    rw [ht, optionalNonnegativeInt]
    simp only [hint, require_pos (Int.natCast_nonneg n)]
    rfl
  cases h with
  | retry h => simp [h] at hstatus
  | whole hok hlength hreads hprefix =>
    refine .inl ⟨.inl rfl, ?_, hreads, hprefix⟩
    simp [responseMode, hok, length _ hlength, isRetryableStatus, require_pos, pure_eq_ok]
  | rest hpos hlt hok hrange hlength hreads hprefix =>
    obtain ⟨t, ht⟩ := hrange
    refine .inl ⟨.inr hlt, ?_, hreads, hprefix⟩
    have hmatch : txt "bytes " ++ decimal offset ++ txt "-" <+:
        txt "bytes " ++ decimal offset ++ txt "-" ++ t := List.prefix_append _ _
    simp [responseMode, hok, ht, hpos, length _ hlength, isRetryableStatus, require_pos, pure_eq_ok]
  | beyond hpos hle h416 => exact .inr ⟨⟨hpos, hle⟩, h416⟩

theorem responseMode_retry {offset : ℕ} {r : Response} (h : isRetryableStatus r.status = true) :
    ∃ e, responseMode unicode url offset r = .error e ∧ e.isRetried = true := by
  refine ⟨.retryable (txt "retryable HTTP status " ++ decimal r.status), ?_, rfl⟩
  rw [responseMode, require_neg (by simp [h])]
  rfl

theorem responseMode_beyond {offset : ℕ} {r : Response} (h : r.status = 416) :
    responseMode unicode url offset r =
      .error (.download (txt "unexpected HTTP status " ++ decimal 416 ++ txt " for " ++ url)) := by
  rw [responseMode, h, require_pos (by decide), ok_bind, require_neg (by decide)]
  rfl

theorem append_drop {part : Bytes} (h : part <+: content) : part ++ content.drop part.length = content := by
  obtain ⟨rest, rfl⟩ := h
  rw [List.drop_left]

/-- An answer that does not ask for a retry is written behind what is there. -/
theorem downloadOnce_answered {r : Response}
    (hresponse : transport (files.part.getD []).length = some r)
    (h : Answers unicode content (files.part.getD []).length r)
    (hstatus : isRetryableStatus r.status = false)
    (hbelow : (files.part.getD []).length = 0 ∨ (files.part.getD []).length < content.length) :
    downloadOnce unicode url transport files =
      { visited := r.reads.flatten.inits.map fun bytes =>
          { files with part := some (files.part.getD [] ++ bytes) }
        outcome :=
          if r.broken then .error .transport
          else if r.reads.flatten.length = content.length - (files.part.getD []).length then .ok ()
          else .error (.retryable (txt "incomplete response: expected " ++
            decimal (content.length - (files.part.getD []).length) ++ txt " bytes, received " ++
            decimal r.reads.flatten.length)) } := by
  rcases @Answers.mode _ url _ _ _ h hstatus with ⟨-, hmode, hreads, -⟩ | ⟨⟨hpos, hle⟩, -⟩
  · have hkept : (if decide (0 < (files.part.getD []).length) = true then files.part.getD [] else []) =
        files.part.getD [] := by
      rcases Nat.eq_zero_or_pos (files.part.getD []).length with h0 | hpos
      · rw [List.length_eq_zero_iff.mp h0]
        rfl
      · rw [if_pos (by simpa using hpos)]
    rw [downloadOnce, hresponse]
    simp only [hmode, hkept, receive_eq hreads]
    simp
  · omega

theorem downloadOnce_error {r : Response} {e : FetchError}
    (hresponse : transport (files.part.getD []).length = some r)
    (h : responseMode unicode url (files.part.getD []).length r = .error e) :
    downloadOnce unicode url transport files = ⟨[], .error e⟩ := by
  rw [downloadOnce, hresponse]
  simp only [h]

/-- After all bytes are written, the partial file ends with them. -/
theorem last_written {kept bytes : Bytes} {outcome : Except FetchError Unit} :
    (Course.last ⟨bytes.inits.map fun b => { files with part := some (kept ++ b) }, outcome⟩
      files).part = some (kept ++ bytes) := by
  have hlast : bytes.inits.getLast? = some bytes := by
    rw [List.getLast?_eq_getElem?, List.length_inits, Nat.add_sub_cancel,
      List.getElem?_eq_getElem (by simp), List.getElem_inits, List.take_length]
  rw [Course.last, List.getLastD_eq_getLast?, List.getLast?_map, hlast]
  rfl

theorem downloadOnce_advances
    (hserved : ∀ offset, ∀ r ∈ transport offset, Answers unicode content offset r)
    (h : Intact content files) :
    Advances content files (downloadOnce unicode url transport files) := by
  have failed : ∀ e, Advances content files ⟨[], .error e⟩ := fun e => ⟨by simp, by simp⟩
  cases hresponse : transport (files.part.getD []).length with
  | none =>
    rw [downloadOnce, hresponse]
    exact failed _
  | some r =>
    have hanswer := hserved _ r hresponse
    cases hstatus : isRetryableStatus r.status with
    | true =>
      obtain ⟨e, hmode, -⟩ := @responseMode_retry unicode url (files.part.getD []).length r hstatus
      rw [downloadOnce_error hresponse hmode]
      exact failed e
    | false =>
      rcases @Answers.mode _ url _ _ _ hanswer hstatus with
        ⟨hbelow, -, -, hprefix⟩ | ⟨-, h416⟩
      · rw [downloadOnce_answered hresponse hanswer hstatus hbelow]
        have hpart : files.part.getD [] <+: content := by
          cases hp : files.part with
          | none => exact List.nil_prefix
          | some bytes => exact h.part bytes hp
        have hfull := prefix_append_drop hpart hprefix
        refine ⟨?_, fun hok => ?_⟩
        · rintro state hstate
          obtain ⟨bytes, hbytes, rfl⟩ := List.mem_map.mp hstate
          exact ⟨rfl, _, rfl, ((List.prefix_append_right_inj _).mpr
            ((List.mem_inits _ _).mp hbytes)).trans hfull⟩
        · rw [last_written, ← append_drop hpart]
          congr 2
          refine hprefix.eq_of_length ?_
          rw [List.length_drop]
          dsimp only at hok
          split_ifs at hok with hbroken hlength
          exact hlength
      · rw [downloadOnce_error hresponse (responseMode_beyond h416)]
        exact failed _

section Attempts

variable {attempt left : ℕ}

theorem attemptsFrom_ok (h : (downloadOnce unicode url (script attempt) files).outcome = .ok ()) :
    attemptsFrom unicode url retries script attempt (left + 1) files =
      ⟨(downloadOnce unicode url (script attempt) files).visited ++
        [⟨((downloadOnce unicode url (script attempt) files).last files).part, none⟩], .ok ()⟩ := by
  rw [attemptsFrom]
  simp only [h]

theorem attemptsFrom_error {e : FetchError}
    (h : (downloadOnce unicode url (script attempt) files).outcome = .error e) :
    attemptsFrom unicode url retries script attempt (left + 1) files =
      if e.isRetried then
        let later := attemptsFrom unicode url retries script (attempt + 1) left
          ((downloadOnce unicode url (script attempt) files).last files)
        ⟨(downloadOnce unicode url (script attempt) files).visited ++ later.visited, later.outcome⟩
      else ⟨(downloadOnce unicode url (script attempt) files).visited, .error e⟩ := by
  rw [attemptsFrom]
  simp only [h]

end Attempts

/-- The attempts of a call keep the disk intact, and end with the content when they succeed. -/
theorem attemptsFrom_intact {attempt left : ℕ} (hserved : Served unicode content script)
    (h : Intact content files) (hnone : files.destination = none) :
    let course := attemptsFrom unicode url retries script attempt left files
    (∀ state ∈ course.visited, Intact content state) ∧
      (course.outcome = .ok () → (course.last files).destination = some content) := by
  induction left generalizing attempt files with
  | zero => exact ⟨by simp [attemptsFrom], by simp [attemptsFrom]⟩
  | succ left ih =>
    have once := @downloadOnce_advances unicode url _ _ files (hserved attempt) h
    have visited : ∀ state ∈ (downloadOnce unicode url (script attempt) files).visited,
        Intact content state ∧ state.destination = none := by
      intro state hstate
      obtain ⟨hdestination, bytes, hpart, hprefix⟩ := once.visited state hstate
      rw [hnone] at hdestination
      exact ⟨⟨by simp [hdestination], by simpa [hpart] using hprefix⟩, hdestination⟩
    have reached : Intact content ((downloadOnce unicode url (script attempt) files).last files) ∧
        ((downloadOnce unicode url (script attempt) files).last files).destination = none := by
      rcases last_mem (downloadOnce unicode url (script attempt) files) files with heq | hmem
      · rw [heq]
        exact ⟨h, hnone⟩
      · exact visited _ hmem
    cases houtcome : (downloadOnce unicode url (script attempt) files).outcome with
    | ok =>
      have hcomplete := once.complete houtcome
      rw [attemptsFrom_ok houtcome]
      refine ⟨fun state hstate => ?_, fun _ => ?_⟩
      · rcases List.mem_append.mp hstate with hstate | hstate
        · exact (visited state hstate).1
        · obtain rfl := List.mem_singleton.mp hstate
          exact ⟨by simp [hcomplete], by simp⟩
      · rw [Course.last, List.getLastD_eq_getLast?, List.getLast?_concat, Option.getD_some]
        exact hcomplete
    | error e =>
      rw [attemptsFrom_error houtcome]
      cases hretried : e.isRetried with
      | false =>
        exact ⟨fun state hstate => (visited state hstate).1, by simp⟩
      | true =>
        obtain ⟨later, hlater⟩ := @ih _ (attempt + 1) reached.1 reached.2
        refine ⟨fun state hstate => ?_, fun hok => ?_⟩
        · rcases List.mem_append.mp hstate with hstate | hstate
          · exact (visited state hstate).1
          · exact later state hstate
        · have := hlater hok
          simpa [Course.last, List.getLastD_eq_getLast?, List.getLast?_append] using this

theorem download_intact (hserved : Served unicode content script) (h : Intact content files) :
    let course := download unicode url retries urlsplit script files
    (∀ state ∈ course.visited, Intact content state) ∧
      (course.outcome = .ok () → (course.last files).destination = some content) := by
  simp only [download]
  split
  · split
    · next hsome =>
      obtain ⟨bytes, hbytes⟩ := Option.isSome_iff_exists.mp hsome
      refine ⟨by simp, fun _ => ?_⟩
      rw [Course.last, List.getLastD_nil, hbytes, h.destination bytes hbytes]
    · next hsome => exact attemptsFrom_intact hserved h (by simpa using hsome)
  · exact ⟨by simp, by simp⟩

theorem Reached.intact (h : Reached unicode url retries urlsplit content files) :
    Intact content files := by
  induction h with
  | start => exact ⟨by simp, by simp⟩
  | call _ hserved hstate ih =>
    rcases List.mem_cons.mp hstate with rfl | hstate
    · exact ih
    · exact (download_intact hserved ih).1 _ hstate

/-! ## Calls that are not interrupted -/

/-- An attempt that is answered without interruption succeeds on a partial file that is not the whole
of the content. -/
theorem downloadOnce_ok (hserved : Uninterrupted unicode content script) {attempt : ℕ}
    (hbelow : (files.part.getD []).length = 0 ∨ (files.part.getD []).length < content.length) :
    (downloadOnce unicode url (script attempt) files).outcome = .ok () := by
  obtain ⟨r, hr, hstatus, hbroken, hreads⟩ := hserved.answered attempt (files.part.getD []).length
  rw [downloadOnce_answered hr (hserved.served attempt _ r hr) hstatus hbelow, hbroken,
    hreads (by omega), List.length_drop]
  simp

/-- **Resumption.** Whatever history a call begins after, if it returns, then with the content at the
destination. If its requests are answered without interruption it does return, except after a history
that broke off between the last byte of a content that is not empty and the renaming of the partial
file: there the request for what follows the last byte is refused, in this call and in every later
one. -/
theorem download_resumes_iff (hurl : bulkUrlAccepted (urlsplit url) = true)
    (h : Reached unicode url retries urlsplit content files) :
    (∀ script, Served unicode content script →
      (download unicode url retries urlsplit script files).outcome = .ok () →
      ((download unicode url retries urlsplit script files).last files).destination = some content) ∧
    ∀ script, Uninterrupted unicode content script →
      ((download unicode url retries urlsplit script files).outcome = .ok () ↔
        ¬ (files.destination = none ∧ files.part = some content ∧ content ≠ [])) := by
  have hintact := h.intact
  refine ⟨fun script hserved => (download_intact hserved hintact).2, fun script hserved => ?_⟩
  rw [download, if_pos hurl]
  cases hdestination : files.destination with
  | some bytes => simp
  | none =>
    simp only [Option.isSome_none, Bool.false_eq_true, if_false, true_and]
    by_cases hfull : files.part = some content ∧ content ≠ []
    · obtain ⟨hpart, hne⟩ := hfull
      obtain ⟨r, hr, hstatus, -⟩ := hserved.answered 0 (files.part.getD []).length
      have hlength : (files.part.getD []).length = content.length := by rw [hpart, Option.getD_some]
      have hpos := List.length_pos_iff.mpr hne
      rcases @Answers.mode _ url _ _ _ (hserved.served 0 _ r hr) hstatus with ⟨h, -⟩ | ⟨-, h416⟩
      · omega
      · have hrefused := @downloadOnce_error unicode url _ _ _ _ hr (responseMode_beyond h416)
        rw [attemptsFrom_error (congrArg Course.outcome hrefused)]
        simp [FetchError.isRetried, hpart, hne]
    · have hbelow : (files.part.getD []).length = 0 ∨
          (files.part.getD []).length < content.length := by
        cases hpart : files.part with
        | none => exact .inl rfl
        | some bytes =>
          have hprefix := hintact.part bytes hpart
          rw [hpart, Option.some.injEq] at hfull
          by_contra hge
          have heq : bytes = content := hprefix.eq_of_length_le (by simpa using (not_or.mp hge).2)
          exact hfull ⟨heq, fun hnil => hge (.inl (by simp [heq, hnil]))⟩
      rw [attemptsFrom_ok (downloadOnce_ok hserved hbelow)]
      simpa using hfull

end Course

/-! ## A process killed before the renaming -/

namespace Sample

/-- The readers of numbers, on texts of decimal digits. -/
def unicode : Unicode where
  int t := if t ≠ [] ∧ t.all isDigit = true then some (ofDecimal t) else none
  headerToken := id
  repr := id

def url : Text := txt "https://data.binance.vision/data/archive.zip"

def urlsplit (_ : Text) : SplitResult :=
  ⟨txt "https", some BINANCE_BULK_HOST, some none, none, none, [], [], txt "/data/archive.zip"⟩

/-- A server that answers every request in full. -/
def serve (content : Bytes) (offset : ℕ) : Response :=
  if 0 < offset ∧ content.length ≤ offset then ⟨416, none, none, [], false⟩
  else
    { status := if offset = 0 then 200 else 206
      contentRange := some (txt "bytes " ++ decimal offset ++ txt "-")
      contentLength := some (decimal (content.length - offset))
      reads := (content.drop offset).map fun b => [b]
      broken := false }

def serving (content : Bytes) : ℕ → Transport := fun _ offset => some (serve content offset)

theorem int_decimal (n : ℕ) : unicode.int (decimal n) = some (n : ℤ) := by
  simp only [unicode, ne_eq, decimal_ne_nil, not_false_eq_true, List.all_eq_true, true_and,
    ofDecimal_decimal]
  exact if_pos fun _ hc => isDigit_of_mem_decimal hc

theorem serving_uninterrupted (content : Bytes) : Uninterrupted unicode content (serving content) := by
  have reads : ∀ bytes : Bytes, (bytes.map fun b => [b]).flatten = bytes := fun bytes => by
    induction bytes with
    | nil => rfl
    | cons b bytes ih => simp [ih]
  refine ⟨fun _ offset r hr => ?_, fun _ offset => ⟨_, rfl, ?_⟩⟩
  · obtain rfl := Option.some.inj hr
    unfold serve
    split
    · next h => exact .beyond h.1 h.2 rfl
    · next h =>
      rcases Nat.eq_zero_or_pos offset with rfl | hpos
      · exact .whole rfl ⟨_, rfl, int_decimal _⟩ (by simp) (by simp [reads])
      · refine .rest hpos (by omega) (if_neg hpos.ne') ⟨[], by simp⟩ ⟨_, rfl, int_decimal _⟩ ?_ ?_
        · exact fun chunk hchunk => by
            obtain ⟨b, -, rfl⟩ := List.mem_map.mp hchunk
            simp
        · rw [reads]
  · unfold serve
    split
    · next h =>
      refine ⟨rfl, rfl, fun hle => ?_⟩
      rw [List.drop_of_length_le h.2]
      rfl
    · refine ⟨?_, rfl, fun _ => reads _⟩
      dsimp only
      split <;> rfl

theorem download_resumes_start :
    (download unicode url 0 urlsplit (serving [0x61]) ⟨none, none⟩).outcome = .ok () :=
  ((@download_resumes_iff unicode url 0 urlsplit _ _ (by decide +kernel) .start).2 _
    (serving_uninterrupted [0x61])).mpr (by simp)

/-- The process is killed after the last byte was written, and no call gets past the partial file
any more. -/
theorem killed_before_rename : ∃ files script, Reached unicode url 0 urlsplit [0x61] files ∧
    Uninterrupted unicode [0x61] script ∧ (download unicode url 0 urlsplit script files).outcome =
      .error (.download (txt "unexpected HTTP status 416 for " ++ url)) :=
  ⟨⟨none, some [0x61]⟩, serving [0x61],
    .call .start (serving_uninterrupted [0x61]).served (by decide +kernel),
    serving_uninterrupted [0x61], by decide +kernel⟩

end Sample

end WagmiBench.Data
