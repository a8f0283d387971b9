import WagmiBench.Recorder.CrashPrefix

/-!
# Sealed bundles

`finalize` puts the heads of both builders into the seal. Under these heads the reader of sealed
bundles accepts what the writer has written, all of it, and no other records.
-/

namespace WagmiBench.Recorder

open WagmiBench.Lib WagmiBench.Core WagmiBench.Spec

/-- `ChainBuilder.stream_head` -/
def streamHead (builder : ChainBuilder) : SealedHead where
  genesis := some (.str builder.genesis)
  head := some (.str builder.head)
  count := some (.int builder.count)

/-- The heads that `finalize` seals. -/
def BundleWriter.heads (s : BundleWriter) : StreamName → SealedHead
  | .events => streamHead s.eventChain
  | .decisions => streamHead s.decisionChain

/-- The records of both streams of a bundle that is accepted under sealed heads. -/
def verified (V : Verifier) (disk : Disk Path) (heads : StreamName → SealedHead) : Option Done :=
  match V.readStreams disk (some heads) with
  | .ok read => some (read.events.records, read.decisionRecords)
  | .error _ => none

section Streams

variable {V : Verifier} {stream : StreamName} {records records' : List Bytes}
  {links links' : List ChainLink} {builder : ChainBuilder} {head : SealedHead}

/-- A chain is accepted under the head of its builder. -/
theorem verifyStream_of_builder (h : Chained V stream records links builder) :
    verifyStream V.sha stream (V.genesis stream) records links (some (streamHead builder)) =
      .ok () := by
  obtain ⟨hgenesis, hashes, hhashes, hentries, rfl⟩ := build_eq_ok.mp h
  have hchain : verifyChain V.sha stream (V.genesis stream) records links
      (some (HashChain.head (V.genesis stream) hashes)) (some records.length) =
      .ok (HashChain.head (V.genesis stream) hashes) :=
    verifyChain_eq_ok.mpr ⟨hgenesis, by simp, hashes, hhashes, hentries, rfl, by
      simpa using head_isHash hgenesis hhashes⟩
  simp only [verifyStream, streamHead, ne_eq, not_true_eq_false, if_false, checkChain, hchain]

/-- What is accepted under a head: a chain with that head and that many records. -/
theorem verifyStream_sealed
    (h : verifyStream V.sha stream (V.genesis stream) records links (some head) = .ok ()) :
    ∃ hashes, HashChain.links (linkOf V.sha stream) 0 (V.genesis stream) records = .ok hashes ∧
      head.head = some (.str (HashChain.head (V.genesis stream) hashes)) ∧
      head.count = some (.int records.length) := by
  unfold verifyStream at h
  dsimp only at h
  by_cases hgenesis : head.genesis = some (.str (V.genesis stream))
  · rw [if_neg (not_not.mpr hgenesis)] at h
    split at h
    · rename_i expectedHead expectedCount hhead hcount
      unfold checkChain at h
      split at h
      · rename_i d hverified
        obtain ⟨-, hnumber, hashes, hhashes, -, rfl, hbound⟩ := verifyChain_eq_ok.mp hverified
        refine ⟨hashes, hhashes, ?_, ?_⟩
        · rw [hhead, (hbound _ rfl).2]
        · rw [hcount, hnumber _ rfl]
      · simp at h
      · cases h
      · cases h
    · simp at h
  · simp [hgenesis] at h

/-- Two chains under one head. -/
theorem records_of_head
    (h : verifyStream V.sha stream (V.genesis stream) records links (some head) = .ok ())
    (h' : verifyStream V.sha stream (V.genesis stream) records' links' (some head) = .ok ())
    (free : V.sha.CollisionFree (V.hashed stream records ++ V.hashed stream records')) :
    records = records' := by
  obtain ⟨hashes, hhashes, hhead, hcount⟩ := verifyStream_sealed h
  obtain ⟨hashes', hhashes', hhead', hcount'⟩ := verifyStream_sealed h'
  have hlength : records.length = records'.length := by
    rw [hcount] at hcount'
    simpa using hcount'
  rw [hhead] at hhead'
  exact (chain_determined hhashes hhashes' hlength (by simpa using hhead') free).2.1

end Streams

section Bundles

variable {V : Verifier} {disk : Disk Path} {heads : StreamName → SealedHead} {done : Done}

/-- Both streams of a bundle that was accepted under its heads. -/
theorem verifyStream_of_verified (h : verified V disk heads = some done) :
    (∃ links, verifyStream V.sha .events (V.genesis .events) done.1 links (some (heads .events)) =
      .ok ()) ∧
    ∃ links, verifyStream V.sha .decisions (V.genesis .decisions) done.2 links
      (some (heads .decisions)) = .ok () := by
  unfold verified at h
  split at h
  · rename_i read hread
    obtain rfl := Option.some.inj h
    unfold Verifier.readStreams at hread
    obtain ⟨events, hevents, hread⟩ := bind_ok_iff.mp hread
    obtain ⟨_, hseq, hread⟩ := bind_ok_iff.mp hread
    obtain ⟨decisions, hdecisions, hread⟩ := bind_ok_iff.mp hread
    obtain ⟨chain, hchain, hread⟩ := bind_ok_iff.mp hread
    obtain ⟨links, hlinks, hread⟩ := bind_ok_iff.mp hread
    obtain ⟨_, hverified, hread⟩ := bind_ok_iff.mp hread
    obtain ⟨_, hverified', hread⟩ := bind_ok_iff.mp hread
    obtain rfl := Except.ok.inj hread
    exact ⟨⟨_, hverified⟩, _, hverified'⟩
  · cases h

/-- **Seals bind the records.** Two bundles that are accepted under the same sealed heads hold the
same events and decisions, whatever else is in them, unless two of the byte strings hashed share a
digest. -/
theorem sealed_determined (V : Verifier) (disk disk' : Disk Path) (heads : StreamName → SealedHead)
    (done done' : Done) (h : verified V disk heads = some done)
    (h' : verified V disk' heads = some done')
    (freeEvents : V.sha.CollisionFree (V.hashed .events done.1 ++ V.hashed .events done'.1))
    (freeDecisions : V.sha.CollisionFree
      (V.hashed .decisions done.2 ++ V.hashed .decisions done'.2)) : done = done' := by
  obtain ⟨⟨_, hevents⟩, _, hdecisions⟩ := verifyStream_of_verified h
  obtain ⟨⟨_, hevents'⟩, _, hdecisions'⟩ := verifyStream_of_verified h'
  exact Prod.ext (records_of_head hevents hevents' freeEvents)
    (records_of_head hdecisions hdecisions' freeDecisions)

end Bundles

namespace Sample

/-- The event with its link, in two bundles. -/
def bundle : Disk Path := [(EVENTS_JSONL, event ++ [newline]), (CHAIN_JSONL, line ++ [newline])]

def copy : Disk Path :=
  [(CHAIN_JSONL, line ++ [newline]), (⟨.raw, txt "0000-a1.txt"⟩, [0x7B]),
    (EVENTS_JSONL, event ++ [newline])]

def heads : StreamName → SealedHead
  | .events => streamHead
      ⟨.events, Spec.Sample.genesis, HASH_PREFIX ++ hex64 linkDigest, 1⟩
  | .decisions => streamHead ⟨.decisions, Spec.Sample.genesis, Spec.Sample.genesis, 0⟩

end Sample

theorem sample_sealed_determined :
    (([Sample.event], []) : Done) = ([Sample.event], []) :=
  sealed_determined Sample.verifier Sample.bundle Sample.copy Sample.heads ([Sample.event], [])
    ([Sample.event], []) (by decide +kernel) (by decide +kernel)
    (by unfold Sha256.CollisionFree; decide +kernel)
    (by unfold Sha256.CollisionFree; decide +kernel)

/-- A settled bundle is accepted under the heads of its writer. -/
theorem Settled.verified {S : WriterSetting} {s : BundleWriter} {done : Done}
    {links : List ChainLink} {lines : List Bytes} (h : Settled S s done links lines) :
    verified S.toVerifier (S.disk s) s.heads = some done := by
  obtain ⟨read, hread, hreadEvents, hreadDecisions, -⟩ :=
    readStreams_of_holds (some s.heads) h.holds (fun _ => ⟨rfl, rfl, h.visible⟩) h.wellFormed h.lines h.numberedEvents h.numberedDecisions
    h.turns (verifyStream_of_builder h.events) (verifyStream_of_builder h.decisions)
  unfold Recorder.verified
  rw [hread]
  dsimp only
  rw [hreadEvents, hreadDecisions]

end WagmiBench.Recorder
