import Sar.Transport.Isolation
import Sar.Transport.Regular

/-!
# Encryption after a TLS-exporter binding

A SAR stream id that was bound under a Global Header with the mode `TLS_EXPORTER` is entered into
`tls_exporter_bound`, and from then on its entries have to be encrypted. Attached control streams
check the id of the session they belong to. The feed loop checks another id, the one that the
transport stream remembers, and this is not the id of the entry when the stream carries several
SAR streams: once one of the others is closed, the stream remembers none, and plaintext for the
ids that are left goes through.

In runs in which the remembered id is a TLS-bound one whenever a plaintext entry for the id
arrives, no plaintext is accepted and the id stays in the table until it is released.
-/

namespace Sar

open Stateful

namespace InMemoryTransport

/-! ### Only bound ids ask for encryption -/

/-- Every id that asks for encryption is bound, and its Global Header asks for it. -/
def TlsActive (t : InMemoryTransport) : Prop :=
  ∀ k ∈ t.tlsExporterBound, k ∈ t.activeSarStreams ∧
    ∃ header, t.activeGlobalHeaders.lookup k = some header ∧ usesTlsExporter header

end InMemoryTransport

namespace Connection

open InMemoryTransport

variable {backend : Backend} {c c' : Connection} {s : Step} {id : TransportStreamId} {k : UInt16}

/-- A step keeps what is said of the ids that ask for encryption. -/
theorem tlsActive_step (henabled : c.Enabled s) (h : TlsActive c.transport) :
    TlsActive (c.step backend s).transport := by
  obtain ⟨i, -, hstep⟩ := step_stepped backend henabled
  intro k hk
  have hsame : SameBinding k c.transport (c.step backend s).transport →
      k ∈ (c.step backend s).transport.activeSarStreams ∧ ∃ header,
        (c.step backend s).transport.activeGlobalHeaders.lookup k = some header ∧
        usesTlsExporter header := by
    intro hsame
    rw [← AList.lookup_isSome, hsame.active, AList.lookup_isSome, hsame.header]
    exact h k (hsame.tls.mp hk)
  cases hstep.rebinds with
  | kept hkept => exact hsame (hkept k)
  | cleared _ hcleared => exact hsame (hcleared.others k fun heq => hcleared.tls (heq ▸ hk))
  | @bound _ found _ sar _ _ _ _ htables haccept hbound =>
    by_cases hne : k = sar
    · subst hne
      -- an id that is bound anew was not bound, so it did not ask for encryption
      refine ⟨hbound.active, (hbound.tls hk).resolve_left fun hold => ?_⟩
      have hfresh := (activationRefusal_eq_none haccept).2.1
      rw [htables.active] at hfresh
      rw [htables.tls] at hold
      exact AList.lookup_eq_none.mp hfresh (h k hold).1
    · exact hsame ((htables.sameBinding k).trans (hbound.others k hne))

/-- In every reachable connection the ids that ask for encryption are bound, under Global Headers
that ask for it. -/
theorem tlsActive_of_run {policy : PolicyMode} {config : TransportConfig}
    {keyProvider : Option KeyProvider}
    (hreach : Run backend (fun _ _ => True)
      (initial (InMemoryTransport.new policy config keyProvider)) c) : TlsActive c.transport :=
  hreach.invariant (P := fun c => TlsActive c.transport)
    (fun _ _ henabled _ h => tlsActive_step henabled h)
    fun _ hk => absurd hk (Finset.notMem_empty _)

/-! ### No plaintext -/

/-- The step clears no id that is bound to another stream, and when it reads a plaintext entry for
the id on its stream, the stream remembers an id that asks for encryption. -/
def KeepsGuard (backend : Backend) (c : Connection) (id : TransportStreamId) (k : UInt16)
    (s : Step) : Prop :=
  c.ClosesOwn backend s ∧
  ∀ nowMs context reader parser, s = .turn → c.phase = .feeding id nowMs →
    c.transport.streams.lookup id = some context →
    StreamArchiveParser.step backend context.parser = (.ok (.ready (.entry reader)), parser) →
    reader.header.streamId = k → reader.header.entryMode.isEncrypted = false →
    ∃ sar ∈ c.transport.tlsExporterBound, context.boundSarStreamId = some sar

/-- The step is an encrypted `SESSION_CLOSE` for the id on the stream, or it closes or resets the
stream. -/
def ReleasesEncrypted (backend : Backend) (c : Connection) (id : TransportStreamId) (k : UInt16) :
    Step → Prop
  | .start (.close i) | .start (.reset i _) => i = id
  | .start _ => False
  | .turn => ∃ nowMs event found d, c.phase = .feeding id nowMs ∧
    feedEvent backend id nowMs c.call = (.ok event, found) ∧ ClosesId k event ∧
    found.deliveries = c.call.deliveries ++ [d] ∧ d.entry.header.entryMode.isEncrypted

/-- An entry for the id that the feed loop delivers on the stream is encrypted. -/
theorem KeepsGuard.encrypted (h : c.KeepsGuard backend id k .turn) {nowMs : Option UInt64}
    (hphase : c.phase = .feeding id nowMs) {context : TransportStreamContext}
    (hlookup : c.transport.streams.lookup id = some context) {entry : SessionEntry}
    (hdelivers : FeedDelivers backend c.transport context entry)
    (hstream : entry.header.streamId = k) : entry.header.entryMode.isEncrypted := by
  obtain ⟨reader, parser, hstep, rfl⟩ := hdelivers.read
  by_contra hplain
  obtain ⟨sar, htls, hremembers⟩ := h.2 nowMs context reader parser rfl hphase hlookup hstep
    hstream (Bool.eq_false_iff.mpr hplain)
  have hguard := hdelivers.accepts
  rw [FeedAccepts, plaintextAfterBinding, hremembers, Option.any_some, decide_eq_true htls,
    Bool.true_and, Bool.not_eq_false'] at hguard
  exact hplain hguard

/-- A step keeps the need for encryption, or releases the id as it should be released. -/
theorem tls_or_releasesEncrypted (henabled : c.Enabled s) (hguard : c.KeepsGuard backend id k s)
    (hbound : c.transport.activeSarStreams.lookup k = some id) :
    SameBinding k c.transport (c.step backend s).transport ∨
      c.ReleasesEncrypted backend id k s := by
  rcases sameBinding_or_releases henabled hguard.1 hbound with hsame | hreleases
  · exact Or.inl hsame
  · right
    cases s with
    | start request => cases request <;> exact hreleases
    | turn =>
      obtain ⟨nowMs, event, found, hphase, hfind, hcloses⟩ := hreleases
      cases hlookup : c.transport.streams.lookup id with
      | none =>
        rw [feedEvent, bind_apply, context_of_none hlookup] at hfind
        cases (Prod.mk.inj hfind).1
      | some context =>
        -- the close answers an entry for the id
        obtain ⟨event', found', context', hfind', -, -, hobserved⟩ :=
          feedEvent_observed backend hlookup nowMs
        obtain ⟨hevent, rfl⟩ := Prod.mk.inj (hfind.symm.trans hfind')
        obtain rfl := Except.ok.inj hevent
        obtain ⟨seq, uuid, actions, heq⟩ := hcloses
        obtain ⟨entry, hdelivers, hdelivered, -, hresult⟩ := hobserved.exists_delivered heq
        obtain ⟨-, hstream, -⟩ := SessionManager.processEntry_eq_closed hresult.symm
        exact ⟨nowMs, event, found, _, hphase, hfind, ⟨seq, uuid, actions, heq⟩,
          hdelivered.deliveries_eq, hguard.encrypted hphase hlookup hdelivers hstream.symm⟩

/-- **No plaintext after a TLS-exporter binding.** Once an id asks for encryption, it has a primary
stream. Take any run whose steps keep the guard and do not release the id: it still asks for
encryption then, a step takes it out of the table only by releasing it, and whatever a step hands
to the manager of the primary stream or of an attached control stream for this id is encrypted. -/
theorem encrypted_of_run {policy : PolicyMode} {config : TransportConfig}
    {keyProvider : Option KeyProvider}
    (hreach : Run backend (fun _ _ => True)
      (initial (InMemoryTransport.new policy config keyProvider)) c)
    (htls : k ∈ c.transport.tlsExporterBound) :
    ∃ id, c.transport.activeSarStreams.lookup k = some id ∧
      ∀ c', Run backend (fun c s => c.KeepsGuard backend id k s ∧
          ¬ c.ReleasesEncrypted backend id k s) c c' →
        k ∈ c'.transport.tlsExporterBound ∧
        ∀ s, c'.Enabled s → c'.KeepsGuard backend id k s →
          (k ∈ (c'.step backend s).transport.tlsExporterBound ∨
            c'.ReleasesEncrypted backend id k s) ∧
          ∀ d, (c'.step backend s).deliveries = c'.deliveries ++ [d] →
            d.entry.header.streamId = k →
            d.transportStreamId = id ∨
              c'.transport.controlStreamAttachments.lookup d.transportStreamId = some k →
            d.entry.header.entryMode.isEncrypted := by
  have hregular := hreach.invariant (P := Regular) (fun d s henabled _ h => h.step d s henabled)
    (regular_initial policy config keyProvider)
  obtain ⟨id, hbound⟩ := Table.mem_iff_exists_lookup.mp (tlsActive_of_run hreach k htls).1
  refine ⟨id, hbound, fun c' hrun => ?_⟩
  obtain ⟨hregular', hbound', htls'⟩ := hrun.invariant
    (P := fun c => c.Regular ∧ c.transport.activeSarStreams.lookup k = some id ∧
      k ∈ c.transport.tlsExporterBound)
    (fun d s henabled hok h => by
      have hsame := (tls_or_releasesEncrypted henabled hok.1 h.2.1).resolve_right hok.2
      exact ⟨h.1.step d s henabled, hsame.active.trans h.2.1, hsame.tls.mpr h.2.2⟩)
    ⟨hregular, hbound, htls⟩
  refine ⟨htls', fun s henabled hguard => ⟨?_, fun d hnew hstream hplace => ?_⟩⟩
  · exact (tls_or_releasesEncrypted henabled hguard hbound').imp_left fun hsame =>
      hsame.tls.mpr htls'
  cases delivers_of_step hnew with
  | fed hphase hlookup _ hdelivers _ =>
    -- the stream that the feed loop works on is not a control stream
    rcases hplace with rfl | hattached
    · exact hguard.encrypted hphase hlookup hdelivers hstream
    · exact nomatch (hregular'.feeding _ _ hphase).symm.trans hattached
  | controlled _ _ _ haccepts =>
    refine haccepts.encrypted ?_
    rwa [hstream]

/-! ### Example traffic -/

/-- The Global Header of an archive without index, with the mode `TLS_EXPORTER`. -/
def exampleTlsHeader : Bytes :=
  [0x53, 0x41, 0x52, 0x21, 1, 0, 4, 0, 2, 4, 0, 0, 4, 11, 0, 0, 0, 1, 0x61, 1, 1, 0, 0, 0, 32, 0, 0,
    0]

/-- A session-control entry of such an archive. The payload is followed by the tag when the mode
has the bit for encryption. -/
def exampleTlsEntry (mode opCode streamId sequenceNo : UInt8) (payload tag : Bytes) : Bytes :=
  let size := UInt8.ofNat payload.length
  let stored := UInt8.ofNat (payload ++ tag).length
  [46, 0, 0, 0, mode, 0x20 + opCode, streamId, 0, sequenceNo, 0, size, 0, 0, 0,
    stored, 0, 0, 0, 1] ++
    List.replicate 24 0 ++ [1, 0, 0x61] ++ payload ++ tag

/-- A plaintext `SESSION_INIT` for the first id, and an encrypted one for the second. -/
def exampleTlsInits : Bytes :=
  exampleTlsHeader ++ exampleTlsEntry 0 0 1 0 (List.replicate 18 0) [] ++
    exampleTlsEntry 4 0 2 0 (List.replicate 18 0) (List.replicate 16 0)

/-- A provider with one key. -/
def exampleKeyProvider : KeyProvider where
  passwordFor := fun _ => .ok none
  unwrapKey := fun _ _ => .ok none
  externalKey := fun _ => .ok (some (List.replicate 32 0))

/-- Two ids are bound, and the second is closed. -/
def exampleTlsClose : List Step :=
  [.start (.openStream 1),
    .start (.feed 1 (exampleTlsInits ++ exampleTlsEntry 4 1 2 1 [] (List.replicate 16 0) ++
      exampleTlsEntry 0 3 1 1 [] []) none), .turn, .turn, .turn, .turn]

/-- An id is bound, and an encrypted entry for it follows. -/
def exampleTls : List Step :=
  [.start (.openStream 1), .start (.feed 1 (exampleTlsHeader ++
    exampleTlsEntry 0 0 1 0 (List.replicate 18 0) [] ++
    exampleTlsEntry 4 3 1 1 [] (List.replicate 16 0)) none), .turn, .turn]

/-- The connection before that entry is read. -/
def exampleTlsBound : Connection :=
  (initial (InMemoryTransport.new .quic .default (some exampleKeyProvider))).after .plain exampleTls

/-- While the stream remembers an id that asks for encryption, an encrypted entry goes through. -/
theorem encrypted_exampleTls :
    1 ∈ exampleTlsBound.transport.tlsExporterBound ∧
      ∃ d, (exampleTlsBound.step .plain .turn).deliveries = exampleTlsBound.deliveries ++ [d] ∧
        d.entry.header.streamId = 1 ∧ d.entry.header.entryMode.isEncrypted := by
  have hreach : Run .plain (fun _ _ => True)
      (initial (InMemoryTransport.new .quic .default (some exampleKeyProvider))) exampleTlsBound :=
    run_after exampleTls (by decide +kernel)
  have hmember : decide (1 ∈ exampleTlsBound.transport.tlsExporterBound) = true := by
    decide +kernel
  have hentries : exampleTlsBound.transport.activeSarStreams.entries = [⟨1, 1⟩] := by
    decide +kernel
  have hphase : exampleTlsBound.phase = .feeding 1 none := by decide +kernel
  have henabled : exampleTlsBound.Enabled .turn := by decide +kernel
  have hremembers : (exampleTlsBound.transport.streams.lookup 1).map (·.boundSarStreamId) =
      some (some 1) := by decide +kernel
  obtain ⟨d, hnew, hfacts⟩ := @exists_delivery .plain exampleTlsBound .turn
    (fun d => d.transportStreamId == 1 && d.entry.header.streamId == 1) (by decide +kernel)
    (by decide +kernel)
  simp only [Bool.and_eq_true, beq_iff_eq] at hfacts
  -- the rest follows from these facts
  generalize exampleTlsBound = c at *
  have htls := of_decide_eq_true hmember
  have honly : ∀ sar other, c.transport.activeSarStreams.lookup sar = some other →
      sar = 1 ∧ other = 1 := by
    intro sar other hbound
    have hmem := AList.mem_lookup_iff.mp (Option.mem_def.mpr hbound)
    rw [hentries, List.mem_singleton] at hmem
    cases hmem
    exact ⟨rfl, rfl⟩
  have hguard : c.KeepsGuard .plain 1 1 .turn := by
    refine ⟨fun i nowMs event found sar other hfeeding _ _ hother => ?_, ?_⟩
    · obtain ⟨rfl, -⟩ := Phase.feeding.inj (hphase.symm.trans hfeeding)
      exact (honly sar other hother).2
    · intro nowMs context reader parser _ _ hlookup _ _ _
      rw [hlookup] at hremembers
      exact ⟨1, htls, Option.some.inj hremembers⟩
  obtain ⟨id, hbound, hafter⟩ := encrypted_of_run hreach htls
  obtain rfl := (honly 1 id hbound).2
  obtain ⟨-, hstep⟩ := hafter c Relation.ReflTransGen.refl
  exact ⟨htls, d, hnew, hfacts.2,
    (hstep .turn henabled hguard).2 d hnew hfacts.2 (Or.inl hfacts.1)⟩

/-- After the close of the second id, plaintext for the first one is accepted on its stream. -/
theorem not_encrypted_after_close :
    ∃ c, Run .plain (fun _ _ => True)
        (initial (InMemoryTransport.new .quic .default (some exampleKeyProvider))) c ∧
      1 ∈ c.transport.tlsExporterBound ∧ c.transport.activeSarStreams.lookup 1 = some 1 ∧
      ∃ d, (c.step .plain .turn).deliveries = c.deliveries ++ [d] ∧ d.transportStreamId = 1 ∧
        d.entry.header.streamId = 1 ∧ d.entry.header.entryMode.isEncrypted = false ∧
        d.result.toBool = true := by
  let c := (initial (InMemoryTransport.new .quic .default (some exampleKeyProvider))).after .plain
    exampleTlsClose
  obtain ⟨d, hnew, hfacts⟩ := @exists_delivery .plain c .turn
    (fun d => d.transportStreamId == 1 && d.entry.header.streamId == 1 &&
      !d.entry.header.entryMode.isEncrypted && d.result.toBool) (by decide +kernel)
    (by decide +kernel)
  simp only [Bool.and_eq_true, beq_iff_eq, Bool.not_eq_true'] at hfacts
  obtain ⟨⟨⟨hplace, hstream⟩, hplain⟩, hok⟩ := hfacts
  exact ⟨c, run_after _ (by decide +kernel), by decide +kernel, by decide +kernel, d, hnew, hplace,
    hstream, hplain, hok⟩

end Connection

end Sar
