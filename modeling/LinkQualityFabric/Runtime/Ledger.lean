import LinkQualityFabric.Runtime.LiveReplay

/-! The registries and the journal, record for record.

Each call probes the queue once and appends one or two records. The law below holds for a call that the
journal lets keep its word: the record of a declaration or a policy is taken, and evidence is taken behind
the record of its link exactly when the store accepts it. -/
namespace Lqf.Fabric
open Foundations
set_option autoImplicit false

open BackgroundJournal

/-! ## What a call enqueues -/

theorem enqueues_maybeCompact (fabric : Fabric) (io : CompactIo) : Enqueues [] fabric (fabric.maybeCompact io) := by
  have hordinal : (fabric.maybeCompact io).nextOrdinal = fabric.nextOrdinal := by
    unfold maybeCompact
    split
    · rfl
    · split
      · unfold compactJournal
        split
        · rfl
        · split <;> rfl
      · rfl
  refine ⟨by rw [(fabric.maybeCompact_journaled io).1, List.append_nil], hordinal.trans (UInt64.add_zero _).symm, ?_⟩
  exact fun h => h.of_only (maybeCompact_only _ _)

/-! ## The law -/

def Describes (fabric : Fabric) : FabricCall × CallIo → List JournalRecord → Prop
  | (.declareCapability declaration, _), records =>
    ∃ body, Codec.capabilityDeclaration.encodeBody fabric.codecLimits declaration = .ok body ∧
      records = [⟨.capability, fabric.nextOrdinal, body⟩]
  | (.registerLink link observedAt, io), records =>
    ∃ body, Codec.linkObservedBody.encodeBody fabric.codecLimits ⟨link, observedAt, fabric.receiveStamp io.now⟩ =
      .ok body ∧ records = [⟨.linkObserved, fabric.nextOrdinal, body⟩]
  | (.advanceLinkGeneration link reason, io), records =>
    ∃ body, Codec.generationBody.encodeBody fabric.codecLimits
        ⟨link.id, link.generation, ⟨io.now.wallNanos, true⟩, fabric.receiveStamp io.now, reason⟩ = .ok body ∧
      records = [⟨.linkGenerationAdvanced, fabric.nextOrdinal, body⟩]
  | (.publishPolicy document, io), records =>
    ∃ body, Codec.policyGenerationRecord.encodeBody fabric.codecLimits (generationRecord document
        ⟨io.now.wallNanos, true⟩ (fabric.policies.current.stamp.generation + 1)) = .ok body ∧
      records = [⟨.policy, fabric.nextOrdinal, body⟩]
  | (.ingest observation, io), records =>
    ∃ linked evidence, records = linked ++ [evidence] ∧ fabric.LinkPart io observation linked ∧
      evidence.kind = .evidence ∧ evidence.ordinal = fabric.nextOrdinal + UInt64.ofNat linked.length ∧
      Codec.evidenceRecord.encodeBody fabric.codecLimits
        ⟨observation, fabric.receiveStamp io.now, evidence.ordinal, .live⟩ = .ok evidence.body

/-- The call has succeeded and does not say that it is not durable. -/
def Succeeds (answer : Outcome FabricReply) : Prop :=
  ∃ reply, answer = .ok reply ∧ ∀ outcome, reply = .ingested outcome → outcome.reason ≠ .persistenceDegraded

/-- A call that succeeds and changes the state has enqueued what describes the change. -/
def StepAgrees (fabric : Fabric) (event : FabricCall × CallIo) : Prop :=
  Succeeds (fabric.respond event).1 → ¬ SameView fabric.toFabricState (fabric.respond event).2.toFabricState →
    ∃ records, (fabric.respond event).2.journaled = fabric.journaled ++ records ∧ fabric.Describes event records

/-- The observation the store has accepted in a call, as the store keeps it. -/
def acceptedBy : Outcome FabricReply × Fabric → Option EvidenceRecord
  | (.ok (.ingested outcome), after) => if outcome.accepted then after.evidence.history.getLast? else none
  | _ => none

/-- The observations the store has accepted in a run, in order. -/
def acceptedIn : Fabric → List (FabricCall × CallIo) → List EvidenceRecord
  | _, [] => []
  | fabric, event :: rest => (acceptedBy (fabric.respond event)).toList ++ acceptedIn (fabric.respond event).2 rest

def evidenceOf (records : List JournalRecord) : List JournalRecord := records.filter fun record => record.kind = .evidence

structure Carries (limits : CodecLimits) (stored : EvidenceRecord) (record : JournalRecord) : Prop where
  kind : record.kind = .evidence
  ordinal : record.ordinal = stored.ordinal
  body : Codec.evidenceRecord.encodeBody limits stored = .ok record.body

/-! ## When a call keeps it -/

abbrev Answers (fabric : Fabric) (observation : Observation) (received : ReceiveStamp)
    (outcome : IngestOutcome) : Prop :=
  (fabric.evidence.append observation received fabric.nextOrdinal .live
    (counterConfigFor fabric.policies.current.document observation.metric)).1 = .ok outcome

/-- None of the branches is taken on which a record is missing, or is one too many. -/
def Accounted (fabric : Fabric) : FabricCall × CallIo → Prop
  | (.declareCapability declaration, io) => ∀ capabilities body,
    fabric.capabilities.declare fabric.catalog declaration = .ok capabilities →
      Codec.capabilityDeclaration.encodeBody fabric.codecLimits declaration = .ok body →
      fabric.Takes io.record body.length
  | (.publishPolicy document, io) => ∀ body, fabric.policyChecks.validate document = .ok () →
    Codec.policyGenerationRecord.encodeBody fabric.codecLimits (generationRecord document ⟨io.now.wallNanos, true⟩
      (fabric.policies.current.stamp.generation + 1)) = .ok body → fabric.Takes io.record body.length
  | (.ingest observation, io) => ∀ links outcome, fabric.checkObservation io.now observation = .ok () →
    fabric.links.observe observation.link observation.observedAt (fabric.receiveStamp io.now) = .ok links →
    (fabric.entered io observation links).Answers observation (fabric.receiveStamp io.now) outcome →
    (outcome.accepted = true ↔ (fabric.entered io observation links).Takes io.record (Codec.evidenceRecord.size
      ⟨observation, fabric.receiveStamp io.now, (fabric.entered io observation links).nextOrdinal, .live⟩))
  | _ => True

def OrdinalsLeft (fabric : Fabric) : Prop := fabric.nextOrdinal.toNat + 2 < 2 ^ 64

instance (fabric : Fabric) : Decidable fabric.OrdinalsLeft := inferInstanceAs (Decidable (_ < 2 ^ 64))

/-! ## One call -/

structure Accounts (fabric : Fabric) (event : FabricCall × CallIo) (result : Outcome FabricReply × Fabric)
    (records : List JournalRecord) : Prop where
  enqueues : Enqueues records fabric result.2
  described : Succeeds result.1 → ¬ SameView fabric.toFabricState result.2.toFabricState →
    fabric.Describes event records
  carried : List.Forall₂ (Carries fabric.codecLimits) (acceptedBy result).toList (evidenceOf records)
  few : records.length ≤ 2
  numbered : ∀ record ∈ records, ∃ place < records.length, record.ordinal = fabric.nextOrdinal + UInt64.ofNat place

section Calls
variable {fabric : Fabric}

variable {event : FabricCall × CallIo} {result : Outcome FabricReply × Fabric} {kind : JournalRecordKind}
  {body : Bytes} {observation : Observation} {linked : List JournalRecord} {after : Fabric} {encoded : Bytes}
  {records : List JournalRecord}

theorem accounts_nothing (henqueues : Enqueues [] fabric result.2)
    (hquiet : (∃ status, result.1 = .error status) ∨ result.2.toFabricState = fabric.toFabricState)
    (haccepted : acceptedBy result = none) : Accounts fabric event result [] := by
  refine ⟨henqueues, ?_, by rw [haccepted]; exact .nil, by simp, by simp⟩
  rintro ⟨reply, hreply, -⟩ hchanged
  rcases hquiet with ⟨status, hstatus⟩ | hstate
  · rw [hstatus] at hreply
    cases hreply
  · exact absurd (SameView.of_eq hstate) hchanged

theorem accounts_one (henqueues : Enqueues [⟨kind, fabric.nextOrdinal, body⟩] fabric result.2)
    (hdescribes : fabric.Describes event [⟨kind, fabric.nextOrdinal, body⟩]) (hkind : kind ≠ .evidence)
    (haccepted : acceptedBy result = none) : Accounts fabric event result [⟨kind, fabric.nextOrdinal, body⟩] := by
  refine ⟨henqueues, fun _ _ => hdescribes, ?_, by simp, ?_⟩
  · rw [haccepted]
    simp [evidenceOf, hkind]
  · intro record hrecord
    obtain rfl := List.mem_singleton.mp hrecord
    exact ⟨0, by simp, (UInt64.add_zero _).symm⟩

theorem acceptedBy_respondLocked (fabric : Fabric) (call : FabricCall) (io : CallIo)
    (hcall : ∀ observation, call ≠ .ingest observation) : acceptedBy (fabric.respondLocked (call, io)) = none := by
  have hreply : ∀ {α : Type} (reply : α → FabricReply), (∀ value outcome, reply value ≠ .ingested outcome) →
      ∀ result : Outcome α × Fabric, acceptedBy (replyWith reply result) = none := by
    rintro α reply hnever ⟨answer, after⟩
    cases answer with
    | error status => rfl
    | ok value =>
      show acceptedBy (.ok (reply value), after) = none
      unfold acceptedBy
      split
      · next hvalue => exact absurd (Except.ok.inj (congrArg Prod.fst hvalue)) (hnever value _)
      · rfl
  cases call with
  | declareCapability declaration => exact hreply FabricReply.acknowledged (fun _ _ => nofun) _
  | registerLink link observedAt => exact hreply (fun _ => FabricReply.done) (fun _ _ => nofun) _
  | advanceLinkGeneration link reason => exact hreply (fun _ => FabricReply.done) (fun _ _ => nofun) _
  | publishPolicy document => exact hreply FabricReply.published (fun _ _ => nofun) _
  | ingest observation => exact absurd rfl (hcall observation)

variable {io : CallIo}
variable {call : FabricCall}

theorem Plans.ownKind {outcome : Outcome Bytes} (h : Plans fabric io call after kind outcome) :
    kind ≠ .evidence ∧ kind ≠ .count := by
  cases h <;> decide

theorem Plans.describes (h : Plans fabric io call after kind (.ok body)) :
    fabric.Describes (call, io) [⟨kind, fabric.nextOrdinal, body⟩] := by
  cases h with
  | declare _ hbody => exact ⟨body, hbody, rfl⟩
  | register hplan => exact ⟨body, (planRegistration_eq_ok.mp hplan).1, rfl⟩
  | advance hplan => exact ⟨body, (planAdvance_eq_ok.mp hplan).1, rfl⟩
  | publish hpublish hbody =>
    obtain ⟨-, rfl⟩ := PolicyRegistry.publish_eq_ok.mp hpublish
    exact ⟨body, hbody, rfl⟩

theorem Plans.takes (h : Plans fabric io call after kind (.ok body)) (haccounted : fabric.Accounted (call, io))
    (huntold : kind = .capability ∨ kind = .policy) : after.Takes io.record body.length := by
  cases h with
  | declare hdeclare hbody => exact haccounted _ body hdeclare hbody
  | publish hpublish hbody =>
    obtain ⟨hvalid, rfl⟩ := PolicyRegistry.publish_eq_ok.mp hpublish
    exact haccounted body hvalid hbody
  | _ => simp at huntold

theorem Ends.accounts (h : Ends fabric io call result) (hjournaling : fabric.Journaling)
    (haccounted : fabric.Accounted (call, io)) (hquiet : acceptedBy result = none) :
    ∃ records, Accounts fabric (call, io) result records := by
  cases h with
  | kept stats degraded _ =>
    exact ⟨[], accounts_nothing (SameJournal.enqueues ⟨rfl, rfl, rfl, rfl, rfl⟩) (.inr rfl) hquiet⟩
  | unencoded _ hplan => exact ⟨[], accounts_nothing hplan.sameJournal.enqueues (.inl ⟨_, rfl⟩) hquiet⟩
  | @appended changed kind body answer stats _ hplan _ htold =>
    have hchanged := hplan.sameJournal
    have happends := journalAppend_appends io.record kind body (hchanged.journaling hjournaling) hplan.ownKind.2
    generalize changed.journalAppend io.record kind body = appended at happends htold hquiet ⊢
    cases happends with
    | taken htrail _ =>
      rw [hchanged.ordinal] at htrail
      exact ⟨_, accounts_one (Trail.enqueues (.beside (.after_beside hchanged htrail) ⟨rfl, rfl, rfl, rfl, rfl⟩))
        hplan.describes hplan.ownKind.1 hquiet⟩
    | refused status hmisses htrail _ =>
      have hanswer := (or_assoc.mpr htold).resolve_left fun huntold => hmisses (hplan.takes haccounted huntold)
      exact ⟨[], accounts_nothing (Trail.enqueues (.beside (.after_beside hchanged htrail) ⟨rfl, rfl, rfl, rfl, rfl⟩))
        (.inl ⟨status, hanswer⟩) hquiet⟩

theorem LinkPart.spec (h : fabric.LinkPart io observation linked) : evidenceOf linked = [] ∧ linked.length ≤ 1 ∧
      ∀ record ∈ linked, ∃ place < linked.length, record.ordinal = fabric.nextOrdinal + UInt64.ofNat place := by
  rcases h with ⟨-, rfl⟩ | ⟨-, body, -, rfl⟩
  · exact ⟨rfl, by simp, by simp⟩
  · refine ⟨rfl, by simp, ?_⟩
    intro record hrecord
    obtain rfl := List.mem_singleton.mp hrecord
    exact ⟨0, by simp, (UInt64.add_zero _).symm⟩

theorem offered_accounts {fenced : Bool} {answered : Outcome IngestOutcome × Fabric}
    (hlinked : fabric.LinkPart io observation linked) (htrail : Trail fabric linked after)
    (hhistory : 1 ≤ after.evidence.limits.maxGlobalHistory)
    (htakes : ∀ outcome, after.Answers observation (fabric.receiveStamp io.now) outcome →
      (outcome.accepted = true ↔ after.Takes io.record (Codec.evidenceRecord.size
        ⟨observation, fabric.receiveStamp io.now, after.nextOrdinal, .live⟩)))
    (hsettles : Settles after io observation (fabric.receiveStamp io.now) fenced answered) :
    ∃ records, Accounts fabric (.ingest observation, io) (replyWith .ingested answered) records := by
  obtain ⟨hnone, hfew, hnumbered⟩ := hlinked.spec
  have hlimits : after.codecLimits = fabric.codecLimits := by
    unfold codecLimits
    rw [htrail.config]
  cases hsettles with
  | refused hstored =>
    refine ⟨linked, Trail.enqueues (.beside htrail ⟨rfl, rfl, rfl, rfl, rfl⟩), ?_, ?_, by omega, hnumbered⟩
    · rintro ⟨reply, hreply, -⟩
      cases hreply
    · rw [hnone]
      exact .nil
  | @lost outcome _ lost hstored hmisses hlost _ =>
    have hrefused : outcome.accepted ≠ true := fun haccepted =>
      hmisses ((htakes outcome (congrArg Prod.fst hstored)).mp haccepted)
    have hwhole := htrail.trans hlost
    rw [List.append_nil] at hwhole
    refine ⟨linked, Trail.enqueues (.beside hwhole ⟨rfl, rfl, rfl, rfl, rfl⟩), ?_, ?_, by omega, hnumbered⟩
    · rintro ⟨reply, hreply, hreason⟩
      exact absurd rfl (hreason _ (Except.ok.inj hreply).symm)
    · simp [replyWith, answerDegraded, Except.map, acceptedBy, hrefused, hnone]
  | @taken outcome evidence body stored hstored hbody htaken honly hjournaled =>
    have haccepted := (htakes outcome (congrArg Prod.fst hstored)).mpr htaken
    have hlast := EvidenceStore.append_last (congrArg Prod.fst hstored) haccepted hhistory
    rw [hstored] at hlast
    have hcounted : Trail fabric (linked ++ [⟨.evidence, after.nextOrdinal, body⟩])
        (stored.tally (countOutcome outcome)) := .beside (htrail.trans hjournaled) ⟨rfl, rfl, rfl, rfl, rfl⟩
    refine ⟨linked ++ [⟨.evidence, after.nextOrdinal, body⟩], ?_, ?_, ?_, ?_, ?_⟩
    · have hend := hcounted.enqueues.trans (enqueues_maybeCompact _ io.compaction)
      rwa [List.append_nil] at hend
    · intro _ _
      exact ⟨linked, _, rfl, hlinked, rfl, htrail.enqueues.ordinal, hlimits ▸ hbody⟩
    · have haccepted' : acceptedBy (replyWith .ingested (stored.answerStored io outcome fenced)) =
          some ⟨observation, fabric.receiveStamp io.now, after.nextOrdinal, .live⟩ := by
        have hkept : (stored.answerStored io outcome fenced).2.evidence.history.getLast? =
            some ⟨observation, fabric.receiveStamp io.now, after.nextOrdinal, .live⟩ := by
          show ((stored.tally (countOutcome outcome)).maybeCompact
            io.compaction).toFabricState.evidence.history.getLast? = _
          rw [(maybeCompact_only _ _).state, (stored.tally_only _).state, honly.state]
          exact hlast
        cases fenced <;> simpa [replyWith, answerStored, Except.map, acceptedBy, haccepted] using hkept
      have hevidence : evidenceOf (linked ++ [⟨.evidence, after.nextOrdinal, body⟩]) =
          [⟨.evidence, after.nextOrdinal, body⟩] := by
        unfold evidenceOf at hnone ⊢
        rw [List.filter_append, hnone]
        rfl
      rw [haccepted', hevidence]
      exact .cons ⟨rfl, rfl, hlimits ▸ hbody⟩ .nil
    · rw [List.length_append, List.length_singleton]
      omega
    · intro record hrecord
      rw [List.length_append, List.length_singleton]
      rcases List.mem_append.mp hrecord with hlink | hevidence
      · obtain ⟨place, hplace, hordinal⟩ := hnumbered record hlink
        exact ⟨place, by omega, hordinal⟩
      · obtain rfl := List.mem_singleton.mp hevidence
        exact ⟨linked.length, by omega, htrail.enqueues.ordinal⟩

section
variable (hsound : fabric.Sound) (hjournaling : fabric.Journaling)
  (hhistory : 1 ≤ fabric.evidence.limits.maxGlobalHistory)
include hsound hjournaling hhistory

theorem ingest_accounts (io : CallIo) (observation : Observation) (h : fabric.Accounted (.ingest observation, io)) :
    ∃ records, Accounts fabric (.ingest observation, io)
      (replyWith .ingested (fabric.ingestLocked io observation)) records := by
  have hoffers := ingestLocked_offers io hsound hjournaling observation
  generalize fabric.ingestLocked io observation = result at hoffers ⊢
  cases hoffers with
  | kept status stats =>
    exact ⟨[], accounts_nothing (SameJournal.enqueues ⟨rfl, rfl, rfl, rfl, rfl⟩) (.inl ⟨_, rfl⟩) rfl⟩
  | unlinked status htrail _ =>
    exact ⟨[], accounts_nothing (Trail.enqueues (.beside htrail ⟨rfl, rfl, rfl, rfl, rfl⟩)) (.inl ⟨_, rfl⟩) rfl⟩
  | @linked links linked _ hcheck hobserve hpart htrail _ hsettles =>
    have hlimits : (fabric.observed links).evidence.limits = fabric.evidence.limits :=
      EvidenceStore.dropLinks_limits _ _
    have hevidence : (fabric.entered io observation links).evidence = (fabric.observed links).evidence :=
      congrArg FabricState.evidence (fabric.entered_only io observation links).state
    refine offered_accounts hpart htrail ?_ (fun outcome => h links outcome hcheck hobserve) hsettles
    rw [hevidence, hlimits]
    exact hhistory

theorem respondLocked_accounts (call : FabricCall) (io : CallIo) (h : fabric.Accounted (call, io)) :
    ∃ records, Accounts fabric (call, io) (fabric.respondLocked (call, io)) records := by
  cases call with
  | ingest observation => exact ingest_accounts hsound hjournaling hhistory io observation h
  | _ =>
    exact (respondLocked_ends fabric _ io (by simp)).accounts hjournaling h
      (acceptedBy_respondLocked fabric _ io (by simp))

end

theorem describes_letWriterRun (steps : List WriterStep) (call : FabricCall) (io : CallIo)
    (h : (fabric.letWriterRun steps).Describes (call, io) records) : fabric.Describes (call, io) records := by
  cases call <;> exact h

theorem respond_accounts (hsound : fabric.Sound) (hjournaling : fabric.Journaling)
    (hhistory : 1 ≤ fabric.evidence.limits.maxGlobalHistory) (call : FabricCall) (io : CallIo)
    (h : (fabric.letWriterRun io.writer).Accounted (call, io)) :
    ∃ records, Accounts fabric (call, io) (fabric.respond (call, io)) records := by
  rw [respond_eq]
  split
  · exact ⟨[], accounts_nothing (SameJournal.enqueues ⟨rfl, rfl, rfl, rfl, rfl⟩) (.inl ⟨_, rfl⟩) rfl⟩
  · obtain ⟨records, haccounts⟩ := respondLocked_accounts (hsound.of_only (letWriterRun_only _ _))
      (hjournaling.of_only (letWriterRun_only _ _)) hhistory call io h
    have hwrote : Trail fabric [] (fabric.letWriterRun io.writer) := .writer io.writer .start
    refine ⟨records, hwrote.enqueues.trans haccounts.enqueues, ?_, haccounts.carried,
      haccounts.few, haccounts.numbered⟩
    intro hsucceeds hchanged
    exact describes_letWriterRun io.writer call io (haccounts.described hsucceeds hchanged)

theorem Accounts.ordinals (h : Accounts fabric event result records) (hleft : fabric.OrdinalsLeft) :
    result.2.nextOrdinal.toNat = fabric.nextOrdinal.toNat + records.length ∧
      ∀ stored ∈ (acceptedBy result).toList, fabric.nextOrdinal.toNat ≤ stored.ordinal.toNat ∧
        stored.ordinal.toNat < fabric.nextOrdinal.toNat + records.length := by
  unfold OrdinalsLeft at hleft
  have hfew := h.few
  have hsum : ∀ place ≤ 2, (fabric.nextOrdinal + UInt64.ofNat place).toNat = fabric.nextOrdinal.toNat + place := by
    intro place hplace
    rw [UInt64.toNat_add, UInt64.toNat_ofNat_of_lt' (lt_of_le_of_lt hplace (by decide))]
    omega
  refine ⟨by rw [h.enqueues.ordinal, hsum _ hfew], ?_⟩
  intro stored hstored
  obtain ⟨record, hrecord, hcarries⟩ : ∃ record ∈ evidenceOf records, Carries fabric.codecLimits stored record := by
    have hcarried := h.carried
    generalize (acceptedBy result).toList = all at hstored hcarried
    generalize evidenceOf records = carriers at hcarried
    induction hcarried with
    | nil => cases hstored
    | cons hfirst _ ih =>
      rcases List.mem_cons.mp hstored with rfl | hrest
      · exact ⟨_, List.mem_cons_self, hfirst⟩
      · obtain ⟨record, hrecord, hcarries⟩ := ih hrest
        exact ⟨record, List.mem_cons_of_mem _ hrecord, hcarries⟩
  obtain ⟨place, hplace, hordinal⟩ := h.numbered record (List.mem_of_mem_filter hrecord)
  rw [← hcarries.ordinal, hordinal, hsum place (by omega)]
  omega

end Calls

/-! ## Every run -/

theorem acceptedBy_pairwise (result : Outcome FabricReply × Fabric) (R : EvidenceRecord → EvidenceRecord → Prop) :
    (acceptedBy result).toList.Pairwise R := by
  cases acceptedBy result with
  | none => exact .nil
  | some record => exact List.pairwise_singleton R record

theorem run_accounts {fabric : Fabric} (hreachable : Reachable fabric) (hjournaling : fabric.Journaling)
    (calls : List (FabricCall × CallIo))
    (hmeets : machine.Meets (fun fabric event => (fabric.letWriterRun event.2.writer).Accounted event ∧
      fabric.OrdinalsLeft) fabric calls) : machine.Meets StepAgrees fabric calls ∧ ∃ records,
      (machine.final fabric calls).journaled = fabric.journaled ++ records ∧
        List.Forall₂ (Carries fabric.codecLimits) (fabric.acceptedIn calls) (evidenceOf records) ∧
        (fabric.acceptedIn calls).Pairwise (fun a b => a.ordinal.toNat < b.ordinal.toNat) ∧
        ∀ stored ∈ fabric.acceptedIn calls, fabric.nextOrdinal.toNat ≤ stored.ordinal.toNat := by
  induction calls generalizing fabric with
  | nil => exact ⟨trivial, [], (List.append_nil _).symm, .nil, .nil, by simp [acceptedIn]⟩
  | cons event rest ih =>
    obtain ⟨call, io⟩ := event
    obtain ⟨⟨haccounted, hleft⟩, hrest⟩ := hmeets
    obtain ⟨records, haccounts⟩ :=
      respond_accounts hreachable.sound hjournaling hreachable.globalHistory call io haccounted
    obtain ⟨hnext, hbetween⟩ := haccounts.ordinals hleft
    have hlimits : (fabric.respond (call, io)).2.codecLimits = fabric.codecLimits := by
      unfold codecLimits
      rw [(RunsBy.anyCall fabric call io).config]
    obtain ⟨hagrees, later, hjournaled, hcarried, hordered, hbounds⟩ :=
      ih (hreachable.called call io) (haccounts.enqueues.journaling hjournaling) hrest
    refine ⟨⟨?_, hagrees⟩, records ++ later, ?_, ?_, ?_, ?_⟩
    · exact fun hsucceeds hchanged => ⟨records, haccounts.enqueues.journaled, haccounts.described hsucceeds hchanged⟩
    · show (machine.final (fabric.respond (call, io)).2 rest).journaled = _
      rw [hjournaled, haccounts.enqueues.journaled, List.append_assoc]
    · rw [hlimits] at hcarried
      unfold evidenceOf at hcarried ⊢
      rw [List.filter_append]
      exact List.rel_append haccounts.carried hcarried
    · refine List.pairwise_append.mpr ⟨acceptedBy_pairwise _ _, hordered, ?_⟩
      intro stored hstored other hother
      have hlow := (hbetween stored hstored).2
      have hhigh := hbounds other hother
      omega
    · intro stored hstored
      rcases List.mem_append.mp hstored with hnow | hthen
      · exact (hbetween stored hnow).1
      · have hhigh := hbounds stored hthen
        omega

/-- In every run of an opened fabric whose calls all keep the law's condition, each call that succeeds and
changes the state has enqueued just the records of the change, the evidence records are those of the accepted
observations one for one and under the same ordinals, and no two accepted observations share an ordinal. -/
theorem state_journal_agree (config : FabricConfig) (henabled : config.journal.enabled = true) (derived : UInt64)
    (publishedAt : Int64) (io : InitializeIo) (disk : Disk)
    (hopen : ((new config derived publishedAt).initializeFabric io disk).1 = .ok ())
    (calls : List (FabricCall × CallIo))
    (hmeets : machine.Meets (fun fabric event => (fabric.letWriterRun event.2.writer).Accounted event ∧
      fabric.OrdinalsLeft) ((new config derived publishedAt).initializeFabric io disk).2 calls) :
    machine.Meets StepAgrees ((new config derived publishedAt).initializeFabric io disk).2 calls ∧
      (∃ records, (machine.final ((new config derived publishedAt).initializeFabric io disk).2 calls).journaled =
          ((new config derived publishedAt).initializeFabric io disk).2.journaled ++ records ∧
        List.Forall₂ (Carries ((new config derived publishedAt).initializeFabric io disk).2.codecLimits)
          (((new config derived publishedAt).initializeFabric io disk).2.acceptedIn calls) (evidenceOf records)) ∧
      ((((new config derived publishedAt).initializeFabric io disk).2.acceptedIn calls).map (·.ordinal)).Nodup := by
  obtain ⟨hagrees, records, hjournaled, hcarried, hordered, -⟩ :=
    run_accounts (.opened config derived publishedAt io disk hopen) (opened_journaling henabled hopen) calls hmeets
  refine ⟨hagrees, ⟨records, hjournaled, hcarried⟩, ?_⟩
  rw [List.Nodup, List.pairwise_map]
  refine hordered.imp ?_
  intro a b hlt hsame
  rw [hsame] at hlt
  exact absurd hlt (Nat.lt_irrefl _)

/-! ## A full queue and a repeated observation -/

theorem accounted_of_ingest {fabric : Fabric} {io : CallIo} {observation : Observation} (size : ℕ)
    (h : ∀ links, fabric.links.observe observation.link observation.observedAt (fabric.receiveStamp io.now) =
        .ok links → Codec.evidenceRecord.size ⟨observation, fabric.receiveStamp io.now,
          (fabric.entered io observation links).nextOrdinal, .live⟩ = size ∧
        ∀ outcome, (fabric.entered io observation links).Answers observation (fabric.receiveStamp io.now) outcome →
          (outcome.accepted = true ↔ ((fabric.entered io observation links).journalAppend io.record .evidence
            (List.replicate size 0)).1 = .ok ())) :
    fabric.Accounted (.ingest observation, io) := by
  intro links outcome _ hlinks houtcome
  obtain ⟨hsize, htakes⟩ := h links hlinks
  rw [htakes outcome houtcome, journalAppend_ok_iff, List.length_replicate, hsize]

theorem varied_run_accounted :
    machine.Meets StepAgrees narrowFabric variedRun ∧
      (∃ records, (machine.final narrowFabric variedRun).journaled = narrowFabric.journaled ++ records ∧
        List.Forall₂ (Carries narrowFabric.codecLimits) (narrowFabric.acceptedIn variedRun) (evidenceOf records)) ∧
      ((narrowFabric.acceptedIn variedRun).map (·.ordinal)).Nodup :=
  state_journal_agree narrowConfig (by decide) 1 0 {} ⟨none, none⟩ (by decide +kernel) _
    ⟨⟨accounted_of_ingest 139 (by decide +kernel), by decide +kernel⟩,
      ⟨accounted_of_ingest 139 (by decide +kernel), by decide +kernel⟩, ⟨trivial, by decide +kernel⟩,
      ⟨trivial, by decide +kernel⟩, trivial⟩

def shallowConfig : FabricConfig := { narrowConfig with journal := { narrowConfig.journal with maxQueueDepth := 2 } }

def shallowFabric : Fabric := ((new shallowConfig 1 0).initializeFabric {} ⟨none, none⟩).2

def crowdedRun : List (FabricCall × CallIo) :=
  [sampling 1 10,
    (.ingest (symbolErrors firstGeneration 2 10),
      { now := ⟨0, 0⟩, writer := [.take, .finish none, .take, .finish none] })]

def repeatedRun : List (FabricCall × CallIo) := [sampling 1 10, sampling 1 10]

/-- Two accepted observations carry one ordinal, and one accepted observation has two evidence records. -/
theorem ordinal_shared_and_evidence_repeated :
    ((new shallowConfig 1 0).initializeFabric {} ⟨none, none⟩).1 = .ok () ∧
      ¬ ((shallowFabric.acceptedIn crowdedRun).map (·.ordinal)).Nodup ∧
      ((new narrowConfig 1 0).initializeFabric {} ⟨none, none⟩).1 = .ok () ∧
      (narrowFabric.acceptedIn repeatedRun).length = 1 ∧
      (evidenceOf (machine.final narrowFabric repeatedRun).journaled).length = 2 := by
  refine ⟨?_, ?_, ?_, ?_, ?_⟩ <;> decide +kernel

end Lqf.Fabric
