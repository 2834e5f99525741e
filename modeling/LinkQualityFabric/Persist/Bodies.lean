import LinkQualityFabric.Persist.Codec

/-! Which record bodies are encoded, and which of them are read back.

The identities and texts of a validated value are within the limits of every fabric, so its body is always
encoded. It is read back unless one of its enumeration fields holds a sentinel. -/
namespace Lqf.Codec
open Foundations
set_option autoImplicit false

variable {link : LinkIdentity} {u : Unit} {limits : CodecLimits} {descriptor : Option MetricDescriptor}
  {checks : ObservationLimits} {observation : Observation} {catalog : MetricCatalog} {maxRules maxBands : ℕ}
  (value : Reading)

theorem validateLinkIdentity_length (h : validateLinkIdentity link = .ok u) : link.id.length ≤ 128 :=
  validateIdentityText_length (validateLinkIdentity_eq_ok.mp h).1

/-- The limits of a fabric: every validated text is within them. -/
structure Wide (limits : CodecLimits) : Prop where
  strings : 4096 ≤ limits.maxStringBytes
  total : limits.maxTotalBytes = 8388608

theorem text_fits (hwide : Wide limits) {value : Text} (h : value.length ≤ 4096) : text.Fits limits value :=
  ⟨h.trans hwide.strings, by omega⟩

theorem linkIdentity_fits (hwide : Wide limits) (h : validateLinkIdentity link = .ok u) :
    linkIdentity.Fits limits link := by
  have hlength := validateLinkIdentity_length h
  exact ⟨text_fits hwide (show link.id.length ≤ 4096 by omega), trivial⟩

theorem linkObservedBody_encodes (hwide : Wide limits) (body : LinkObservedBody)
    (h : validateLinkIdentity body.link = .ok u) :
    ∃ encoded, linkObservedBody.encodeBody limits body = .ok encoded := by
  refine encodeBody_of_fits _ ⟨linkIdentity_fits hwide h, ⟨trivial, trivial⟩, trivial, trivial, trivial⟩ ?_
  have hlength := validateLinkIdentity_length h
  rw [hwide.total]
  change 4 + body.link.id.length + 8 + (8 + 1 + (8 + (8 + 8))) ≤ 8388608
  omega

theorem generationBody_encodes (hwide : Wide limits) (body : GenerationBody) (h : body.link.length ≤ 128) :
    ∃ encoded, generationBody.encodeBody limits body = .ok encoded := by
  refine encodeBody_of_fits _ ⟨text_fits hwide (show body.link.length ≤ 4096 by omega), trivial, ⟨trivial, trivial⟩,
    ⟨trivial, trivial, trivial⟩, trivial⟩ ?_
  rw [hwide.total]
  change 4 + body.link.length + (8 + (8 + 1 + (8 + (8 + 8) + 2))) ≤ 8388608
  omega

theorem reading_fits (limits : CodecLimits) (value : Reading) : reading.Fits limits value := by
  cases value with
  | gauge gauge => exact ⟨trivial, trivial⟩
  | counter counter => exact ⟨trivial, trivial, trivial⟩

theorem reading_size_le : reading.size value ≤ 17 := by
  cases value with
  | gauge gauge => exact Nat.le_refl 17
  | counter counter => exact Nat.le_of_ble_eq_true rfl

theorem provenance_fits (hwide : Wide limits) {value : Provenance} {maxBytes : ℕ} (hbytes : maxBytes ≤ 4096)
    (h : validateProvenance value maxBytes = .ok u) :
    provenance.Fits limits value ∧ provenance.size value ≤ 8211 := by
  obtain ⟨-, -, horigin, hproducer⟩ := validateProvenance_eq_ok.mp h
  have horiginLength := validateOptionalText_length horigin
  have hproducerLength := validateOptionalText_length hproducer
  refine ⟨⟨trivial, trivial, text_fits hwide (show value.origin.length ≤ 4096 by omega),
    text_fits hwide (show value.producer.length ≤ 4096 by omega), trivial, trivial⟩, ?_⟩
  change 1 + (1 + (4 + value.origin.length + (4 + value.producer.length + (1 + 8)))) ≤ 8211
  omega

theorem evidenceRecord_encodes (hwide : Wide limits) (record : EvidenceRecord) (hbytes : checks.maxOriginBytes ≤ 4096)
    (h : validateObservation record.observation descriptor checks = .ok u) :
    ∃ encoded, evidenceRecord.encodeBody limits record = .ok encoded := by
  obtain ⟨hlink, hsource, hmetric, hprovenance⟩ := validateObservation_spec h
  have hlinkLength := validateLinkIdentity_length hlink
  have hsourceLength : record.observation.source.id.length ≤ 128 :=
    validateIdentityText_length (validateSourceIdentity_eq_ok.mp hsource).1
  have hmetricLength : record.observation.metric.name.length ≤ 96 :=
    nameIsValid_length (validateMetricId_eq_ok.mp hmetric).2.2
  obtain ⟨hfits, hsize⟩ := provenance_fits hwide hbytes hprovenance
  have hreading := reading_size_le record.observation.reading
  have hinterval : i64.option.size record.observation.intervalNanos ≤ 9 := by
    cases record.observation.intervalNanos with
    | none => exact Nat.le_of_ble_eq_true rfl
    | some interval => exact Nat.le_refl 9
  refine encodeBody_of_fits _ ⟨⟨linkIdentity_fits hwide hlink,
    ⟨text_fits hwide (show record.observation.source.id.length ≤ 4096 by omega), trivial⟩, trivial,
    ⟨trivial, text_fits hwide (show record.observation.metric.name.length ≤ 4096 by omega)⟩, ⟨trivial, trivial⟩, trivial,
    reading_fits limits _, ⟨trivial, trivial⟩, fun _ _ => trivial, trivial, hfits⟩, ⟨trivial, trivial, trivial⟩,
    trivial, trivial⟩ ?_
  rw [hwide.total]
  change (4 + record.observation.link.id.length + 8) + ((4 + record.observation.source.id.length + 8) +
    (8 + ((1 + (4 + record.observation.metric.name.length)) + ((1 + 4) + (1 + (reading.size record.observation.reading +
    ((8 + 1) + (i64.option.size record.observation.intervalNanos +
    (8 + provenance.size record.observation.provenance))))))))) + ((8 + (8 + 8)) + (8 + 1)) ≤ 8388608
  omega

theorem streamKey_fits (hwide : Wide limits) (h : validateObservation observation descriptor checks = .ok u) :
    streamKey.Fits limits observation.streamKey := by
  obtain ⟨hlink, hsource, hmetric, -⟩ := validateObservation_spec h
  have hsourceLength : observation.source.id.length ≤ 128 :=
    validateIdentityText_length (validateSourceIdentity_eq_ok.mp hsource).1
  have hmetricLength : observation.metric.name.length ≤ 96 := nameIsValid_length (validateMetricId_eq_ok.mp hmetric).2.2
  exact ⟨linkIdentity_fits hwide hlink,
    ⟨trivial, text_fits hwide (show observation.metric.name.length ≤ 4096 by omega)⟩, ⟨trivial, trivial⟩,
    text_fits hwide (show observation.source.id.length ≤ 4096 by omega), trivial⟩

theorem putAll_entries_status (entries : List (UInt64 × UInt64)) (writer : Writer) (h : writer.status = none) :
    ((u64.pair u64).putAll entries writer).status = none := by
  induction entries generalizing writer with
  | nil => exact h
  | cons entry rest ih => exact ih _ h

theorem dedupBody_encodes_iff (hwide : Wide limits) (hstrings : limits.maxStringBytes ≤ 4096) {body : DedupBody}
    (hkey : streamKey.Fits limits body.key) :
    (∃ encoded, dedupBody.encodeBody limits body = .ok encoded) ↔ body.entries.length ≤ limits.maxItems := by
  have hkeyStatus : (streamKey.put body.key (.start limits)).status = none := by
    refine streamKey.put_status body.key (.start limits) rfl hkey ?_
    obtain ⟨hlink, hmetric, -, hsource⟩ := hkey
    have hlinkLength : body.key.link.id.length ≤ limits.maxStringBytes := hlink.1.1
    have hmetricLength : body.key.metric.name.length ≤ limits.maxStringBytes := hmetric.2.1
    have hsourceLength : body.key.source.id.length ≤ limits.maxStringBytes := hsource.1.1
    change 0 + (4 + body.key.link.id.length + 8 + (1 + (4 + body.key.metric.name.length) + (1 + 4 +
      (4 + body.key.source.id.length + 8)))) ≤ limits.maxTotalBytes
    rw [hwide.total]
    omega
  obtain ⟨bytes, -, -, -, hput, -⟩ := streamKey.round_trip body.key (.start limits) hkeyStatus
  have hentries : dedupBody.put body (.start limits) = if limits.maxItems < body.entries.length then
      ((Writer.start limits).wrote bytes).fail .limitExceeded (Lqf.text "item count exceeds the encoder limit")
      else (u64.pair u64).putAll body.entries (((Writer.start limits).wrote bytes).putLe 4 body.entries.length) := by
    show (u64.pair u64).list.put body.entries (streamKey.put body.key (.start limits)) = _
    rw [hput]
    rfl
  unfold encodeBody
  rw [hentries]
  by_cases hmany : limits.maxItems < body.entries.length
  · rw [if_pos hmany]
    refine iff_of_false ?_ (by omega)
    rintro ⟨encoded, hencoded⟩
    cases hencoded
  · rw [if_neg hmany]
    refine iff_of_true ?_ (by omega)
    have hstatus := putAll_entries_status body.entries (((Writer.start limits).wrote bytes).putLe 4 body.entries.length)
      rfl
    split
    · next hfailed =>
      rw [hfailed] at hstatus
      cases hstatus
    · exact ⟨_, rfl⟩

/-! ## What is read back -/

theorem metricFamily_valid {family : MetricFamily} (h : family ≠ .count) : metricFamily.Valid family := by
  refine enum8_valid ?_ (by decide)
  cases family <;> first | exact absurd rfl h | decide

theorem transportKind_valid {kind : TransportKind} (h : kind ≠ .count) : transportKind.Valid kind := by
  refine enum8_valid ?_ (by decide)
  cases kind <;> first | exact absurd rfl h | decide

theorem evidenceClass_valid {cls : EvidenceClass} (h : cls ≠ .count) : evidenceClass.Valid cls := by
  refine enum8_valid ?_ (by decide)
  cases cls <;> first | exact absurd rfl h | decide

theorem evidenceOrigin_valid {origin : EvidenceOrigin} (h : origin ≠ .count) : evidenceOrigin.Valid origin := by
  refine enum8_valid ?_ (by decide)
  cases origin <;> first | exact absurd rfl h | decide

theorem reasonCode_valid {reason : ReasonCode} (h : reason ≠ .count) : reasonCode.Valid reason := by
  cases reason <;> first | exact absurd rfl h | exact ⟨by decide, by decide⟩

theorem bool_valid (value : Bool) : bool.Valid value := by
  cases value <;> rfl

theorem timestamp_valid (value : Timestamp) : timestamp.Valid value := ⟨trivial, bool_valid _⟩

theorem linkObservedBody_valid (body : LinkObservedBody) : linkObservedBody.Valid body :=
  ⟨⟨trivial, trivial⟩, timestamp_valid _, trivial, trivial, trivial⟩

theorem generationBody_valid {body : GenerationBody} (h : body.reason ≠ .count) : generationBody.Valid body :=
  ⟨trivial, trivial, timestamp_valid _, ⟨trivial, trivial, trivial⟩, reasonCode_valid h⟩

theorem metricId_valid {id : MetricId} (h : validateMetricId id = .ok u) : metricId.Valid id :=
  ⟨metricFamily_valid (validateMetricId_eq_ok.mp h).2.1, trivial⟩

theorem reading_valid : reading.Valid value := by
  cases value with
  | gauge gauge => exact ⟨trivial, trivial⟩
  | counter counter => exact ⟨trivial, enum8_valid (Enumeration.code_lt _) (by decide), bool_valid _⟩

theorem measurementUnit_valid (unit : MeasurementUnit) : measurementUnit.Valid unit :=
  enum8_valid (Enumeration.code_lt _) (by decide)

theorem evidenceRecord_valid {record : EvidenceRecord}
    (h : validateObservation record.observation descriptor checks = .ok u) (horigin : record.origin ≠ .count) :
    evidenceRecord.Valid record := by
  obtain ⟨hlink, hsource, hmetric, hprovenance⟩ := validateObservation_spec h
  obtain ⟨htransport, hclass, -, -⟩ := validateProvenance_eq_ok.mp hprovenance
  refine ⟨⟨⟨trivial, trivial⟩, ⟨trivial, trivial⟩, trivial, metricId_valid hmetric, ⟨bool_valid _, trivial⟩,
    measurementUnit_valid _, reading_valid _, timestamp_valid _, fun _ _ => trivial, trivial,
    transportKind_valid htransport, evidenceClass_valid hclass, trivial, trivial, bool_valid _, trivial⟩,
    ⟨trivial, trivial, trivial⟩, trivial, evidenceOrigin_valid horigin⟩

theorem streamKey_valid (h : validateObservation observation descriptor checks = .ok u) :
    streamKey.Valid observation.streamKey := by
  obtain ⟨-, -, hmetric, -⟩ := validateObservation_spec h
  exact ⟨⟨trivial, trivial⟩, metricId_valid hmetric, ⟨bool_valid _, trivial⟩, trivial, trivial⟩

theorem dedupBody_valid {body : DedupBody} (h : streamKey.Valid body.key) : dedupBody.Valid body :=
  ⟨h, fun _ _ => ⟨trivial, trivial⟩⟩

theorem metricCapability_valid {capability : MetricCapability} (h : validateMetricId capability.metric = .ok u) :
    metricCapability.Valid capability :=
  ⟨metricId_valid h, measurementUnit_valid _, enum8_valid (Enumeration.code_lt _) (by decide),
    enum8_valid (Enumeration.code_lt _) (by decide), bool_valid _, trivial, trivial⟩

theorem capabilityDeclaration_valid {declaration : CapabilityDeclaration} {maxMetrics : ℕ}
    (h : validateCapability declaration catalog checks maxMetrics = .ok u)
    (htransport : declaration.transport ≠ .count) (hclass : declaration.evidenceClass ≠ .count) :
    capabilityDeclaration.Valid declaration := by
  obtain ⟨hmetrics, hunsupported⟩ := validateCapability_metrics h
  exact ⟨⟨trivial, trivial⟩, fun _ _ => ⟨trivial, trivial⟩, trivial, transportKind_valid htransport,
    evidenceClass_valid hclass, timestamp_valid _,
    fun capability hmem => metricCapability_valid (hmetrics capability hmem),
    fun metric hmem => metricId_valid (hunsupported metric hmem), trivial⟩

theorem thresholdBand_valid (band : ThresholdBand) : thresholdBand.Valid band :=
  ⟨trivial, trivial, fun _ _ => trivial, enum8_valid (Enumeration.code_lt _) (by decide), trivial⟩

theorem metricRule_valid {rule : MetricRule} (h : validateMetricId rule.metric = .ok u) : metricRule.Valid rule :=
  ⟨metricId_valid h, enum8_valid (Enumeration.code_lt _) (by decide), fun band _ => thresholdBand_valid band, trivial,
    trivial, trivial, bool_valid _, trivial, trivial⟩

theorem policyDocument_valid {document : PolicyDocument}
    (h : validatePolicy document catalog maxRules maxBands = .ok u) : policyDocument.Valid document := by
  simp only [validatePolicy, Outcome.check_bind_eq_ok, Outcome.each_eq_ok] at h
  obtain ⟨-, -, hrules, hunsupported, -, -, -, hfamilies, -⟩ := h
  have hfamily : ∀ entry ∈ document.freshness.familyValidityNanos, entry.1 ≠ .count := by
    intro entry hentry
    have hoverride := hfamilies entry hentry
    simp only [validateOverride, Outcome.check_bind_eq_ok, Outcome.refuseIf_eq_ok] at hoverride
    exact hoverride.1
  have hmetric : ∀ rule ∈ document.rules, validateMetricId rule.metric = .ok () := by
    intro rule hrule
    obtain ⟨seen, hvalid⟩ := validateRules_each hrules rule hrule
    simp only [validateRule, Outcome.check_bind_eq_ok] at hvalid
    exact hvalid.1
  exact ⟨trivial, fun rule hmem => metricRule_valid (hmetric rule hmem),
    ⟨trivial, fun entry hmem => ⟨metricFamily_valid (hfamily entry hmem), trivial⟩, trivial, trivial⟩,
    ⟨fun _ _ => rfl, bool_valid _⟩, fun metric hmem => metricId_valid (validateUnsupported_ids hunsupported metric hmem),
    bool_valid _⟩

theorem policyGenerationRecord_valid {record : PolicyGenerationRecord}
    (h : validatePolicy record.document catalog maxRules maxBands = .ok u) : policyGenerationRecord.Valid record :=
  ⟨⟨trivial, trivial, trivial⟩, timestamp_valid _, policyDocument_valid h⟩

end Lqf.Codec
