import LinkQualityFabric.Core.Decimal
import LinkQualityFabric.Domain.Identity

/-! Identities as text: the renderings of `src/domain/identity.cpp` and the parsers of `apps/lqf/cmd_common.cpp`.

The name of a link or a source may have a separator in it, and digits behind that. Its number has digits only, so the
last separator is the right one; the name of a metric family has no colon, so there the first one is. -/
namespace Lqf
open Foundations
set_option autoImplicit false

def renderSourceIdentity (identity : SourceIdentity) : Text :=
  identity.id ++ text "@" ++ formatU64 identity.incarnation

def renderLinkIdentity (identity : LinkIdentity) : Text :=
  identity.id ++ text "/gen" ++ formatU64 identity.generation

def toLowerAscii (value : Text) : Text :=
  value.map fun character => if 65 ≤ character ∧ character ≤ 90 then character + 32 else character

def parseMetricFamily (value : Text) : Outcome MetricFamily :=
  let lowered := toLowerAscii (trimAscii value)
  match (Enumeration.values.erase MetricFamily.count).find? (·.name = lowered) with
  | some family => .ok family
  | none => fail .invalid (text "unknown metric family: " ++ value)

-- `find` and `rfind`: the position of the first and of the last occurrence.
def findFirst (value : Text) (character : UInt8) : Option ℕ := value.findIdx? (· = character)

def findLast (value : Text) (character : UInt8) : Option ℕ :=
  (value.reverse.findIdx? (· = character)).map (value.length - 1 - ·)

/-- The number after the separator of an identity: malformed and zero get the same message. -/
def parseOrdinal (suffix message : Text) : Outcome UInt64 :=
  match parseU64 suffix with
  | .ok ordinal => if ordinal = 0 then fail .invalid message else .ok ordinal
  | .error _ => fail .invalid message

def parseLinkValue (value : Text) : Outcome LinkIdentity := do
  let identity ← match findLast value 47 with
    | some slash =>
      if (value.drop slash).take 4 = text "/gen" then do
        let generation ← parseOrdinal (value.drop (slash + 4)) (text "link generation is malformed: " ++ value)
        pure ⟨value.take slash, generation⟩
      else pure ⟨value, 1⟩
    | none => pure ⟨value, 1⟩
  validateLinkIdentity identity
  return identity

def parseSourceValue (value : Text) : Outcome SourceIdentity := do
  let identity ← match findLast value 64 with
    | some position => do
      let incarnation ← parseOrdinal (value.drop (position + 1)) (text "source incarnation is malformed: " ++ value)
      pure ⟨value.take position, incarnation⟩
    | none => pure ⟨value, 1⟩
  validateSourceIdentity identity
  return identity

def parseMetricValue (value : Text) : Outcome MetricId := do
  match findFirst value 58 with
  | none =>
    fail .invalid (text "metric must be written as <family>:<name>, for example signal-power:rx.level, received: " ++
      value)
  | some colon =>
    let family ← parseMetricFamily (value.take colon)
    validateMetricId ⟨family, value.drop (colon + 1)⟩
    return ⟨family, value.drop (colon + 1)⟩

section Separators
variable {front rest : Text} {separator : UInt8}

theorem findFirst_separator (h : separator ∉ front) :
    findFirst (front ++ separator :: rest) separator = some front.length := by
  have hnone : front.findIdx? (· = separator) = none := by
    rw [List.findIdx?_eq_none_iff]
    intro character hmem
    simpa using ne_of_mem_of_not_mem hmem h
  rw [findFirst, List.findIdx?_append, hnone]
  simp [List.findIdx?_cons]

theorem findLast_separator (h : separator ∉ rest) :
    findLast (front ++ separator :: rest) separator = some front.length := by
  have hfirst := @findFirst_separator rest.reverse front.reverse separator (by simpa using h)
  rw [findFirst] at hfirst
  rw [findLast, List.reverse_append, List.reverse_cons, List.append_assoc, List.singleton_append, hfirst]
  simp

end Separators

theorem parseOrdinal_formatU64 {ordinal : UInt64} (hpositive : ordinal ≠ 0) (message : Text) :
    parseOrdinal (formatU64 ordinal) message = .ok ordinal := by
  simp [parseOrdinal, parseU64_formatU64, hpositive]

theorem not_mem_formatU64 {character : UInt8} (h : isDecimal character = false) (value : UInt64) :
    character ∉ formatU64 value :=
  fun hmem => Bool.eq_false_iff.mp h (isDecimal_formatNat hmem)

theorem parseLinkValue_render {identity : LinkIdentity} (h : validateLinkIdentity identity = .ok ()) :
    parseLinkValue (renderLinkIdentity identity) = .ok identity := by
  have hpositive := (validateLinkIdentity_eq_ok.mp h).2
  have hgen : text "/gen" = [47, 103, 101, 110] := by decide +kernel
  have hrender : renderLinkIdentity identity =
      identity.id ++ 47 :: 103 :: 101 :: 110 :: formatU64 identity.generation := by
    simp [renderLinkIdentity, hgen]
  have hslash : findLast (renderLinkIdentity identity) 47 = some identity.id.length := by
    rw [hrender]
    exact findLast_separator (by simpa using not_mem_formatU64 (by decide) _)
  have hsuffix : (renderLinkIdentity identity).drop (identity.id.length + 4) = formatU64 identity.generation := by
    rw [hrender, ← List.drop_drop, List.drop_left]
    rfl
  have hmark : ((renderLinkIdentity identity).drop identity.id.length).take 4 = text "/gen" := by
    rw [hrender, List.drop_left, hgen]
    rfl
  have hid : (renderLinkIdentity identity).take identity.id.length = identity.id := by rw [hrender, List.take_left]
  simp [parseLinkValue, hslash, hmark, hsuffix, parseOrdinal_formatU64 hpositive, hid, h]

theorem parseSourceValue_render {identity : SourceIdentity} (h : validateSourceIdentity identity = .ok ()) :
    parseSourceValue (renderSourceIdentity identity) = .ok identity := by
  have hpositive := (validateSourceIdentity_eq_ok.mp h).2
  have hrender : renderSourceIdentity identity = identity.id ++ 64 :: formatU64 identity.incarnation := by
    simp [renderSourceIdentity, show text "@" = [64] by decide +kernel]
  have hposition := @findLast_separator identity.id _ 64 (not_mem_formatU64 (by decide) identity.incarnation)
  simp [parseSourceValue, hrender, hposition, parseOrdinal_formatU64 hpositive, h]

theorem parseMetricValue_render {id : MetricId} (h : validateMetricId id = .ok ()) :
    parseMetricValue id.render = .ok id := by
  have hrender : id.render = id.family.name ++ 58 :: id.name := by
    simp [MetricId.render, show text ":" = [58] by decide +kernel]
  have hfamily : 58 ∉ id.family.name ∧ (id.family ≠ .count → parseMetricFamily id.family.name = .ok id.family) := by
    cases id.family <;> decide +kernel
  have hcount : id.family ≠ .count := by
    simp [validateMetricId, Outcome.check_bind_eq_ok] at h
    exact h.2.1
  have hcolon := @findFirst_separator id.family.name id.name 58 hfamily.1
  simp [parseMetricValue, hrender, hcolon, hfamily.2 hcount, h]

/-- What `render` writes of a valid value, `parse` reads back, so no two valid values are written alike. -/
def ParsesBack {α : Type} (validate : α → Outcome Unit) (render : α → Text) (parse : Text → Outcome α) : Prop :=
  (∀ x, validate x = .ok () → parse (render x) = .ok x) ∧
    ∀ x y, validate x = .ok () → validate y = .ok () → x ≠ y → render x ≠ render y

theorem parsesBack {α : Type} {validate : α → Outcome Unit} {render : α → Text} {parse : Text → Outcome α}
    (h : ∀ x, validate x = .ok () → parse (render x) = .ok x) : ParsesBack validate render parse := by
  refine ⟨h, fun x y hx hy hne hsame => hne ?_⟩
  have hparsed := h x hx
  rw [hsame, h y hy] at hparsed
  exact (Except.ok.inj hparsed).symm

theorem rendered_identities_parse_back :
    ParsesBack validateLinkIdentity renderLinkIdentity parseLinkValue ∧
      ParsesBack validateSourceIdentity renderSourceIdentity parseSourceValue ∧
      ParsesBack validateMetricId MetricId.render parseMetricValue :=
  ⟨parsesBack fun _ => parseLinkValue_render, parsesBack fun _ => parseSourceValue_render,
    parsesBack fun _ => parseMetricValue_render⟩

end Lqf
