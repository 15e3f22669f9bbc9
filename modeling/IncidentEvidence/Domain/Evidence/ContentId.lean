import IncidentEvidence.Py.Datetime
import IncidentEvidence.Py.Hash
import IncidentEvidence.Py.Json
import IncidentEvidence.Domain.Incidents

/-! # Content-bound identifiers

    What the two evidence ledgers share: an identifier is the SHA-256 digest of a
    domain tag followed by the canonical JSON of a payload. Under a digest
    without collisions it determines tag and payload (`contentId_inj`).
-/

namespace IncidentEvidence

open Py

/-! ### Timestamps -/

/-- `_timestamp`: `isoformat` with the offset written as `Z`. -/
def timestamp (t : Datetime) : Str := replace (str "+00:00") (str "Z") t.isoformat

theorem plus_not_mem_naive (t : Datetime) : CodePoint.scalar '+' ∉ t.naive := by
  have hdigits : ∀ width n, CodePoint.scalar '+' ∉ fixedDigits 10 width n := fun _ _ =>
    not_mem_fixedDigits (by decide) (by decide) (by decide)
  have h1 : CodePoint.scalar '+' ∉ str "-" := by decide
  have h2 : CodePoint.scalar '+' ∉ str "T" := by decide
  have h3 : CodePoint.scalar '+' ∉ str ":" := by decide
  have h4 : CodePoint.scalar '+' ∉ str "." := by decide
  simp [Datetime.naive, hdigits, h1, h2, h3, h4]

theorem timestamp_eq (t : Datetime) : timestamp t = t.naive ++ str "Z" :=
  replace_suffix (plus_not_mem_naive t)

theorem timestamp_injective : Function.Injective timestamp := by
  intro s t h
  rw [timestamp_eq, timestamp_eq] at h
  exact Datetime.naive_injective (List.append_cancel_right h)

@[simp] theorem encodable_timestamp (t : Datetime) : Encodable (timestamp t) := by
  simp [timestamp_eq, Datetime.naive]

/-! ### Identifiers -/

/-- The bytes of an ASCII literal `b"..."`. -/
def bytes (s : String) : List UInt8 := s.toList.map fun c => c.toNat.toUInt8

/-- The hashed message: a domain tag and the canonical JSON of a payload; `none`
    when the payload cannot be encoded. -/
def contentMessage (domain : List UInt8) (payload : Json) : Option (List UInt8) :=
  ((jsonDumps payload).bind encodeUtf8).map (domain ++ ·)

theorem contentMessage_eq_some {domain m : List UInt8} {payload : Json} :
    contentMessage domain payload = some m ↔ payload.printable = true ∧
      ∃ b, encodeUtf8 (dumps payload) = some b ∧ m = domain ++ b := by
  simp only [contentMessage, Option.map_eq_some_iff, Option.bind_eq_some_iff, jsonDumps_eq_some]
  constructor
  · rintro ⟨b, ⟨_, ⟨hp, rfl⟩, hb⟩, rfl⟩
    exact ⟨hp, b, hb, rfl⟩
  · rintro ⟨hp, b, hb, rfl⟩
    exact ⟨b, ⟨_, ⟨hp, rfl⟩, hb⟩, rfl⟩

/-- The shape `_evidence_identifier` requires. The source also compares the digest
    with its lower case, which the digit test implies. -/
def wellFormedId (raw : Str) : Bool :=
  let (tag, separator, digest) := partition (.scalar ':') raw
  decide (separator = str ":") && decide (tag = str "sha256") && decide (digest.length = 64) &&
    digest.all CodePoint.isHexDigit

/-- A well-formed identifier is the tag, a colon and hexadecimal digits. -/
theorem wellFormedId_eq {raw : Str} (h : wellFormedId raw = true) :
    ∃ digest, raw = str "sha256" ++ .scalar ':' :: digest ∧ ∀ c ∈ digest, c.isHexDigit = true := by
  simp only [wellFormedId, Bool.and_eq_true, decide_eq_true_eq, List.all_eq_true] at h
  obtain ⟨⟨⟨hsep, htag⟩, _⟩, hdigits⟩ := h
  exact ⟨_, eq_append_of_partition (Prod.ext htag (Prod.ext hsep rfl)), hdigits⟩

theorem wellFormedId_not_blank {raw : Str} (h : wellFormedId raw = true) : isBlank raw = false := by
  obtain ⟨digest, rfl, -⟩ := wellFormedId_eq h
  exact isBlank_eq_false_of_mem (c := .scalar ':') (by simp) (by decide)

theorem wellFormedId_encodable {raw : Str} (h : wellFormedId raw = true) : Encodable raw := by
  obtain ⟨digest, rfl, hdigits⟩ := wellFormedId_eq h
  rw [encodable_append, encodable_cons_scalar]
  refine ⟨encodable_str _, fun c hc => ?_⟩
  exact encodable_str "0123456789abcdef" c (List.contains_iff_mem.mp (hdigits c hc))

section digest
variable [Sha256]

/-- `f"sha256:{hashlib.sha256(domain + canonical).hexdigest()}"`. -/
def contentId (domain : List UInt8) (payload : Json) : Option EvidenceId :=
  (contentMessage domain payload).map fun m => ⟨str "sha256:" ++ (Sha256.digest m).hex⟩

theorem contentId_wellFormed {domain : List UInt8} {payload : Json} {i : EvidenceId}
    (h : contentId domain payload = some i) : wellFormedId i.value = true := by
  obtain ⟨m, _, rfl⟩ := Option.map_eq_some_iff.mp h
  have hpart : partition (.scalar ':') (str "sha256:" ++ (Sha256.digest m).hex) =
      (str "sha256", str ":", (Sha256.digest m).hex) := by
    have : str "sha256:" ++ (Sha256.digest m).hex =
        str "sha256" ++ .scalar ':' :: (Sha256.digest m).hex := rfl
    rw [this]
    exact partition_append (by decide)
  simp only [wellFormedId, hpart, Digest.hex_length, decide_true, Bool.true_and, List.all_eq_true]
  exact fun c hc => isHexDigit_of_mem_hex hc

/-- A payload has an identifier when its integers and its strings can be written. -/
theorem contentId_isSome {domain : List UInt8} {payload : Json}
    (hprintable : payload.printable = true) (hencodable : payload.Encodable) :
    ∃ i, contentId domain payload = some i := by
  obtain ⟨b, hb⟩ := encodeUtf8_isSome.mpr (encodable_dumps payload hencodable)
  have hm : contentMessage domain payload = some (domain ++ b) :=
    contentMessage_eq_some.mpr ⟨hprintable, b, hb, rfl⟩
  exact ⟨_, by rw [contentId, hm]; rfl⟩

/-- Equal identifiers come from equal messages. -/
theorem contentMessage_eq_of_contentId {d d' : List UInt8} {p p' : Json} {i : EvidenceId}
    {messages : Set (List UInt8)} (hfree : CollisionFree messages)
    (hm : ∀ m, contentMessage d p = some m → m ∈ messages)
    (hm' : ∀ m, contentMessage d' p' = some m → m ∈ messages)
    (h : contentId d p = some i) (h' : contentId d' p' = some i) :
    contentMessage d p = contentMessage d' p' := by
  obtain ⟨m, hmsg, rfl⟩ := Option.map_eq_some_iff.mp h
  obtain ⟨m', hmsg', heq⟩ := Option.map_eq_some_iff.mp h'
  simp only [EvidenceId.mk.injEq] at heq
  have hdigest : Sha256.digest m' = Sha256.digest m :=
    Digest.hex_injective (List.append_cancel_left heq)
  rw [hmsg, hmsg', hfree (hm' m' hmsg') (hm m hmsg) hdigest]

/-- **An identifier binds its payload**: without collisions, canonical payloads
    under one tag with the same identifier are equal. -/
theorem contentId_inj {d : List UInt8} {p p' : Json} {i : EvidenceId}
    {messages : Set (List UInt8)} (hfree : CollisionFree messages)
    (hm : ∀ m, contentMessage d p = some m → m ∈ messages)
    (hm' : ∀ m, contentMessage d p' = some m → m ∈ messages)
    (hp : p.Canonical) (hp' : p'.Canonical)
    (h : contentId d p = some i) (h' : contentId d p' = some i) : p = p' := by
  obtain ⟨m, hmsg, -⟩ := Option.map_eq_some_iff.mp h
  have hmsg' : contentMessage d p' = some m := by
    rw [← contentMessage_eq_of_contentId hfree hm hm' h h', hmsg]
  obtain ⟨-, b, hb, rfl⟩ := contentMessage_eq_some.mp hmsg
  obtain ⟨-, b', hb', heq⟩ := contentMessage_eq_some.mp hmsg'
  rw [← List.append_cancel_left heq] at hb'
  exact dumps_inj hp hp' (encodeUtf8_inj hb hb')

/-- Identifiers under tags that differ at some position are different. -/
theorem contentId_ne {d d' : List UInt8} {p p' : Json} {i j : EvidenceId}
    {messages : Set (List UInt8)} (hfree : CollisionFree messages)
    (hm : ∀ m, contentMessage d p = some m → m ∈ messages)
    (hm' : ∀ m, contentMessage d' p' = some m → m ∈ messages) {k : Nat}
    (hk : k < d.length) (hk' : k < d'.length) (htag : d[k]? ≠ d'[k]?)
    (h : contentId d p = some i) (h' : contentId d' p' = some j) : i ≠ j := by
  rintro rfl
  have heq := contentMessage_eq_of_contentId hfree hm hm' h h'
  obtain ⟨m, hmsg, -⟩ := Option.map_eq_some_iff.mp h
  obtain ⟨-, b, -, hb⟩ := contentMessage_eq_some.mp hmsg
  obtain ⟨-, b', -, hb'⟩ := contentMessage_eq_some.mp (heq ▸ hmsg)
  have hget := congrArg (·[k]?) (hb.symm.trans hb')
  simp only [List.getElem?_append_left hk, List.getElem?_append_left hk'] at hget
  exact htag hget

end digest

end IncidentEvidence
