import IncidentEvidence.Py.ExactHex
import IncidentEvidence.Py.JsonRoundTrip
import IncidentEvidence.Py.Raises
import IncidentEvidence.Runtime.Prometheus

/-! # The boundary of the Prometheus client

    A response is read into series, or refused with a `PrometheusError`. Two things
    are neither: a body nested deeper than the decoder goes, whose `RecursionError`
    no clause lists, and a sample that is no list but unpacks like one.

    `DocumentOf R` is the shape of a response, for a relation `R` between a sample
    and its point. The code reads with `readSample`; the strict shape wants a list
    of two elements (`PairOf`). What the code accepts is a document of that shape
    up to its samples, which need only unpack (`Readable`).
-/

namespace IncidentEvidence

open Py

/-! ### Exceptions -/

section exceptions
variable {α : Type} {caught : SourceException → Bool} {raised : SourceException}
  {x : Except SourceException α} {p : SourceException → Prop}

@[simp] theorem rescue_eq_ok {a : α} : rescue caught raised x = .ok a ↔ x = .ok a := by
  cases x with
  | ok b => simp [rescue]
  | error e =>
    unfold rescue
    by_cases h : caught e = true <;> simp [h]

/-- The clause lets through what it does not list. -/
theorem raises_rescue (hraised : ¬ p raised) :
    Raises p (rescue caught raised x) ↔ Raises (fun e => caught e = false ∧ p e) x := by
  cases x with
  | ok a => simp [rescue]
  | error e =>
    unfold rescue
    by_cases h : caught e = true <;> simp [h, hraised]

@[simp] theorem raises_fromDomain {y : Except DomainError α} :
    Raises p (fromDomain y) ↔ Raises (fun e => p (.domain e)) y := by
  cases y <;> simp [fromDomain]

end exceptions

section client
variable {F : Type} [PyFloat F] (D : Decoder F)

/-! ### Shapes -/

/-- What `a, b = value` accepts: a list of two elements, a text of two characters, an object
    of two keys. -/
inductive Unpacks : Json → Json → Json → Prop
  | list (a b : Json) : Unpacks (.arr [a, b]) a b
  | text (a b : CodePoint) : Unpacks (.str [a, b]) (.str [a]) (.str [b])
  | keys (a b : Str) (v w : Json) : Unpacks (.obj [(a, v), (b, w)]) (.str a) (.str b)

/-- A timestamp and a value that are numbers, and their point. -/
def PointOf (ts v : Json) (p : PrometheusPoint F) : Prop :=
  ∃ seconds, toFloat D ts = .ok seconds ∧ fromTimestamp D seconds = .ok p.at ∧
    toFloat D v = .ok p.value

/-- A list of a timestamp and a value, and its point. -/
def PairOf (sample : Json) (p : PrometheusPoint F) : Prop :=
  ∃ ts v seconds, sample = .arr [ts, v] ∧ toFloat D ts = .ok seconds ∧
    fromTimestamp D seconds = .ok p.at ∧ toFloat D v = .ok p.value

/-- An element of `result` and its series: an object with an object `metric` and a list
    `values`, one point for each element in order. -/
def SeriesOf (R : Json → PrometheusPoint F → Prop) (limits : PrometheusLimits) (item : Json)
    (series : PrometheusSeries F) : Prop :=
  ∃ fields metric values, item = .obj fields ∧ item.get "metric" = some (.obj metric) ∧
    item.get "values" = some (.arr values) ∧ values.length ≤ limits.maxPointsPerSeries ∧
      series.name = seriesName D (.obj metric) ∧ List.Forall₂ R values series.points

/-- An object with status `success` whose `data.result` is the list `result`. -/
def ResultIn (document : Json) (result : List Json) : Prop :=
  ∃ fields data, document = .obj fields ∧ document.get "status" = some (.str (str "success")) ∧
    document.get "data" = some (.obj data) ∧ (Json.obj data).get "result" = some (.arr result)

/-- A document and its series. -/
def DocumentOf (R : Json → PrometheusPoint F → Prop) (limits : PrometheusLimits) (document : Json)
    (series : List (PrometheusSeries F)) : Prop :=
  ∃ result, ResultIn document result ∧ result.length ≤ limits.maxSeries ∧
    List.Forall₂ (SeriesOf D R limits) result series

/-- The body is the text of a document. -/
def Decodes (body : List UInt8) (document : Json) : Prop :=
  ∃ text, D.decode body = some text ∧ loads D.depth text = .ok document

/-- The decoder meets a container nested too deep. -/
def BodyTooDeep (body : List UInt8) : Prop :=
  ∃ text, D.decode body = some text ∧ loads D.depth text = .error .recursion

variable {D} {limits : PrometheusLimits} {body : List UInt8}

theorem resultOf_eq_some {document : Json} {result : List Json} :
    resultOf document = some result ↔ ResultIn document result := by
  unfold resultOf ResultIn
  constructor
  · intro h
    cases document with
    | obj fields =>
      simp only at h
      split at h
      · rename_i status hstatus
        by_cases hsuccess : status = str "success"
        · rw [if_neg (not_not.mpr hsuccess)] at h
          split at h
          · rename_i data hdata
            split at h
            · rename_i result' hresult
              obtain rfl : result' = result := by simpa using h
              exact ⟨fields, data, rfl, by rw [hstatus, hsuccess], hdata, hresult⟩
            · exact absurd h (by simp)
          · exact absurd h (by simp)
        · rw [if_pos hsuccess] at h
          exact absurd h (by simp)
      · exact absurd h (by simp)
    | _ => exact absurd h (by simp)
  · intro h
    obtain ⟨fields, data, rfl, hstatus, hdata, hresult⟩ := h
    simp [hstatus, hdata, hresult]

/-! ### Samples -/

/-- A sample raises only what its clause lists. -/
theorem raises_convertSample {sample : Json} :
    ¬ Raises (fun e => e.isConversionError = false) (convertSample D sample) := by
  have hfloat : ∀ v, ¬ Raises (fun e => e.isConversionError = false) (toFloat D v) := by
    intro v
    cases v <;> simp [toFloat, SourceException.isConversionError, SourceException.isValueError]
  have htime : ∀ x, ¬ Raises (fun e => e.isConversionError = false) (fromTimestamp D x) := by
    intro x
    unfold fromTimestamp
    cases D.fromtimestamp x with
    | ok t => simp
    | error e => cases e <;> simp [SourceException.isConversionError, SourceException.isValueError]
  have hpair : ¬ Raises (fun e => e.isConversionError = false) (unpackPair sample) := by
    unfold unpackPair
    split <;> simp [SourceException.isConversionError, SourceException.isValueError]
  unfold convertSample
  intro h
  simp only [raises_bind, raises_pure, and_false, exists_false, or_false] at h
  rcases h with h | ⟨r, -, h | ⟨x, -, h | ⟨t, -, h⟩⟩⟩
  · exact hpair h
  · exact hfloat _ h
  · exact htime _ h
  · exact hfloat _ h

omit [PyFloat F] in
theorem unpackPair_eq_ok {sample a b : Json} : unpackPair sample = .ok (a, b) ↔ Unpacks sample a b := by
  constructor
  · intro h
    unfold unpackPair at h
    split at h
    · cases h
      exact .list _ _
    · cases h
      exact .keys _ _ _ _
    · cases h
      exact .text _ _
    all_goals cases h
  · intro h
    cases h <;> rfl

/-- The code reads a sample that unpacks into two numbers. -/
theorem readSample_eq_ok {sample : Json} {p : PrometheusPoint F} :
    readSample D sample = .ok p ↔ ∃ ts v, Unpacks sample ts v ∧ PointOf D ts v p := by
  unfold readSample PointOf
  rw [rescue_eq_ok]
  unfold convertSample
  simp only [bind_eq_ok, pure_eq_ok, Prod.exists, unpackPair_eq_ok]
  constructor
  · intro h
    obtain ⟨ts, v, hunpacks, seconds, hseconds, t, ht, value, hvalue, rfl⟩ := h
    exact ⟨ts, v, hunpacks, seconds, hseconds, ht, hvalue⟩
  · intro h
    obtain ⟨ts, v, hunpacks, seconds, hseconds, ht, hvalue⟩ := h
    exact ⟨ts, v, hunpacks, seconds, hseconds, p.at, ht, p.value, hvalue, rfl⟩

/-- A list that is read is a pair and its point. -/
theorem readSample_arr {items : List Json} {p : PrometheusPoint F} :
    readSample D (.arr items) = .ok p ↔ PairOf D (.arr items) p := by
  rw [readSample_eq_ok]
  constructor
  · intro h
    obtain ⟨ts, v, hunpacks, seconds, hpoint⟩ := h
    cases hunpacks with
    | list => exact ⟨ts, v, seconds, rfl, hpoint⟩
  · intro h
    obtain ⟨ts, v, seconds, hitems, hpoint⟩ := h
    rw [hitems]
    exact ⟨ts, v, .list ts v, seconds, hpoint⟩

variable {p : SourceException → Prop}

theorem raises_readSample (hp : ¬ p .prometheusError) {sample : Json} :
    ¬ Raises p (readSample D sample) := by
  unfold readSample
  rw [raises_rescue hp]
  intro h
  obtain ⟨e, he, hlisted, -⟩ := h
  exact raises_convertSample ⟨e, he, hlisted⟩

/-! ### Responses -/

variable (D) in
/-- The relation the code reads samples with. -/
def Reads (sample : Json) (point : PrometheusPoint F) : Prop := readSample D sample = .ok point

theorem readSeries_eq_ok {item : Json} {series : PrometheusSeries F} :
    readSeries D limits item = .ok series ↔ SeriesOf D (Reads D) limits item series := by
  unfold SeriesOf
  constructor
  · intro h
    unfold readSeries at h
    cases item with
    | obj fields =>
      simp only at h
      split at h
      · rename_i metric values hmetric hvalues
        by_cases hmany : limits.maxPointsPerSeries < values.length
        · rw [if_pos hmany] at h
          exact absurd h (by simp)
        · rw [if_neg hmany, bind_eq_ok] at h
          obtain ⟨points, hpoints, h⟩ := h
          rw [pure_eq_ok] at h
          rw [h]
          exact ⟨fields, metric, values, rfl, hmetric, hvalues, not_lt.mp hmany, rfl,
            mapM_eq_ok.mp hpoints⟩
      · exact absurd h (by simp)
    | _ => exact absurd h (by simp)
  · intro h
    obtain ⟨fields, metric, values, rfl, hmetric, hvalues, hfew, hname, hpoints⟩ := h
    unfold readSeries
    simp only [hmetric, hvalues]
    rw [if_neg (not_lt.mpr hfew), mapM_eq_ok.mpr hpoints]
    show Except.ok (⟨seriesName D (.obj metric), series.points⟩ : PrometheusSeries F) = .ok series
    rw [← hname]

theorem raises_readSeries (hp : ¬ p .prometheusError) {item : Json} :
    ¬ Raises p (readSeries D limits item) := by
  intro h
  unfold readSeries at h
  cases item with
  | obj fields =>
    simp only at h
    split at h
    · rename_i metric values hmetric hvalues
      by_cases hmany : limits.maxPointsPerSeries < values.length
      · rw [if_pos hmany] at h
        exact hp (raises_error.mp h)
      · rw [if_neg hmany, raises_bind] at h
        rcases h with h | ⟨points, -, h⟩
        · obtain ⟨sample, -, h⟩ := raises_of_mapM h
          exact raises_readSample hp h
        · exact raises_pure h
    · exact hp (raises_error.mp h)
  | _ => exact hp (raises_error.mp h)

omit [PyFloat F] in
theorem loadsBody_eq_ok {document : Json} :
    loadsBody D body = .ok document ↔ Decodes D body document := by
  unfold loadsBody Decodes
  cases htext : D.decode body with
  | none => simp [orRaise, bind, Except.bind]
  | some text =>
    cases hloads : loads D.depth text with
    | ok v => simp [orRaise, bind, Except.bind, pure, Except.pure, hloads]
    | error e => cases e <;> simp [orRaise, bind, Except.bind, hloads]

omit [PyFloat F] in
theorem raises_loadsBody :
    Raises (fun e => e.isValueError = false ∧ p e) (loadsBody D body) ↔
      p .recursionError ∧ BodyTooDeep D body := by
  unfold loadsBody BodyTooDeep
  cases htext : D.decode body with
  | none => simp [orRaise, bind, Except.bind, SourceException.isValueError]
  | some text =>
    cases hloads : loads D.depth text with
    | ok v => simp [orRaise, bind, Except.bind, hloads]
    | error e =>
      cases e <;> simp [orRaise, bind, Except.bind, hloads, SourceException.isValueError]

/-- The code returns the series of a document read with `Reads`. -/
theorem parseRangeResponse_eq_ok {series : List (PrometheusSeries F)} :
    parseRangeResponse D body limits = .ok series ↔
      ∃ document, Decodes D body document ∧ DocumentOf D (Reads D) limits document series := by
  unfold parseRangeResponse DocumentOf
  constructor
  · intro h
    simp only [bind_eq_ok, rescue_eq_ok, orRaise_eq_ok, loadsBody_eq_ok] at h
    obtain ⟨document, hdocument, result, hresult, h⟩ := h
    by_cases hmany : limits.maxSeries < result.length
    · rw [if_pos hmany] at h
      exact absurd h (by simp)
    · rw [if_neg hmany] at h
      refine ⟨document, hdocument, result, resultOf_eq_some.mp hresult, not_lt.mp hmany, ?_⟩
      exact (mapM_eq_ok.mp h).imp fun _ _ hitem => readSeries_eq_ok.mp hitem
  · intro h
    obtain ⟨document, hdocument, result, hresult, hfew, hseries⟩ := h
    simp only [bind_eq_ok, rescue_eq_ok, orRaise_eq_ok, loadsBody_eq_ok]
    refine ⟨document, hdocument, result, resultOf_eq_some.mpr hresult, ?_⟩
    rw [if_neg (not_lt.mpr hfew)]
    exact mapM_eq_ok.mpr (hseries.imp fun _ _ hitem => readSeries_eq_ok.mpr hitem)

theorem raises_parseRangeResponse (hp : ¬ p .prometheusError) :
    Raises p (parseRangeResponse D body limits) ↔ p .recursionError ∧ BodyTooDeep D body := by
  unfold parseRangeResponse
  rw [raises_bind, raises_rescue hp, raises_loadsBody]
  constructor
  · intro h
    rcases h with h | ⟨document, -, h⟩
    · exact h
    · rw [raises_bind, raises_orRaise] at h
      rcases h with ⟨-, h⟩ | ⟨result, -, h⟩
      · exact absurd h hp
      · by_cases hmany : limits.maxSeries < result.length
        · rw [if_pos hmany] at h
          exact absurd (raises_error.mp h) hp
        · rw [if_neg hmany] at h
          obtain ⟨item, -, h⟩ := raises_of_mapM h
          exact absurd h (raises_readSeries hp)
  · intro h
    exact .inl h

section forall₂
variable {α β : Type} {R S : α → β → Prop} {l : List α} {l' : List β}

theorem exists_of_forall₂ (h : List.Forall₂ R l l') {a : α} (ha : a ∈ l) : ∃ b ∈ l', R a b := by
  induction h with
  | nil => exact absurd ha (by simp)
  | @cons a' b l l' hab _ ih =>
    rcases List.mem_cons.mp ha with rfl | ha
    · exact ⟨b, by simp, hab⟩
    · obtain ⟨c, hc, hac⟩ := ih ha
      exact ⟨c, List.mem_cons_of_mem _ hc, hac⟩

theorem forall₂_imp_of_mem (h : List.Forall₂ R l l') (himp : ∀ a ∈ l, ∀ b, R a b → S a b) :
    List.Forall₂ S l l' := by
  induction h with
  | nil => exact .nil
  | @cons a b l l' hab _ ih =>
    exact .cons (himp a (by simp) b hab)
      (ih fun c hc => himp c (List.mem_cons_of_mem _ hc))

end forall₂

variable (D limits) in
/-- A document of the right shape and size whose samples unpack into two numbers each. -/
def Readable (document : Json) : Prop :=
  ∃ result, ResultIn document result ∧ result.length ≤ limits.maxSeries ∧ ∀ item ∈ result,
    ∃ fields metric values, item = .obj fields ∧ item.get "metric" = some (.obj metric) ∧
      item.get "values" = some (.arr values) ∧ values.length ≤ limits.maxPointsPerSeries ∧
        ∀ sample ∈ values, ∃ ts v p, Unpacks sample ts v ∧ PointOf D ts v p

/-- The readable documents are the ones the code reads into series. -/
theorem readable_iff {document : Json} :
    Readable D limits document ↔ ∃ series, DocumentOf D (Reads D) limits document series := by
  constructor
  · intro h
    obtain ⟨result, hresult, hfew, hitems⟩ := h
    obtain ⟨series, hseries⟩ : ∃ series, result.mapM (readSeries D limits) = .ok series := by
      apply exists_mapM_eq_ok.mpr
      intro item hitem
      obtain ⟨fields, metric, values, hfields, hmetric, hvalues, hmany, hsamples⟩ := hitems item hitem
      obtain ⟨points, hpoints⟩ : ∃ points, values.mapM (readSample D) = .ok points := by
        apply exists_mapM_eq_ok.mpr
        intro sample hsample
        obtain ⟨ts, v, p, hunpacks, hpoint⟩ := hsamples sample hsample
        exact ⟨p, readSample_eq_ok.mpr ⟨ts, v, hunpacks, hpoint⟩⟩
      exact ⟨⟨seriesName D (.obj metric), points⟩, readSeries_eq_ok.mpr
        ⟨fields, metric, values, hfields, hmetric, hvalues, hmany, rfl, mapM_eq_ok.mp hpoints⟩⟩
    exact ⟨series, result, hresult, hfew,
      (mapM_eq_ok.mp hseries).imp fun _ _ hitem => readSeries_eq_ok.mp hitem⟩
  · intro h
    obtain ⟨series, result, hresult, hfew, hseries⟩ := h
    refine ⟨result, hresult, hfew, ?_⟩
    intro item hitem
    obtain ⟨one, -, fields, metric, values, hfields, hmetric, hvalues, hmany, -, hpoints⟩ :=
      exists_of_forall₂ hseries hitem
    refine ⟨fields, metric, values, hfields, hmetric, hvalues, hmany, ?_⟩
    intro sample hsample
    obtain ⟨p, -, hread⟩ := exists_of_forall₂ hpoints hsample
    obtain ⟨ts, v, hunpacks, hpoint⟩ := readSample_eq_ok.mp hread
    exact ⟨ts, v, p, hunpacks, hpoint⟩

/-- A sample that is no list, in a document of the right shape. -/
def OddSample (document : Json) : Prop :=
  ∃ result item values sample, ResultIn document result ∧ item ∈ result ∧
    item.get "values" = some (.arr values) ∧ sample ∈ values ∧ ∀ items, sample ≠ .arr items

theorem ResultIn.unique {document : Json} {result result' : List Json} (h : ResultIn document result)
    (h' : ResultIn document result') : result = result' := by
  have heq := (resultOf_eq_some.mpr h).symm.trans (resultOf_eq_some.mpr h')
  simpa using heq

omit [PyFloat F] in
theorem Decodes.unique {document document' : Json} (h : Decodes D body document)
    (h' : Decodes D body document') : document = document' := by
  have heq := (loadsBody_eq_ok.mpr h).symm.trans (loadsBody_eq_ok.mpr h')
  simpa using heq

/-- Without an odd sample, what the code reads has the strict shape. -/
theorem documentOf_pairs {document : Json} {series : List (PrometheusSeries F)}
    (h : DocumentOf D (Reads D) limits document series) :
    DocumentOf D (PairOf D) limits document series ↔ ¬ OddSample document := by
  obtain ⟨result, hresult, hfew, hseries⟩ := h
  constructor
  · intro hpairs hodd
    obtain ⟨result', hresult', -, hpairs⟩ := hpairs
    obtain ⟨result'', item, values, sample, hresult'', hitem, hvalues, hsample, hno⟩ := hodd
    obtain rfl := hresult''.unique hresult'
    obtain ⟨one, -, fields, metric, values', -, -, hvalues', -, -, hpoints⟩ :=
      exists_of_forall₂ hpairs hitem
    obtain rfl : values = values' := by simpa [hvalues] using hvalues'
    obtain ⟨point, -, ts, v, seconds, hlist, -⟩ := exists_of_forall₂ hpoints hsample
    exact hno _ hlist
  · intro hodd
    refine ⟨result, hresult, hfew, ?_⟩
    refine forall₂_imp_of_mem hseries fun item hitem one hone => ?_
    obtain ⟨fields, metric, values, hfields, hmetric, hvalues, hmany, hname, hpoints⟩ := hone
    refine ⟨fields, metric, values, hfields, hmetric, hvalues, hmany, hname, ?_⟩
    refine forall₂_imp_of_mem hpoints fun sample hsample point hpoint => ?_
    -- a sample that is read and not odd is a list
    by_cases hlist : ∃ items, sample = .arr items
    · obtain ⟨items, rfl⟩ := hlist
      exact readSample_arr.mp hpoint
    · refine absurd ⟨result, item, values, sample, hresult, hitem, hvalues, hsample, ?_⟩ hodd
      intro items heq
      exact hlist ⟨items, heq⟩

/-! ### Queries -/

variable (D)

/-- The transport answers the query with a success status and a body within the limit. -/
def Answers (client : PrometheusClient) (q : RangeQuery) (body : List UInt8) : Prop :=
  ∃ status, client.fetch q = some (status, body) ∧ 200 ≤ status ∧ status < 300 ∧
    body.length ≤ client.limits.maxResponseBytes

/-- An exception of the query that no clause lists. -/
def QueryEscapes (client : PrometheusClient) (q : RangeQuery) : Prop :=
  ¬ Encodable q.query ∨ Encodable q.query ∧ ∃ body, Answers client q body ∧ BodyTooDeep D body

/-- The query is answered with a document that the code reads. -/
def Answered (client : PrometheusClient) (q : RangeQuery)
    (series : List (PrometheusSeries F)) : Prop :=
  Encodable q.query ∧ ∃ body document, Answers client q body ∧ Decodes D body document ∧
    DocumentOf D (Reads D) client.limits document series

variable {D} {client : PrometheusClient} {q : RangeQuery}

theorem encodeUtf8_isNone {s : Str} : (encodeUtf8 s).isNone = true ↔ ¬ Encodable s := by
  rw [← encodeUtf8_isSome]
  cases encodeUtf8 s with
  | none => simp
  | some b => simp

theorem queryRange_of_encodable (h : Encodable q.query) :
    client.queryRange D q = (orRaise (client.fetch q) .prometheusError >>= fun r =>
      if ¬ (200 ≤ r.1 ∧ r.1 < 300) then .error .prometheusError
      else if client.limits.maxResponseBytes < r.2.length then .error .prometheusError
      else parseRangeResponse D r.2 client.limits) := by
  unfold PrometheusClient.queryRange
  rw [if_neg fun hnone => (encodeUtf8_isNone.mp hnone) h]

theorem queryRange_of_not_encodable (h : ¬ Encodable q.query) :
    client.queryRange D q = .error .valueError := by
  unfold PrometheusClient.queryRange
  exact if_pos (encodeUtf8_isNone.mpr h)

theorem queryRange_eq_ok {series : List (PrometheusSeries F)} :
    client.queryRange D q = .ok series ↔ Answered D client q series := by
  unfold Answered Answers
  by_cases henc : Encodable q.query
  · rw [queryRange_of_encodable henc, bind_eq_ok]
    constructor
    · intro h
      obtain ⟨⟨status, body⟩, hfetch, h⟩ := h
      by_cases hstatus : 200 ≤ status ∧ status < 300
      · rw [if_neg (not_not.mpr hstatus)] at h
        by_cases hlong : client.limits.maxResponseBytes < body.length
        · rw [if_pos hlong] at h
          exact absurd h (by simp)
        · rw [if_neg hlong, parseRangeResponse_eq_ok] at h
          obtain ⟨document, hdecodes, hdocument⟩ := h
          exact ⟨henc, body, document, ⟨status, orRaise_eq_ok.mp hfetch, hstatus.1, hstatus.2,
            not_lt.mp hlong⟩, hdecodes, hdocument⟩
      · rw [if_pos hstatus] at h
        exact absurd h (by simp)
    · intro h
      obtain ⟨-, body, document, ⟨status, hfetch, hlow, hhigh, hshort⟩, hdecodes, hdocument⟩ := h
      refine ⟨(status, body), orRaise_eq_ok.mpr hfetch, ?_⟩
      rw [if_neg (not_not.mpr ⟨hlow, hhigh⟩), if_neg (not_lt.mpr hshort)]
      exact parseRangeResponse_eq_ok.mpr ⟨document, hdecodes, hdocument⟩
  · rw [queryRange_of_not_encodable henc]
    exact ⟨fun h => absurd h (by simp), fun h => absurd h.1 henc⟩

theorem raises_queryRange (hp : ¬ p .prometheusError) (hvalue : p .valueError)
    (hrecursion : p .recursionError) :
    Raises p (client.queryRange D q) ↔ QueryEscapes D client q := by
  unfold QueryEscapes Answers
  by_cases henc : Encodable q.query
  · rw [queryRange_of_encodable henc, raises_bind, raises_orRaise]
    constructor
    · intro h
      rcases h with ⟨-, h⟩ | ⟨⟨status, body⟩, hfetch, h⟩
      · exact absurd h hp
      · by_cases hstatus : 200 ≤ status ∧ status < 300
        · rw [if_neg (not_not.mpr hstatus)] at h
          by_cases hlong : client.limits.maxResponseBytes < body.length
          · rw [if_pos hlong] at h
            exact absurd (raises_error.mp h) hp
          · rw [if_neg hlong, raises_parseRangeResponse hp] at h
            exact .inr ⟨henc, body, ⟨status, orRaise_eq_ok.mp hfetch, hstatus.1, hstatus.2,
              not_lt.mp hlong⟩, h.2⟩
        · rw [if_pos hstatus] at h
          exact absurd (raises_error.mp h) hp
    · intro h
      rcases h with h | ⟨-, body, ⟨status, hfetch, hlow, hhigh, hshort⟩, hdeep⟩
      · exact absurd henc h
      · refine .inr ⟨(status, body), orRaise_eq_ok.mpr hfetch, ?_⟩
        rw [if_neg (not_not.mpr ⟨hlow, hhigh⟩), if_neg (not_lt.mpr hshort),
          raises_parseRangeResponse hp]
        exact ⟨hrecursion, hdeep⟩
  · rw [queryRange_of_not_encodable henc, raises_error]
    exact ⟨fun _ => .inl henc, fun _ => hvalue⟩

/-! ### The source -/

theorem raises_seriesToSignals (hp : ¬ p .prometheusError) {seen : List Str}
    {series : List (PrometheusSeries F)} : ¬ Raises p (seriesToSignals seen series) := by
  induction series generalizing seen with
  | nil => simp [seriesToSignals]
  | cons one rest ih =>
    unfold seriesToSignals
    simp only
    by_cases hempty : (one.points.filter fun sample => PyFloat.isFinite sample.value) = []
    · rw [if_pos hempty]
      exact ih
    · rw [if_neg hempty]
      by_cases hseen : one.name ∈ seen
      · rw [if_pos hseen, raises_error]
        exact hp
      · rw [if_neg hseen, raises_bind, raises_rescue hp]
        intro h
        rcases h with h | ⟨signal, -, h⟩
        · -- inside the `try` only domain errors are raised
          simp only [raises_bind, raises_fromDomain] at h
          rcases h with ⟨e, -, he, -⟩ | ⟨key, -, h | ⟨points, -, h⟩⟩
          · exact absurd he (by simp [SourceException.isDomainError])
          · obtain ⟨sample, -, h⟩ := raises_of_mapM h
            rw [raises_fromDomain] at h
            obtain ⟨e, -, he, -⟩ := h
            exact absurd he (by simp [SourceException.isDomainError])
          · obtain ⟨e, -, he, -⟩ := h
            exact absurd he (by simp [SourceException.isDomainError])
        · rw [raises_bind] at h
          rcases h with h | ⟨signals, -, h⟩
          · exact ih h
          · exact raises_pure h

/-- Dividing by `2.0` raises nothing. -/
class HalvablePyFloat (F : Type) [PyFloat F] : Prop where
  exists_half : ∀ a : F, ∃ b, PyFloat.truediv a (PyFloat.literal 2 0) = some b

instance : HalvablePyFloat ExactFloat where
  exists_half a := by
    cases a <;> simp [PyFloat.truediv, PyFloat.literal, ExactFloat.truediv]

theorem exists_median [HalvablePyFloat F] {data : List F} (h : data ≠ []) :
    ∃ m, PyFloat.median data = some m := by
  have hlength : (sortedBy PyFloat.lt data).length = data.length :=
    (perm_sortedBy PyFloat.lt data).length_eq
  have hpos : 0 < (sortedBy PyFloat.lt data).length := by
    rw [hlength]
    exact List.length_pos_iff.mpr h
  have hne : (sortedBy PyFloat.lt data).length ≠ 0 := by omega
  have hmiddle : (sortedBy PyFloat.lt data).length / 2 < (sortedBy PyFloat.lt data).length := by
    omega
  have hbefore : (sortedBy PyFloat.lt data).length / 2 - 1 < (sortedBy PyFloat.lt data).length := by
    omega
  unfold PyFloat.median
  simp only
  rw [if_neg hne]
  by_cases hodd : (sortedBy PyFloat.lt data).length % 2 = 1
  · rw [if_pos hodd, List.getElem?_eq_getElem hmiddle]
    exact ⟨_, rfl⟩
  · rw [if_neg hodd, List.getElem?_eq_getElem hmiddle, List.getElem?_eq_getElem hbefore]
    exact HalvablePyFloat.exists_half _

theorem raises_toBaselineInputs [HalvablePyFloat F] (hp : ∀ e, ¬ p (.domain e))
    {policy : ScaleFloorPolicy F} {signals : List (MetricSignal F)} :
    ¬ Raises p (toBaselineInputs policy signals) := by
  intro h
  obtain ⟨signal, -, h⟩ := raises_of_mapM h
  rw [raises_bind] at h
  rcases h with h | ⟨floor, -, h⟩
  · unfold ScaleFloorPolicy.floorFor at h
    simp only at h
    by_cases hempty : (signal.points.map fun point => PyFloat.abs point.value) = []
    · rw [if_pos hempty] at h
      exact raises_ok h
    · obtain ⟨m, hm⟩ := exists_median hempty
      rw [if_neg hempty, hm] at h
      simp [orRaise] at h
  · rw [raises_fromDomain] at h
    obtain ⟨e, -, he⟩ := h
    exact hp e he

/-- What leaves `load`, other than a `TelemetryUnavailableError`, is what escapes a query
    after the ones before it have been answered. -/
theorem raises_load [HalvablePyFloat F] {source : PrometheusTelemetrySource F}
    {window : IncidentWindow} :
    Raises (fun e => e ≠ .telemetryUnavailable) (source.load D window) ↔
      ∃ before query after, source.queries = before ++ query :: after ∧
        (∀ q ∈ before, ∃ series, Answered D source.client (source.request window q) series) ∧
          QueryEscapes D source.client (source.request window query) := by
  unfold PrometheusTelemetrySource.load
  rw [raises_rescue (by simp)]
  unfold PrometheusTelemetrySource.loadBlocking
  have hsignals : ∀ seen (series : List (PrometheusSeries F)),
      ¬ Raises (fun e => e.isSourceError = false ∧ e ≠ .telemetryUnavailable)
        (seriesToSignals seen series) :=
    fun _ _ => raises_seriesToSignals (by simp [SourceException.isSourceError])
  have hinputs : ∀ signals : List (MetricSignal F),
      ¬ Raises (fun e => e.isSourceError = false ∧ e ≠ .telemetryUnavailable)
        (toBaselineInputs source.floorPolicy signals) :=
    fun _ => raises_toBaselineInputs (by simp [SourceException.isSourceError])
  simp only [raises_bind, hsignals, hinputs, and_false, exists_false, or_false, raises_mapM,
    queryRange_eq_ok]
  have hquery : ∀ q, Raises (fun e => e.isSourceError = false ∧ e ≠ .telemetryUnavailable)
      (source.client.queryRange D q) ↔ QueryEscapes D source.client q :=
    fun q => raises_queryRange (by simp [SourceException.isSourceError])
      (by simp [SourceException.isSourceError]) (by simp [SourceException.isSourceError])
  simp only [hquery]

/-! ### Strict and typed -/

omit [PyFloat F] in
theorem documentOf_bounded {R : Json → PrometheusPoint F → Prop} {document : Json}
    {series : List (PrometheusSeries F)} (h : DocumentOf D R limits document series) :
    series.length ≤ limits.maxSeries ∧
      ∀ s ∈ series, s.points.length ≤ limits.maxPointsPerSeries := by
  obtain ⟨result, -, hfew, hseries⟩ := h
  refine ⟨by rw [← hseries.length_eq]; exact hfew, fun s hs => ?_⟩
  obtain ⟨item, -, fields, metric, values, -, -, -, hmany, -, hpoints⟩ :=
    exists_of_forall₂ hseries.flip hs
  rw [← hpoints.length_eq]
  exact hmany

variable (D limits body) in
/-- What the boundary is to do with a body: return series within the bounds, of a
    document of the strict shape, or raise a `PrometheusError`. -/
def StrictlyTyped (r : Except SourceException (List (PrometheusSeries F))) : Prop :=
  match r with
  | .ok series =>
    series.length ≤ limits.maxSeries ∧
      (∀ s ∈ series, s.points.length ≤ limits.maxPointsPerSeries) ∧
        ∃ document, Decodes D body document ∧ DocumentOf D (PairOf D) limits document series
  | .error e => e = .prometheusError

variable (D limits body) in
/-- A body that is not nested too deep, and is no readable document with an odd sample. -/
def PlainBody : Prop :=
  ¬ BodyTooDeep D body ∧
    ∀ document, Decodes D body document → Readable D limits document → ¬ OddSample document

/-- The transport always gives one response. -/
def PrometheusClient.answering (limits : PrometheusLimits) (status : Int) (body : List UInt8) :
    PrometheusClient :=
  ⟨fun _ => some (status, body), limits⟩

theorem answers_answering {status : Int} {body' : List UInt8} :
    Answers (.answering limits status body) q body' ↔
      body' = body ∧ 200 ≤ status ∧ status < 300 ∧ body.length ≤ limits.maxResponseBytes := by
  constructor
  · intro h
    obtain ⟨status', hfetch, hlow, hhigh, hshort⟩ := h
    obtain ⟨rfl, rfl⟩ : status = status' ∧ body = body' := by
      simpa [PrometheusClient.answering] using hfetch
    exact ⟨rfl, hlow, hhigh, hshort⟩
  · intro h
    obtain ⟨rfl, hlow, hhigh, hshort⟩ := h
    exact ⟨status, rfl, hlow, hhigh, hshort⟩

theorem strictlyTyped_iff {status : Int} :
    StrictlyTyped D limits body ((PrometheusClient.answering limits status body).queryRange D q) ↔
      Encodable q.query ∧ (200 ≤ status → status < 300 →
        body.length ≤ limits.maxResponseBytes → PlainBody D limits body) := by
  have hescape : Raises (fun e => e ≠ .prometheusError)
      ((PrometheusClient.answering limits status body).queryRange D q) ↔
        QueryEscapes D (.answering limits status body) q :=
    raises_queryRange (by simp) (by simp) (by simp)
  constructor
  · intro h
    have henc : Encodable q.query := by
      by_contra henc
      rw [queryRange_of_not_encodable henc] at h
      exact absurd h (by simp [StrictlyTyped])
    refine ⟨henc, fun hlow hhigh hshort => ⟨fun hdeep => ?_, ?_⟩⟩
    · -- the `RecursionError` is no `PrometheusError`
      obtain ⟨e, he, hne⟩ := hescape.mpr
        (.inr ⟨henc, body, answers_answering.mpr ⟨rfl, hlow, hhigh, hshort⟩, hdeep⟩)
      rw [he] at h
      exact hne h
    · intro document hdecodes hreadable
      obtain ⟨series, hdocument⟩ := readable_iff.mp hreadable
      have hok := queryRange_eq_ok.mpr (show Answered D (.answering limits status body) q series from
        ⟨henc, body, document, answers_answering.mpr ⟨rfl, hlow, hhigh, hshort⟩, hdecodes,
          hdocument⟩)
      rw [hok] at h
      obtain ⟨-, -, document', hdecodes', hstrict⟩ := h
      obtain rfl := hdecodes'.unique hdecodes
      exact (documentOf_pairs hdocument).mp hstrict
  · intro h
    obtain ⟨henc, hplain⟩ := h
    cases hr : (PrometheusClient.answering limits status body).queryRange D q with
    | ok series =>
      obtain ⟨-, body', document, hanswers, hdecodes, hdocument⟩ := queryRange_eq_ok.mp hr
      obtain ⟨rfl, hlow, hhigh, hshort⟩ := answers_answering.mp hanswers
      obtain ⟨-, hodd⟩ := hplain hlow hhigh hshort
      have hreadable : Readable D limits document := readable_iff.mpr ⟨series, hdocument⟩
      have hstrict := (documentOf_pairs hdocument).mpr (hodd document hdecodes hreadable)
      obtain ⟨hfew, hbounded⟩ := documentOf_bounded hstrict
      exact ⟨hfew, hbounded, document, hdecodes, hstrict⟩
    | error e =>
      show e = .prometheusError
      by_contra hne
      rcases hescape.mp ⟨e, hr, hne⟩ with hnot | ⟨-, body', hanswers, hdeep⟩
      · exact hnot henc
      · obtain ⟨rfl, hlow, hhigh, hshort⟩ := answers_answering.mp hanswers
        exact (hplain hlow hhigh hshort).1 hdeep

end client

/-- **When the response boundary is strict and typed.** For a query that can be encoded,
    exactly when the body is not nested too deep and is no readable document with a sample
    that is no list. And the source raises only `TelemetryUnavailableError` exactly when no
    query it reaches meets a body nested too deep, or cannot be encoded. -/
theorem response_boundary_iff {F : Type} [PyFloat F] [HalvablePyFloat F] (D : Decoder F) :
    (∀ limits status body q,
      StrictlyTyped D limits body ((PrometheusClient.answering limits status body).queryRange D q) ↔
        Encodable q.query ∧ (200 ≤ status → status < 300 →
          body.length ≤ limits.maxResponseBytes → PlainBody D limits body)) ∧
    ∀ (source : PrometheusTelemetrySource F) window,
      (∀ e, source.load D window = .error e → e = .telemetryUnavailable) ↔
        ∀ before query after, source.queries = before ++ query :: after →
          (∀ q ∈ before, ∃ series, Answered D source.client (source.request window q) series) →
            ¬ QueryEscapes D source.client (source.request window query) := by
  refine ⟨fun limits status body q => strictlyTyped_iff, fun source window => ?_⟩
  constructor
  · intro h before query after hqueries hbefore hescapes
    obtain ⟨e, he, hne⟩ := raises_load.mpr ⟨before, query, after, hqueries, hbefore, hescapes⟩
    exact hne (h e he)
  · intro h e he
    by_contra hne
    obtain ⟨before, query, after, hqueries, hbefore, hescapes⟩ := raises_load.mp ⟨e, he, hne⟩
    exact h before query after hqueries hbefore hescapes

/-! ### Bodies that get through the boundary -/

/-- The decoder does not get past more opening brackets than it may nest. -/
theorem scanOnce_brackets {depth n : Nat} (h : depth < n) :
    scanOnce depth (List.replicate n (.scalar '[')) = .error .recursion := by
  induction depth generalizing n with
  | zero =>
    obtain ⟨n, rfl⟩ := Nat.exists_eq_succ_of_ne_zero h.ne'
    rfl
  | succ depth ih =>
    obtain ⟨n, rfl⟩ := Nat.exists_eq_succ_of_ne_zero (Nat.ne_of_gt (Nat.zero_lt_of_lt h))
    obtain ⟨n, rfl⟩ := Nat.exists_eq_succ_of_ne_zero (show n ≠ 0 by omega)
    have hinner := @ih (n + 1) (by omega)
    have helement : scanContents (.scalar ']') (scanOnce depth)
        (List.replicate (n + 1) (.scalar '[')) = .error .recursion := by
      have hskip : skipWhitespace (.scalar '[' :: List.replicate n (.scalar '[')) =
          .scalar '[' :: List.replicate n (.scalar '[') := rfl
      rw [List.replicate_succ] at hinner ⊢
      unfold scanContents
      simp only [hskip]
      rw [if_neg (by decide)]
      unfold scanElements
      rw [hinner]
      rfl
    rw [List.replicate_succ]
    show ((scanContents (.scalar ']') (scanOnce depth) (List.replicate (n + 1) (.scalar '['))
      >>= _) : Except DecodeError (Json × Str)) = _
    rw [helement]
    rfl

theorem loads_brackets {depth n : Nat} (h : depth < n) :
    loads depth (List.replicate n (.scalar '[')) = .error .recursion := by
  obtain ⟨n, rfl⟩ := Nat.exists_eq_succ_of_ne_zero (Nat.ne_of_gt (Nat.zero_lt_of_lt h))
  have hskip : skipWhitespace (List.replicate (n + 1) (CodePoint.scalar '[')) =
      List.replicate (n + 1) (.scalar '[') := rfl
  unfold loads
  rw [hskip, scanOnce_brackets h]
  rfl

namespace Demo

/-- 1970-01-01T00:00:01. -/
def firstSecond : Datetime := ⟨62135596801000000, by decide⟩

/-- A decoder of ASCII bodies, with numbers of one digit and 10000 levels. -/
def ascii : Decoder ExactFloat where
  float text := if text.length = 1 ∧ text.all CodePoint.isDigit = true
    then some (.fin (decimalValue text)) else none
  fromtimestamp x := if x = .fin 1 then .ok firstSecond else .error .value
  fromisoformat _ := none
  longMax := 2 ^ 63 - 1
  ssizeMax := 2 ^ 63 - 34
  decode body :=
    if body.all (· < 128) then some (body.map fun b => .scalar (Char.ofNat b.toNat)) else none
  depth := 10000
  repr _ := []

def upQuery : RangeQuery := ⟨str "up", ⟨0, Datetime.zero_lt⟩, ⟨1, Datetime.one_lt⟩, 60⟩

theorem upQuery_encodable : Encodable upQuery.query := by
  intro c hc
  simp only [upQuery, str, List.mem_map] at hc
  obtain ⟨d, -, rfl⟩ := hc
  exact ⟨d, rfl⟩

/-- A response with one series of one sample. -/
def responseOf (sample : Json) : Json :=
  .obj [(str "data", .obj [(str "result",
      .arr [.obj [(str "metric", .obj []), (str "values", .arr [sample])]])]),
    (str "status", .str (str "success"))]

theorem responseOf_result (sample : Json) : ResultIn (responseOf sample)
    [.obj [(str "metric", .obj []), (str "values", .arr [sample])]] :=
  ⟨_, _, rfl, rfl, rfl, rfl⟩

theorem responseOf_readable {sample ts v : Json} {p : PrometheusPoint ExactFloat}
    (hunpacks : Unpacks sample ts v) (hpoint : PointOf ascii ts v p) :
    Readable ascii .default (responseOf sample) := by
  refine ⟨_, responseOf_result sample, Nat.le_of_ble_eq_true rfl, ?_⟩
  intro item hitem
  obtain rfl := List.mem_singleton.mp hitem
  refine ⟨_, [], [sample], rfl, rfl, rfl, Nat.le_of_ble_eq_true rfl, ?_⟩
  intro other hother
  obtain rfl := List.mem_singleton.mp hother
  exact ⟨ts, v, p, hunpacks, hpoint⟩

theorem responseOf_odd {sample : Json} :
    OddSample (responseOf sample) ↔ ∀ items, sample ≠ .arr items := by
  constructor
  · intro h
    obtain ⟨result, item, values, other, hresult, hitem, hvalues, hother, hno⟩ := h
    obtain rfl := hresult.unique (responseOf_result sample)
    obtain rfl := List.mem_singleton.mp hitem
    have hlist : some (Json.arr [sample]) = some (.arr values) := hvalues
    obtain rfl := Json.arr.inj (Option.some.inj hlist)
    obtain rfl := List.mem_singleton.mp hother
    exact hno
  · intro h
    exact ⟨_, _, [sample], sample, responseOf_result sample, List.mem_singleton_self _, rfl,
      List.mem_singleton_self _, h⟩

/-- The body of such a response. -/
def bodyOf (sample : Json) : List UInt8 :=
  (Py.dumps (responseOf sample) ++ str "\n").map fun c => UInt8.ofNat c.ord

theorem bodyOf_decodes {sample : Json} (hcanonical : sample.Canonical)
    (hprintable : sample.printable = true) (hdepth : sample.nesting ≤ 9995)
    (hascii : ascii.decode (bodyOf sample) = some (Py.dumps (responseOf sample) ++ str "\n")) :
    Decodes ascii (bodyOf sample) (responseOf sample) := by
  have hsorted : ([str "data", str "status"].Pairwise (· < ·)) ∧
      ([str "metric", str "values"].Pairwise (· < ·)) := by decide
  refine ⟨_, hascii, loads_canonical ?_ ?_ ?_⟩
  · simp only [responseOf, Json.Canonical, CanonicalFields, CanonicalItems, List.map_cons, List.map_nil,
      List.pairwise_singleton, List.Pairwise.nil, hsorted, hcanonical, and_self]
  · simp [responseOf, Json.printable, printableFields, printableItems, hprintable]
  · have hlimit : ascii.depth = 10000 := rfl
    simp only [responseOf, Json.nesting, nestingItems, nestingFields, hlimit]
    omega

/-- A text of two digits in the place of a sample. -/
def textSample : Json := .str (str "12")

theorem textSample_decodes : Decodes ascii (bodyOf textSample) (responseOf textSample) :=
  bodyOf_decodes trivial rfl (by decide) (by decide +kernel)

/-- The same two numbers as a list. -/
def pairSample : Json := .arr [.int 1, .str (str "2")]

theorem pairSample_decodes : Decodes ascii (bodyOf pairSample) (responseOf pairSample) :=
  bodyOf_decodes ⟨trivial, trivial, trivial⟩ (by decide +kernel) (by decide) (by decide +kernel)

/-- So many opening brackets. -/
def brackets (n : ℕ) : List UInt8 := List.replicate n 0x5B

theorem brackets_tooDeep {n : ℕ} (h : 10000 < n) : BodyTooDeep ascii (brackets n) := by
  have hascii : (brackets n).all (· < 128) = true := by
    rw [brackets, List.all_eq_true]
    intro b hb
    rw [List.eq_of_mem_replicate hb]
    decide
  refine ⟨List.replicate n (.scalar '['), ?_, loads_brackets h⟩
  show (if (brackets n).all (· < 128) = true then some ((brackets n).map _) else none) = _
  rw [if_pos hascii, brackets, List.map_replicate]
  rfl

/-- The text `12` is unpacked into a time and a value, and the point is returned. And the
    `RecursionError` of the decoder leaves `query_range` as it is. -/
theorem query_range_escapes :
    ¬ StrictlyTyped ascii .default (bodyOf textSample)
        ((PrometheusClient.answering .default 200 (bodyOf textSample)).queryRange ascii upQuery) ∧
      ¬ StrictlyTyped ascii .default (brackets 100000)
        ((PrometheusClient.answering .default 200 (brackets 100000)).queryRange ascii upQuery) := by
  rw [strictlyTyped_iff, strictlyTyped_iff]
  constructor
  · intro h
    have hreadable : Readable ascii .default (responseOf textSample) :=
      responseOf_readable (p := ⟨firstSecond, .fin 2⟩) (.text (.scalar '1') (.scalar '2'))
        ⟨.fin 1, rfl, rfl, rfl⟩
    have hplain := h.2 (by decide) (by decide) (by decide +kernel)
    exact hplain.2 _ textSample_decodes hreadable (responseOf_odd.mpr (by simp [textSample]))
  · intro h
    have hfits : (brackets 100000).length ≤ PrometheusLimits.default.maxResponseBytes := by
      rw [brackets, List.length_replicate]
      decide
    exact (h.2 (by decide) (by decide) hfits).1 (brackets_tooDeep (by decide))

/-- A source that asks for one signal, whose client gets the list. -/
def pairSource : PrometheusTelemetrySource ExactFloat :=
  ⟨.answering .default 200 (bodyOf pairSample), [str "up"], 60, .default⟩

/-- The list is read as it should be, and the source fails in no other way. -/
theorem response_boundary_iff_pair :
    StrictlyTyped ascii .default (bodyOf pairSample)
        ((PrometheusClient.answering .default 200 (bodyOf pairSample)).queryRange ascii upQuery) ∧
      ∀ e, pairSource.load ascii window = .error e → e = .telemetryUnavailable := by
  have hshallow : ¬ BodyTooDeep ascii (bodyOf pairSample) := by
    rintro ⟨text, htext, hdeep⟩
    obtain ⟨text', htext', hloads⟩ := pairSample_decodes
    obtain rfl := Option.some.inj (htext.symm.trans htext')
    rw [hloads] at hdeep
    cases hdeep
  refine ⟨((response_boundary_iff ascii).1 .default 200 (bodyOf pairSample) upQuery).mpr
    ⟨upQuery_encodable, fun _ _ _ => ⟨hshallow, ?_⟩⟩,
    ((response_boundary_iff ascii).2 pairSource window).mpr ?_⟩
  · intro document hdecodes _ hodd
    obtain rfl := hdecodes.unique pairSample_decodes
    exact responseOf_odd.mp hodd _ rfl
  · intro before query after hqueries _ hescapes
    have hquery : query = str "up" := by
      have hmem : query ∈ pairSource.queries := by
        rw [hqueries]
        simp
      exact List.mem_singleton.mp hmem
    rcases hescapes with hnot | ⟨-, body, hanswers, hdeep⟩
    · rw [hquery] at hnot
      exact hnot upQuery_encodable
    · obtain ⟨rfl, -⟩ := answers_answering.mp hanswers
      exact hshallow hdeep

end Demo

end IncidentEvidence
