import LiveMetrics.Payload.Models
import LiveMetrics.Proofs.Json.Restating

/-!
# Payloads of samples

The payload of a sample is decoded by way of a text that is written for its value. That text says
what the text says that the value was read from (`Json.Tree.Means.restates`), and the readers of the
three payloads answer alike on two such texts (`ScenarioStats.rel_ofTree`,
`WorkerStatus.rel_ofTree`, `Alert.rel_ofTree`). So decoding the sample gives what reading the first
text at once would have given (`Sample.decode_agrees`).
-/

set_option autoImplicit false

namespace LiveMetrics

open Json

/-! ## Statistics -/

/-- The statistics are equal, their doubles as numbers. -/
structure ScenarioStats.Equals (a b : ScenarioStats) : Prop where
  scenarioId : a.scenarioId = b.scenarioId
  totalRequests : a.totalRequests = b.totalRequests
  successfulRequests : a.successfulRequests = b.successfulRequests
  failedRequests : a.failedRequests = b.failedRequests
  successRate : a.successRate.Equals b.successRate
  avgLatencyMs : a.avgLatencyMs.Equals b.avgLatencyMs
  minLatencyMs : a.minLatencyMs.Equals b.minLatencyMs
  maxLatencyMs : a.maxLatencyMs.Equals b.maxLatencyMs
  p50LatencyMs : a.p50LatencyMs.Equals b.p50LatencyMs
  p95LatencyMs : a.p95LatencyMs.Equals b.p95LatencyMs
  p99LatencyMs : a.p99LatencyMs.Equals b.p99LatencyMs
  statusCodeDistribution : a.statusCodeDistribution = b.statusCodeDistribution
  currentRps : a.currentRps.Equals b.currentRps

section Readers

variable {t t' : Tree} (h : t.Restates t')

include h

theorem rel_text : Option.Rel Eq t.text? t'.text? := rel_eq_iff.mpr h.text

theorem rel_natural {high : Nat} (within : high < Nat.pow 2 64) :
    Option.Rel Eq (t.natural? high) (t'.natural? high) := rel_eq_iff.mpr (h.natural within)

theorem counts_restates : ScenarioStats.counts? t = ScenarioStats.counts? t' := by
  cases h with
  | @object members members' keys each =>
    show ScenarioStats.countsOnto [] members = ScenarioStats.countsOnto [] members'
    generalize [] = done
    induction keys generalizing done with
    | nil => rfl
    | @cons m m' rest rest' key _ ih =>
      cases each with
      | cons first onward =>
        obtain ⟨raw, t⟩ := m
        obtain ⟨raw', t'⟩ := m'
        have number : t.natural? maxWord = t'.natural? maxWord := first.natural (by decide)
        rw [ScenarioStats.countsOnto, ScenarioStats.countsOnto, key, number]
        simp only [ih onward]
  | _ => rfl

theorem severity_restates : Severity.ofTree? t = Severity.ofTree? t' := by
  cases h with
  | string same => exact congrArg (·.bind Severity.ofWord?) same
  | object keys each =>
    -- Only an object with one member can be a severity.
    cases keys with
    | nil => rfl
    | @cons m m' _ _ key later =>
      obtain ⟨raw, t⟩ := m
      obtain ⟨raw', t'⟩ := m'
      cases each with
      | cons first _ =>
        cases later with
        | nil =>
          cases first with
          | null => exact congrArg (·.bind Severity.ofWord?) key
          | _ => rfl
        | cons => simp [Severity.ofTree?]
  | _ => rfl

end Readers

/-! ## Three kinds of payloads -/

section Fields

variable {r r' : Record} (same : Record.Restated r.fields r'.fields) {name : String}

include same

theorem rel_optional_text {absent : String} :
    Option.Rel Eq (r.optional? name Tree.text? absent) (r'.optional? name Tree.text? absent) :=
  Record.rel_optional (fun _ _ => rel_text) rfl same

theorem rel_optional_natural {high : Nat} (within : high < Nat.pow 2 64) {absent : Nat} :
    Option.Rel Eq (r.optional? name (Tree.natural? high) absent)
      (r'.optional? name (Tree.natural? high) absent) :=
  Record.rel_optional (fun _ _ h => rel_natural h within) rfl same

theorem rel_optional_double : Option.Rel Double.Equals
    (r.optional? name Tree.double? .zero) (r'.optional? name Tree.double? .zero) :=
  Record.rel_optional (fun _ _ h => h.double) Double.equals_zero same

end Fields

theorem maxWord_lt : maxWord < Nat.pow 2 64 := by decide

/-- Statistics are read alike from documents that say the same. -/
theorem ScenarioStats.rel_ofTree {t t' : Tree} (h : t.Restates t') :
    Option.Rel Equals (ofTree? t) (ofTree? t') := by
  refine rel_bind (Record.rel_ofTree names h) fun r r' same => ?_
  refine rel_bind (rel_optional_text same) fun _ _ scenarioId => ?_
  refine rel_bind (rel_optional_natural same maxWord_lt) fun _ _ totalRequests => ?_
  refine rel_bind (rel_optional_natural same maxWord_lt) fun _ _ successfulRequests => ?_
  refine rel_bind (rel_optional_natural same maxWord_lt) fun _ _ failedRequests => ?_
  refine rel_bind (rel_optional_double same) fun _ _ successRate => ?_
  refine rel_bind (rel_optional_double same) fun _ _ avgLatencyMs => ?_
  refine rel_bind (rel_optional_double same) fun _ _ minLatencyMs => ?_
  refine rel_bind (rel_optional_double same) fun _ _ maxLatencyMs => ?_
  refine rel_bind (rel_optional_double same) fun _ _ p50LatencyMs => ?_
  refine rel_bind (rel_optional_double same) fun _ _ p95LatencyMs => ?_
  refine rel_bind (rel_optional_double same) fun _ _ p99LatencyMs => ?_
  have counts : ∀ t t' : Tree, t.Restates t' → Option.Rel Eq (counts? t) (counts? t') :=
    fun _ _ h => rel_eq_iff.mpr (counts_restates h)
  refine rel_bind (Record.rel_optional counts rfl same) fun _ _ statusCodeDistribution => ?_
  refine rel_bind (rel_optional_double same) fun _ _ currentRps => ?_
  exact .some ⟨scenarioId, totalRequests, successfulRequests, failedRequests, successRate,
    avgLatencyMs, minLatencyMs, maxLatencyMs, p50LatencyMs, p95LatencyMs, p99LatencyMs,
    statusCodeDistribution, currentRps⟩

theorem WorkerStatus.rel_ofTree {t t' : Tree} (h : t.Restates t') :
    Option.Rel Eq (ofTree? t) (ofTree? t') := by
  refine rel_bind (Record.rel_ofTree names h) fun r r' same => ?_
  refine rel_bind (rel_optional_natural same (by decide)) fun _ _ activeWorkers => ?_
  refine rel_bind (rel_optional_natural same maxWord_lt) fun _ _ taskQueueSize => ?_
  have times : ∀ t t' : Tree, t.Restates t' →
      Option.Rel Eq (t.integer? (-Int.pow 2 63) (Int.pow 2 63 - 1))
        (t'.integer? (-Int.pow 2 63) (Int.pow 2 63 - 1)) := by
    intro t t' h
    refine rel_eq_iff.mpr (h.integer fun i ge le => ?_)
    have wider : Int.pow 2 63 ≤ Int.pow 2 64 := by decide
    unfold fitsWord
    rw [Bool.and_eq_true, decide_eq_true_eq, decide_eq_true_eq]
    omega
  refine rel_bind (Record.rel_optional times rfl same) fun _ _ timestamp => ?_
  cases activeWorkers
  cases taskQueueSize
  cases timestamp
  exact .some rfl

theorem Alert.rel_ofTree {t t' : Tree} (h : t.Restates t') :
    Option.Rel Eq (ofTree? t) (ofTree? t') := by
  refine rel_bind (Record.rel_ofTree names h) fun r r' same => ?_
  refine rel_bind (Record.rel_required (fun _ _ => rel_text) same) fun _ _ id => ?_
  have severities : ∀ t t' : Tree, t.Restates t' →
      Option.Rel Eq (Severity.ofTree? t) (Severity.ofTree? t') :=
    fun _ _ h => rel_eq_iff.mpr (severity_restates h)
  refine rel_bind (Record.rel_required severities same) fun _ _ severity => ?_
  refine rel_bind (Record.rel_required (fun _ _ => rel_text) same) fun _ _ title => ?_
  refine rel_bind (rel_optional_text same) fun _ _ message => ?_
  have texts : ∀ t t' : Tree, t.Restates t' →
      Option.Rel Eq (t.nullable? Tree.text?) (t'.nullable? Tree.text?) :=
    fun _ _ h => rel_eq_iff.mpr (h.nullable h.text)
  refine rel_bind (Record.rel_optional texts rfl same) fun _ _ createdAt => ?_
  cases id
  cases severity
  cases title
  cases message
  cases createdAt
  exact .some rfl

/-! ## Decoding a sample -/

/-- What decoding a sample gives, beside what reading the text at once gives: both fail, or both
succeed with payloads that are related. -/
inductive Agrees {α : Type} (R : α → α → Prop) (topic : Topic) :
    Option α → Except DecodeFault α → Prop where
  | both {read decoded : α} (related : R read decoded) : Agrees R topic (some read) (.ok decoded)
  | neither : Agrees R topic none (.error (.malformedPayload topic.name))

theorem Sample.agrees_of_rel {α : Type} [Payload α] {R : α → α → Prop} {s : Sample} {text : String}
    (reads : ∀ t t' : Tree, t.Restates t' →
      Option.Rel R (Payload.ofTree? t) (Payload.ofTree? t'))
    (read : Value.parse? text = some s.fields) :
    Agrees R s.topic (Payload.parse? text) s.decode := by
  obtain ⟨t, spells, means⟩ := Value.parse_eq_some_iff.mp read
  obtain ⟨t', spells', means'⟩ := means.writable.spells
  have first : Payload.parse? text = (Payload.ofTree? t : Option α) := by
    unfold Payload.parse?
    rw [Tree.parse_eq_some_iff.mpr spells, Option.bind_some]
  have again : Payload.parse? s.fields.render = (Payload.ofTree? t' : Option α) := by
    unfold Payload.parse? Value.render
    rw [String.toList_ofList, Tree.parse_eq_some_iff.mpr spells', Option.bind_some]
  unfold Sample.decode
  rw [first, again]
  have related := reads t t' (means.restates means')
  generalize (Payload.ofTree? t : Option α) = a, (Payload.ofTree? t' : Option α) = b at related
  cases related with
  | none => exact .neither
  | some related => exact .both related

/-- **Decoding the payload of a sample agrees with reading the text at once.** The value of a text is
written as a document of the same value, but for the signs of zeros. From a sample with that value
each kind of payload is decoded if and only if it can be read from the text itself, and the payloads
are equal, doubles as numbers. -/
theorem Sample.decode_agrees (s : Sample) (text : String)
    (read : Value.parse? text = some s.fields) :
    Value.parse? s.fields.render = some s.fields.settled ∧
      Agrees ScenarioStats.Equals s.topic (Payload.parse? text) s.decode ∧
      Agrees Eq s.topic (Payload.parse? text : Option WorkerStatus) s.decode ∧
      Agrees Eq s.topic (Payload.parse? text : Option Alert) s.decode := by
  obtain ⟨t, -, means⟩ := Value.parse_eq_some_iff.mp read
  refine ⟨means.writable.parse_render, ?_, ?_, ?_⟩
  · exact agrees_of_rel (fun _ _ => ScenarioStats.rel_ofTree) read
  · exact agrees_of_rel (fun _ _ => WorkerStatus.rel_ofTree) read
  · exact agrees_of_rel (fun _ _ => Alert.rel_ofTree) read

namespace Sample

/-- Statistics with a negative rate that is too small for a double, and with one code spelled in two
ways. -/
def negligibleText : String :=
  "\x7b\"successRate\":-1e-400,\"totalRequests\":18446744073709551615," ++
    "\"statusCodeDistribution\":\x7b\"200\":1,\"\\u00320\\u0030\":2\x7d\x7d"

/-- The sample with these statistics. -/
def negligible : Sample := ⟨⟨"metrics/a"⟩, 0, (Value.parse? negligibleText).getD .null⟩

theorem parse_negligible : Value.parse? negligibleText = some negligible.fields := by
  have found : (Value.parse? negligibleText).isSome = true := by decide +kernel
  obtain ⟨v, hv⟩ := Option.isSome_iff_exists.mp found
  unfold negligible
  rw [hv, Option.getD_some]

/-- The rate is read as the zero with a sign, and decoded as the one without. -/
theorem decode_agrees_negligible :
    Value.parse? negligibleText = some negligible.fields ∧
      (Value.parse? negligible.fields.render = some negligible.fields.settled ∧
        Agrees ScenarioStats.Equals ⟨"metrics/a"⟩ (Payload.parse? negligibleText)
          negligible.decode ∧
        Agrees Eq ⟨"metrics/a"⟩ (Payload.parse? negligibleText : Option WorkerStatus)
          negligible.decode ∧
        Agrees Eq ⟨"metrics/a"⟩ (Payload.parse? negligibleText : Option Alert)
          negligible.decode) ∧
      (Payload.parse? negligibleText).map ScenarioStats.successRate = some (.ofUnits true 0) ∧
      negligible.decode.toOption.map ScenarioStats.successRate = some .zero :=
  ⟨parse_negligible, decode_agrees negligible negligibleText parse_negligible, by decide +kernel,
    by decide +kernel⟩

end Sample

end LiveMetrics
