import LiveMetrics.Proofs.Json.Extraction
import LiveMetrics.Proofs.Payload

/-!
# Payloads that come back

A payload is written as a JSON text, the text is read as the value of a sample, and the sample is
decoded. What comes back is the payload that was written, doubles as numbers: only the signs of zeros
are lost (`Payload.returned`).

On the way the payload is a value, a text, a value with settled zeros, a text again, and a document
of that value (`Payload.returns_of_reads`). So it is enough that each kind of payload is read from
every document of its value (`ScenarioStats.ofTree_of_means`, `WorkerStatus.ofTree_of_means`,
`Alert.ofTree_of_means`).
-/

set_option autoImplicit false

namespace LiveMetrics

open Json (Tree Value Record settledMembers fitsWord)

/-! ## The way of a payload -/

namespace Payload

/-- The payload is written, its text has a value, and a sample of that value, whatever its topic and
its time, is decoded to a payload that is related to it. -/
def Returns {α : Type} [Payload α] (R : α → α → Prop) (a : α) : Prop :=
  ∃ fields, Value.parse? (render a) = some fields ∧
    ∀ topic timestamp, ∃ b, Sample.decode ⟨topic, timestamp, fields⟩ = .ok b ∧ R a b

/-- A payload comes back as the one whose value is its own, but for the signs of zeros. -/
theorem returns_of_reads {α : Type} [Payload α] {R : α → α → Prop} {a b : α}
    (writable : (toValue a).Writable) (settled : (toValue a).settled = toValue b)
    (reads : ∀ t : Tree, t.Means (toValue b) → ofTree? t = some b) (related : R a b) :
    Returns R a := by
  have read : Value.parse? (render a) = some (toValue b) := by
    rw [render, writable.parse_render, settled]
  obtain ⟨t, -, means⟩ := Value.parse_eq_some_iff.mp read
  obtain ⟨t', spells, means'⟩ := means.writable.spells
  have stays : (toValue b).settled = toValue b := by rw [← settled, Value.settled_settled]
  rw [stays] at means'
  have again : parse? (toValue b).render = some b := by
    unfold parse? Value.render
    rw [String.toList_ofList, Tree.parse_eq_some_iff.mpr spells, Option.bind_some, reads t' means']
  refine ⟨toValue b, read, fun topic timestamp => ⟨b, ?_, related⟩⟩
  unfold Sample.decode
  rw [again]

end Payload

/-- Whole numbers of 64 bits can be written. -/
theorem writable_natural {n : Nat} (le : n ≤ maxWord) : (Value.integer n).Writable := by
  refine .integer ?_
  have lt : n < Nat.pow 2 64 := Nat.lt_of_le_of_lt le maxWord_lt
  have high : (n : Int) < Int.pow 2 64 := Int.ofNat_lt.mpr lt
  have low : -Int.pow 2 63 ≤ 0 := by decide
  unfold fitsWord
  rw [Bool.and_eq_true, decide_eq_true_eq, decide_eq_true_eq]
  omega

/-! ## Statistics -/

namespace ScenarioStats

/-- What the fields of statistics can hold: counts of 64 bits, finite doubles, and the counts of
codes in the order of the codes, none of them twice. -/
structure Sound (s : ScenarioStats) : Prop where
  totalRequests : s.totalRequests ≤ maxWord
  successfulRequests : s.successfulRequests ≤ maxWord
  failedRequests : s.failedRequests ≤ maxWord
  successRate : s.successRate.isFinite = true
  avgLatencyMs : s.avgLatencyMs.isFinite = true
  minLatencyMs : s.minLatencyMs.isFinite = true
  maxLatencyMs : s.maxLatencyMs.isFinite = true
  p50LatencyMs : s.p50LatencyMs.isFinite = true
  p95LatencyMs : s.p95LatencyMs.isFinite = true
  p99LatencyMs : s.p99LatencyMs.isFinite = true
  ordered : s.statusCodeDistribution.Pairwise fun c c' => c.1 < c'.1
  counted : ∀ c ∈ s.statusCodeDistribution, c.2 ≤ maxWord
  currentRps : s.currentRps.isFinite = true

/-- The statistics with the signs of zeros left out. -/
def settled (s : ScenarioStats) : ScenarioStats :=
  { s with
    successRate := s.successRate.settled
    avgLatencyMs := s.avgLatencyMs.settled
    minLatencyMs := s.minLatencyMs.settled
    maxLatencyMs := s.maxLatencyMs.settled
    p50LatencyMs := s.p50LatencyMs.settled
    p95LatencyMs := s.p95LatencyMs.settled
    p99LatencyMs := s.p99LatencyMs.settled
    currentRps := s.currentRps.settled }

variable {s : ScenarioStats} {t : Tree}

theorem Sound.settled (sound : s.Sound) : s.settled.Sound :=
  { sound with
    successRate := Double.isFinite_settled sound.successRate
    avgLatencyMs := Double.isFinite_settled sound.avgLatencyMs
    minLatencyMs := Double.isFinite_settled sound.minLatencyMs
    maxLatencyMs := Double.isFinite_settled sound.maxLatencyMs
    p50LatencyMs := Double.isFinite_settled sound.p50LatencyMs
    p95LatencyMs := Double.isFinite_settled sound.p95LatencyMs
    p99LatencyMs := Double.isFinite_settled sound.p99LatencyMs
    currentRps := Double.isFinite_settled sound.currentRps }

theorem Sound.equals_settled (sound : s.Sound) : s.Equals s.settled :=
  ⟨rfl, rfl, rfl, rfl, Double.equals_settled sound.successRate,
    Double.equals_settled sound.avgLatencyMs, Double.equals_settled sound.minLatencyMs,
    Double.equals_settled sound.maxLatencyMs, Double.equals_settled sound.p50LatencyMs,
    Double.equals_settled sound.p95LatencyMs, Double.equals_settled sound.p99LatencyMs, rfl,
    Double.equals_settled sound.currentRps⟩

/-- The counts of codes as the members of an object. -/
def countValues (counts : List (String × Nat)) : List (String × Value) :=
  counts.map fun (code, n) => (code, .integer n)

theorem settled_countValues (counts : List (String × Nat)) :
    settledMembers (countValues counts) = countValues counts := by
  induction counts with
  | nil => simp only [countValues, List.map_nil, settledMembers]
  | cons c rest ih =>
    rw [countValues, List.map_cons, settledMembers, Value.settled]
    exact congrArg _ ih

theorem toValue_settled (s : ScenarioStats) : s.toValue.settled = s.settled.toValue := by
  have counts := settled_countValues s.statusCodeDistribution
  unfold countValues at counts
  simp only [toValue, settled, Value.settled, settledMembers, counts]

theorem Sound.writable (sound : s.Sound) : s.toValue.Writable := by
  have counts : ∀ m ∈ countValues s.statusCodeDistribution, m.2.Writable := by
    intro m hm
    obtain ⟨c, hc, rfl⟩ := List.mem_map.mp hm
    exact writable_natural (sound.counted c hc)
  refine .object ?_
  simp only [List.forall_mem_cons]
  exact ⟨.string _, writable_natural sound.totalRequests, writable_natural sound.successfulRequests,
    writable_natural sound.failedRequests, .float sound.successRate, .float sound.avgLatencyMs,
    .float sound.minLatencyMs, .float sound.maxLatencyMs, .float sound.p50LatencyMs,
    .float sound.p95LatencyMs, .float sound.p99LatencyMs, .object counts, .float sound.currentRps,
    by simp⟩

theorem putCount_of_last {done : List (String × Nat)} {code : String}
    (last : ∀ c ∈ done, c.1 < code) (count : Nat) :
    putCount code count done = done ++ [(code, count)] := by
  induction done with
  | nil => rfl
  | cons c rest ih =>
    obtain ⟨before, onward⟩ := List.forall_mem_cons.mp last
    have notBehind : ¬ code < c.1 := String.lt_asymm before
    have other : code ≠ c.1 := by
      rintro rfl
      exact String.lt_irrefl _ before
    rw [putCount, if_neg notBehind, if_neg other, ih onward, List.cons_append]

/-- Counts in the order of their codes are read as they are. -/
theorem countsOnto_of_means {done counts : List (String × Nat)} {members : List (List Char × Tree)}
    (keys : List.Forall₂ (fun m v => Json.Spelling v.1.toList m.1) members (countValues counts))
    (each : List.Forall₂ (fun m v => m.2.Means v.2) members (countValues counts))
    (ordered : (done ++ counts).Pairwise fun c c' => c.1 < c'.1)
    (counted : ∀ c ∈ counts, c.2 ≤ maxWord) : countsOnto done members = some (done ++ counts) := by
  induction counts generalizing done members with
  | nil =>
    cases keys
    rw [List.append_nil]
    rfl
  | cons c rest ih =>
    obtain ⟨code, n⟩ := c
    obtain _ | @⟨⟨raw, t⟩, _, members, _, key, keys⟩ := keys
    obtain _ | ⟨first, each⟩ := each
    obtain ⟨small, counted⟩ := List.forall_mem_cons.mp counted
    have last : ∀ c ∈ done, c.1 < code := fun c hc =>
      (List.pairwise_append.mp ordered).2.2 c hc (code, n) List.mem_cons_self
    have shift : done ++ (code, n) :: rest = (done ++ [(code, n)]) ++ rest := by simp
    rw [countsOnto, Json.unescape_eq_some_iff.mpr key, Option.bind_eq_bind, Option.bind_some,
      first.natural small, Option.bind_eq_bind, Option.bind_some, putCount_of_last last]
    rw [shift] at ordered ⊢
    exact ih keys each ordered counted

theorem counts_of_means {counts : List (String × Nat)}
    (means : t.Means (.object (countValues counts)))
    (ordered : counts.Pairwise fun c c' => c.1 < c'.1) (counted : ∀ c ∈ counts, c.2 ≤ maxWord) :
    counts? t = some counts := by
  cases means with
  | object keys each => exact countsOnto_of_means keys each ordered counted

end ScenarioStats

section Fields

variable {r : Record} {values : List (String × Value)} {name : String}
  (meant : Record.Meant r.fields values)

include meant

theorem optional_text_of_meant {s absent : String}
    (found : values.lookup name = some (.string s)) :
    r.optional? name Tree.text? absent = some s :=
  Record.optional_of_meant meant found fun _ => Tree.Means.text

theorem optional_natural_of_meant {n high absent : Nat}
    (found : values.lookup name = some (.integer n)) (le : n ≤ high) :
    r.optional? name (Tree.natural? high) absent = some n :=
  Record.optional_of_meant meant found fun _ means => means.natural le

theorem optional_double_of_meant {d absent : Double}
    (found : values.lookup name = some (.float d)) :
    r.optional? name Tree.double? absent = some d :=
  Record.optional_of_meant meant found fun _ => Tree.Means.double

end Fields

/-- Statistics are read from every document of their value. -/
theorem ScenarioStats.ofTree_of_means {s : ScenarioStats} {t : Tree} (sound : s.Sound)
    (means : t.Means s.toValue) : ofTree? t = some s := by
  obtain ⟨r, listed, meant⟩ := Record.exists_of_means names means (by simp [names])
    (by simp)
  have counts : ∀ t : Tree, t.Means (.object (countValues s.statusCodeDistribution)) →
      counts? t = some s.statusCodeDistribution :=
    fun _ means => counts_of_means means sound.ordered sound.counted
  refine Option.bind_eq_some_iff.mpr ⟨r, listed, ?_⟩
  refine Option.bind_eq_some_iff.mpr ⟨_, optional_text_of_meant meant rfl, ?_⟩
  refine Option.bind_eq_some_iff.mpr ⟨_, optional_natural_of_meant meant rfl sound.totalRequests, ?_⟩
  refine Option.bind_eq_some_iff.mpr
    ⟨_, optional_natural_of_meant meant rfl sound.successfulRequests, ?_⟩
  refine Option.bind_eq_some_iff.mpr ⟨_, optional_natural_of_meant meant rfl sound.failedRequests, ?_⟩
  refine Option.bind_eq_some_iff.mpr ⟨_, optional_double_of_meant meant rfl, ?_⟩
  refine Option.bind_eq_some_iff.mpr ⟨_, optional_double_of_meant meant rfl, ?_⟩
  refine Option.bind_eq_some_iff.mpr ⟨_, optional_double_of_meant meant rfl, ?_⟩
  refine Option.bind_eq_some_iff.mpr ⟨_, optional_double_of_meant meant rfl, ?_⟩
  refine Option.bind_eq_some_iff.mpr ⟨_, optional_double_of_meant meant rfl, ?_⟩
  refine Option.bind_eq_some_iff.mpr ⟨_, optional_double_of_meant meant rfl, ?_⟩
  refine Option.bind_eq_some_iff.mpr ⟨_, optional_double_of_meant meant rfl, ?_⟩
  refine Option.bind_eq_some_iff.mpr ⟨_, Record.optional_of_meant meant rfl counts, ?_⟩
  refine Option.bind_eq_some_iff.mpr ⟨_, optional_double_of_meant meant rfl, ?_⟩
  rfl

/-! ## Worker status -/

namespace WorkerStatus

/-- What the fields of a status can hold: counts of 32 and of 64 bits, and a time of 64 bits with a
sign. -/
structure Sound (s : WorkerStatus) : Prop where
  activeWorkers : s.activeWorkers ≤ Nat.pow 2 32 - 1
  taskQueueSize : s.taskQueueSize ≤ maxWord
  least : -Int.pow 2 63 ≤ s.timestamp
  greatest : s.timestamp ≤ Int.pow 2 63 - 1

variable {s : WorkerStatus} {t : Tree}

theorem toValue_settled (s : WorkerStatus) : s.toValue.settled = s.toValue := by
  simp only [toValue, Value.settled, settledMembers]

theorem Sound.writable (sound : s.Sound) : s.toValue.Writable := by
  have few : s.activeWorkers ≤ maxWord := Nat.le_trans sound.activeWorkers (by decide)
  have time : (Value.integer s.timestamp).Writable := by
    have wider : Int.pow 2 63 ≤ Int.pow 2 64 := by decide
    have least := sound.least
    have greatest := sound.greatest
    refine .integer ?_
    unfold fitsWord
    rw [Bool.and_eq_true, decide_eq_true_eq, decide_eq_true_eq]
    omega
  refine .object ?_
  simp only [List.forall_mem_cons]
  exact ⟨writable_natural few, writable_natural sound.taskQueueSize, time, by simp⟩

theorem ofTree_of_means (sound : s.Sound) (means : t.Means s.toValue) : ofTree? t = some s := by
  obtain ⟨r, listed, meant⟩ := Record.exists_of_means names means (by simp [names])
    (by simp)
  have time : ∀ t : Tree, t.Means (.integer s.timestamp) →
      t.integer? (-Int.pow 2 63) (Int.pow 2 63 - 1) = some s.timestamp :=
    fun _ means => means.integer sound.least sound.greatest
  refine Option.bind_eq_some_iff.mpr ⟨r, listed, ?_⟩
  refine Option.bind_eq_some_iff.mpr ⟨_, optional_natural_of_meant meant rfl sound.activeWorkers, ?_⟩
  refine Option.bind_eq_some_iff.mpr ⟨_, optional_natural_of_meant meant rfl sound.taskQueueSize, ?_⟩
  refine Option.bind_eq_some_iff.mpr ⟨_, Record.optional_of_meant meant rfl time, ?_⟩
  rfl

end WorkerStatus

/-! ## Alerts -/

namespace Alert

variable {a : Alert} {t : Tree}

theorem toValue_settled (a : Alert) : a.toValue.settled = a.toValue := by
  obtain ⟨id, severity, title, message, createdAt⟩ := a
  cases createdAt <;> simp only [toValue, Value.settled, settledMembers]

theorem writable (a : Alert) : a.toValue.Writable := by
  refine .object ?_
  simp only [List.forall_mem_cons]
  refine ⟨.string _, .string _, .string _, .string _, ?_, by simp⟩
  cases a.createdAt with
  | none => exact .null
  | some time => exact .string time

theorem ofWord_word (severity : Severity) : Severity.ofWord? severity.word = some severity := by
  cases severity <;> rfl

theorem severity_of_means {severity : Severity} (means : t.Means (.string severity.word)) :
    Severity.ofTree? t = some severity := by
  cases means with
  | string spelling =>
    show (Json.unescape? _).bind Severity.ofWord? = some severity
    rw [Json.unescape_eq_some_iff.mpr spelling, Option.bind_some, ofWord_word]

theorem createdAt_of_means {createdAt : Option String}
    (means : t.Means (match createdAt with | some t => .string t | none => .null)) :
    t.nullable? Tree.text? = some createdAt := by
  cases createdAt with
  | none =>
    cases means
    rfl
  | some time => exact means.nullable (by simp) means.text

theorem ofTree_of_means (means : t.Means a.toValue) : ofTree? t = some a := by
  obtain ⟨r, listed, meant⟩ := Record.exists_of_means names means (by simp [names])
    (by simp)
  have text : ∀ s (t : Tree), t.Means (.string s) → t.text? = some s := fun _ _ => Tree.Means.text
  refine Option.bind_eq_some_iff.mpr ⟨r, listed, ?_⟩
  refine Option.bind_eq_some_iff.mpr ⟨_, Record.required_of_meant meant rfl (text a.id), ?_⟩
  refine Option.bind_eq_some_iff.mpr
    ⟨_, Record.required_of_meant meant rfl fun _ => severity_of_means, ?_⟩
  refine Option.bind_eq_some_iff.mpr ⟨_, Record.required_of_meant meant rfl (text a.title), ?_⟩
  refine Option.bind_eq_some_iff.mpr ⟨_, optional_text_of_meant meant rfl, ?_⟩
  refine Option.bind_eq_some_iff.mpr
    ⟨_, Record.optional_of_meant meant rfl fun _ => createdAt_of_means, ?_⟩
  rfl

end Alert

/-! ## All payloads -/

/-- **Every payload comes back.** What is written of a payload, read as the value of a sample and
decoded gives the payload again: statistics with finite doubles and with any counts, a status of the
workers, or an alert. Only the signs of zeros are lost. -/
theorem Payload.returned :
    (∀ s : ScenarioStats, s.Sound → Returns ScenarioStats.Equals s) ∧
      (∀ s : WorkerStatus, s.Sound → Returns Eq s) ∧ ∀ a : Alert, Returns Eq a := by
  refine ⟨fun s sound => ?_, fun s sound => ?_, fun a => ?_⟩
  · exact returns_of_reads sound.writable s.toValue_settled
      (fun _ => ScenarioStats.ofTree_of_means sound.settled) sound.equals_settled
  · exact returns_of_reads sound.writable s.toValue_settled
      (fun _ => WorkerStatus.ofTree_of_means sound) rfl
  · exact returns_of_reads a.writable a.toValue_settled (fun _ => Alert.ofTree_of_means) rfl

namespace Payload

/-- Statistics with the greatest counts, with the least and the greatest doubles and with a zero that
has a sign; one of the codes has a quote and a control character. -/
def utmostStats : ScenarioStats :=
  ⟨"\u00e9", maxWord, 0, maxWord, ⟨0x8000000000000000⟩, ⟨1⟩, ⟨0x7fefffffffffffff⟩,
    ⟨0xffefffffffffffff⟩, ⟨0x3ff8000000000000⟩, ⟨0x000fffffffffffff⟩, ⟨0x8000000000000001⟩,
    [("", 0), ("\"\x00", maxWord), ("200", 1), ("😀", 2)], ⟨0x4340000000000000⟩⟩

/-- A status with the least time. -/
def utmostStatus : WorkerStatus := ⟨Nat.pow 2 32 - 1, maxWord, -Int.pow 2 63⟩

/-- An alert without a time, with texts that look like JSON. -/
def utmostAlert : Alert := ⟨"\\", .critical, "\x7b\"id\":null\x7d", "\n\u2028", none⟩

theorem sound_utmostStats : utmostStats.Sound := by
  constructor
  all_goals decide +kernel

theorem sound_utmostStatus : utmostStatus.Sound := by
  constructor
  all_goals decide

/-- They come back all three; the success rate was written as a zero with a sign. -/
theorem returned_utmost :
    utmostStats.successRate.negative = true ∧
      (utmostStats.Sound ∧ Returns ScenarioStats.Equals utmostStats) ∧
      (utmostStatus.Sound ∧ Returns Eq utmostStatus) ∧ Returns Eq utmostAlert :=
  ⟨by decide, ⟨sound_utmostStats, returned.1 _ sound_utmostStats⟩,
    ⟨sound_utmostStatus, returned.2.1 _ sound_utmostStatus⟩, returned.2.2 _⟩

end Payload

end LiveMetrics
