import LiveMetrics.Payload.Models
import LiveMetrics.Proofs.Envelope
import LiveMetrics.Proofs.Json.Rearranging

/-!
# Members in any order

Envelopes, control frames and the three payloads are told by the names of their members
(`decode_byName`): the members may come in any order, members of other names may be put in or left
out, and no name may be repeated. Payloads are read so from a text at once and by way of a sample.

An envelope and a payload are read from the fields of a record (`Envelope.fielded`,
`ScenarioStats.fielded`, `WorkerStatus.fielded`, `Alert.fielded`). A control frame is read from the
whole value, in which a member is found by its name if there is only one of that name
(`ControlFrame.readsByName`).
-/

set_option autoImplicit false

namespace LiveMetrics

open Json (Tree Value Record Rearranged Repeats ReadsByName Fielded keyName valueOf)

/-! ## Records -/

theorem Envelope.fielded : Fielded ["topic", "body"] Envelope.ofTree? :=
  ⟨_, fun _ => rfl, fun r r' same => by simp only [Record.optional?, same]⟩

theorem ScenarioStats.fielded : Fielded names ScenarioStats.ofTree? :=
  ⟨_, fun _ => rfl, fun r r' same => by simp only [Record.optional?, same]⟩

theorem WorkerStatus.fielded : Fielded names WorkerStatus.ofTree? :=
  ⟨_, fun _ => rfl, fun r r' same => by simp only [Record.optional?, same]⟩

theorem Alert.fielded : Fielded names Alert.ofTree? :=
  ⟨_, fun _ => rfl, fun r r' same => by simp only [Record.optional?, Record.required?, same]⟩

/-! ## Control frames -/

namespace ControlFrame

variable {name : String} {members members' : List (String × Value)}

theorem sole?_of_perm (same : (members.filter fun m => m.1 == name).Perm
    (members'.filter fun m => m.1 == name)) : sole? name members = sole? name members' := by
  unfold sole?
  generalize members.filter (fun m => m.1 == name) = found,
    members'.filter (fun m => m.1 == name) = found' at same
  obtain _ | ⟨m, _ | ⟨m', rest⟩⟩ := found
  · rw [List.nil_perm.mp same]
  · rw [List.singleton_perm.mp same]
  · have length := same.length_eq
    obtain _ | ⟨n, _ | ⟨n', rest'⟩⟩ := found'
    · cases length
    · cases length
    · rfl

theorem sole?_of_twice {m m' : String × Value}
    (sub : [m, m'].Sublist (members.filter fun m => m.1 == name)) : sole? name members = none := by
  unfold sole?
  generalize members.filter (fun m => m.1 == name) = found at sub
  have length := sub.length_le
  obtain _ | ⟨n, _ | ⟨n', rest⟩⟩ := found
  · simp at length
  · simp at length
  · rfl

theorem filter_valueOf (name : String) (members : List (List Char × Tree)) :
    (members.map valueOf).filter (fun m => m.1 == name) =
      (members.filter fun m => keyName m == name).map valueOf := List.filter_map

/-- A control frame in a document. -/
def ofTree? (t : Tree) : Option ControlFrame := t.value?.bind ofValue?

theorem readsByName : ReadsByName ["type", "topic"] ofTree? := by
  constructor
  · intro members members' strict once rearranged
    have alike : ∀ name ∈ ["type", "topic"],
        sole? name (members.map valueOf) = sole? name (members'.map valueOf) := by
      intro name known
      apply sole?_of_perm
      rw [filter_valueOf, filter_valueOf]
      refine (rearranged.filter_perm (· == name) ?_).map _
      rintro _ wanted
      rwa [eq_of_beq wanted]
    have tags := alike "type" (by simp)
    have topics := alike "topic" (by simp)
    unfold ofTree?
    rw [Json.value_object strict, Json.value_object (rearranged.strict strict), Option.bind_some,
      Option.bind_some, ofValue?, ofValue?, tags, topics]
  · intro members repeated
    unfold ofTree?
    cases read : (Tree.object members).value? with
    | none => rfl
    | some v =>
      have strict := Json.strict_of_means ((Tree.value_eq_some_iff _ v).mp read)
      rw [Json.value_object strict] at read
      cases read
      obtain ⟨name, known, twice⟩ := repeated.filter
      obtain ⟨m, m', -, -, sub⟩ := twice (· == name) (by simp)
      have none_ : sole? name (members.map valueOf) = none := by
        have sub := sub.map valueOf
        rw [← filter_valueOf] at sub
        exact sole?_of_twice sub
      rw [Option.bind_some, ofValue?]
      simp only [List.mem_cons, List.not_mem_nil, or_false] at known
      rcases known with rfl | rfl
      · rw [none_]
        rfl
      · rw [none_]
        cases (sole? "type" (members.map valueOf)).bind Value.text? <;> rfl

end ControlFrame

/-! ## Decoders of texts -/

/-- A decoder of texts takes the members of an object by their names. Of two rearranged objects that
can be read, whatever their texts are, it makes the same, and it refuses an object in which a name is
repeated. -/
structure DecodesByName {ρ : Type} (names : List String) (decode : String → ρ) (refused : ρ) :
    Prop where
  rearranged : ∀ (text text' : String) (members members' : List (List Char × Tree)),
    (Tree.object members).Spells text.toList → (∃ v, (Tree.object members).Means v) →
      ¬ Repeats names members → Rearranged names members members' →
        (Tree.object members').Spells text'.toList → decode text = decode text'
  repeated : ∀ (text : String) (members : List (List Char × Tree)),
    (Tree.object members).Spells text.toList → Repeats names members → decode text = refused

/-- A decoder that goes on from what a reader finds in the document. -/
theorem DecodesByName.of_reads {α ρ : Type} {names : List String} {read : Tree → Option α}
    (h : ReadsByName names read) {refused : ρ} (next : α → ρ) {decode : String → ρ}
    (decodes : ∀ text, decode text = ((Tree.parse? text.toList).bind read).elim refused next) :
    DecodesByName names decode refused := by
  constructor
  · rintro text text' members members' spells ⟨v, means⟩ once rearranged spells'
    rw [decodes, decodes, Tree.parse_eq_some_iff.mpr spells, Tree.parse_eq_some_iff.mpr spells',
      Option.bind_some, Option.bind_some,
      h.rearranged members members' (Json.strict_of_means means) once rearranged]
  · intro text members spells twice
    rw [decodes, Tree.parse_eq_some_iff.mpr spells, Option.bind_some, h.repeated members twice,
      Option.elim_none]

/-- A payload that is read by way of the sample that a text is the payload of. -/
def Payload.sampled? {α : Type} [Payload α] (topic : Topic) (timestamp : Int) (text : String) :
    Option α :=
  (Value.parse? text).bind fun fields =>
    (Sample.decode ⟨topic, timestamp, fields⟩ : Except DecodeFault α).toOption

/-- Payloads of this type are told by the names of their members, read at once or by way of a
sample. -/
def Payload.ByName (α : Type) [Payload α] (names : List String) : Prop :=
  DecodesByName names (parse? : String → Option α) none ∧
    ∀ topic timestamp, DecodesByName names (sampled? topic timestamp : String → Option α) none

theorem Sample.toOption_decode {α : Type} [Payload α] (s : Sample) :
    (s.decode : Except DecodeFault α).toOption = Payload.parse? s.fields.render := by
  unfold Sample.decode
  cases (Payload.parse? s.fields.render : Option α) <;> rfl

/-- A sample is read from the document that is written for its value. -/
theorem Payload.sampled?_eq {α : Type} [Payload α] (topic : Topic) (timestamp : Int) (text : String) :
    (sampled? topic timestamp text : Option α) = (Tree.parse? text.toList).bind fun t =>
      t.value?.bind fun v => (Tree.parse? v.chars).bind ofTree? := by
  unfold sampled? Value.parse?
  rw [Option.bind_assoc]
  simp only [Sample.toOption_decode, parse?, Value.render, String.toList_ofList]

theorem Payload.byName_of_reads {α : Type} [Payload α] {names : List String}
    (h : ReadsByName names (ofTree? : Tree → Option α)) : ByName α names := by
  have itself : ∀ a : Option α, a.elim none some = a := by
    intro a
    cases a <;> rfl
  refine ⟨.of_reads h some fun text => ?_, fun topic timestamp =>
    .of_reads h.rewritten some fun text => ?_⟩
  · rw [itself]
    rfl
  · rw [itself, sampled?_eq]

theorem Envelope.decode_toUTF8 (text : String) (receivedAt : Int) :
    decode text.toUTF8 receivedAt = ((Tree.parse? text.toList).bind ofTree?).elim
      (.error .malformedEnvelope) fun e => e.sample receivedAt := by
  have read : parse? text.toUTF8 = (Tree.parse? text.toList).bind ofTree? := by
    unfold parse?
    rw [fromUTF8_toUTF8]
    rfl
  unfold decode
  rw [read]
  cases (Tree.parse? text.toList).bind ofTree? <;> rfl

theorem ControlFrame.decode_toUTF8 (text : String) :
    decode text.toUTF8 = ((Tree.parse? text.toList).bind ofTree?).elim
      (.error .malformedControl) .ok := by
  have read : ((String.fromUTF8? text.toUTF8).bind fun text => (Value.parse? text).bind ofValue?) =
      (Tree.parse? text.toList).bind ofTree? := by
    unfold Value.parse?
    rw [fromUTF8_toUTF8, Option.bind_some, Option.bind_assoc]
    rfl
  unfold decode
  rw [read]
  cases (Tree.parse? text.toList).bind ofTree? <;> rfl

/-- **Members are taken by their names.** Envelopes, control frames and payloads are decoded alike
whatever the order of their members is and whatever members of other names there are; when one of
their own names occurs twice, in whatever spelling, they are refused. -/
theorem decode_byName :
    (∀ receivedAt, DecodesByName ["topic", "body"]
        (fun text => Envelope.decode text.toUTF8 receivedAt) (.error .malformedEnvelope)) ∧
      DecodesByName ["type", "topic"] (fun text => ControlFrame.decode text.toUTF8)
        (.error .malformedControl) ∧
      Payload.ByName ScenarioStats ScenarioStats.names ∧
      Payload.ByName WorkerStatus WorkerStatus.names ∧ Payload.ByName Alert Alert.names := by
  refine ⟨fun receivedAt => ?_, ?_, ?_, ?_, ?_⟩
  · exact .of_reads Envelope.fielded.readsByName _ fun text => Envelope.decode_toUTF8 text receivedAt
  · exact .of_reads ControlFrame.readsByName _ ControlFrame.decode_toUTF8
  · exact Payload.byName_of_reads ScenarioStats.fielded.readsByName
  · exact Payload.byName_of_reads WorkerStatus.fielded.readsByName
  · exact Payload.byName_of_reads Alert.fielded.readsByName

namespace Alert

/-- The members of a notice. -/
def noticeMembers : List (List Char × Tree) :=
  [("id".toList, .string "a".toList), ("severity".toList, .string "INFO".toList),
    ("title".toList, .string "t".toList)]

def noticeText : String := "\x7b\"id\":\"a\",\"severity\":\"INFO\",\"title\":\"t\"\x7d"

/-- The notice with its title in front, behind a member that belongs to no field. -/
def shuffledText : String :=
  "\x7b \"x\":\x7b\"id\":1\x7d, \"title\":\"t\", \"id\":\"a\", \"severity\":\"INFO\" \x7d"

/-- The notice with its name once more, spelled in another way. -/
def repeatingText : String :=
  "\x7b\"id\":\"a\",\"severity\":\"INFO\",\"title\":\"t\",\"\\u0069d\":null\x7d"

theorem once_notice : ¬ Repeats names noticeMembers :=
  fun repeated => repeated.not_nodup (by decide +kernel)

/-- The shuffled notice is read as the notice, the repeating one is refused. -/
theorem decode_byName_notice :
    (Payload.parse? noticeText : Option Alert) = Payload.parse? shuffledText ∧
      Payload.parse? noticeText = some (⟨"a", .info, "t", "", none⟩ : Alert) ∧
      (Payload.parse? repeatingText : Option Alert) = none := by
  obtain ⟨⟨rearranged, repeated⟩, -⟩ := decode_byName.2.2.2.2
  have spells : (Tree.object noticeMembers).Spells noticeText.toList :=
    Tree.parse_eq_some_iff.mp rfl
  have means : (Tree.object noticeMembers).Means
      (.object [("id", .string "a"), ("severity", .string "INFO"), ("title", .string "t")]) :=
    (Tree.value_eq_some_iff _ _).mp rfl
  have other : (Tree.object [("id".toList, .number ⟨false, 1, 0, 0, true⟩)]).Means
      (.object [("id", .integer 1)]) := (Tree.value_eq_some_iff _ _).mp rfl
  have key : Json.Spelling "x".toList "x".toList := Json.unescape_eq_some_iff.mp rfl
  have again : Json.Spelling "id".toList "\\u0069d".toList :=
    Json.unescape_eq_some_iff.mp (by decide +kernel)
  refine ⟨?_, by decide +kernel, ?_⟩
  · have order : Rearranged names (noticeMembers.take 2 ++ noticeMembers.drop 2)
        (noticeMembers.drop 2 ++ noticeMembers.take 2) := .order List.perm_append_comm
    have put : Rearranged names ([] ++ (noticeMembers.drop 2 ++ noticeMembers.take 2))
        ([] ++ ("x".toList, _) :: (noticeMembers.drop 2 ++ noticeMembers.take 2)) :=
      .putIn (by decide) key other
    exact rearranged _ _ _ _ spells ⟨_, means⟩ once_notice (order.trans put)
      (Tree.parse_eq_some_iff.mp rfl)
  · have sub : [noticeMembers[0], ("\\u0069d".toList, .null)].Sublist
        (noticeMembers ++ [("\\u0069d".toList, .null)]) :=
      .append (List.singleton_sublist.mpr (by simp)) (.refl _)
    have first : Json.Spelling "id".toList "id".toList := Json.unescape_eq_some_iff.mp rfl
    exact repeated _ _ (Tree.parse_eq_some_iff.mp rfl) ⟨_, _, sub, "id", by decide, first, again⟩

end Alert

end LiveMetrics
