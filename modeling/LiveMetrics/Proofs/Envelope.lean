import LiveMetrics.Envelope
import LiveMetrics.Proofs.Control
import LiveMetrics.Proofs.Json.Fields

/-!
# Which frames are decoded

Bytes carry an envelope when they are the UTF-8 of one JSON document that is an object with `topic`
and `body` at most once each, or an array of the two (`Envelope.Carries`). What a data frame is
decoded to follows from the envelope it carries, and its faults have an order: the bytes carry no
envelope, the envelope has no topic, it has no body, the body is a string that is no JSON document
(`Envelope.Yields`). `Envelope.decode` answers so for all bytes (`Envelope.yields_decode`).
-/

set_option autoImplicit false

namespace LiveMetrics

open Json (Tree Value Record Optionally)

/-- Bytes are read as exactly the text that they encode. -/
theorem fromUTF8_eq_some_iff {raw : ByteArray} {s : String} :
    String.fromUTF8? raw = some s ↔ raw = s.toList.utf8Encode := by
  rw [String.utf8Encode_toList]
  constructor
  · intro h
    unfold String.fromUTF8? at h
    split at h
    · cases h
      rfl
    · cases h
  · rintro rfl
    exact fromUTF8_toUTF8 s

namespace Envelope

variable {raw : ByteArray} {e : Envelope} {t : Tree}

/-- The envelope that a document holds: the topic is a string, the body any value, and both may be
missing or `null`. -/
def Holds (t : Tree) (e : Envelope) : Prop :=
  ∃ fields, Record.Lists ["topic", "body"] t fields ∧
    Optionally Tree.Says (fields.lookup "topic") e.topic ∧
      Optionally Tree.Means (fields.lookup "body") e.body

/-- The bytes are the UTF-8 of one JSON document that holds the envelope. -/
def Carries (raw : ByteArray) (e : Envelope) : Prop :=
  ∃ (text : List Char) (t : Tree), raw = text.utf8Encode ∧ t.Spells text ∧ Holds t e

/-- What a body stands for: a string for the value that it spells, any other value for itself. -/
inductive StandsFor : Value → Value → Prop where
  | inline {v : Value} (other : ∀ text, v ≠ .string text) : StandsFor v v
  | text {text : String} {v : Value} (spells : v.Spells text.toList) : StandsFor (.string text) v

/-- What a data frame is decoded to. -/
inductive Yields (raw : ByteArray) (receivedAt : Int) : Except DecodeFault Sample → Prop where
  | malformed (nothing : ∀ e, ¬ Carries raw e) : Yields raw receivedAt (.error .malformedEnvelope)
  | noTopic {e : Envelope} (carries : Carries raw e) (missing : e.topic = none ∨ e.topic = some "") :
      Yields raw receivedAt (.error .noTopic)
  | noBody {topic : String} (carries : Carries raw ⟨some topic, none⟩) (named : topic ≠ "") :
      Yields raw receivedAt (.error (.noBody topic))
  | malformedBody {topic text : String} (carries : Carries raw ⟨some topic, some (.string text)⟩)
      (named : topic ≠ "") (nothing : ∀ v : Value, ¬ v.Spells text.toList) :
      Yields raw receivedAt (.error (.malformedBody topic))
  | sample {topic : String} {body fields : Value} (carries : Carries raw ⟨some topic, some body⟩)
      (named : topic ≠ "") (stands : StandsFor body fields) :
      Yields raw receivedAt (.ok ⟨⟨topic⟩, (timestamp? fields).getD receivedAt, fields⟩)

theorem ofTree_eq_some_iff : ofTree? t = some e ↔ Holds t e := by
  unfold ofTree? Holds
  constructor
  · intro h
    obtain ⟨r, listed, h⟩ := Option.bind_eq_some_iff.mp h
    obtain ⟨topic, ht, h⟩ := Option.bind_eq_some_iff.mp h
    obtain ⟨body, hb, h⟩ := Option.bind_eq_some_iff.mp h
    cases h
    exact ⟨r.fields, Record.ofTree_eq_some_iff.mp listed,
      (Record.optional_eq_some_iff fun _ _ => Tree.text_eq_some_iff).mp ht,
      (Record.optional_eq_some_iff Tree.value_eq_some_iff).mp hb⟩
  · rintro ⟨fields, listed, ht, hb⟩
    have found : Record.ofTree? ["topic", "body"] t = some ⟨fields⟩ :=
      Record.ofTree_eq_some_iff.mpr listed
    have topic := (Record.optional_eq_some_iff fun _ _ => Tree.text_eq_some_iff).mpr ht
    have body := (Record.optional_eq_some_iff Tree.value_eq_some_iff).mpr hb
    rw [found, Option.bind_eq_bind, Option.bind_some, topic, body]
    rfl

/-- Bytes are read as exactly the envelope that they carry. -/
theorem parse_eq_some_iff : parse? raw = some e ↔ Carries raw e := by
  unfold parse? Carries
  constructor
  · intro h
    obtain ⟨s, hs, h⟩ := Option.bind_eq_some_iff.mp h
    obtain ⟨t, ht, h⟩ := Option.bind_eq_some_iff.mp h
    exact ⟨s.toList, t, fromUTF8_eq_some_iff.mp hs, Tree.parse_eq_some_iff.mp ht,
      ofTree_eq_some_iff.mp h⟩
  · rintro ⟨text, t, rfl, spells, holds⟩
    have decoded : String.fromUTF8? text.utf8Encode = some (String.ofList text) := by
      rw [fromUTF8_eq_some_iff, String.toList_ofList]
    rw [decoded, Option.bind_eq_bind, Option.bind_some, String.toList_ofList,
      Tree.parse_eq_some_iff.mpr spells]
    exact ofTree_eq_some_iff.mpr holds

theorem parse_eq_none_iff : parse? raw = none ↔ ∀ e, ¬ Carries raw e := by
  rw [Option.eq_none_iff_forall_ne_some]
  constructor
  · intro h e carries
    exact h e (parse_eq_some_iff.mpr carries)
  · intro h e found
    exact h e (parse_eq_some_iff.mp found)

/-- A body is read as exactly what it stands for. -/
theorem bodyValue_eq_some_iff {body fields : Value} :
    bodyValue? body = some fields ↔ StandsFor body fields := by
  constructor
  · intro h
    cases body with
    | string text => exact .text (Value.parse_eq_some_iff.mp h)
    | _ => cases h; exact .inline (by rintro _ ⟨⟩)
  · intro h
    cases h with
    | inline other =>
      cases body with
      | string text => exact absurd rfl (other text)
      | _ => rfl
    | text spells => exact Value.parse_eq_some_iff.mpr spells

/-- A body stands for nothing if it is a string that spells no value. -/
theorem bodyValue_eq_none_iff {body : Value} :
    bodyValue? body = none ↔
      ∃ text, body = .string text ∧ ∀ v : Value, ¬ v.Spells text.toList := by
  constructor
  · intro h
    cases body with
    | string text =>
      refine ⟨text, rfl, ?_⟩
      intro v spells
      rw [bodyValue_eq_some_iff.mpr (.text spells)] at h
      cases h
    | _ => cases h
  · rintro ⟨text, rfl, nothing⟩
    rw [Option.eq_none_iff_forall_ne_some]
    intro v found
    exact nothing v (Value.parse_eq_some_iff.mp found)

theorem sample_of_named {topic : String} (named : topic ≠ "") (body : Option Value)
    (receivedAt : Int) :
    sample ⟨some topic, body⟩ receivedAt =
      match body with
      | none => .error (.noBody topic)
      | some body =>
        match bodyValue? body with
        | none => .error (.malformedBody topic)
        | some fields => .ok ⟨⟨topic⟩, (timestamp? fields).getD receivedAt, fields⟩ := by
  unfold sample
  split
  · rename_i h; cases h
  · rename_i h; exact absurd (Option.some.inj h) named
  · rename_i h; cases h; rfl

/-- What a frame is decoded to follows from what it carries. -/
theorem yields_decode (raw : ByteArray) (receivedAt : Int) :
    Yields raw receivedAt (decode raw receivedAt) := by
  unfold decode
  cases hp : parse? raw with
  | none => exact .malformed (parse_eq_none_iff.mp hp)
  | some e =>
    have carries := parse_eq_some_iff.mp hp
    obtain ⟨topic, body⟩ := e
    cases topic with
    | none => exact .noTopic carries (.inl rfl)
    | some topic =>
      by_cases named : topic = ""
      · subst named
        exact .noTopic carries (.inr rfl)
      · dsimp only
        rw [sample_of_named named]
        cases body with
        | none => exact .noBody carries named
        | some body =>
          cases hb : bodyValue? body with
          | none =>
            obtain ⟨text, rfl, nothing⟩ := bodyValue_eq_none_iff.mp hb
            dsimp only
            rw [hb]
            exact .malformedBody carries named nothing
          | some fields =>
            dsimp only
            rw [hb]
            exact .sample carries named (bodyValue_eq_some_iff.mp hb)

theorem Yields.decode_eq {receivedAt : Int} {result : Except DecodeFault Sample}
    (h : Yields raw receivedAt result) : decode raw receivedAt = result := by
  unfold Envelope.decode
  cases h with
  | malformed nothing => rw [parse_eq_none_iff.mpr nothing]
  | @noTopic e carries missing =>
    obtain ⟨topic, body⟩ := e
    rw [parse_eq_some_iff.mpr carries]
    rcases missing with missing | missing <;> cases missing <;> rfl
  | noBody carries named =>
    rw [parse_eq_some_iff.mpr carries]
    exact sample_of_named named none receivedAt
  | malformedBody carries named nothing =>
    rw [parse_eq_some_iff.mpr carries]
    dsimp only
    rw [sample_of_named named]
    dsimp only
    rw [bodyValue_eq_none_iff.mpr ⟨_, rfl, nothing⟩]
  | sample carries named stands =>
    rw [parse_eq_some_iff.mpr carries]
    dsimp only
    rw [sample_of_named named]
    dsimp only
    rw [bodyValue_eq_some_iff.mpr stands]

/-- **Which frames are decoded, and to what.** A data frame is decoded if and only if its bytes carry
an envelope with a topic that is not empty and a body that stands for a value. Whatever the bytes
are, the answer is the one that they call for: the sample, or the first of the faults. -/
theorem decode_eq_iff_yields (raw : ByteArray) (receivedAt : Int) :
    ((∃ sample, decode raw receivedAt = .ok sample) ↔
      ∃ topic body fields, Carries raw ⟨some topic, some body⟩ ∧ topic ≠ "" ∧
        StandsFor body fields) ∧
      ∀ result, decode raw receivedAt = result ↔ Yields raw receivedAt result := by
  have exactly : ∀ result, decode raw receivedAt = result ↔ Yields raw receivedAt result := by
    intro result
    constructor
    · rintro rfl
      exact yields_decode raw receivedAt
    · exact Yields.decode_eq
  refine ⟨?_, exactly⟩
  constructor
  · rintro ⟨sample, h⟩
    cases (exactly _).mp h with
    | sample carries named stands => exact ⟨_, _, _, carries, named, stands⟩
  · rintro ⟨topic, body, fields, carries, named, stands⟩
    exact ⟨_, (exactly _).mpr (.sample carries named stands)⟩

/-- Half a character may stand in a member that nobody reads, but not in the topic. -/
example :
    (decode "\x7b\"x\":\"\\ud800\",\"topic\":\"t\",\"body\":1\x7d".toUTF8 0).toOption.isSome = true ∧
      (decode "\x7b\"topic\":\"\\ud800\",\"body\":1\x7d".toUTF8 0).toOption.isSome = false := by
  decide +kernel

end Envelope

end LiveMetrics
