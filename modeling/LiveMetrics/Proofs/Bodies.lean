import LiveMetrics.Proofs.Envelope
import LiveMetrics.Proofs.Json.Printing

/-!
# Bodies as strings and as documents

An envelope may carry a body as a string that spells a document, as `Envelope.encode` writes it, or
the document itself.

What is written is decoded to the topic and the value that went in (`Envelope.encode_relays`). For
a document that is neither a string nor `null` both forms are decoded alike, in whatever way the
envelopes are written (`Envelope.decode_inline_eq_quoted`).
-/

set_option autoImplicit false

namespace LiveMetrics.Envelope

open Json (Tree Value Record Spelling Written Lexeme escaped spelling_escaped)

/-! ## Envelopes on a topic -/

/-- The document has the topic, and a body of this kind. -/
def Heads (topic : String) (Body : Tree → Prop) (t : Tree) : Prop :=
  ∃ fields heading body, Record.Lists ["topic", "body"] t fields ∧
    fields.lookup "topic" = some heading ∧ heading.Says topic ∧
      fields.lookup "body" = some body ∧ Body body

/-- The bytes are the UTF-8 of an envelope on the topic, with a body of this kind. -/
def Bears (topic : String) (Body : Tree → Prop) (raw : ByteArray) : Prop :=
  ∃ (text : List Char) (t : Tree), raw = text.utf8Encode ∧ t.Spells text ∧ Heads topic Body t

/-- The body of the envelope is the document that `b` spells. -/
def Inlines (topic b : String) (raw : ByteArray) : Prop :=
  Bears topic (fun body => body.Spells b.toList) raw

/-- The body of the envelope is a string of the characters of `b`. -/
def Quotes (topic b : String) (raw : ByteArray) : Prop :=
  Bears topic (fun body => body.Says b) raw

variable {topic b : String} {Body : Tree → Prop} {t : Tree} {v : Value} {raw : ByteArray}

theorem heads_object {key key' : List Char} {heading body : Tree}
    (first : Spelling "topic".toList key) (second : Spelling "body".toList key')
    (named : heading.Says topic) (kind : Body body) :
    Heads topic Body (.object [(key, heading), (key', body)]) := by
  have listed : Record.Lists ["topic", "body"] (.object [(key, heading), (key', body)])
      (Record.among ["topic", "body"] [("topic", heading), ("body", body)]) :=
    .object (.cons ⟨first, rfl⟩ (.cons ⟨second, rfl⟩ .nil)) (by simp [Record.among])
  refine ⟨_, heading, body, listed, ?_, named, ?_, kind⟩
  · rfl
  · rfl

/-- An object of these two members is an envelope. -/
theorem heads_of_means (means : t.Means (.object [("topic", .string topic), ("body", v)])) :
    Heads topic (fun body => body.Means v) t := by
  cases means with
  | object keys each =>
    obtain _ | ⟨first, _ | ⟨second, _ | _⟩⟩ := keys
    obtain _ | ⟨heading, _ | ⟨body, _ | _⟩⟩ := each
    refine heads_object first second ?_ body
    generalize Prod.snd _ = t at heading
    cases heading with
    | string spelling => exact .mk spelling

theorem Bears.carries (bears : Bears topic (fun body => body.Means v) raw) (some_ : v ≠ .null) :
    Carries raw ⟨some topic, some v⟩ := by
  obtain ⟨text, t, rfl, spells, fields, heading, body, listed, ht, named, hb, means⟩ := bears
  refine ⟨text, t, rfl, spells, fields, listed, ?_, ?_⟩
  · rw [ht]
    refine .value ?_ named
    rintro rfl
    cases named
  · rw [hb]
    refine .value ?_ means
    rintro rfl
    cases means
    exact some_ rfl

theorem Bears.mono {Body' : Tree → Prop} (bears : Bears topic Body raw)
    (weaker : ∀ t, Body t → Body' t) : Bears topic Body' raw := by
  obtain ⟨text, t, encoded, spells, fields, heading, body, listed, ht, named, hb, kind⟩ := bears
  exact ⟨text, t, encoded, spells, fields, heading, body, listed, ht, named, hb, weaker _ kind⟩

/-! ## Writing an envelope -/

/-- What a frame is decoded to that carries a text as its body. -/
inductive Relays (topic body : String) (receivedAt : Int) : Except DecodeFault Sample → Prop where
  | noTopic (empty : topic = "") : Relays topic body receivedAt (.error .noTopic)
  | malformedBody (named : topic ≠ "") (nothing : ∀ v : Value, ¬ v.Spells body.toList) :
      Relays topic body receivedAt (.error (.malformedBody topic))
  | sample {fields : Value} (named : topic ≠ "") (spells : fields.Spells body.toList) :
      Relays topic body receivedAt (.ok ⟨⟨topic⟩, (timestamp? fields).getD receivedAt, fields⟩)

theorem exists_relays (topic body : String) (receivedAt : Int) :
    ∃ result, Relays topic body receivedAt result := by
  by_cases named : topic = ""
  · exact ⟨_, .noTopic named⟩
  · cases read : Value.parse? body with
    | none =>
      refine ⟨_, .malformedBody named fun v spells => ?_⟩
      rw [Value.parse_eq_some_iff.mpr spells] at read
      cases read
    | some fields => exact ⟨_, .sample named (Value.parse_eq_some_iff.mp read)⟩

theorem Relays.yields {body : String} {receivedAt : Int} {result : Except DecodeFault Sample}
    (h : Relays topic body receivedAt result)
    (carries : Carries raw ⟨some topic, some (.string body)⟩) : Yields raw receivedAt result := by
  cases h with
  | noTopic empty => exact .noTopic carries (.inr (congrArg some empty))
  | malformedBody named nothing => exact .malformedBody carries named nothing
  | sample named spells => exact .sample carries named (.text spells)

/-- A written envelope carries its topic and its body, every character as it was. -/
theorem carries_encode (topic body : String) :
    ∃ payload, encode topic body = .text payload ∧
      Carries payload ⟨some topic, some (.string body)⟩ := by
  have writable : (Value.object [("topic", .string topic), ("body", .string body)]).Writable :=
    .object (by simp [Value.Writable.string])
  obtain ⟨t, spells, means⟩ := writable.spells
  refine ⟨_, rfl, Bears.carries ?_ (by simp)⟩
  refine ⟨_, t, ?_, spells, heads_of_means means⟩
  rw [toUTF8_eq_utf8Encode, Value.render, String.toList_ofList]

/-- **An envelope that is written is decoded to what went in.** For every topic and every body the
frame is written, and it carries both with every character as it was. It is decoded to the topic and
to the value that the body spells; an empty topic is a fault, and so is a body that spells no
value. -/
theorem encode_relays (topic body : String) (receivedAt : Int) :
    ∃ payload, encode topic body = .text payload ∧
      Carries payload ⟨some topic, some (.string body)⟩ ∧
        ∀ result, decode payload receivedAt = result ↔ Relays topic body receivedAt result := by
  obtain ⟨payload, written, carries⟩ := carries_encode topic body
  refine ⟨payload, written, carries, fun result => ?_⟩
  constructor
  · rintro rfl
    obtain ⟨result, relays⟩ := exists_relays topic body receivedAt
    rw [(relays.yields carries).decode_eq]
    exact relays
  · intro relays
    exact (relays.yields carries).decode_eq

/-! ## Both forms of a body -/

/-- A string between its quotes. -/
def quoted (raw : List Char) : List Char := '"' :: (raw ++ ['"'])

/-- The text of an envelope with these spellings of its keys and its topic, and with this text of its
body. -/
def objectText (key heading key' body : List Char) : List Char :=
  '\x7b' :: (quoted key ++ (':' :: (quoted heading ++ (',' ::
    (quoted key' ++ (':' :: (body ++ ['\x7d'])))))))

theorem bears_objectText {key heading key' text : List Char} {body : Tree}
    (first : Spelling "topic".toList key) (named : Spelling topic.toList heading)
    (second : Spelling "body".toList key') (spells : body.Spells text) (kind : Body body) :
    Bears topic Body (objectText key heading key' text).utf8Encode := by
  refine ⟨_, .object [(key, .string heading), (key', body)], rfl, ?_,
    heads_object first second (.mk named) kind⟩
  have ending := spells.append Lexeme.closeBrace.written
  have rear := Written.token (Lexeme.string second.loose) (ending.mark .colon)
  have middle := Written.token (Lexeme.string named.loose) (rear.mark .comma)
  have front := Written.token (Lexeme.string first.loose) (middle.mark .colon)
  simpa [Tree.Spells, Tree.tokens, Json.memberTokens, objectText, quoted] using front.mark .openBrace

variable {raw' : ByteArray}

theorem Inlines.carries (inlines : Inlines topic b raw) (spells : v.Spells b.toList)
    (noNull : v ≠ .null) : Carries raw ⟨some topic, some v⟩ := by
  obtain ⟨t, document, means⟩ := spells
  refine Bears.carries (inlines.mono fun body written => ?_) noNull
  have same := Tree.parse_eq_some_iff.mpr written
  rw [Tree.parse_eq_some_iff.mpr document] at same
  cases same
  exact means

theorem Quotes.carries (quotes : Quotes topic b raw) : Carries raw ⟨some topic, some (.string b)⟩ := by
  refine Bears.carries (quotes.mono fun body spoken => ?_) (by simp)
  cases spoken with
  | mk spelling => exact .string spelling

/-- **Both forms of a body are decoded alike.** Of a document that is neither a string nor `null`, an
envelope that holds it and an envelope that holds its text as a string give the same sample: the
topic, the value with all its members, and its time. It makes no difference how the two envelopes
are written; in particular the topic, the keys and the string may be spelled in any way. -/
theorem decode_inline_eq_quoted (named : topic ≠ "") (spells : v.Spells b.toList)
    (noString : ∀ s, v ≠ .string s) (noNull : v ≠ .null) (receivedAt : Int) :
    (∀ raw raw', Inlines topic b raw → Quotes topic b raw' →
      decode raw receivedAt = decode raw' receivedAt ∧
        decode raw receivedAt = .ok ⟨⟨topic⟩, (timestamp? v).getD receivedAt, v⟩) ∧
      ∀ key heading key' body, Spelling "topic".toList key → Spelling topic.toList heading →
        Spelling "body".toList key' → Spelling b.toList body →
          Inlines topic b (objectText key heading key' b.toList).utf8Encode ∧
            Quotes topic b (objectText key heading key' (quoted body)).utf8Encode := by
  constructor
  · intro raw raw' inlines quotes
    have inline : Yields raw receivedAt _ :=
      .sample (inlines.carries spells noNull) named (.inline noString)
    have text : Yields raw' receivedAt _ := .sample quotes.carries named (.text spells)
    exact ⟨inline.decode_eq.trans text.decode_eq.symm, inline.decode_eq⟩
  · intro key heading key' body first heads second written
    obtain ⟨t, document, -⟩ := spells
    have string : (Tree.string body).Spells (quoted body) := (Lexeme.string written.loose).written
    exact ⟨bears_objectText first heads second document document,
      bears_objectText first heads second string (.mk written)⟩

/-- A document with a repeated key, with numbers that are no whole ones and with an escape. -/
def repeating : String :=
  "\x7b\"timestamp\":1.9e3,\"a\":-0,\"\\u0061\":[18446744073709551616,null]\x7d"

/-- It is decoded alike from its own text and from its text as a string. -/
theorem decode_inline_eq_quoted_repeating :
    ∃ v, Value.parse? repeating = some v ∧
      decode (objectText "topic".toList "t".toList "body".toList repeating.toList).utf8Encode 5 =
        decode (objectText "topic".toList "t".toList "body".toList
          (quoted (escaped repeating))).utf8Encode 5 ∧
      decode (objectText "topic".toList "t".toList "body".toList repeating.toList).utf8Encode 5 =
        .ok ⟨⟨"t"⟩, 1900, v⟩ := by
  have timed : ((Value.parse? repeating).bind timestamp?) = some 1900 := by decide +kernel
  obtain ⟨v, hv, stamp⟩ := Option.bind_eq_some_iff.mp timed
  have noString : ∀ s, v ≠ .string s := by
    rintro s rfl
    cases stamp
  have noNull : v ≠ .null := by
    rintro rfl
    cases stamp
  have spelled : ∀ s : String, escaped s = s.toList → Spelling s.toList s.toList := by
    intro s plain
    have itself := spelling_escaped s
    rwa [plain] at itself
  have named : "t" ≠ "" := by decide
  obtain ⟨alike, written⟩ := decode_inline_eq_quoted named (Value.parse_eq_some_iff.mp hv)
    noString noNull 5
  obtain ⟨inlines, quotes⟩ := written _ _ _ _ (spelled "topic" (by decide))
    (spelled "t" (by decide)) (spelled "body" (by decide)) (spelling_escaped repeating)
  refine ⟨v, hv, ?_⟩
  have result := alike _ _ inlines quotes
  rwa [stamp] at result

end LiveMetrics.Envelope
