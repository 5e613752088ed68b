import LiveMetrics.Proofs.Bodies
import LiveMetrics.Proofs.Json.Amounts

/-!
# The time of a sample

The time that a payload gives is read off the document that a data frame conveys as its body
(`Envelope.Conveys`): what its first member of the name `timestamp` counts for, if that is a number,
and otherwise the time at which the frame was received (`Envelope.Timed`). `Envelope.decode_timed`
says so of every frame that is decoded. Numbers without point and exponent keep their order.
-/

set_option autoImplicit false

namespace LiveMetrics

open Json (Tree Value Numeral Token Record Spelling Lexeme escaped spelling_escaped scan_eq_some_iff
  unescape_eq_some_iff)

/-! ## First members -/

/-- The first member of a name. -/
inductive Json.First (name : String) : List (List Char × Tree) → Tree → Prop where
  | here {raw : List Char} {t : Tree} {rest : List (List Char × Tree)}
      (key : Spelling name.toList raw) : First name ((raw, t) :: rest) t
  | later {m : List Char × Tree} {t : Tree} {rest : List (List Char × Tree)}
      (other : ¬ Spelling name.toList m.1) (onward : First name rest t) : First name (m :: rest) t

open Json (First)

section First

variable {name : String} {members : List (List Char × Tree)} {t t' : Tree}

theorem Json.First.unique (h : First name members t) (h' : First name members t') : t = t' := by
  induction h with
  | here key =>
    cases h' with
    | here _ => rfl
    | later other _ => exact absurd key other
  | later other _ ih =>
    cases h' with
    | here key => exact absurd key other
    | later _ onward => exact ih onward

theorem Json.First.mem (h : First name members t) :
    ∃ raw, (raw, t) ∈ members ∧ Spelling name.toList raw := by
  induction h with
  | here key => exact ⟨_, List.mem_cons_self, key⟩
  | later _ _ ih =>
    obtain ⟨raw, there, key⟩ := ih
    exact ⟨raw, List.mem_cons_of_mem _ there, key⟩

/-- What is found under a name is the value of the first member of that name. -/
theorem Json.first_or_absent (name : String) {values : List (String × Value)}
    (keys : List.Forall₂ (fun m v => Spelling v.1.toList m.1) members values)
    (each : List.Forall₂ (fun m v => m.2.Means v.2) members values) :
    (∃ t v, First name members t ∧ values.lookup name = some v ∧ t.Means v) ∨
      (∀ m ∈ members, ¬ Spelling name.toList m.1) ∧ values.lookup name = none := by
  induction keys with
  | nil => exact .inr ⟨List.forall_mem_nil _, rfl⟩
  | @cons m v members values key _ ih =>
    cases each with
    | cons first onward =>
      rw [Keyed.lookup_cons]
      by_cases mine : name = v.1
      · rw [if_pos mine]
        exact .inl ⟨m.2, v.2, .here (mine ▸ key), rfl, first⟩
      · have other : ¬ Spelling name.toList m.1 := by
          intro too
          have read := unescape_eq_some_iff.mpr too
          rw [unescape_eq_some_iff.mpr key] at read
          exact mine (Option.some.inj read).symm
        rw [if_neg mine]
        rcases ih onward with ⟨t, w, here, found, means⟩ | ⟨absent, nothing⟩
        · exact .inl ⟨t, w, .later other here, found, means⟩
        · exact .inr ⟨List.forall_mem_cons.mpr ⟨other, absent⟩, nothing⟩

end First

namespace Envelope

/-! ## The document that a frame conveys -/

/-- The document that a frame conveys as its body: the body itself, or what a string as the body
spells. -/
inductive Conveys (raw : ByteArray) (t : Tree) : Prop where
  | inline {topic : String} (bears : Bears topic (fun body => body = t) raw)
      (other : ∀ word, t ≠ .string word) : Conveys raw t
  | text {topic b : String} (quotes : Quotes topic b raw) (spells : t.Spells b.toList) :
      Conveys raw t

variable {raw raw' : ByteArray} {t t' : Tree}

/-- The body of an envelope is one and the same, whatever is said of it. -/
theorem Bears.both {topic topic' : String} {Body Body' : Tree → Prop} (h : Bears topic Body raw)
    (h' : Bears topic' Body' raw) : ∃ body, Body body ∧ Body' body := by
  obtain ⟨text, t, encoded, spells, fields, _, body, listed, -, -, found, kind⟩ := h
  obtain ⟨text', t', encoded', spells', fields', _, body', listed', -, -, found', kind'⟩ := h'
  have decoded : String.fromUTF8? raw = some (String.ofList text) := by
    rw [fromUTF8_eq_some_iff, String.toList_ofList, encoded]
  have decoded' : String.fromUTF8? raw = some (String.ofList text') := by
    rw [fromUTF8_eq_some_iff, String.toList_ofList, encoded']
  have texts : text = text' := by
    rw [decoded] at decoded'
    exact String.ofList_injective (Option.some.inj decoded')
  have trees : t = t' := by
    have read := Tree.parse_eq_some_iff.mpr spells
    rw [texts, Tree.parse_eq_some_iff.mpr spells'] at read
    exact (Option.some.inj read).symm
  have records : fields = fields' := by
    have read := Record.ofTree_eq_some_iff (r := ⟨fields⟩) |>.mpr listed
    have read' := Record.ofTree_eq_some_iff (r := ⟨fields'⟩) |>.mpr listed'
    rw [trees, read'] at read
    exact (congrArg Record.fields (Option.some.inj read)).symm
  rw [records, found'] at found
  cases found
  exact ⟨body, kind, kind'⟩

theorem Conveys.unique (h : Conveys raw t) (h' : Conveys raw t') : t = t' := by
  cases h with
  | inline bears other =>
    cases h' with
    | inline bears' _ =>
      obtain ⟨body, rfl, rfl⟩ := bears.both bears'
      rfl
    | text quotes _ =>
      obtain ⟨body, rfl, spoken⟩ := bears.both quotes
      cases spoken
      exact absurd rfl (other _)
  | text quotes spells =>
    cases h' with
    | inline bears' other =>
      obtain ⟨body, spoken, rfl⟩ := quotes.both bears'
      cases spoken
      exact absurd rfl (other _)
    | text quotes' spells' =>
      obtain ⟨body, spoken, spoken'⟩ := quotes.both quotes'
      have same := Tree.text_eq_some_iff.mpr spoken
      rw [Tree.text_eq_some_iff.mpr spoken'] at same
      cases same
      have read := Tree.parse_eq_some_iff.mpr spells
      rw [Tree.parse_eq_some_iff.mpr spells'] at read
      exact (Option.some.inj read).symm

/-- A part that is there and means something. -/
theorem exists_of_optionally {α : Type} {Reads : Tree → α → Prop} {part : Option Tree} {a : α}
    (h : Json.Optionally Reads part (some a)) : ∃ t, part = some t ∧ Reads t a := by
  cases h with
  | value _ reads => exact ⟨_, rfl, reads⟩

/-- What an envelope carries is what it conveys, and its numbers are proper. -/
theorem Carries.exists_conveys {topic : String} {body fields : Value}
    (carries : Carries raw ⟨some topic, some body⟩) (stands : StandsFor body fields) :
    ∃ t, Conveys raw t ∧ t.Means fields ∧ ∀ n, Token.number n ∈ t.tokens → n.Proper := by
  obtain ⟨text, whole, encoded, spells, parts, listed, heading, content⟩ := carries
  obtain ⟨h, ht, spoken⟩ := exists_of_optionally heading
  obtain ⟨b, hb, means⟩ := exists_of_optionally content
  have bears {Body : Tree → Prop} (kind : Body b) : Bears topic Body raw :=
    ⟨text, whole, encoded, spells, parts, h, b, listed, ht, spoken, hb, kind⟩
  cases stands with
  | inline other =>
    refine ⟨b, .inline (bears rfl) ?_, means, fun n there => ?_⟩
    · rintro word rfl
      cases means
      exact other _ rfl
    · exact spells.proper (listed.tokens_subset hb there)
  | @text inner _ spelled =>
    obtain ⟨t, document, meaning⟩ := spelled
    cases means with
    | string spelling =>
      have quotes : Quotes topic inner raw := bears (.mk spelling)
      exact ⟨t, .text quotes document, meaning, fun n there => document.proper there⟩

/-! ## The time that it gives -/

/-- The time of a sample with this document as its payload. -/
inductive Timed (receivedAt : Int) : Tree → Int → Prop where
  | given {members : List (List Char × Tree)} {n : Numeral} {time : Int}
      (first : First "timestamp" members (.number n)) (counts : n.CountsAs time) :
      Timed receivedAt (.object members) time
  | unusable {members : List (List Char × Tree)} {t : Tree} (first : First "timestamp" members t)
      (other : ∀ n, t ≠ .number n) : Timed receivedAt (.object members) receivedAt
  | missing {members : List (List Char × Tree)}
      (absent : ∀ m ∈ members, ¬ Spelling "timestamp".toList m.1) :
      Timed receivedAt (.object members) receivedAt
  | noObject {t : Tree} (other : ∀ members, t ≠ .object members) : Timed receivedAt t receivedAt

theorem int64_of_other {v : Value} (means : t.Means v) (other : ∀ n, t ≠ .number n) :
    v.int64? = none := by
  cases means with
  | whole _ _ => exact absurd rfl (other _)
  | rounded _ _ => exact absurd rfl (other _)
  | _ => rfl

theorem timed_of_means {fields : Value} (means : t.Means fields)
    (proper : ∀ n, Token.number n ∈ t.tokens → n.Proper) (receivedAt : Int) :
    Timed receivedAt t ((timestamp? fields).getD receivedAt) := by
  cases means with
  | @object members values keys each =>
    have found : timestamp? (.object values) = (values.lookup "timestamp").bind Value.int64? := rfl
    rw [found]
    rcases Json.first_or_absent "timestamp" keys each with ⟨t, v, first, hv, means⟩ | ⟨absent, hv⟩
    · rw [hv, Option.bind_some]
      by_cases number : ∃ n, t = .number n
      · obtain ⟨n, rfl⟩ := number
        obtain ⟨raw, there, -⟩ := first.mem
        have inside := Json.tokens_subset_memberTokens there (List.mem_singleton_self _)
        have sound : n.Proper := proper n (by simp [Tree.tokens, inside])
        obtain ⟨time, ht, counts⟩ := Value.int64_of_means sound means
        rw [ht]
        exact .given first counts
      · have other : ∀ n, t ≠ .number n := fun n he => number ⟨n, he⟩
        rw [int64_of_other means other]
        exact .unusable first other
    · rw [hv]
      exact .missing absent
  | _ => exact .noObject (by rintro _ ⟨⟩)

/-- The payload of a frame gives this number as its time. -/
def Stamped (raw : ByteArray) (n : Numeral) : Prop :=
  ∃ members, Conveys raw (.object members) ∧ First "timestamp" members (.number n)

/-- A frame gives the time of an object that is its body, and of one that a string as its body
spells, however the frame is written. -/
theorem stamped_objectText {topic text : String} {key heading key' : List Char}
    {members : List (List Char × Tree)} {n : Numeral} (first : Spelling "topic".toList key)
    (named : Spelling topic.toList heading) (second : Spelling "body".toList key')
    (document : (Tree.object members).Spells text.toList)
    (stamp : First "timestamp" members (.number n)) :
    Stamped (objectText key heading key' text.toList).utf8Encode n ∧
      Stamped (objectText key heading key' (quoted (escaped text))).utf8Encode n := by
  have written := spelling_escaped text
  have string : (Tree.string (escaped text)).Spells (quoted (escaped text)) :=
    (Lexeme.string written.loose).written
  have inline : Bears topic (fun body => body = .object members)
      (objectText key heading key' text.toList).utf8Encode :=
    bears_objectText first named second document rfl
  have quotes :
      Quotes topic text (objectText key heading key' (quoted (escaped text))).utf8Encode :=
    bears_objectText first named second string (.mk written)
  exact ⟨⟨members, .inline inline (by rintro _ ⟨⟩), stamp⟩, ⟨members, .text quotes document, stamp⟩⟩

theorem Timed.counts {receivedAt time : Int} {members : List (List Char × Tree)} {n : Numeral}
    (h : Timed receivedAt (.object members) time) (first : First "timestamp" members (.number n)) :
    n.CountsAs time := by
  cases h with
  | given first' counts =>
    cases first.unique first'
    exact counts
  | unusable first' other => exact absurd (first.unique first').symm (other n)
  | missing absent =>
    obtain ⟨raw, there, key⟩ := first.mem
    exact absurd key (absent _ there)
  | noObject other => exact absurd rfl (other members)

/-- The document that a frame conveys and that is decoded tells the time of the sample. -/
theorem exists_timed {raw : ByteArray} {receivedAt : Int} {sample : Sample}
    (accepted : decode raw receivedAt = .ok sample) :
    ∃ t, Conveys raw t ∧ t.Means sample.fields ∧ Timed receivedAt t sample.timestamp := by
  have yields := yields_decode raw receivedAt
  rw [accepted] at yields
  cases yields with
  | sample carries _ stands =>
    obtain ⟨t, conveys, means, proper⟩ := carries.exists_conveys stands
    exact ⟨t, conveys, means, timed_of_means means proper receivedAt⟩

/-- **The time of a sample.** A data frame that is decoded conveys one document, which means the
fields of the sample. If that is an object whose first member of the name `timestamp` is a number,
the time is what the number counts for: the number itself, clamped to 64 bits, if it has neither
point nor exponent, and the whole part of the nearest double, clamped, if it has. In every other case
the time is the one at which the frame was received.

Of two frames whose numbers have neither point nor exponent the smaller number never gives the later
time. -/
theorem decode_timed {raw : ByteArray} {receivedAt : Int} {sample : Sample}
    (accepted : decode raw receivedAt = .ok sample) :
    (∃ t, Conveys raw t ∧ (∀ t', Conveys raw t' → t' = t) ∧ t.Means sample.fields ∧
      Timed receivedAt t sample.timestamp) ∧
    ∀ raw' receivedAt' sample', decode raw' receivedAt' = .ok sample' →
      ∀ n n' : Numeral, Stamped raw n → Stamped raw' n' → n.plain = true → n'.plain = true →
        n.value ≤ n'.value → sample.timestamp ≤ sample'.timestamp := by
  have stamped {raw : ByteArray} {receivedAt : Int} {sample : Sample}
      (accepted : decode raw receivedAt = .ok sample) {n : Numeral} (h : Stamped raw n) :
      n.CountsAs sample.timestamp := by
    obtain ⟨t, conveys, -, timed⟩ := exists_timed accepted
    obtain ⟨members, document, first⟩ := h
    rw [conveys.unique document] at timed
    exact timed.counts first
  constructor
  · obtain ⟨t, conveys, means, timed⟩ := exists_timed accepted
    exact ⟨t, conveys, fun t' conveys' => conveys'.unique conveys, means, timed⟩
  · intro raw' receivedAt' sample' accepted' n n' h h' plain plain' le
    exact (stamped accepted h).mono (stamped accepted' h') plain plain' le

/-- A frame with a document as its body whose time is below 64 bits. -/
def early : ByteArray :=
  "\x7b\"topic\":\"t\",\"body\":\x7b\"timestamp\":-9223372036854775809\x7d\x7d".toUTF8

/-- A frame with a string as its body whose first time is above 64 bits. -/
def late : ByteArray :=
  ("\x7b\"topic\":\"t\",\"body\":\"\x7b\\\"timestamp\\\":18446744073709551617," ++
    "\\\"timestamp\\\":0\x7d\"\x7d").toUTF8

/-- Both are decoded, each to the end of the 64 bits that it is beyond, in their order. -/
theorem decode_timed_beyond : ∃ sample sample',
    decode early 5 = .ok sample ∧ decode late 5 = .ok sample' ∧
      sample.timestamp = -2 ^ 63 ∧ sample'.timestamp = 2 ^ 63 - 1 ∧
        (∃ t, Conveys early t ∧ (∀ t', Conveys early t' → t' = t) ∧ t.Means sample.fields ∧
          Timed 5 t sample.timestamp) ∧ sample.timestamp ≤ sample'.timestamp := by
  have first : (decode early 5).toOption.map Sample.timestamp = some (-2 ^ 63) := by decide +kernel
  have second : (decode late 5).toOption.map Sample.timestamp = some (2 ^ 63 - 1) := by
    decide +kernel
  obtain ⟨sample, accepted, time⟩ := Option.map_eq_some_iff.mp first
  obtain ⟨sample', accepted', time'⟩ := Option.map_eq_some_iff.mp second
  have decoded {raw : ByteArray} {sample : Sample} (h : (decode raw 5).toOption = some sample) :
      decode raw 5 = .ok sample := by
    cases he : decode raw 5 with
    | error _ => rw [he] at h; cases h
    | ok _ => rw [he] at h; cases h; rfl
  have plainly : ∀ s : String, escaped s = s.toList → Spelling s.toList s.toList := by
    intro s plain
    have itself := spelling_escaped s
    rwa [plain] at itself
  have stamped {text : String} {members : List (List Char × Tree)} {n : Numeral}
      (document : (Tree.object members).Spells text.toList)
      (stamp : First "timestamp" members (.number n)) :=
    stamped_objectText (plainly "topic" (by decide)) (plainly "t" (by decide))
      (plainly "body" (by decide)) document stamp
  have key := plainly "timestamp" (by decide)
  have number : Stamped early ⟨true, 9223372036854775809, 0, 0, true⟩ := by
    have document : (Tree.object [("timestamp".toList,
        .number ⟨true, 9223372036854775809, 0, 0, true⟩)]).Spells
          "\x7b\"timestamp\":-9223372036854775809\x7d".toList :=
      (scan_eq_some_iff (Tree.separate_tokens _)).mp (by decide +kernel)
    have given := (stamped document (.here key)).1
    rw [early, toUTF8_eq_utf8Encode]
    convert given using 2
    decide +kernel
  have number' : Stamped late ⟨false, 18446744073709551617, 0, 0, true⟩ := by
    have document : (Tree.object [("timestamp".toList,
        .number ⟨false, 18446744073709551617, 0, 0, true⟩),
          ("timestamp".toList, .number ⟨false, 0, 0, 0, true⟩)]).Spells
          "\x7b\"timestamp\":18446744073709551617,\"timestamp\":0\x7d".toList :=
      (scan_eq_some_iff (Tree.separate_tokens _)).mp (by decide +kernel)
    have given := (stamped document (.here key)).2
    rw [late, toUTF8_eq_utf8Encode]
    convert given using 2
    decide +kernel
  obtain ⟨timed, ordered⟩ := decode_timed (decoded accepted)
  refine ⟨sample, sample', decoded accepted, decoded accepted', time, time', timed, ?_⟩
  refine ordered late 5 sample' (decoded accepted') _ _ number number' rfl rfl ?_
  norm_num [Numeral.value, Double.sign]

end Envelope

end LiveMetrics
